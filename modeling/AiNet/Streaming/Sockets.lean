import AiNet.Core.Transition

/-!
# Counting the sockets of an address

`onUpgrade` counts a socket before its handshake, and `cleanup` takes the count back, both when the socket closes and
when it fails. So a handshake that fails leaves a count behind, and a socket that fails takes back two. Where neither
happens, the count of an address is the number of its open sockets.
-/

namespace AiNet.Streaming.Sockets

open Core List Function Option System

variable {κ : Type} [DecidableEq κ]

/-- `WS_MAX_CONNECTIONS_PER_CLIENT`, which the configuration takes only if it is positive. -/
structure Config where
  maxConnections : Nat
  positive : 0 < maxConnections

def trackConnection (config : Config) (clientConnections : κ → Option Int) (ip : κ) : (κ → Option Int) × Bool :=
  let count := (clientConnections ip).getD 0
  if config.maxConnections ≤ count then (update clientConnections ip (some count), false)
  else (update clientConnections ip (some (count + 1)), true)

def releaseConnection (clientConnections : κ → Option Int) (ip : κ) : κ → Option Int :=
  match clientConnections ip with
  | none => clientConnections
  | some count => update clientConnections ip (if count - 1 ≤ 0 then none else some (count - 1))

/-- The trackers, and the addresses of the sockets that are open. -/
structure Server (κ : Type) where
  clientConnections : κ → Option Int
  sockets : List κ

/-- What comes of an upgrade that is let through: `handleUpgrade` fails and never calls back, `getTask` finds nothing,
or the socket is open. -/
inductive Upgrade where
  | handshakeFailed
  | taskNotFound
  | opened
  deriving DecidableEq

inductive Event (κ : Type) where
  | upgrade (ip : κ) (result : Upgrade)
  | error (ip : κ)
  | close (ip : κ)

def Server.upgraded (s : Server κ) (ip : κ) : Upgrade → Server κ
  | .handshakeFailed => s
  | .taskNotFound => { s with clientConnections := releaseConnection s.clientConnections ip }
  | .opened => { s with sockets := ip :: s.sockets }

def step (config : Config) (s : Server κ) : Event κ → Option (Server κ)
  | .upgrade ip result =>
    let tracked := trackConnection config s.clientConnections ip
    let s' := { s with clientConnections := tracked.1 }
    some (if tracked.2 then s'.upgraded ip result else s')
  | .error ip =>
    if ip ∈ s.sockets then some { s with clientConnections := releaseConnection s.clientConnections ip } else none
  | .close ip =>
    if ip ∈ s.sockets then some ⟨releaseConnection s.clientConnections ip, s.sockets.erase ip⟩ else none

def system (config : Config) : System (Server κ) (Event κ) where
  start s := s = ⟨fun _ => none, []⟩
  step := step config

variable {config : Config}

/-- No handshake fails that was let through, and no socket fails. -/
def Healthy (config : Config) (s : Server κ) : Event κ → Prop
  | .upgrade ip result => (trackConnection config s.clientConnections ip).2 = true → result ≠ .handshakeFailed
  | .error _ => False
  | .close _ => True

instance (s : Server κ) : (e : Event κ) → Decidable (Healthy config s e)
  | .upgrade _ _ => inferInstanceAs (Decidable (_ → _))
  | .error _ => .isFalse id
  | .close _ => .isTrue trivial

/-- The count of every address is the number of its sockets, and at most the limit. -/
def Server.Counted (config : Config) (s : Server κ) : Prop :=
  ∀ ip, (s.clientConnections ip).getD 0 = s.sockets.count ip ∧ s.sockets.count ip ≤ config.maxConnections

theorem track_iff (clientConnections : κ → Option Int) (ip : κ) :
    (trackConnection config clientConnections ip).2 = true ↔ (clientConnections ip).getD 0 < config.maxConnections := by
  unfold trackConnection
  dsimp only
  split
  · rename_i hfl
    simpa using hfl
  · rename_i hfr
    simpa using hfr

theorem count_track (clientConnections : κ → Option Int) (ip a : κ) :
    ((trackConnection config clientConnections ip).1 a).getD 0 = (clientConnections a).getD 0 +
      if a = ip ∧ (trackConnection config clientConnections ip).2 = true then 1 else 0 := by
  unfold trackConnection
  dsimp only
  by_cases ha : a = ip
  · subst ha
    split <;> simp
  · split <;> simp [ha]

theorem count_release {clientConnections : κ → Option Int} {ip : κ} (h : 0 < (clientConnections ip).getD 0) (a : κ) :
    (releaseConnection clientConnections ip a).getD 0 =
      (clientConnections a).getD 0 - if a = ip then 1 else 0 := by
  unfold releaseConnection
  cases hip : clientConnections ip with
  | none =>
    rw [hip] at h
    cases h
  | some count =>
    rw [hip] at h
    have hpos : 0 < count := h
    by_cases ha : a = ip
    · subst ha
      rw [hip, if_pos rfl]
      dsimp only
      rw [update_self]
      split
      · simp only [getD_none, getD_some]
        omega
      · rfl
    · simp [ha]

theorem counted_step {s s' : Server κ} {e : Event κ} (h : s.Counted config) (hg : Healthy config s e)
    (hs : step config s e = some s') : s'.Counted config := by
  cases e with
  | upgrade ip result =>
    cases hs
    intro a
    obtain ⟨ha, hle⟩ := h a
    have hcount := @count_track _ _ config s.clientConnections ip
    cases hfree : (trackConnection config s.clientConnections ip).2 with
    | false =>
      simp only [hfree, Bool.false_eq_true, and_false, if_false, Int.add_zero] at hcount ⊢
      exact ⟨(hcount a).trans ha, hle⟩
    | true =>
      have hlt := (track_iff s.clientConnections ip).mp hfree
      rw [(h ip).1] at hlt
      simp only [hfree, and_true, if_true] at hcount ⊢
      cases result with
      | handshakeFailed => exact absurd rfl (hg hfree)
      | taskNotFound =>
        have hpos : 0 < ((trackConnection config s.clientConnections ip).1 ip).getD 0 := by
          rw [hcount, (h ip).1, if_pos rfl]
          omega
        refine ⟨?_, hle⟩
        dsimp only [Server.upgraded]
        rw [count_release hpos, hcount, ha]
        omega
      | opened =>
        dsimp only [Server.upgraded]
        rw [hcount, ha, count_cons]
        by_cases hself : a = ip
        · subst hself
          simp only [if_true, beq_self_eq_true]
          omega
        · rw [if_neg hself, if_neg (by simpa using Ne.symm hself)]
          exact ⟨Int.add_zero _, hle⟩
  | error => exact hg.elim
  | close ip =>
    obtain ⟨hmem, hs⟩ := ite_none_right_eq_some.mp hs
    cases hs
    intro a
    obtain ⟨ha, hle⟩ := h a
    have hone := count_pos_iff.mpr hmem
    have hpos : 0 < (s.clientConnections ip).getD 0 := by
      rw [(h ip).1]
      omega
    dsimp only
    rw [count_release hpos, ha]
    by_cases hself : a = ip
    · subst hself
      rw [if_pos rfl, count_erase_self]
      omega
    · rw [if_neg hself, count_erase_of_ne hself]
      exact ⟨Int.sub_zero _, hle⟩

/--
**The count of an address is the number of its open sockets.** So no address has more than the limit, and an upgrade is
refused only to an address that has as many; one that has none is let through.
-/
theorem counts_sockets {s : Server κ} (h : (system config).Reachable (Healthy config) s) (ip : κ) :
    (s.clientConnections ip).getD 0 = s.sockets.count ip ∧ s.sockets.count ip ≤ config.maxConnections ∧
      ((trackConnection config s.clientConnections ip).2 = false ↔ s.sockets.count ip = config.maxConnections) ∧
      (s.sockets.count ip = 0 → (trackConnection config s.clientConnections ip).2 = true) := by
  have hI : s.Counted config := by
    refine h.invariant ?_ fun s e s' _ hg hI hs => counted_step hI hg hs
    rintro _ rfl ip
    exact ⟨rfl, Nat.zero_le _⟩
  obtain ⟨hcnt, hle⟩ := hI ip
  have htra := @track_iff _ _ config s.clientConnections ip
  have hpos := config.positive
  rw [hcnt] at htra
  refine ⟨hcnt, hle, ?_, fun hno => htra.mpr (by omega)⟩
  rw [← Bool.not_eq_true, htra]
  omega

/-- Two sockets of an address. -/
def two : Config := ⟨2, by decide⟩

/-- A task that is not known, a socket, and another one after it has closed. -/
theorem counts_sockets_one : ∃ s : Server Nat, (system two).Reachable (Healthy two) s ∧ s.sockets = [0] ∧
    (s.clientConnections 0).getD 0 = s.sockets.count 0 := by
  have hpl : (play (system two) (Healthy two) [.upgrade 0 .taskNotFound, .upgrade 0 .opened, .close 0,
      .upgrade 0 .opened] ⟨fun _ => none, []⟩).any (fun s => decide (s.sockets = [0])) = true := by
    decide
  obtain ⟨s, hs, hsock⟩ := exists_reachable rfl hpl
  exact ⟨s, hs, hsock, (counts_sockets hs 0).1⟩

/-- A socket that fails and has closed is taken back twice, so three sockets are open; and where the handshakes of two
other upgrades fail, an address that has no socket is refused. -/
theorem sockets_miscounted : ∃ s : Server Nat, (system two).Reachable (fun _ _ => True) s ∧
    s.sockets.count 0 = 3 ∧ s.sockets.count 1 = 0 ∧ (trackConnection two s.clientConnections 1).2 = false := by
  have hpl : (play (system two) (fun _ _ => True) [.upgrade 0 .opened, .upgrade 0 .opened, .error 0, .close 0,
      .upgrade 0 .opened, .upgrade 0 .opened, .upgrade 1 .handshakeFailed, .upgrade 1 .handshakeFailed]
      ⟨fun _ => none, []⟩).any (fun s => decide (s.sockets.count 0 = 3 ∧ s.sockets.count 1 = 0 ∧
        (trackConnection two s.clientConnections 1).2 = false)) = true := by
    decide
  exact exists_reachable rfl hpl

end AiNet.Streaming.Sockets
