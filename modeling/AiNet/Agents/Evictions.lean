import AiNet.Agents.Quarantine

/-!
# Silent agents go

An agent that is silent when a tick begins is marked, and the mark stays while it is not heard. A tick
that begins a grace period later deletes it before it is done: it either is deleted already or stands
among those the tick still has to go through.
-/

namespace AiNet.Agents.Watchdog

open Core List Option System UniqueTable

variable {o : WatchdogOptions} {s s' : State} {e : Event} {a : Text} {row row' : AgentRow}
  {log : List (State × Event)}

/-! ## Going through the list -/

/-- **An agent that is due is deleted, or its turn is still to come.** -/
theorem settle_due {t : Nat} {agents : List AgentRow} {db : AgentDb} (hmem : ∃ x ∈ agents, x.id = a)
    (hsil : ∀ x ∈ agents, x.id = a → o.intervalMs < t - x.lastSeenAt)
    (hdue : ∀ row, db.find a = some row → ∃ m, row.staleSince = some m ∧ o.graceMs ≤ t - m) :
    (settle o t agents db).1.find a = none ∨ ∃ agent rest,
      (settle o t agents db).2 = .awaiting t agent rest ∧ ∃ x ∈ agent :: rest, x.id = a := by
  induction agents generalizing db with
  | nil =>
    obtain ⟨x, hx, _⟩ := hmem
    cases hx
  | cons agent agents ih =>
    have hltr : ∀ x ∈ agents, x.id = a → o.intervalMs < t - x.lastSeenAt :=
      fun x hx => hsil x (mem_cons_of_mem _ hx)
    have hvdt := of_verdict o t db agent
    by_cases hkey : agent.id = a
    · -- it is the agent's turn
      have hsf := hsil agent (mem_cons_self ..) hkey
      unfold settle
      cases hv : verdict o t db agent with
      | clearedConcurrently =>
        rw [hv, hkey] at hvdt
        have hgn : db.find a = none := by
          cases hfi : db.find a with
          | none => rfl
          | some row =>
            obtain ⟨m, hm, _⟩ := hdue row hfi
            rw [getStaleSince_of_find hfi, hm] at hvdt
            cases hvdt
        have hchd := settle_changed o t a agents db
        rw [hgn] at hchd
        exact .inl hchd.of_deleted
      | recovered =>
        rw [hv] at hvdt
        have hfr := hvdt.2
        omega
      | insideGrace =>
        rw [hv, hkey] at hvdt
        obtain ⟨_, m, hm, hin⟩ := hvdt
        obtain ⟨row, hrow, hmk⟩ := find_of_getStaleSince hm
        obtain ⟨m', hm', hgrc⟩ := hdue row hrow
        cases hmk.symm.trans hm'
        omega
      | evict =>
        simp only
        split
        · exact .inr ⟨agent, agents, rfl, agent, mem_cons_self .., hkey⟩
        · have hchd := settle_changed o t a agents (delete db agent.id)
          rw [find_delete, if_pos hkey] at hchd
          exact .inl hchd.of_deleted
    · have hrst : ∃ x ∈ agents, x.id = a := by
        obtain ⟨x, hx, hid⟩ := hmem
        rcases mem_cons.mp hx with rfl | hx
        · exact absurd hid hkey
        · exact ⟨x, hx, hid⟩
      unfold settle
      cases hv : verdict o t db agent with
      | clearedConcurrently | insideGrace => exact ih hrst hltr hdue
      | recovered =>
        refine ih hrst hltr fun row hrow => hdue row ?_
        rw [find_clearStale, if_neg hkey] at hrow
        exact hrow
      | evict =>
        simp only
        split
        · obtain ⟨x, hx, hid⟩ := hrst
          exact .inr ⟨agent, agents, rfl, x, mem_cons_of_mem _ hx, hid⟩
        · refine ih hrst hltr fun row hrow => hdue row ?_
          rw [find_delete, if_neg hkey] at hrow
          exact hrow

/-! ## A silent agent stays marked -/

/-- Every tick under way that still has the agent before it has read it as silent. -/
def ReadSilent (o : WatchdogOptions) (a : Text) (s : State) : Prop :=
  ∀ t agent rest, .awaiting t agent rest ∈ s.ticks → ∀ x ∈ rest, x.id = a → o.intervalMs < t - x.lastSeenAt

/-- The agent was last seen at `seen`, is marked since `m` or before, and nobody will recover it. -/
structure Doomed (o : WatchdogOptions) (a : Text) (seen m : Nat) (s : State) : Prop where
  row : ∀ row, s.db.find a = some row → row.lastSeenAt = seen ∧ ∃ m' ≤ m, row.staleSince = some m'
  read : ReadSilent o a s
  silent : seen + o.intervalMs < s.clock

theorem snapshot_silent {agent : AgentRow}
    (hrow : ∀ row, s.db.find a = some row → row.lastSeenAt + o.intervalMs < s.clock)
    (hmem : agent ∈ listStaleAgents (detect o s.clock s.db)) (hkey : agent.id = a) :
    o.intervalMs < s.clock - agent.lastSeenAt := by
  have hfi : (detect o s.clock s.db).find a = some agent :=
    find_eq_some.mpr ⟨(mem_listStaleAgents.mp hmem).1, hkey⟩
  rw [find_detect] at hfi
  obtain ⟨row, hrow', rfl⟩ := map_eq_some_iff.mp hfi
  have hsil := hrow row hrow'
  rw [marked_lastSeenAt]
  omega

theorem ReadSilent.settle {agents rest : List AgentRow} {t t' : Nat} {agent : AgentRow} {db : AgentDb}
    (h : ∀ x ∈ agents, x.id = a → o.intervalMs < t - x.lastSeenAt)
    (hrun : .awaiting t' agent rest = (settle o t agents db).2) :
    ∀ x ∈ rest, x.id = a → o.intervalMs < t' - x.lastSeenAt := by
  have hpa : Watchdog.settle o t agents db = (_, .awaiting t' agent rest) := Prod.ext rfl hrun.symm
  obtain ⟨rfl, _, hsfx⟩ := settle_awaiting hpa
  intro x hx
  exact h x (hsfx.subset (mem_cons_of_mem _ hx))

theorem ReadSilent.tick (hrd : ReadSilent o a s)
    (hrow : ∀ row, s.db.find a = some row → row.lastSeenAt + o.intervalMs < s.clock)
    (h : (watchdog o).step s .tick = some s') : ReadSilent o a s' := by
  have heq := of_step h
  simp only at heq
  rw [heq]
  intro t agent rest hmem
  rcases mem_append.mp hmem with hmem | hmem
  · exact hrd t agent rest hmem
  · exact ReadSilent.settle (fun x hx => snapshot_silent hrow hx) (mem_singleton.mp hmem)

theorem unchanged_of_silent {agents : List AgentRow} {t : Nat} {found : Option AgentRow}
    (hsil : ∀ x ∈ agents, x.id = a → o.intervalMs < t - x.lastSeenAt)
    (h : Changed o t agents a found (some row')) : found = some row' := by
  cases h with
  | same => rfl
  | cleared hmem hkey =>
    have hlt := hsil _ hmem hkey
    omega

/-- **A tick marks the agent that is silent when it begins.** -/
theorem Doomed.of_tick (hS : Sound o s) (hfi : s.db.find a = some row)
    (hsil : row.lastSeenAt + o.intervalMs < s.clock) (hrd : ReadSilent o a s)
    (h : (watchdog o).step s .tick = some s') : Doomed o a row.lastSeenAt s.clock s' := by
  have hrow : ∀ row', s.db.find a = some row' → row'.lastSeenAt + o.intervalMs < s.clock := by
    intro row' hrow'
    cases hfi.symm.trans hrow'
    exact hsil
  have heq := of_step h
  simp only at heq
  have hclk : s'.clock = s.clock := by rw [heq]
  refine ⟨fun row' hrow' => ?_, hrd.tick hrow h, by rw [hclk]; exact hsil⟩
  have hchd := row_tick h a
  rw [hfi, hrow', map_some] at hchd
  have hmkd := unchanged_of_silent (fun x hx => snapshot_silent hrow hx) hchd
  rw [← some.inj hmkd]
  refine ⟨marked_lastSeenAt o s.clock row, ?_⟩
  have hsnd := hS.rows a row hfi
  cases hsle : row.staleSince with
  | some m =>
    rw [marked_of_marked (by rw [hsle]; rfl)]
    exact ⟨m, (hsnd.mark m hsle).1, hsle⟩
  | none =>
    rw [marked, if_pos ⟨hsnd.online hsle, by omega, hsle⟩]
    exact ⟨s.clock, Nat.le_refl _, rfl⟩

theorem Doomed.step {seen m : Nat} (hD : Doomed o a seen m s) (hhrs : e.hears ≠ some a)
    (h : (watchdog o).step s e = some s') : Doomed o a seen m s' := by
  have hrow : ∀ row, s.db.find a = some row → row.lastSeenAt + o.intervalMs < s.clock := by
    intro row hfi
    rw [(hD.row row hfi).1]
    exact hD.silent
  cases hid : e.hears with
  | some id =>
    obtain ⟨hclk, htic, hoth, _⟩ := heard_of_step hid h a
    have hne : id ≠ a := fun heq => hhrs (by rw [hid, heq])
    refine ⟨?_, ?_, ?_⟩
    · rw [hoth hne]
      exact hD.row
    · unfold ReadSilent
      rw [htic]
      exact hD.read
    · rw [hclk]
      exact hD.silent
  | none =>
    cases e with
    | tick =>
      have heq := of_step h
      simp only at heq
      have hclk : s'.clock = s.clock := by rw [heq]
      refine ⟨fun row' hrow' => ?_, hD.read.tick hrow h, by rw [hclk]; exact hD.silent⟩
      have hchd := row_tick h a
      rw [hrow'] at hchd
      have hmkd := unchanged_of_silent (fun x hx => snapshot_silent hrow hx) hchd
      obtain ⟨row, hfi, rfl⟩ := map_eq_some_iff.mp hmkd
      obtain ⟨hsn, m', hle, hsle⟩ := hD.row row hfi
      rw [marked_of_marked (by rw [hsle]; rfl)]
      exact ⟨hsn, m', hle, hsle⟩
    | settled =>
      obtain ⟨t, agent, rest, hrun, heq⟩ := of_step h
      have hclk : s'.clock = s.clock := by rw [heq]
      have hrst := hD.read t agent rest (mem_of_getElem? hrun)
      refine ⟨fun row' hrow' => ?_, ?_, by rw [hclk]; exact hD.silent⟩
      · have hchd := row_settled hrun h a
        rw [hrow'] at hchd
        have hsm := unchanged_of_silent hrst hchd
        split at hsm
        · cases hsm
        · exact hD.row row' hsm
      · rw [heq]
        intro t' agent' rest' hmem
        rcases mem_or_eq_of_mem_set hmem with hmem | hmem
        · exact hD.read t' agent' rest' hmem
        · exact ReadSilent.settle hrst hmem
    | pass =>
      obtain ⟨hle, rfl⟩ := of_step h
      exact ⟨hD.row, hD.read, Nat.lt_of_lt_of_le hD.silent hle⟩
    | heartbeat | updateLastSeen | register => cases hid

/-! ## The tick that deletes it -/

/-- The agent is gone, or tick `i`, begun at `t`, has it before it. -/
def Booked (a : Text) (i t : Nat) (s : State) : Prop :=
  s.db.find a = none ∨ ∃ agent rest, s.ticks[i]? = some (.awaiting t agent rest) ∧
    ∃ x ∈ agent :: rest, x.id = a

theorem gone_of_step (hno : s.db.find a = none) (hhrs : e.hears ≠ some a)
    (h : (watchdog o).step s e = some s') : s'.db.find a = none := by
  cases hid : e.hears with
  | some =>
    rw [(heard_of_step hid h a).2.2.1 fun heq => hhrs (by rw [hid, heq])]
    exact hno
  | none =>
    cases e with
    | tick =>
      have hchd := row_tick h a
      rw [hno] at hchd
      exact hchd.of_deleted
    | settled =>
      obtain ⟨t, agent, rest, hrun, _⟩ := of_step h
      have hchd := row_settled hrun h a
      rw [hno, ite_self] at hchd
      exact hchd.of_deleted
    | pass =>
      obtain ⟨_, rfl⟩ := of_step h
      exact hno
    | heartbeat | updateLastSeen | register => cases hid

theorem Booked.of_tick {seen m : Nat} (hD : Doomed o a seen m s) (hgrc : m + o.graceMs ≤ s.clock)
    (h : (watchdog o).step s .tick = some s') : Booked a s.ticks.length s.clock s' := by
  have heq := of_step h
  simp only at heq
  have hrow : ∀ row, s.db.find a = some row → row.lastSeenAt + o.intervalMs < s.clock := by
    intro row hfi
    rw [(hD.row row hfi).1]
    exact hD.silent
  cases hfi : s.db.find a with
  | none => exact .inl (gone_of_step hfi (fun h => by cases h) h)
  | some row =>
    obtain ⟨_, m', hle, hsle⟩ := hD.row row hfi
    have hde : (detect o s.clock s.db).find a = some row := by
      rw [find_detect, hfi, map_some, marked_of_marked (by rw [hsle]; rfl)]
    have hlst : row ∈ listStaleAgents (detect o s.clock s.db) := by
      refine mem_listStaleAgents.mpr ⟨(find_eq_some.mp hde).1, ?_⟩
      rw [hsle]
      rfl
    have hdue : ∀ row', (detect o s.clock s.db).find a = some row' →
        ∃ m, row'.staleSince = some m ∧ o.graceMs ≤ s.clock - m := by
      intro row' hrow'
      cases hde.symm.trans hrow'
      exact ⟨m', hsle, by omega⟩
    rw [heq]
    rcases settle_due ⟨row, hlst, (find_eq_some.mp hfi).2⟩
      (fun x hx => snapshot_silent hrow hx) hdue with hgn | ⟨agent, rest, hrun, hx⟩
    · exact .inl hgn
    · refine .inr ⟨agent, rest, ?_, hx⟩
      simp only [hrun]
      rw [List.getElem?_append_right (Nat.le_refl _), Nat.sub_self]
      rfl

theorem Booked.step {seen m i t : Nat} (hD : Doomed o a seen m s) (hgrc : m + o.graceMs ≤ t)
    (hbo : Booked a i t s) (hhrs : e.hears ≠ some a) (h : (watchdog o).step s e = some s') :
    Booked a i t s' := by
  rcases hbo with hgn | ⟨agent, rest, hrun, hx⟩
  · exact .inl (gone_of_step hgn hhrs h)
  cases hid : e.hears with
  | some =>
    obtain ⟨_, htic, _⟩ := heard_of_step hid h a
    refine .inr ⟨agent, rest, ?_, hx⟩
    rw [htic]
    exact hrun
  | none =>
    cases e with
    | tick =>
      have heq := of_step h
      simp only at heq
      refine .inr ⟨agent, rest, ?_, hx⟩
      rw [heq]
      simp only
      rw [List.getElem?_append_left (List.getElem?_eq_some_iff.mp hrun).1]
      exact hrun
    | settled j =>
      obtain ⟨t', agent', rest', hrun', heq⟩ := of_step h
      by_cases hij : j = i
      · rw [hij] at hrun'
        obtain ⟨rfl, rfl, rfl⟩ := TickRun.awaiting.inj (some.inj (hrun.symm.trans hrun'))
        rw [heq, hij]
        have hltr : ∀ row, (delete s.db agent.id).find a = some row →
            ∃ m, row.staleSince = some m ∧ o.graceMs ≤ t - m := by
          intro row hfi
          rw [find_delete] at hfi
          split at hfi
          · cases hfi
          · obtain ⟨_, m', hle, hsle⟩ := hD.row row hfi
            exact ⟨m', hsle, by omega⟩
        by_cases hkey : agent.id = a
        · have hchd := settle_changed o t a rest (delete s.db agent.id)
          rw [find_delete, if_pos hkey] at hchd
          exact .inl hchd.of_deleted
        · have hrst : ∃ x ∈ rest, x.id = a := by
            obtain ⟨x, hmem, hsf⟩ := hx
            rcases mem_cons.mp hmem with rfl | hmem
            · exact absurd hsf hkey
            · exact ⟨x, hmem, hsf⟩
          rcases settle_due hrst (hD.read t agent rest (mem_of_getElem? hrun)) hltr with
            hgn | ⟨agent', rest', hnx, hx'⟩
          · exact .inl hgn
          · refine .inr ⟨agent', rest', ?_, hx'⟩
            simp only [hnx]
            rw [List.getElem?_set_self (List.getElem?_eq_some_iff.mp hrun).1]
      · refine .inr ⟨agent, rest, ?_, hx⟩
        rw [heq]
        simp only
        rw [List.getElem?_set_ne hij]
        exact hrun
    | pass =>
      obtain ⟨_, rfl⟩ := of_step h
      exact .inr ⟨agent, rest, hrun, hx⟩
    | heartbeat | updateLastSeen | register => cases hid

/-! ## Whole runs -/

/-- Only silent agents are deleted, and each tick takes all of them offline. -/
def OnlySilent (o : WatchdogOptions) (log : List (State × Event)) : Prop :=
  ∀ before p e after s', log = before ++ (p, e) :: after → (watchdog o).step p e = some s' →
    Correct o before p e s'

/--
An agent that is silent when a tick begins, and is not heard from then on, is gone once a tick is done
that began a grace period later.
-/
def EvictsSilent (o : WatchdogOptions) (log : List (State × Event)) (s : State) : Prop :=
  ∀ a before p between p' after row, log = before ++ (p, .tick) :: (between ++ (p', .tick) :: after) →
    p.db.find a = some row → row.lastSeenAt + o.intervalMs < p.clock → ReadSilent o a p →
    (∀ entry ∈ between ++ (p', .tick) :: after, entry.2.hears ≠ some a) →
    p.clock + o.graceMs ≤ p'.clock → s.ticks[p'.ticks.length]? = some .done → s.db.find a = none

theorem evictsSilent (h : (watchdog o).Logged (fun _ _ => True) s log) : EvictsSilent o log s := by
  intro a before p between p' after row hlog hfi hsil hrd hhrs hgrc hdn
  have hS := sound (h.split hlog).1.reachable
  -- from the first tick on, the agent is marked
  have hdo : ∀ later ∈ between ++ (p', .tick) :: after, Doomed o a row.lastSeenAt p.clock later.1 := by
    refine (h.since (I := Doomed o a row.lastSeenAt p.clock) hlog ?_ ?_).2
    · intro s' hst
      exact Doomed.of_tick hS hfi hsil hrd hst
    · intro q e q' hmem hD hst
      exact hD.step (hhrs (q, e) hmem) hst
  -- from the second one on, it is gone or its turn is to come
  have hlog' : log = (before ++ (p, .tick) :: between) ++ (p', .tick) :: after := by
    rw [hlog, append_assoc, cons_append]
  have hbo : Booked a p'.ticks.length p'.clock s := by
    refine (h.since (I := Booked a p'.ticks.length p'.clock) hlog' ?_ ?_).1
    · intro s' hst
      exact Booked.of_tick (hdo _ (mem_append_right _ (mem_cons_self ..))) hgrc hst
    · intro q e q' hmem hB hst
      have hltr : (q, e) ∈ between ++ (p', .tick) :: after :=
        mem_append_right _ (mem_cons_of_mem _ hmem)
      exact hB.step (hdo _ hltr) hgrc (hhrs _ hltr) hst
  rcases hbo with hgn | ⟨agent, rest, hrun, _⟩
  · exact hgn
  · rw [hdn] at hrun
    cases hrun

/--
**Only silent agents are evicted**, exactly when every step of the run is noticed in time who came back.
And in every run, those that stay silent are.
-/
theorem only_silent_evicted (h : (watchdog o).Logged (fun _ _ => True) s log) :
    (OnlySilent o log ↔ ∀ entry ∈ log, Noticed o entry.1 entry.2) ∧ EvictsSilent o log s := by
  refine ⟨⟨?_, ?_⟩, evictsSilent h⟩
  · intro hon entry hent
    obtain ⟨before, after, hlog⟩ := append_of_mem hent
    obtain ⟨hbf, _, s', hst⟩ := h.split hlog
    exact (correct_iff hbf hst).mp (hon before entry.1 entry.2 after s' hlog hst)
  · intro hno before p e after s' hlog hst
    have hmem : (p, e) ∈ log := by
      rw [hlog]
      exact mem_append_right _ (mem_cons_self ..)
    exact (correct_iff (h.split hlog).1 hst).mpr (hno (p, e) hmem)

def agentA : Registration := ⟨['a'], [], 1, [], ['G']⟩

/-- An agent registers at 0 and is not heard again. -/
theorem only_silent_evicted_once : ∃ (s : State) (log : List (State × Event)), s.ticks = [.done, .done] ∧
      ((OnlySilent byDefault log ↔ ∀ entry ∈ log, Noticed byDefault entry.1 entry.2) ∧
        EvictsSilent byDefault log s) := by
  have hpl : ((watchdog byDefault).play (fun _ _ => True)
      [.register agentA, .pass 60001, .tick, .pass 660001, .tick, .settled 1 false]
      ⟨0, .empty _, []⟩).any (fun s => decide (s.ticks = [.done, .done])) = true := by
    decide
  have hsta : (watchdog byDefault).start ⟨0, .empty _, []⟩ := ⟨rfl, rfl⟩
  obtain ⟨s, hs, htic⟩ := exists_logged hsta hpl
  exact ⟨s, _, htic, only_silent_evicted hs⟩

/--
**A heartbeat while the registry is asked.** The agent is heard at the very moment of its deletion, and
was online.
-/
theorem deletes_heard : ∃ (s s' : State) (log : List (State × Event)),
    (watchdog byDefault).Logged (fun _ _ => True) s' (log ++ [(s, .settled 1 false)]) ∧
      (∃ row, s.db.find ['a'] = some row ∧ row.lastSeenAt = s.clock) ∧ s'.db.find ['a'] = none ∧
      ¬OnlySilent byDefault (log ++ [(s, .settled 1 false)]) := by
  have hpl : ((watchdog byDefault).play (fun _ _ => True)
      [.register agentA, .pass 60001, .tick, .pass 660001, .tick, .heartbeat ['a']]
      ⟨0, .empty _, []⟩).any (fun s =>
        (s.db.find ['a']).any (fun row => decide (row.lastSeenAt = s.clock ∧ row.status = .online)) &&
          (((watchdog byDefault).step s (.settled 1 false)).any fun s' =>
            (s'.db.find ['a']).isNone)) = true := by
    decide
  have hsta : (watchdog byDefault).start ⟨0, .empty _, []⟩ := ⟨rfl, rfl⟩
  obtain ⟨s, hs, hfnd⟩ := (Option.any_eq_true _ _).mp hpl
  obtain ⟨hrow, hnx⟩ := Bool.and_eq_true_iff.mp hfnd
  obtain ⟨row, hfi, hrow⟩ := (Option.any_eq_true _ _).mp hrow
  obtain ⟨hsn, honl⟩ := of_decide_eq_true hrow
  obtain ⟨s', hst, hgn⟩ := (Option.any_eq_true _ _).mp hnx
  have hlgd := logged_of_play hsta hs
  refine ⟨s, s', _, hlgd.step trivial hst, ⟨row, hfi, hsn⟩, isNone_iff_eq_none.mp hgn, fun hon => ?_⟩
  have hco := hon _ s _ [] s' rfl hst
  have hso : (s.db.find ['a']).isSome := by
    rw [hfi]
    rfl
  obtain ⟨row₀, _, hrow₀, hoff, _⟩ := hco.deleted ['a'] hso
    (isNone_iff_eq_none.mp hgn)
  cases hfi.symm.trans hrow₀
  rw [honl] at hoff
  cases hoff

end AiNet.Agents.Watchdog
