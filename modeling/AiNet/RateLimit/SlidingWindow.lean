import AiNet.Core.Transition
import AiNet.Core.Window

/-!
# The sliding window limiter

The limiter keeps the times of the requests it has admitted, for each address, in a cache that drops an entry no sooner
than a window after it was set. What it keeps is, within the last window, what it has admitted.
-/

namespace AiNet.RateLimit

open Core List Option Function System

variable {κ : Type} [DecidableEq κ]

/-- The callers pass positive numbers: constants, or settings that are checked to be positive. -/
structure RateLimitOptions where
  windowMs : Nat
  maxRequests : Nat
  windowMs_pos : 0 < windowMs
  maxRequests_pos : 0 < maxRequests

/-- An entry of the cache, and when it was set. -/
structure Window where
  timestamps : List Int
  setAt : Int

structure Response where
  admitted : Bool
  /-- `X-RateLimit-Remaining` -/
  remaining : Int
  /-- `Retry-After`, in seconds -/
  retryAfter : Option Int

variable (options : RateLimitOptions) (now : Int) (ip : κ)

def live (timestamps : List Int) : List Int := timestamps.filter fun t => decide (now - options.windowMs < t)

/-- `setRateLimitHeaders`, after a limiter that may have set the header. -/
def setRemaining (existing : Option Int) (remaining : Int) : Int :=
  match existing with
  | some existing => if existing < max 0 remaining then existing else max 0 remaining
  | none => max 0 remaining

def timestamps (windows : κ → Option Window) : List Int := ((windows ip).map Window.timestamps).getD []

def middleware (existing : Option Int) (windows : κ → Option Window) : (κ → Option Window) × Response :=
  let timestamps := live options now (timestamps ip windows)
  let resetAtMs := (timestamps.head?.getD now) + options.windowMs
  if options.maxRequests ≤ timestamps.length then
    -- an entry of the cache is changed in place, and not set again
    (update windows ip ((windows ip).map fun win => { win with timestamps := timestamps }),
      ⟨false, 0, some ((resetAtMs - now + 999) / 1000)⟩)
  else
    (update windows ip (some ⟨timestamps ++ [now], now⟩),
      ⟨true, setRemaining existing (options.maxRequests - timestamps.length - 1), none⟩)

/-- The cache, and the requests that were admitted. -/
structure Limiter (κ : Type) where
  windows : κ → Option Window
  clock : Int
  admitted : List (κ × Int)

inductive Event (κ : Type) where
  | request (ip : κ) (now : Int) (existing : Option Int)
  /-- The cache drops an entry. -/
  | expire (ip : κ) (now : Int)

def step (s : Limiter κ) : Event κ → Option (Limiter κ)
  | .request ip now existing =>
    let answer := middleware options now ip existing s.windows
    if now < s.clock then none
    else some ⟨answer.1, now, if answer.2.admitted then s.admitted ++ [(ip, now)] else s.admitted⟩
  | .expire ip now =>
    if now < s.clock ∨ (s.windows ip).any (fun win => decide (now < win.setAt + options.windowMs)) then none
    else some { s with windows := update s.windows ip none, clock := now }

def system : System (Limiter κ) (Event κ) where
  start s := ∃ clock, s = ⟨fun _ => none, clock, []⟩
  step := step options

/-- When requests of an address were admitted. -/
def Limiter.times (s : Limiter κ) : List Int := (s.admitted.filter fun entry => decide (entry.1 = ip)).map Prod.snd

variable {options now ip}

structure Limiter.Sound (options : RateLimitOptions) (s : Limiter κ) : Prop where
  stored : ∀ ip now, s.clock ≤ now → live options now (timestamps ip s.windows) = live options now (s.times ip)
  past : ∀ ip, ∀ t ∈ s.times ip, t ≤ s.clock
  set : ∀ ip win, s.windows ip = some win → ∀ t ∈ win.timestamps, t ≤ win.setAt
  few : ∀ ip time, (s.times ip).countP (inTrailing (options.windowMs : Int) time) ≤ options.maxRequests

theorem live_live {earlier : Int} {times : List Int} (h : earlier ≤ now) :
    live options now (live options earlier times) = live options now times := by
  unfold live
  rw [List.filter_filter]
  refine filter_congr fun t _ => ?_
  by_cases ht : now - options.windowMs < t
  · simp [ht, show earlier - options.windowMs < t by omega]
  · simp [ht]

theorem length_live {times : List Int} (h : ∀ t ∈ times, t ≤ now) :
    (live options now times).length = times.countP (inTrailing (options.windowMs : Int) now) := by
  unfold live
  rw [← countP_eq_length_filter]
  refine countP_congr fun t ht => ?_
  simp only [inTrailing, h t ht, decide_true, Bool.true_and, decide_eq_true_eq]
  omega

theorem times_admitted (s : Limiter κ) (windows : κ → Option Window) (a : κ) :
    (Limiter.mk windows now (s.admitted ++ [(ip, now)])).times a =
      if a = ip then s.times a ++ [now] else s.times a := by
  unfold Limiter.times
  rw [filter_append, map_append]
  by_cases ha : a = ip
  · simp [ha]
  · simp [ha, Ne.symm ha]

variable {existing : Option Int} {windows : κ → Option Window}

theorem middleware_full (h : options.maxRequests ≤ (live options now (timestamps ip windows)).length) :
    (middleware options now ip existing windows).2.admitted = false ∧
      ∀ a, timestamps a (middleware options now ip existing windows).1 =
        if a = ip then live options now (timestamps a windows) else timestamps a windows := by
  unfold middleware
  dsimp only
  rw [if_pos h]
  refine ⟨rfl, fun a => ?_⟩
  by_cases ha : a = ip
  · subst ha
    rw [if_pos rfl]
    unfold timestamps
    dsimp only
    rw [update_self]
    cases windows a <;> rfl
  · rw [if_neg ha]
    unfold timestamps
    dsimp only
    rw [update_of_ne ha]

theorem middleware_free (h : (live options now (timestamps ip windows)).length < options.maxRequests) :
    middleware options now ip existing windows =
      (update windows ip (some ⟨live options now (timestamps ip windows) ++ [now], now⟩),
        ⟨true, setRemaining existing
          (options.maxRequests - (live options now (timestamps ip windows)).length - 1), none⟩) := by
  unfold middleware
  dsimp only
  rw [if_neg (Nat.not_le.mpr h)]

theorem timestamps_update (windows : κ → Option Window) (win : Option Window) (a : κ) :
    timestamps a (update windows ip win) = if a = ip then (win.map Window.timestamps).getD [] else timestamps a windows := by
  unfold timestamps
  by_cases ha : a = ip
  · subst ha
    rw [update_self, if_pos rfl]
  · rw [update_of_ne ha, if_neg ha]

variable {s : Limiter κ}

theorem Limiter.Sound.admit (h : s.Sound options) (hnow : s.clock ≤ now)
    (hfew : (live options now (timestamps ip s.windows)).length < options.maxRequests) :
    Limiter.Sound options ⟨update s.windows ip (some ⟨live options now (timestamps ip s.windows) ++ [now], now⟩), now,
      s.admitted ++ [(ip, now)]⟩ := by
  have hps : ∀ a, ∀ t ∈ s.times a, t ≤ now := fun a t ht => (h.past a t ht).trans hnow
  have hsto := h.stored ip now hnow
  refine ⟨fun a later hltr => ?_, fun a t ht => ?_, fun a win hwin t ht => ?_, fun a time => ?_⟩
  · rw [timestamps_update, times_admitted]
    by_cases ha : a = ip
    · subst ha
      rw [if_pos rfl, if_pos rfl, hsto]
      unfold live
      dsimp only [map_some, getD_some]
      rw [filter_append, filter_append]
      exact congrArg (· ++ _) (live_live hltr)
    · rw [if_neg ha, if_neg ha]
      exact h.stored a later (hnow.trans hltr)
  · rw [times_admitted] at ht
    split at ht
    · rcases mem_append.mp ht with hold | hsf
      · exact hps a t hold
      · exact (mem_singleton.mp hsf).le
    · exact hps a t ht
  · by_cases ha : a = ip
    · subst ha
      cases (update_self ..).symm.trans hwin
      rcases mem_append.mp ht with hold | hsf
      · rw [hsto] at hold
        exact hps a t (mem_of_mem_filter hold)
      · exact (mem_singleton.mp hsf).le
    · exact h.set a win ((update_of_ne ha ..).symm.trans hwin) t ht
  · rw [times_admitted]
    split
    · rename_i ha
      subst ha
      rw [hsto, length_live (hps a)] at hfew
      exact countP_trailing_snoc (hps a) hfew (h.few a) time
    · exact h.few a time

theorem Limiter.Sound.reject (h : s.Sound options) (hnow : s.clock ≤ now) :
    Limiter.Sound options ⟨update s.windows ip ((s.windows ip).map fun win =>
      { win with timestamps := live options now (timestamps ip s.windows) }), now, s.admitted⟩ := by
  refine ⟨fun a later hltr => ?_, fun a t ht => (h.past a t ht).trans hnow, fun a win hwin t ht => ?_, h.few⟩
  · refine Eq.trans ?_ (h.stored a later (hnow.trans hltr))
    rw [timestamps_update]
    split
    · rename_i ha
      subst ha
      unfold timestamps
      cases s.windows a with
      | none => rfl
      | some win => exact live_live hltr
    · rfl
  · by_cases ha : a = ip
    · subst ha
      dsimp only at hwin
      rw [update_self] at hwin
      obtain ⟨win', hwin', rfl⟩ := map_eq_some_iff.mp hwin
      have hmem := mem_of_mem_filter ht
      unfold timestamps at hmem
      rw [hwin'] at hmem
      exact h.set a win' hwin' t hmem
    · exact h.set a win ((update_of_ne ha ..).symm.trans hwin) t ht

/-- **An entry that the cache may drop has no time of a later window.** -/
theorem Limiter.Sound.expire (h : s.Sound options) (hnow : s.clock ≤ now)
    (hdue : ∀ win, s.windows ip = some win → win.setAt + options.windowMs ≤ now) :
    Limiter.Sound options { s with windows := update s.windows ip none, clock := now } := by
  refine ⟨fun a later hltr => ?_, fun a t ht => (h.past a t ht).trans hnow, fun a win hwin => ?_, h.few⟩
  · refine Eq.trans ?_ (h.stored a later (hnow.trans hltr))
    rw [timestamps_update]
    split
    · rename_i ha
      subst ha
      refine (filter_eq_nil_iff.mpr fun t ht => ?_).symm
      unfold timestamps at ht
      cases hwin : s.windows a with
      | none =>
        rw [hwin] at ht
        cases ht
      | some win =>
        rw [hwin] at ht
        have hset := h.set a win hwin t ht
        have hold := hdue win hwin
        have hltr : now ≤ later := hltr
        simp only [decide_eq_true_eq]
        omega
    · rfl
  · by_cases ha : a = ip
    · subst ha
      cases (update_self ..).symm.trans hwin
    · exact h.set a win ((update_of_ne ha ..).symm.trans hwin)

theorem sound_step {s s' : Limiter κ} {e : Event κ} (h : s.Sound options) (hs : step options s e = some s') :
    s'.Sound options := by
  cases e with
  | request ip now existing =>
    obtain ⟨hclk, hs⟩ := ite_none_left_eq_some.mp hs
    cases hs
    have hnow : s.clock ≤ now := Int.not_lt.mp hclk
    by_cases hfl : options.maxRequests ≤ (live options now (timestamps ip s.windows)).length
    · unfold middleware
      dsimp only
      rw [if_pos hfl]
      exact h.reject hnow
    · rw [middleware_free (Nat.not_le.mp hfl)]
      exact h.admit hnow (Nat.not_le.mp hfl)
  | expire ip now =>
    obtain ⟨hcd, hs⟩ := ite_none_left_eq_some.mp hs
    cases hs
    obtain ⟨hclk, hdue⟩ := not_or.mp hcd
    refine h.expire (Int.not_lt.mp hclk) fun win hwin => ?_
    rw [hwin, any_some, decide_eq_true_eq] at hdue
    exact Int.not_lt.mp hdue

theorem sound_reachable (h : (system options).Reachable (fun _ _ => True) s) : s.Sound options := by
  refine h.invariant (I := Limiter.Sound options) ?_ fun s e s' _ _ hI hs => sound_step hI hs
  rintro _ ⟨clock, rfl⟩
  exact ⟨fun _ _ _ => rfl, fun _ _ => nofun, nofun, fun _ _ => Nat.zero_le _⟩

/-- The cache after some more requests of the address at once. -/
def again (options : RateLimitOptions) (now : Int) (ip : κ) (windows : κ → Option Window) (k : Nat) : κ → Option Window :=
  (fun windows => (middleware options now ip none windows).1)^[k] windows

theorem live_again {n : Nat} (h : (live options now (timestamps ip windows)).length = n)
    (hn : n ≤ options.maxRequests) (k : Nat) :
    (live options now (timestamps ip (again options now ip windows k))).length = min (n + k) options.maxRequests := by
  induction k with
  | zero => exact h.trans (min_eq_left hn).symm
  | succ k ih =>
    unfold again at ih ⊢
    rw [iterate_succ_apply']
    generalize (fun windows => (middleware options now ip none windows).1)^[k] windows = windows' at ih ⊢
    rcases Nat.lt_or_ge (live options now (timestamps ip windows')).length options.maxRequests with hfr | hfl
    · rw [middleware_free hfr, timestamps_update, if_pos rfl]
      have hlv : live options now (live options now (timestamps ip windows') ++ [now]) =
          live options now (timestamps ip windows') ++ [now] := by
        refine filter_eq_self.mpr fun t ht => ?_
        rcases mem_append.mp ht with hold | hsf
        · exact (mem_filter.mp hold).2
        · have hpos := options.windowMs_pos
          rw [mem_singleton.mp hsf, decide_eq_true_eq]
          omega
      refine (congrArg length hlv).trans ?_
      rw [length_append, length_singleton]
      omega
    · rw [(middleware_full hfl).2, if_pos rfl, live_live (le_refl now)]
      omega

theorem admitted_iff :
    (middleware options now ip existing windows).2.admitted = true ↔
      (live options now (timestamps ip windows)).length < options.maxRequests := by
  rcases Nat.lt_or_ge (live options now (timestamps ip windows)).length options.maxRequests with hfr | hfl
  · rw [middleware_free hfr]
    exact ⟨fun _ => hfr, fun _ => rfl⟩
  · rw [(middleware_full hfl).1]
    exact ⟨nofun, fun hfr => absurd hfl (Nat.not_le.mpr hfr)⟩

/-- **Who waits is admitted.** After `Retry-After` the oldest time is gone. -/
theorem Limiter.Sound.retry {s s' : Limiter κ} (h : s.Sound options) (hnow : s.clock ≤ now) {retryAfter : Int}
    (hret : (middleware options now ip existing s.windows).2.retryAfter = some retryAfter)
    (h' : s'.Sound options) (hsm : s'.times ip = s.times ip) {later : Int} (hltr : s'.clock ≤ later)
    (hwa : now + 1000 * retryAfter ≤ later) :
    (middleware options later ip existing s'.windows).2.admitted = true := by
  have hps : ∀ t ∈ s.times ip, t ≤ now := fun t ht => (h.past ip t ht).trans hnow
  have hfl : options.maxRequests ≤ (live options now (timestamps ip s.windows)).length := by
    by_contra hfr
    rw [middleware_free (Nat.not_le.mp hfr)] at hret
    cases hret
  have hfew := h.few ip now
  rw [← length_live hps, ← h.stored ip now hnow] at hfew
  rw [admitted_iff, h'.stored ip later hltr, hsm]
  unfold middleware at hret
  dsimp only at hret
  rw [if_pos hfl] at hret
  have hpos := options.maxRequests_pos
  rw [h.stored ip now hnow] at hfl hfew hret
  cases hlv : live options now (s.times ip) with
  | nil =>
    rw [hlv] at hfl
    exact absurd hfl (Nat.not_le.mpr hpos)
  | cons oldest rest =>
    rw [hlv] at hfew hret
    have hseco := some.inj hret
    dsimp only [head?_cons, getD_some] at hseco
    have hgn : oldest + options.windowMs ≤ later := by omega
    have hmem : oldest ∈ live options now (s.times ip) := hlv ▸ mem_cons_self
    have hin := of_decide_eq_true (mem_filter.mp hmem).2
    have hnl : now ≤ later := by omega
    rw [← live_live hnl, hlv]
    unfold live
    rw [filter_cons_of_neg (by simp only [decide_eq_true_eq]; omega)]
    exact (Nat.lt_succ_of_le (length_filter_le ..)).trans_le hfew

/--
**The sliding window limiter is exact.** It admits a request if and only if it has admitted fewer than the maximum in
the window before; so no window has more; the remaining count that it advertises is the number of further requests
that it would admit at once; and a client that waits as long as it is told is admitted.
-/
theorem limiter_exact {s : Limiter κ} (h : (system options).Reachable (fun _ _ => True) s) (ip : κ) {now : Int}
    (hnow : s.clock ≤ now) :
    ((middleware options now ip none s.windows).2.admitted = true ↔
      (s.times ip).countP (inTrailing (options.windowMs : Int) now) < options.maxRequests) ∧
    (∀ time, (s.times ip).countP (inTrailing (options.windowMs : Int) time) ≤ options.maxRequests) ∧
    ((middleware options now ip none s.windows).2.admitted = true → ∀ k : Nat,
      (middleware options now ip none (again options now ip (middleware options now ip none s.windows).1 k)).2.admitted = true ↔
        k < (middleware options now ip none s.windows).2.remaining) ∧
    ∀ retryAfter, (middleware options now ip none s.windows).2.retryAfter = some retryAfter →
      ∀ s' : Limiter κ, (system options).Reachable (fun _ _ => True) s' → s'.times ip = s.times ip → ∀ later,
        s'.clock ≤ later → now + 1000 * retryAfter ≤ later →
          (middleware options later ip none s'.windows).2.admitted = true := by
  have hI := sound_reachable h
  have hps : ∀ t ∈ s.times ip, t ≤ now := fun t ht => (hI.past ip t ht).trans hnow
  have hlen := @length_live options _ _ hps
  rw [← hI.stored ip now hnow] at hlen
  refine ⟨by rw [admitted_iff, hlen], hI.few ip, fun hadm k => ?_, fun retryAfter hret s' h' hsm later hltr hwa =>
    hI.retry hnow hret (sound_reachable h') hsm hltr hwa⟩
  have hfr := admitted_iff.mp hadm
  have hone := live_again rfl hfr.le 1
  have hfst : again options now ip s.windows 1 = (middleware options now ip none s.windows).1 := rfl
  rw [hfst] at hone
  rw [admitted_iff, live_again hone (min_le_right ..), middleware_free hfr]
  dsimp only [setRemaining]
  omega

theorem ten_pos : 0 < 10 := Nat.succ_pos 9

/-- One request in ten milliseconds. -/
def one : RateLimitOptions := ⟨10, 1, ten_pos, Nat.one_pos⟩

/-- The second request is told to wait, and is admitted after that. -/
theorem limiter_exact_one : ∃ s : Limiter Nat, (system one).Reachable (fun _ _ => True) s ∧ s.times 0 = [0] ∧
    (middleware one 5 0 none s.windows).2.retryAfter = some 1 ∧ (middleware one 1005 0 none s.windows).2.admitted = true := by
  have hpl : (play (system one) (fun _ _ => True) [.request 0 0 none] ⟨fun _ => none, 0, []⟩).any (fun s =>
      decide (s.clock = 0 ∧ s.times 0 = [0] ∧ (middleware one 5 0 none s.windows).2.retryAfter = some 1)) = true := by
    decide
  have hsta : (system one).start (⟨fun _ => none, 0, []⟩ : Limiter Nat) := ⟨0, rfl⟩
  obtain ⟨s, hs, hclk, htim, hret⟩ := exists_reachable hsta hpl
  exact ⟨s, hs, htim, hret, (limiter_exact hs 0 (by omega)).2.2.2 1 hret s hs rfl 1005 (by omega) (by omega)⟩

end AiNet.RateLimit
