import AiNet.Core.Transition

/-!
# The shared circuit breaker

`execute` asks the breaker once, when a call starts, and tells it the outcome when the call settles, without
saying which call it was. So a half-open breaker lets every call through, and a call from before the opening can
close it. Where neither happens the probe is alone, and nothing starts before the recovery timeout.
-/

namespace AiNet.Breaker

open Core List Option System

inductive CircuitState where
  | closed
  | opened
  | halfOpen
  deriving DecidableEq

namespace Shared

structure CircuitBreakerOptions where
  failureThreshold : Int
  recoveryTimeoutMs : Int

structure CircuitBreaker where
  state : CircuitState
  failures : Int
  openedAt : Int

/-- One failure opens the breaker, for ten milliseconds. -/
def fragile : CircuitBreakerOptions := ⟨1, 10⟩

variable (options : CircuitBreakerOptions) (now : Int) (b : CircuitBreaker)

def evaluateTimeout : CircuitBreaker :=
  if b.state = .opened ∧ options.recoveryTimeoutMs ≤ now - b.openedAt then { b with state := .halfOpen } else b

def recordSuccess : CircuitBreaker := { b with failures := 0, state := .closed }

def recordFailure : CircuitBreaker :=
  if options.failureThreshold ≤ b.failures + 1 then
    { state := .opened, failures := b.failures + 1, openedAt := now }
  else { b with failures := b.failures + 1 }

/-- The breaker, with the start times of the calls in flight and the times at which it has opened. -/
structure Service where
  breaker : CircuitBreaker
  clock : Int
  calls : List Int
  openings : List Int

def Service.init (clock : Int) : Service := ⟨⟨.closed, 0, 0⟩, clock, [], []⟩

inductive Event where
  /-- `execute` up to `await fn()`; it throws if the breaker is open. -/
  | execute (now : Int)
  /-- The `fn` of a call that was started then has settled. -/
  | settle (now started : Int) (succeeded : Bool)

def step (s : Service) : Event → Option Service
  | .execute now =>
    let b := evaluateTimeout options now s.breaker
    if now < s.clock then none
    else some { s with breaker := b, clock := now, calls := if b.state = .opened then s.calls else now :: s.calls }
  | .settle now started succeeded =>
    let b := if succeeded then recordSuccess s.breaker else recordFailure options now s.breaker
    if now < s.clock ∨ started ∉ s.calls then none
    else some
      { breaker := b
        clock := now
        calls := s.calls.erase started
        openings := if s.breaker.state ≠ .opened ∧ b.state = .opened then now :: s.openings else s.openings }

def system : System Service Event where
  start s := ∃ clock, s = .init clock
  step := step options

variable {options}

/-- A half-open breaker is asked only when nothing is in flight, and no call succeeds while it is open. -/
def Orderly (options : CircuitBreakerOptions) (s : Service) : Event → Prop
  | .execute now => (evaluateTimeout options now s.breaker).state = .halfOpen → s.calls = []
  | .settle _ _ succeeded => succeeded = true → s.breaker.state ≠ .opened

instance (s : Service) (e : Event) : Decidable (Orderly options s e) := by
  cases e <;> unfold Orderly <;> infer_instance

/-- All openings are at least the recovery timeout ago. -/
def Service.Recovered (options : CircuitBreakerOptions) (s : Service) (time : Int) : Prop :=
  ∀ t ∈ s.openings, t + options.recoveryTimeoutMs ≤ time

structure Service.Sound (options : CircuitBreakerOptions) (s : Service) : Prop where
  past : ∀ t ∈ s.openings, t ≤ s.clock ∧ (s.breaker.state = .opened → t ≤ s.breaker.openedAt)
  recovered : s.breaker.state ≠ .opened → s.Recovered options s.clock
  probe : s.breaker.state = .halfOpen → s.calls.length ≤ 1 ∧ ∀ c ∈ s.calls, s.Recovered options c

theorem sound_step {s s' : Service} {e : Event} (h : s.Sound options) (hg : Orderly options s e)
    (hs : step options s e = some s') : s'.Sound options := by
  cases e with
  | execute now =>
    obtain ⟨hclk, hs⟩ := ite_none_left_eq_some.mp hs
    cases hs
    have hnow : s.clock ≤ now := Int.not_lt.mp hclk
    have hrec : (evaluateTimeout options now s.breaker).state ≠ .opened → s.Recovered options now := by
      intro hstt t ht
      by_cases hon : s.breaker.state = .opened
      · unfold evaluateTimeout at hstt
        split at hstt
        · rename_i hdue
          have hps := (h.past t ht).2 hon
          omega
        · exact absurd hon hstt
      · have hold := h.recovered hon t ht
        omega
    refine ⟨fun t ht => ⟨(h.past t ht).1.trans hnow, fun hon => ?_⟩, hrec, fun hha => ?_⟩
    · unfold evaluateTimeout at hon ⊢
      dsimp only at hon ⊢
      split at hon
      · cases hon
      · rename_i hdue
        rw [if_neg hdue]
        exact (h.past t ht).2 hon
    · have hha : (evaluateTimeout options now s.breaker).state = .halfOpen := hha
      have hno := hg hha
      dsimp only
      rw [hha, hno]
      refine ⟨le_refl 1, fun c hc => ?_⟩
      obtain rfl := mem_singleton.mp hc
      exact hrec (hha.trans_ne CircuitState.noConfusion)
  | settle now started succeeded =>
    obtain ⟨hcd, hs⟩ := ite_none_left_eq_some.mp hs
    cases hs
    obtain ⟨hclk, -⟩ := not_or.mp hcd
    have hnow : s.clock ≤ now := Int.not_lt.mp hclk
    have hps : ∀ t ∈ s.openings, t ≤ now := fun t ht => (h.past t ht).1.trans hnow
    cases succeeded with
    | true =>
      have hstt := hg rfl
      have hkpt : ∀ t ∈ (if s.breaker.state ≠ .opened ∧ CircuitState.closed = .opened then now :: s.openings
          else s.openings), t ∈ s.openings := fun t ht => by rwa [if_neg (fun hopd => nomatch hopd.2)] at ht
      exact ⟨fun t ht => ⟨hps t (hkpt t ht), nofun⟩,
        fun _ t ht => (h.recovered hstt t (hkpt t ht)).trans hnow, nofun⟩
    | false =>
      rw [if_neg Bool.false_ne_true]
      unfold recordFailure
      split
      · refine ⟨fun t ht => ?_, fun hstt => absurd rfl hstt, nofun⟩
        have ht : t ≤ now := by
          dsimp only at ht
          split at ht
          · rcases mem_cons.mp ht with rfl | ht
            · exact le_refl t
            · exact hps t ht
          · exact hps t ht
        exact ⟨ht, fun _ => ht⟩
      · dsimp only
        rw [if_neg (fun hopd => hopd.1 hopd.2)]
        refine ⟨fun t ht => ⟨hps t ht, (h.past t ht).2⟩, fun hstt t ht => ?_, fun hha => ?_⟩
        · exact (h.recovered hstt t ht).trans hnow
        · obtain ⟨hone, hpro⟩ := h.probe hha
          exact ⟨(length_erase_le ..).trans hone, fun c hc => hpro c (mem_of_mem_erase hc)⟩

theorem sound_reachable {s : Service} (h : (system options).Reachable (Orderly options) s) : s.Sound options := by
  refine h.invariant (I := Service.Sound options) ?_ fun s e s' _ hg hI hs => sound_step hI hg hs
  rintro _ ⟨clock, rfl⟩
  exact ⟨nofun, fun _ => nofun, nofun⟩

/-- What a step owes: a call starts after the recovery timeout of every opening, and so has the call whose success
closes the breaker. -/
def Kept (options : CircuitBreakerOptions) (s s' : Service) (e : Event) : Prop :=
  (∀ now, e = .execute now → s'.calls = now :: s.calls → s.Recovered options now) ∧
    (s.breaker.state ≠ .closed → s'.breaker.state = .closed → ∃ now started, e = .settle now started true ∧
      started ∈ s.calls ∧ s.Recovered options started)

/--
**The shared breaker probes alone.** In a run whose steps are orderly, at most one call is in flight while the breaker
is half-open, no call starts within the recovery timeout of an opening, and only the success of a call that was
started after it closes the breaker.
-/
theorem probes_alone {s : Service} (h : (system options).Reachable (Orderly options) s) :
    (s.breaker.state = .halfOpen → s.calls.length ≤ 1) ∧
      ∀ e s', Orderly options s e → step options s e = some s' → Kept options s s' e := by
  have hI := sound_reachable h
  refine ⟨fun hha => (hI.probe hha).1, fun e s' hg hs => ⟨?_, fun hon hcld => ?_⟩⟩
  · rintro now rfl hcs
    have hI' := sound_step hI hg hs
    obtain ⟨-, hs⟩ := ite_none_left_eq_some.mp hs
    cases hs
    refine hI'.recovered fun hstt => ?_
    dsimp only at hcs hstt
    rw [if_pos hstt] at hcs
    exact absurd (congrArg length hcs) (by simp)
  · cases e with
    | execute now =>
      obtain ⟨-, hs⟩ := ite_none_left_eq_some.mp hs
      cases hs
      dsimp only at hcld
      unfold evaluateTimeout at hcld
      split at hcld
      · cases hcld
      · exact absurd hcld hon
    | settle now started succeeded =>
      obtain ⟨hcd, hs⟩ := ite_none_left_eq_some.mp hs
      cases hs
      have hmem := not_not.mp (not_or.mp hcd).2
      cases succeeded with
      | true =>
        refine ⟨now, started, rfl, hmem, ?_⟩
        have hha : s.breaker.state = .halfOpen := by
          have hstt := hg rfl
          cases hs : s.breaker.state with
          | closed => exact absurd hs hon
          | opened => exact absurd hs hstt
          | halfOpen => rfl
        exact (hI.probe hha).2 _ hmem
      | false =>
        rw [if_neg Bool.false_ne_true] at hcld
        unfold recordFailure at hcld
        split at hcld
        · cases hcld
        · exact absurd hcld hon

theorem fragile_start : (system fragile).start (.init 0) := ⟨0, rfl⟩

/-- One failure, and a probe ten milliseconds later. -/
theorem probes_alone_once : ∃ s, (system fragile).Reachable (Orderly fragile) s ∧
    s.breaker.state = .halfOpen ∧ s.calls.length ≤ 1 := by
  have hpl : ((system fragile).play (Orderly fragile)
      [.execute 0, .settle 1 0 false, .execute 5, .execute 11] (.init 0)).any
      (fun s => decide (s.breaker.state = .halfOpen)) = true := by
    decide
  obtain ⟨s, hs, hstt⟩ := exists_reachable fragile_start hpl
  have hha := hstt
  exact ⟨s, hs, hha, (probes_alone hs).1 hha⟩

/-- Two calls are let through at once after the recovery timeout. -/
theorem probes_together : ∃ s, (system fragile).Reachable (fun _ _ => True) s ∧
    s.breaker.state = .halfOpen ∧ s.calls.length = 2 := by
  have hpl : ((system fragile).play (fun _ _ => True)
      [.execute 0, .settle 1 0 false, .execute 11, .execute 12] (.init 0)).any
      (fun s => decide (s.breaker.state = .halfOpen ∧ s.calls.length = 2)) = true := by
    decide
  exact exists_reachable fragile_start hpl

end Shared

end AiNet.Breaker
