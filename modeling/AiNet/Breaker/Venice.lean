import AiNet.Breaker.Shared

/-!
# The Venice circuit breaker

A half-open breaker counts the probe slots it has handed out, but a call that settles does not say whether it holds
one. A call admitted while the breaker was closed can thus close an open breaker, or give back the slot of a probe.
Where only a probe of the period does either, the probes are bounded and the cooldown is kept.
-/

namespace AiNet.Breaker.Venice

open Core List Option System

structure CircuitBreakerOptions where
  failureThreshold : Nat
  cooldownMs : Int
  probeCount : Nat

structure CircuitBreaker where
  state : CircuitState
  failures : Nat
  openedAt : Int
  probesInFlight : Nat

/-- One failure opens the breaker, for ten milliseconds, and one probe is let through. -/
def fragile : CircuitBreakerOptions := ⟨1, 10, 1⟩

variable (options : CircuitBreakerOptions) (now : Int) (b : CircuitBreaker)

def transition (next : CircuitState) : CircuitBreaker :=
  if b.state = next then b
  else match next with
    | .opened => { b with state := next, openedAt := now, probesInFlight := 0 }
    | .halfOpen => { b with state := next, probesInFlight := 0 }
    | .closed => { b with state := next, probesInFlight := 0, failures := 0 }

def evaluateCooldown : CircuitBreaker :=
  if b.state = .opened ∧ options.cooldownMs ≤ now - b.openedAt then transition now b .halfOpen else b

/-- The breaker, and whether the call is admitted. -/
def acquire : CircuitBreaker × Bool :=
  let b := evaluateCooldown options now b
  if b.state = .opened then (b, false)
  else if b.state = .halfOpen then
    if options.probeCount ≤ b.probesInFlight then (b, false)
    else ({ b with probesInFlight := b.probesInFlight + 1 }, true)
  else (b, true)

def release : CircuitBreaker := { b with probesInFlight := b.probesInFlight - 1 }

def recordSuccess : CircuitBreaker :=
  let b := release b
  let b := if b.state ≠ .closed then transition now b .closed else b
  { b with failures := 0 }

def recordFailure : CircuitBreaker :=
  let b := release { b with failures := b.failures + 1 }
  if b.state = .halfOpen then transition now b .opened
  else if options.failureThreshold ≤ b.failures then transition now b .opened
  else b

inductive Outcome where
  | success
  | failure
  | release
  deriving DecidableEq

def record : Outcome → CircuitBreaker
  | .success => recordSuccess now b
  | .failure => recordFailure options now b
  | .release => release b

/-- The breaker, with the number of half-open periods so far and the time of the last opening. A call in flight
carries the period whose probe it is, if it is one. -/
structure Service where
  breaker : CircuitBreaker
  clock : Int
  period : Nat
  calls : List (Option Nat)
  lastOpening : Option Int

def Service.init (clock : Int) : Service := ⟨⟨.closed, 0, 0, 0⟩, clock, 0, [], none⟩

inductive Event where
  | acquire (now : Int)
  | settle (now : Int) (call : Option Nat) (outcome : Outcome)

/-- The service after the cooldown has been looked at. -/
def Service.cooled (s : Service) : Service :=
  let b := evaluateCooldown options now s.breaker
  { s with breaker := b, clock := now, period := if b.state = s.breaker.state then s.period else s.period + 1 }

/-- An admitted call is in flight, as a probe if the breaker is half-open. -/
def Service.asked (s : Service) (answer : CircuitBreaker × Bool) : Service :=
  let call := if answer.1.state = .halfOpen then some s.period else none
  { s with breaker := answer.1, calls := if answer.2 then call :: s.calls else s.calls }

def Service.settled (call : Option Nat) (s : Service) : Service :=
  { s with
    breaker := b
    clock := now
    calls := s.calls.erase call
    lastOpening := if s.breaker.state ≠ .opened ∧ b.state = .opened then some now else s.lastOpening }

def step (s : Service) : Event → Option Service
  | .acquire now =>
    if now < s.clock then none else some ((s.cooled options now).asked (acquire options now s.breaker))
  | .settle now call outcome =>
    if now < s.clock ∨ call ∉ s.calls then none
    else some (s.settled now (record options now s.breaker outcome) call)

def system : System Service Event where
  start s := ∃ clock, s = .init clock
  step := step options

theorem fragile_start : (system fragile).start (.init 0) := ⟨0, rfl⟩

variable {options now b}

/-- Only a probe of the period succeeds while the breaker is not closed, or is released while it is half-open. -/
def Orderly (s : Service) : Event → Prop
  | .acquire _ => True
  | .settle _ call outcome => match outcome with
    | .success => s.breaker.state = .closed ∨ (s.breaker.state = .halfOpen ∧ call = some s.period)
    | .failure => True
    | .release => s.breaker.state = .halfOpen → call = some s.period

instance (s : Service) : (e : Event) → Decidable (Orderly s e)
  | .acquire _ => .isTrue trivial
  | .settle _ call outcome => by cases outcome <;> unfold Orderly <;> infer_instance

variable (options now b) in
theorem evaluateCooldown_cases : (evaluateCooldown options now b = b ∨ (b.state = .opened ∧
    options.cooldownMs ≤ now - b.openedAt ∧
      evaluateCooldown options now b = { b with state := .halfOpen, probesInFlight := 0 })) := by
  unfold evaluateCooldown transition
  split
  · rename_i hdue
    rw [if_neg (hdue.1.trans_ne CircuitState.noConfusion)]
    exact .inr ⟨hdue.1, hdue.2, rfl⟩
  · exact .inl rfl

variable (options now b) in
theorem acquire_cases : acquire options now b = (evaluateCooldown options now b, false) ∨
    ∃ b', acquire options now b = (b', true) ∧ ((b'.state = .closed ∧ b' = evaluateCooldown options now b) ∨
        (b'.state = .halfOpen ∧ (evaluateCooldown options now b).probesInFlight < options.probeCount ∧
          b' = { evaluateCooldown options now b with
            probesInFlight := (evaluateCooldown options now b).probesInFlight + 1 })) := by
  unfold acquire
  dsimp only
  split
  · exact .inl rfl
  · rename_i hon
    split
    · rename_i hha
      split
      · exact .inl rfl
      · rename_i hfl
        exact .inr ⟨_, rfl, .inr ⟨hha, Nat.not_le.mp hfl, rfl⟩⟩
    · rename_i hha
      refine .inr ⟨_, rfl, .inl ⟨?_, rfl⟩⟩
      cases hstt : (evaluateCooldown options now b).state with
      | closed => rfl
      | opened => exact absurd hstt hon
      | halfOpen => exact absurd hstt hha

theorem recordSuccess_eq : recordSuccess now b =
    ⟨.closed, 0, b.openedAt, if b.state = .closed then b.probesInFlight - 1 else 0⟩ := by
  cases hstt : b.state <;> simp [recordSuccess, release, transition, hstt]

theorem recordFailure_cases {b' : CircuitBreaker} (h : recordFailure options now b = b') :
    (b'.state = b.state ∧ b'.openedAt = b.openedAt ∧ b.state ≠ .halfOpen ∧
        b'.probesInFlight = b.probesInFlight - 1) ∨
      (b.state ≠ .opened ∧ b' = ⟨.opened, b.failures + 1, now, 0⟩) := by
  subst h
  by_cases hdue : options.failureThreshold ≤ b.failures + 1 <;>
    cases hstt : b.state <;> simp [recordFailure, release, transition, hstt, hdue]

structure Service.Sound (options : CircuitBreakerOptions) (s : Service) : Prop where
  idle : s.breaker.state ≠ .halfOpen → s.breaker.probesInFlight = 0
  slots : s.breaker.state = .halfOpen →
    s.breaker.probesInFlight = s.calls.count (some s.period) ∧ s.breaker.probesInFlight ≤ options.probeCount
  past : ∀ p, some p ∈ s.calls → p ≤ s.period
  opened : s.breaker.state = .opened → s.lastOpening = some s.breaker.openedAt
  cool : s.breaker.state ≠ .opened → ∀ t, s.lastOpening = some t → t + options.cooldownMs ≤ s.clock

theorem sound_cooled {s : Service} (h : s.Sound options) (hnow : s.clock ≤ now) : (s.cooled options now).Sound options := by
  unfold Service.cooled
  rcases evaluateCooldown_cases options now s.breaker with heq | ⟨hon, hdue, heq⟩
  · rw [heq]
    exact ⟨h.idle, by simpa using h.slots, by simpa using h.past, h.opened,
      fun hstt t ht => (h.cool hstt t ht).trans hnow⟩
  · have hnew : s.calls.count (some (s.period + 1)) = 0 :=
      count_eq_zero.mpr fun hmem => Nat.not_succ_le_self _ (h.past _ hmem)
    rw [heq]
    dsimp only
    rw [if_neg (fun hsm => CircuitState.noConfusion (hsm.trans hon))]
    refine ⟨fun hstt => absurd rfl hstt, fun _ => ⟨hnew.symm, Nat.zero_le _⟩,
      fun p hp => Nat.le_succ_of_le (h.past p hp), nofun, fun _ t ht => ?_⟩
    cases (h.opened hon).symm.trans ht
    exact Int.add_le_of_le_sub_left hdue

theorem sound_step {s s' : Service} {e : Event} (h : s.Sound options) (hg : Orderly s e)
    (hs : step options s e = some s') : s'.Sound options := by
  cases e with
  | acquire now =>
    obtain ⟨hclk, hs⟩ := ite_none_left_eq_some.mp hs
    cases hs
    have hc := sound_cooled h (Int.not_lt.mp hclk)
    rcases acquire_cases options now s.breaker with heq | ⟨b, heq, ⟨hcld, hb⟩ | ⟨hha, hfr, hb⟩⟩
    · rw [heq]
      exact hc
    · rw [heq, hb]
      have hcld : (evaluateCooldown options now s.breaker).state = .closed := hb ▸ hcld
      have hha : (evaluateCooldown options now s.breaker).state ≠ .halfOpen :=
        hcld.trans_ne CircuitState.noConfusion
      refine ⟨hc.idle, fun hstt => absurd hstt hha, fun p hp => ?_, hc.opened, hc.cool⟩
      rw [Service.asked, if_neg hha] at hp
      exact hc.past p ((mem_cons.mp hp).resolve_left nofun)
    · have hha : (evaluateCooldown options now s.breaker).state = .halfOpen := by rwa [hb] at hha
      obtain ⟨hslo, -⟩ := hc.slots hha
      rw [heq, hb, Service.asked, if_pos hha]
      refine ⟨fun hstt => absurd hha hstt, fun _ => ⟨?_, hfr⟩, fun p hp => ?_, hc.opened, hc.cool⟩
      · exact (congrArg (· + 1) hslo).trans count_cons_self.symm
      · rcases mem_cons.mp hp with hp | hp
        · cases hp
          exact le_refl _
        · exact hc.past p hp
  | settle now call outcome =>
    obtain ⟨hcd, hs⟩ := ite_none_left_eq_some.mp hs
    cases hs
    have hnow : s.clock ≤ now := Int.not_lt.mp (not_or.mp hcd).1
    have hps : ∀ p, some p ∈ s.calls.erase call → p ≤ s.period := fun p hp => h.past p (mem_of_mem_erase hp)
    have hco : s.breaker.state ≠ .opened → ∀ t, s.lastOpening = some t → t + options.cooldownMs ≤ now :=
      fun hstt t ht => (h.cool hstt t ht).trans hnow
    unfold Service.settled
    cases outcome with
    | success =>
      have hstt : s.breaker.state ≠ .opened := fun hon =>
        hg.elim (fun hcld => CircuitState.noConfusion (hon.symm.trans hcld))
          fun hha => CircuitState.noConfusion (hon.symm.trans hha.1)
      generalize hb : record options now s.breaker .success = b
      obtain rfl := hb.symm.trans recordSuccess_eq
      have hkpt : ¬(s.breaker.state ≠ .opened ∧ CircuitState.closed = .opened) := fun hopd => nomatch hopd.2
      rw [if_neg hkpt]
      refine ⟨fun _ => ?_, nofun, hps, nofun, fun _ => hco hstt⟩
      dsimp only
      split
      · rename_i hcld
        rw [h.idle (hcld.trans_ne CircuitState.noConfusion)]
      · rfl
    | failure =>
      generalize hb : record options now s.breaker .failure = b
      rcases recordFailure_cases hb with ⟨hstt, hat, hha, hpr⟩ | ⟨hon, rfl⟩
      · rw [if_neg (fun hopd => hopd.1 (hstt.symm.trans hopd.2))]
        refine ⟨fun _ => ?_, fun hs => absurd (hstt.symm.trans hs) hha, hps, fun hon => ?_, fun hon => ?_⟩
        · rw [hpr, h.idle hha]
        · rw [hat]
          exact h.opened (hstt.symm.trans hon)
        · exact hco (hstt ▸ hon)
      · rw [if_pos ⟨hon, rfl⟩]
        exact ⟨fun _ => rfl, nofun, hps, fun _ => rfl, fun hstt => absurd rfl hstt⟩
    | release =>
      dsimp only [record, release]
      simp only [ne_eq, not_and_self, if_false]
      refine ⟨fun hstt => ?_, fun hha => ?_, hps, h.opened, hco⟩
      · rw [h.idle hstt]
      · obtain ⟨hslo, hbd⟩ := h.slots hha
        obtain rfl := hg hha
        exact ⟨(congrArg (· - 1) hslo).trans count_erase_self.symm, (Nat.sub_le ..).trans hbd⟩

theorem sound_reachable {s : Service} (h : (system options).Reachable Orderly s) : s.Sound options := by
  refine h.invariant (I := Service.Sound options) ?_ fun s e s' _ hg hI hs => sound_step hI hg hs
  rintro _ ⟨clock, rfl⟩
  exact ⟨fun _ => rfl, nofun, nofun, nofun, fun _ => nofun⟩

/-- What a step owes: a call is admitted after the cooldown of the last opening, and only a probe of the period closes
the breaker. -/
def Kept (options : CircuitBreakerOptions) (s s' : Service) (e : Event) : Prop :=
  (∀ now, e = .acquire now → s'.calls ≠ s.calls → ∀ t, s.lastOpening = some t → t + options.cooldownMs ≤ now) ∧
    (s.breaker.state ≠ .closed → s'.breaker.state = .closed → s.breaker.state = .halfOpen ∧
      some s.period ∈ s.calls ∧ ∃ now, e = .settle now (some s.period) .success)

/--
**The Venice breaker bounds its probes.** In a run whose steps are orderly, at most `probeCount` probes of the period
are unsettled, no call is admitted within the cooldown of the last opening, only a probe of the period closes the
breaker, and no slot stays reserved when every call is settled.
-/
theorem probes_bounded {s : Service} (h : (system options).Reachable Orderly s) :
    (s.breaker.state = .halfOpen → s.calls.count (some s.period) ≤ options.probeCount) ∧
      (s.calls = [] → s.breaker.probesInFlight = 0) ∧
      ∀ e s', Orderly s e → step options s e = some s' → Kept options s s' e := by
  have hI := sound_reachable h
  refine ⟨fun hha => ?_, fun hno => ?_, fun e s' hg hs => ⟨?_, fun hstt hcld => ?_⟩⟩
  · obtain ⟨hslo, hbd⟩ := hI.slots hha
    exact hslo ▸ hbd
  · by_cases hha : s.breaker.state = .halfOpen
    · rw [(hI.slots hha).1, hno, count_nil]
    · exact hI.idle hha
  · rintro now rfl hcs
    obtain ⟨hclk, hs⟩ := ite_none_left_eq_some.mp hs
    cases hs
    have hc := sound_cooled hI (Int.not_lt.mp hclk)
    rcases acquire_cases options now s.breaker with heq | ⟨b, heq, ⟨hstt, hb⟩ | ⟨hstt, -, hb⟩⟩
    · exact absurd (by rw [heq]; rfl) hcs
    · exact hc.cool fun hon => CircuitState.noConfusion (hstt.symm.trans ((congrArg _ hb).trans hon))
    · exact hc.cool fun hon => CircuitState.noConfusion (hstt.symm.trans ((congrArg _ hb).trans hon))
  · cases e with
    | acquire now =>
      obtain ⟨-, hs⟩ := ite_none_left_eq_some.mp hs
      cases hs
      have hco : (evaluateCooldown options now s.breaker).state = .closed := by
        rcases acquire_cases options now s.breaker with heq | ⟨b, heq, ⟨-, rfl⟩ | ⟨-, -, rfl⟩⟩ <;>
          rwa [Service.asked, heq] at hcld
      rcases evaluateCooldown_cases options now s.breaker with heq | ⟨-, -, heq⟩
      · exact absurd (heq ▸ hco) hstt
      · exact nomatch heq ▸ hco
    | settle now call outcome =>
      obtain ⟨hcd, hs⟩ := ite_none_left_eq_some.mp hs
      cases hs
      have hmem := not_not.mp (not_or.mp hcd).2
      cases outcome with
      | success =>
        obtain ⟨hha, rfl⟩ := hg.resolve_left hstt
        exact ⟨hha, hmem, now, rfl⟩
      | failure =>
        rcases recordFailure_cases (rfl : recordFailure options now s.breaker = _) with hb | hb
        · exact absurd (hb.1.symm.trans hcld) hstt
        · exact absurd ((congrArg CircuitBreaker.state hb.2).symm.trans hcld) nofun
      | release => exact absurd hcld hstt

/-- One failure, and a probe ten milliseconds later. -/
theorem probes_bounded_once : ∃ s, (system fragile).Reachable Orderly s ∧ s.breaker.state = .halfOpen ∧
    s.calls.count (some s.period) ≤ 1 := by
  have hpl : ((system fragile).play Orderly [.acquire 0, .settle 1 none .failure, .acquire 11] (.init 0)).any
      (fun s => decide (s.breaker.state = .halfOpen)) = true := by
    decide
  obtain ⟨s, hs, hstt⟩ := exists_reachable fragile_start hpl
  have hha := hstt
  exact ⟨s, hs, hha, (probes_bounded hs).1 hha⟩

/-- A call from before the opening closes the breaker within the cooldown. -/
theorem open_breaker_closed : ∃ s, (system fragile).Reachable (fun _ _ => True) s ∧ s.breaker.state = .opened ∧
    ∃ s', step fragile s (.settle 2 none .success) = some s' ∧ s'.breaker.state = .closed := by
  have hpl : ((system fragile).play (fun _ _ => True)
      [.acquire 0, .acquire 0, .settle 1 none .failure] (.init 0)).any
      (fun s => decide (s.breaker.state = .opened ∧ (step fragile s (.settle 2 none .success)).any
        (fun s' => decide (s'.breaker.state = .closed)) = true)) = true := by
    decide
  obtain ⟨s, hs, hon, hst⟩ := exists_reachable fragile_start hpl
  obtain ⟨s', hs', hcld⟩ := (Option.any_eq_true ..).mp hst
  exact ⟨s, hs, hon, s', hs', of_decide_eq_true hcld⟩

end AiNet.Breaker.Venice
