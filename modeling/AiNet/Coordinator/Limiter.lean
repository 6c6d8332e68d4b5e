import AiNet.Coordinator.Changes
import AiNet.Core.Tally

/-!
# Slots, the queue and the count of nodes in flight

Of all a run keeps, the scheduler and the limiter see the `Control`: where each node stands,
the queue, and three counters. `Move` is what a small change does to it. The invariant is
`Wired`: the counters are the numbers of nodes in certain phases, the queue holds the waiting
nodes once each, and a node id is run for one node only.

Every move but the idle one takes a node further. `rank` bounds how far it can still go.
-/

namespace AiNet.Coordinator

open Core AiNet.Budget Relation List Function

variable {κ : Type} [DecidableEq κ] {n : Nat}

namespace Phase

/-- Counted by `inFlight`. -/
def live : Phase → Bool
  | .idle | .done _ => false
  | .taken | .waiting | .starting | .lookup | .calling _ _ | .answered _ | .retrying _ | .paying
  | .returned _ | .counted _ | .freed _ => true

def slotted : Phase → Bool
  | .idle | .taken | .waiting | .freed _ | .done _ => false
  | .starting | .lookup | .calling _ _ | .answered _ | .retrying _ | .paying | .returned _
  | .counted _ => true

/-- How far a call is from the last one of its node. -/
def callRank : Target → Nat
  | .override | .fallback => 0
  | .primary attempt _ => 2 + 2 * (primaryAttempts - attempt)

/-- How many turns a node may still take. -/
def rank : Phase → Nat
  | .idle => 17
  | .taken => 16
  | .waiting => 15
  | .starting => 14
  | .lookup => 13
  | .retrying (.call target) => 7 + callRank target
  | .calling target _ => 6 + callRank target
  | .answered _ | .retrying (.throw _) => 5
  | .paying => 4
  | .returned _ => 3
  | .counted _ => 2
  | .freed _ => 1
  | .done _ => 0

end Phase

/-- What the scheduler and the limiter see of a run. -/
structure Control (κ : Type) (n : Nat) where
  phase : Fin n → Phase
  queue : List (Fin n)
  active : Nat
  inFlight : Nat
  scheduled : Finset κ

def Run.control (s : Run κ n) : Control κ n :=
  ⟨s.phase, s.queue, s.active, s.inFlight, s.scheduled⟩

/-- What a small change does to the control of a run. -/
inductive Move (p : Plan κ n) : Control κ n → Control κ n → Prop where
  | stay {c} : Move p c c
  | take {c} (i) : p.nodeId i ∉ c.scheduled → Move p c
      { c with
        scheduled := insert (p.nodeId i) c.scheduled
        inFlight := c.inFlight + 1
        phase := update c.phase i .taken }
  | enqueue {c} (i) : c.phase i = .taken → p.concurrency ≤ c.active → Move p c
      { c with queue := c.queue ++ [i], phase := update c.phase i .waiting }
  | occupy {c} (i) : c.phase i = .taken → c.active < p.concurrency → Move p c
      { c with active := c.active + 1, phase := update c.phase i .starting }
  /-- A node that holds a slot goes on. -/
  | work {c} (i phase) : (c.phase i).slotted = true → phase.slotted = true →
      phase.rank < (c.phase i).rank → Move p c
      { c with phase := update c.phase i phase }
  | free {c} (i ending) : c.phase i = .counted ending → c.queue = [] → Move p c
      { c with active := c.active - 1, phase := update c.phase i (.freed ending) }
  | hand {c} (i ending j rest) : c.phase i = .counted ending → c.queue = j :: rest → Move p c
      { c with
        queue := rest
        phase := update (update c.phase i (.freed ending)) j .starting }
  | finish {c} (i ending) : c.phase i = .freed ending → Move p c
      { c with inFlight := c.inFlight - 1, phase := update c.phase i (.done ending) }

variable {p : Plan κ n} {guard : Run κ n → Event n → Prop} {marks : Fin n → Mark}
  {s s' : Run κ n} {c c' : Control κ n}

theorem rank_afterFailure (target : Target) (told : Option Int) (retryable : Bool)
    (message : String) : (Phase.retrying (Plan.afterFailure target retryable message)).rank <
      (Phase.calling target told).rank := by
  cases target with
  | override | fallback => exact Nat.lt_succ_self 5
  | primary =>
    unfold Plan.afterFailure
    dsimp only
    split
    · simp only [Phase.rank, Phase.callRank]
      omega
    · split
      · simp only [Phase.rank, Phase.callRank]
        omega
      · split
        · simp only [Phase.rank, Phase.callRank]
          omega
        · simp only [Phase.rank, Phase.callRank]
          omega

variable {i : Fin n}

theorem Move.of_work {phase : Phase} (phase' : Phase) (hph : s.phase i = phase)
    (hsl : phase.slotted = true) (hsl' : phase'.slotted = true) (hra : phase'.rank < phase.rank)
    (h : s'.control = { s.control with phase := update s.phase i phase' }) :
    Move p s.control s'.control := by
  rw [h]
  refine .work i phase' ?_ hsl' ?_
  · exact (congrArg Phase.slotted hph).trans hsl
  · exact lt_of_lt_of_eq hra (congrArg Phase.rank hph).symm

theorem Change.move (h : Change p guard s s') : Move p s.control s'.control := by
  cases h with
  | take i hab hrdy =>
    unfold Plan.ready at hrdy
    simp only [Bool.and_eq_true, Bool.not_eq_true', decide_eq_false_iff_not] at hrdy
    exact .take i hrdy.1.2
  | enqueue i hph hfl => exact .enqueue i hph hfl
  | occupy i hph hsl => exact .occupy i hph hsl
  | free i ending hph hque => exact .free i ending hph hque
  | hand i ending j rest hph hque => exact .hand i ending j rest hph hque
  | finish i ending hph => exact .finish i ending hph
  | refuse i hph => exact .of_work (.returned .refused) hph rfl rfl (by decide) rfl
  | dial i hph => exact .of_work (.calling .override none) hph rfl rfl (by decide) rfl
  | search i hph => exact .of_work .lookup hph rfl rfl (by decide) rfl
  | found i fallback hph =>
    refine .of_work (.calling (.primary 1 fallback) (some s.ledger.allowanceFor)) hph rfl rfl
      ?_ rfl
    exact Nat.lt_succ_self 12
  | missing i message hph =>
    exact .of_work (.retrying (.throw message)) hph rfl rfl (by simp [Phase.rank]) rfl
  | redial i target hph =>
    exact .of_work (.calling target (some s.ledger.allowanceFor)) hph rfl rfl
      (by simp [Phase.rank]) rfl
  | overridden i halt params told hph =>
    exact .of_work (.answered halt) hph rfl rfl (Nat.lt_succ_self 5) rfl
  | recorded i target halt params told hph =>
    refine .of_work (.answered halt) hph rfl rfl ?_ rfl
    simp only [Phase.rank]
    omega
  | fail i target retryable message told hph =>
    exact .of_work _ hph rfl rfl (rank_afterFailure target told retryable message) rfl
  | halt i hph => exact .of_work (.returned .failed) hph rfl rfl (by decide) rfl
  | complete i hph => exact .of_work .paying hph rfl rfl (by decide) rfl
  | throw i message hph =>
    exact .of_work (.returned .failed) hph rfl rfl (by simp [Phase.rank]) rfl
  | payment i ok hph =>
    exact .of_work (.returned .completed) hph rfl rfl (by decide) rfl
  | countCompleted i hph => exact .of_work (.counted .completed) hph rfl rfl (by decide) rfl
  | countFailed i ending hph =>
    exact .of_work (.counted ending) hph rfl rfl (Nat.lt_succ_self 2) rfl
  | abort | cancel | block | settleCancelled | settle => exact .stay

/-! ## The invariant -/

/-- The number of nodes in flight. -/
def flying (phase : Fin n → Phase) : Nat := tally (fun _ f => f.live.toNat) phase

/-- The number of nodes with a slot. -/
def seated (phase : Fin n → Phase) : Nat := tally (fun _ f => f.slotted.toNat) phase

theorem flying_update (phase : Fin n → Phase) (i : Fin n) (f : Phase) :
    flying (update phase i f) + (phase i).live.toNat = flying phase + f.live.toNat :=
  tally_update i f

theorem seated_update (phase : Fin n → Phase) (i : Fin n) (f : Phase) :
    seated (update phase i f) + (phase i).slotted.toNat = seated phase + f.slotted.toNat :=
  tally_update i f

variable {f : Phase}

theorem Phase.live_of_slotted (h : f.slotted = true) : f.live = true := by
  cases f with
  | idle | taken | waiting | freed | done => cases h
  | starting | lookup | calling | answered | retrying | paying | returned | counted => rfl

/-- The counters and the queue say what the phases say. -/
structure Wired (p : Plan κ n) (c : Control κ n) : Prop where
  inFlight : c.inFlight = flying c.phase
  active : c.active = seated c.phase
  nodup : c.queue.Nodup
  queued : ∀ i, i ∈ c.queue ↔ c.phase i = .waiting
  scheduled : ∀ i, c.phase i ≠ .idle → p.nodeId i ∈ c.scheduled
  unique : ∀ i j, c.phase i ≠ .idle → c.phase j ≠ .idle → p.nodeId i = p.nodeId j → i = j

theorem wired_blank (p : Plan κ n) (marks : Fin n → Mark) : Wired p (p.blank marks).control where
  inFlight := (tally_eq_zero fun _ => rfl).symm
  active := (tally_eq_zero fun _ => rfl).symm
  nodup := nodup_nil
  queued := by
    intro i
    refine ⟨fun h => absurd h not_mem_nil, fun h => ?_⟩
    cases h
  scheduled := by
    intro i h
    exact absurd rfl h
  unique := by
    intro i j h
    exact absurd rfl h

section Wired

omit [DecidableEq κ]

theorem Wired.active_pos (h : Wired p c) (hi : (c.phase i).slotted = true) :
    0 < c.active := by
  rw [h.active]
  refine tally_pos (i := i) ?_
  rw [hi]
  exact Nat.one_pos

theorem Wired.inFlight_pos (h : Wired p c) (hi : (c.phase i).live = true) :
    0 < c.inFlight := by
  rw [h.inFlight]
  refine tally_pos (i := i) ?_
  rw [hi]
  exact Nat.one_pos

theorem Wired.at_rest (h : Wired p c) (hz : c.inFlight = 0) (i : Fin n) :
    (c.phase i).live = false := by
  by_contra hlv
  have hpos := h.inFlight_pos (Bool.eq_true_of_not_eq_false hlv)
  omega

end Wired

theorem Wired.awake (h : Wired p c) (hm : Move p c c') {j : Fin n} (hj : c'.phase j ≠ .idle) :
    c.phase j ≠ .idle ∨ p.nodeId j ∉ c.scheduled ∧ p.nodeId j ∈ c'.scheduled ∧
      ∀ k, k ≠ j → c'.phase k = c.phase k := by
  have hmv : ∀ {i : Fin n} {f : Phase}, c.phase i ≠ .idle →
      update c.phase i f j ≠ .idle → c.phase j ≠ .idle := by
    intro i f hi hu
    by_cases hji : j = i
    · rw [hji]
      exact hi
    · rwa [update_of_ne hji] at hu
  cases hm with
  | stay => exact .inl hj
  | take i hfr =>
    by_cases hji : j = i
    · rw [hji]
      refine .inr ⟨hfr, Finset.mem_insert_self .., ?_⟩
      intro k hk
      exact update_of_ne hk ..
    · dsimp only at hj
      rw [update_of_ne hji] at hj
      exact .inl hj
  | enqueue i hph | occupy i hph
  | free i ending hph | finish i ending hph => exact .inl (hmv (hph.trans_ne Phase.noConfusion) hj)
  | work i phase hsl =>
    refine .inl (hmv ?_ hj)
    intro hil
    rw [hil] at hsl
    cases hsl
  | hand i ending k rest hph hque =>
    have hwts : c.phase k = .waiting := by
      rw [← h.queued, hque]
      exact mem_cons_self
    by_cases hjk : j = k
    · rw [hjk, hwts]
      exact .inl Phase.noConfusion
    · dsimp only at hj
      rw [update_of_ne hjk] at hj
      exact .inl (hmv (hph.trans_ne Phase.noConfusion) hj)

theorem Move.scheduled_subset (hm : Move p c c') : c.scheduled ⊆ c'.scheduled := by
  cases hm with
  | take => exact Finset.subset_insert ..
  | stay | enqueue | occupy | work | free | hand | finish => exact Finset.Subset.refl _

theorem Wired.claims (h : Wired p c) (hm : Move p c c') :
    (∀ i, c'.phase i ≠ .idle → p.nodeId i ∈ c'.scheduled) ∧
      ∀ i j, c'.phase i ≠ .idle → c'.phase j ≠ .idle → p.nodeId i = p.nodeId j → i = j := by
  constructor
  · intro i hi
    rcases h.awake hm hi with hold | ⟨_, hnew, _⟩
    · exact hm.scheduled_subset (h.scheduled i hold)
    · exact hnew
  · intro i j hi hj hid
    by_contra hij
    rcases h.awake hm hi with hoi | ⟨hfr, _, hrst⟩
    · rcases h.awake hm hj with hoj | ⟨hfr, _, _⟩
      · exact hij (h.unique i j hoi hoj hid)
      · exact hfr (hid ▸ h.scheduled i hoi)
    · -- the node with the same id stood elsewhere than idle before
      rw [hrst j (Ne.symm hij)] at hj
      exact hfr (hid ▸ h.scheduled j hj)

omit [DecidableEq κ] in
theorem Wired.idle (h : Wired p c) (hfr : p.nodeId i ∉ c.scheduled) : c.phase i = .idle := by
  by_contra hne
  exact hfr (h.scheduled i hne)

omit [DecidableEq κ] in
theorem Wired.head (h : Wired p c) {k : Fin n} {rest : List (Fin n)} (hque : c.queue = k :: rest)
    (hi : c.phase i ≠ .waiting) : c.phase k = .waiting ∧ k ≠ i := by
  have hwts : c.phase k = .waiting := by
    rw [← h.queued, hque]
    exact mem_cons_self
  exact ⟨hwts, fun hki => hi (hki ▸ hwts)⟩

omit [DecidableEq κ] in
theorem Wired.requeue (h : Wired p c) (hi : c.phase i ≠ .waiting)
    (hf : f ≠ .waiting) (j : Fin n) : j ∈ c.queue ↔ update c.phase i f j = .waiting := by
  by_cases hji : j = i
  · rw [hji, update_self, h.queued]
    exact iff_of_false hi hf
  · rw [update_of_ne hji]
    exact h.queued j

theorem Wired.queue (h : Wired p c) (hm : Move p c c') :
    c'.queue.Nodup ∧ ∀ i, i ∈ c'.queue ↔ c'.phase i = .waiting := by
  cases hm with
  | stay => exact ⟨h.nodup, h.queued⟩
  | take i hfr =>
    refine ⟨h.nodup, h.requeue ?_ Phase.noConfusion⟩
    intro hwts
    exact hfr (h.scheduled i (hwts.trans_ne Phase.noConfusion))
  | enqueue i hph =>
    have hout : i ∉ c.queue := by
      rw [h.queued, hph]
      exact Phase.noConfusion
    refine ⟨?_, ?_⟩
    · dsimp only
      rw [← concat_eq_append]
      exact h.nodup.concat hout
    · intro j
      dsimp only
      rw [mem_append, mem_singleton]
      by_cases hji : j = i
      · rw [hji, update_self]
        exact iff_of_true (.inr rfl) rfl
      · rw [update_of_ne hji, h.queued]
        exact or_iff_left hji
  | occupy i hph | free i ending hph | finish i ending hph =>
    exact ⟨h.nodup, h.requeue (hph.trans_ne Phase.noConfusion) Phase.noConfusion⟩
  | work i phase hsl hsl' =>
    refine ⟨h.nodup, h.requeue ?_ ?_⟩
    · intro hwts
      rw [hwts] at hsl
      cases hsl
    · intro hwts
      rw [hwts] at hsl'
      cases hsl'
  | hand i ending k rest hph hque =>
    have hnd : (k :: rest).Nodup := hque ▸ h.nodup
    refine ⟨(nodup_cons.mp hnd).2, ?_⟩
    intro j
    dsimp only
    by_cases hjk : j = k
    · -- the head of the queue has left it
      rw [hjk, update_self]
      exact iff_of_false (nodup_cons.mp hnd).1 Phase.noConfusion
    · rw [update_of_ne hjk, ← h.requeue (hph.trans_ne Phase.noConfusion) Phase.noConfusion, hque, mem_cons]
      exact (or_iff_right hjk).symm

omit [DecidableEq κ] in
theorem Wired.count (h : Wired p c) {f' : Phase} {inFlight active : Nat} (hph : c.phase i = f)
    (hlv : inFlight = c.inFlight + f'.live.toNat - f.live.toNat)
    (hsl : active = c.active + f'.slotted.toNat - f.slotted.toNat) :
    inFlight = flying (update c.phase i f') ∧ active = seated (update c.phase i f') := by
  have hfl := flying_update c.phase i f'
  have hse := seated_update c.phase i f'
  rw [hph, ← h.inFlight] at hfl
  rw [hph, ← h.active] at hse
  omega

theorem Wired.counters (h : Wired p c) (hm : Move p c c') :
    c'.inFlight = flying c'.phase ∧ c'.active = seated c'.phase := by
  cases hm with
  | stay => exact ⟨h.inFlight, h.active⟩
  | take i hfr => exact h.count (h.idle hfr) rfl rfl
  | enqueue i hph | occupy i hph | free i ending hph | finish i ending hph =>
    exact h.count hph rfl rfl
  | work i phase hold hnew =>
    refine h.count rfl ?_ ?_
    · rw [Phase.live_of_slotted hold, Phase.live_of_slotted hnew, Nat.add_sub_cancel]
    · rw [hold, hnew, Nat.add_sub_cancel]
  | hand i ending k rest hph hque =>
    -- two nodes move: one leaves its slot, the other takes it
    obtain ⟨hwts, hki⟩ := h.head hque (hph.trans_ne Phase.noConfusion)
    have hfre := flying_update c.phase i (.freed ending)
    have hlf := seated_update c.phase i (.freed ending)
    have hlv := flying_update (update c.phase i (.freed ending)) k .starting
    have hsl := seated_update (update c.phase i (.freed ending)) k .starting
    rw [update_of_ne hki, hwts] at hlv hsl
    rw [hph, ← h.inFlight] at hfre
    rw [hph, ← h.active] at hlf
    simp only [Phase.live, Phase.slotted, Bool.toNat_true, Bool.toNat_false] at hfre hlf hlv hsl
    dsimp only
    omega

/-- **Every move keeps the counters and the queue right.** -/
theorem Wired.step (h : Wired p c) (hm : Move p c c') : Wired p c' where
  inFlight := (h.counters hm).1
  active := (h.counters hm).2
  nodup := (h.queue hm).1
  queued := (h.queue hm).2
  scheduled := (h.claims hm).1
  unique := (h.claims hm).2

/-! ## How far a run can go -/

/-- The turns the nodes may still take. -/
def distance (phase : Fin n → Phase) : Nat := tally (fun _ f => f.rank) phase

theorem distance_update_lt {phase : Fin n → Phase}
    (h : f.rank < (phase i).rank) : distance (update phase i f) < distance phase := by
  have hupd : distance (update phase i f) + (phase i).rank = distance phase + f.rank :=
    tally_update i f
  omega

/-- **A move that changes a phase takes a node further.** -/
theorem Wired.distance (h : Wired p c) (hm : Move p c c') :
    c' = c ∨ AiNet.Coordinator.distance c'.phase < AiNet.Coordinator.distance c.phase := by
  cases hm with
  | stay => exact .inl rfl
  | take i hfr =>
    exact .inr (distance_update_lt (h.idle hfr ▸ Nat.lt_succ_self 16))
  | enqueue i hph =>
    exact .inr (distance_update_lt (hph ▸ Nat.lt_succ_self 15))
  | occupy i hph =>
    refine .inr (distance_update_lt ?_)
    rw [hph]
    decide
  | work i phase hsl hsl' hra => exact .inr (distance_update_lt hra)
  | free i ending hph =>
    refine .inr (distance_update_lt ?_)
    rw [hph]
    exact Nat.lt_succ_self 1
  | finish i ending hph =>
    refine .inr (distance_update_lt ?_)
    rw [hph]
    exact Nat.lt_succ_self 0
  | hand i ending k rest hph hque =>
    obtain ⟨hwts, hki⟩ := h.head hque (hph.trans_ne Phase.noConfusion)
    refine .inr (lt_trans (distance_update_lt ?_) (distance_update_lt ?_))
    · rw [update_of_ne hki, hwts]
      decide
    · rw [hph]
      exact Nat.lt_succ_self 1

/-! ## Runs -/

/-- The states that small changes lead to, between and within the turns of a run. -/
def Passed (p : Plan κ n) (guard : Run κ n → Event n → Prop) (marks : Fin n → Mark)
    (s : Run κ n) : Prop :=
  Changes p guard (p.blank marks) s

/-- **The rule for invariants of small changes.** -/
theorem Passed.invariant {I : Run κ n → Prop} (h0 : I (p.blank marks))
    (hst : ∀ s s', Passed p guard marks s → Change p guard s s' → I s → I s')
    (h : Passed p guard marks s) : I s := by
  have hbo : Passed p guard marks s ∧ I s := by
    refine chain_preserves (I := fun s => Passed p guard marks s ∧ I s) h ?_ ⟨.refl, h0⟩
    intro s s' hc hs
    exact ⟨hs.1.tail hc, hst s s' hs.1 hc hs.2⟩
  exact hbo.2

theorem Passed.wired (h : Passed p guard marks s) : Wired p s.control :=
  h.invariant (I := fun s => Wired p s.control) (wired_blank p marks) fun _ _ _ hc hw =>
    hw.step hc.move

theorem Passed.active_pos (h : Passed p guard marks s) (i : Fin n) (ending : Ending)
    (hi : s.phase i = .counted ending) : 0 < s.active :=
  h.wired.active_pos (i := i) (congrArg Phase.slotted hi)

theorem passed_of_reachable (h : (system p marks).Reachable guard s) :
    Passed p guard marks s := by
  refine System.Reachable.invariant ?_ ?_ h
  · intro s h0
    rw [show s = p.executeDAG marks from h0]
    exact executeDAG_changes marks
  · intro s e s' _ hg hs hst
    exact hs.trans (step_changes hs.active_pos hg hst)

end AiNet.Coordinator
