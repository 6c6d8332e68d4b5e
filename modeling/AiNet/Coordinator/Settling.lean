import AiNet.Coordinator.Accounting
import Mathlib.Algebra.GroupWithZero.Nat

/-!
# A run settles

Nothing but `finishIfSettled` ends a run, and it does so when the sizes of the accounting
sets add up to the number of nodes. Where the ids are distinct, every node starts out
pending or completed and the limiter has a slot, they do as soon as nothing is in flight:
`scheduleReadyNodes` then fails every node that is still pending. A repeated id is counted
once for two nodes, and a node in any other status is never counted.
-/

namespace AiNet.Coordinator

open Core AiNet.Budget Relation List Option Function System

variable {κ : Type} [DecidableEq κ] {n : Nat} {p : Plan κ n}
  {guard : Run κ n → Event n → Prop} {marks : Fin n → Mark} {s s' : Run κ n}

/-! ## The limiter lets no node wait for a free slot -/

theorem Passed.busy (h : Passed p guard marks s) : s.queue ≠ [] → p.concurrency ≤ s.active := by
  refine h.invariant (I := fun s => s.queue ≠ [] → p.concurrency ≤ s.active)
    (fun hne => absurd rfl hne) ?_
  intro s s' hs hc ih
  have hm := hc.move
  generalize hco : s'.control = c' at hm
  have hque : s'.queue = c'.queue := congrArg Control.queue hco
  have hact : s'.active = c'.active := congrArg Control.active hco
  rw [hque, hact]
  cases hm with
  | stay | take | work | finish => exact ih
  | enqueue i hph hfl => exact fun _ => hfl
  | occupy => exact fun hne => le_trans (ih hne) (Nat.le_succ _)
  | free i ending hph hemp => exact fun hne => absurd hemp hne
  | hand i ending j rest hph hhd =>
    intro _
    refine ih ?_
    rw [show s.queue = j :: rest from hhd]
    exact cons_ne_nil j rest

/-- No node is in flight but those in the queue. -/
def Quiet (s : Run κ n) : Prop := ∀ i, (s.phase i).live = false ∨ s.phase i = .waiting

instance (s : Run κ n) : Decidable (Quiet s) :=
  inferInstanceAs (Decidable (∀ i, (s.phase i).live = false ∨ s.phase i = .waiting))

theorem Quiet.step (h : Quiet s) {e : Event n} (he : e ≠ .abort) : step p s e = none := by
  have hnot : ∀ {i : Fin n} {f : Phase}, s.phase i = f → f.live = true → f ≠ .waiting → False := by
    intro i f hi hlv hne
    rcases h i with hstl | hwts
    · rw [hi, hlv] at hstl
      cases hstl
    · exact hne (hi.symm.trans hwts)
  cases e with
  | abort => exact absurd rfl he
  | agentsFor | answer | resume | payment | count | free | finish =>
    dsimp only [AiNet.Coordinator.step]
    split
    all_goals first
      | rfl
      | exact (hnot (by assumption) rfl Phase.noConfusion).elim

theorem Passed.inFlight_of_quiet (h : Passed p guard marks s) (hslo : 0 < p.concurrency)
    (hqt : Quiet s) : s.inFlight = 0 := by
  have hw := h.wired
  have hact : s.active = 0 := by
    refine hw.active.trans (tally_eq_zero fun i => ?_)
    rcases hqt i with hstl | hwts
    · cases hsl : (s.phase i).slotted with
      | true =>
        rw [Phase.live_of_slotted hsl] at hstl
        cases hstl
      | false =>
        rw [show (s.control.phase i).slotted = false from hsl]
        rfl
    · rw [show s.control.phase i = .waiting from hwts]
      rfl
  have hemp : s.queue = [] := by
    by_contra hne
    have hbu := h.busy hne
    omega
  refine hw.inFlight.trans (tally_eq_zero fun i => ?_)
  rcases hqt i with hstl | hwts
  · rw [show (s.control.phase i).live = false from hstl]
    rfl
  · have hin : i ∈ s.queue := (hw.queued i).mpr hwts
    rw [hemp] at hin
    cases hin

/-! ## What the loops leave alone -/

/-- A loop over the nodes' statuses leaves the counters and the phases alone. -/
structure Same (s s' : Run κ n) : Prop where
  inFlight : s'.inFlight = s.inFlight
  completed : s'.completed = s.completed
  settled : s'.settled = s.settled
  aborted : s'.aborted = s.aborted
  phase : s'.phase = s.phase

section

omit [DecidableEq κ]

theorem Same.refl (s : Run κ n) : Same s s := ⟨rfl, rfl, rfl, rfl, rfl⟩

theorem Same.trans {s s' s'' : Run κ n} (h : Same s s') (h' : Same s' s'') : Same s s'' where
  inFlight := h'.inFlight.trans h.inFlight
  completed := h'.completed.trans h.completed
  settled := h'.settled.trans h.settled
  aborted := h'.aborted.trans h.aborted
  phase := h'.phase.trans h.phase

end

theorem cancelPendingNodes_same (s : Run κ n) : Same s (p.cancelPendingNodes s) := by
  refine foldl_preserves (I := Same s) (fun t i ht => ht.trans ?_) _ (.refl s)
  unfold Plan.cancelNode
  split
  · exact .refl t
  · exact ⟨rfl, rfl, rfl, rfl, rfl⟩

theorem failBlockedNode_same (includeDeadlocked : Bool) (s : Run κ n) (i : Fin n) :
    Same s (p.failBlockedNode includeDeadlocked s i) := by
  unfold Plan.failBlockedNode
  split
  · exact .refl s
  · split
    · exact .refl s
    · exact ⟨rfl, rfl, rfl, rfl, rfl⟩

theorem failBlockedNodes_same (includeDeadlocked : Bool) (s : Run κ n) :
    Same s (p.failBlockedNodes includeDeadlocked s) :=
  foldl_preserves (I := Same s) (fun t i ht => ht.trans (failBlockedNode_same _ t i)) _ (.refl s)

section Finish

omit [DecidableEq κ]

theorem finishIfSettled_inFlight (s : Run κ n) :
    (Plan.finishIfSettled s).inFlight = s.inFlight := by
  unfold Plan.finishIfSettled
  split
  · rfl
  · split
    · rfl
    · split
      · rfl
      · rfl

theorem finishIfSettled_mono (h : s.settled = true) : Plan.finishIfSettled s = s := by
  unfold Plan.finishIfSettled
  rw [if_pos h]

theorem finishIfSettled_aborted (hab : s.aborted = true) (hz : s.inFlight = 0) :
    (Plan.finishIfSettled s).settled = true := by
  unfold Plan.finishIfSettled
  split
  · assumption
  · rw [if_pos ⟨hab, hz⟩]
    rfl

theorem finishIfSettled_counted (hca : s.completed.card + s.failed.card = n) :
    (Plan.finishIfSettled s).settled = true := by
  unfold Plan.finishIfSettled
  split
  · assumption
  · split
    · rfl
    · rw [if_neg fun hne => hne hca]
      rfl

end Finish

theorem runNode_inFlight (i : Fin n) (s : Run κ n) :
    (p.runNode i s).inFlight = s.inFlight := by
  unfold Plan.runNode Plan.dispatchWithRetry
  dsimp only
  split
  · split
    · rfl
    · rfl
  · rfl

theorem limiterRun_inFlight (i : Fin n) (s : Run κ n) :
    (p.limiterRun i s).inFlight = s.inFlight := by
  unfold Plan.limiterRun
  split
  · exact runNode_inFlight i _
  · rfl

/-! ## Nothing pending is left behind -/

theorem scheduleLoop_none (nodes : List (Fin n)) : ∀ (acc : Run κ n × Bool),
    (nodes.foldl p.scheduleNode acc).2 = false → acc.2 = false ∧ nodes.foldl p.scheduleNode acc = acc ∧
        ∀ i ∈ nodes, p.ready acc.1 i = false := by
  induction nodes with
  | nil => exact fun acc h => ⟨h, rfl, fun i hi => absurd hi not_mem_nil⟩
  | cons i nodes ih =>
    intro acc h
    obtain ⟨hfl, hfo, hno⟩ := ih _ h
    have hun : p.ready acc.1 i = false := by
      by_contra hrdy
      unfold Plan.scheduleNode at hfl
      rw [if_pos (Bool.eq_true_of_not_eq_false hrdy)] at hfl
      cases hfl
    have htn : p.scheduleNode acc i = acc := by
      unfold Plan.scheduleNode
      rw [if_neg (Bool.not_eq_true _ ▸ hun)]
    rw [htn] at hfl hfo hno
    refine ⟨hfl, ?_, ?_⟩
    · rw [foldl_cons, htn]
      exact hfo
    · intro j hj
      rcases mem_cons.mp hj with rfl | hj
      · exact hun
      · exact hno j hj

theorem scheduleLoop_inFlight (nodes : List (Fin n)) (s : Run κ n) :
    (nodes.foldl p.scheduleNode (s, false)).2 = true →
      0 < (nodes.foldl p.scheduleNode (s, false)).1.inFlight := by
  refine foldl_preserves (I := fun acc : Run κ n × Bool => acc.2 = true → 0 < acc.1.inFlight)
    (fun acc i hacc => ?_) nodes nofun
  unfold Plan.scheduleNode
  split
  · intro _
    rw [limiterRun_inFlight]
    exact Nat.succ_pos _
  · exact hacc

theorem failBlockedNode_pending {includeDeadlocked : Bool} {i j : Fin n}
    (h : ((p.failBlockedNode includeDeadlocked s i).marks j).status = .pending) :
    (s.marks j).status = .pending := by
  unfold Plan.failBlockedNode at h
  split at h
  · exact h
  · split at h
    · exact h
    · dsimp only [Run.setNode] at h
      by_cases hji : j = i
      · rw [hji, update_self] at h
        cases h
      · rwa [update_of_ne hji] at h

theorem failBlockedNode_stuck {i : Fin n} (hz : s.inFlight = 0)
    (hstu : (s.marks i).status = .pending → p.dependenciesMet s i = false) :
    ((p.failBlockedNode true s i).marks i).status ≠ .pending := by
  unfold Plan.failBlockedNode
  split
  · assumption
  · rename_i hpnd
    have hunm := hstu (not_not.mp hpnd)
    have hdd : p.isDeadlocked true s i = true := by
      unfold Plan.isDeadlocked
      rw [hunm, decide_eq_true hz]
      rfl
    rw [hdd, Bool.not_true, Bool.and_false, if_neg Bool.false_ne_true]
    dsimp only [Run.setNode]
    rw [update_self]
    exact NodeStatus.noConfusion

theorem failBlocked_stuck (nodes : List (Fin n)) : ∀ (s : Run κ n), s.inFlight = 0 →
    (∀ i, (s.marks i).status = .pending → p.dependenciesMet s i = false) →
      ∀ i, i ∈ nodes ∨ (s.marks i).status ≠ .pending →
        ((nodes.foldl (p.failBlockedNode true) s).marks i).status ≠ .pending := by
  induction nodes with
  | nil =>
    intro s _ _ i hi
    exact hi.resolve_left not_mem_nil
  | cons j nodes ih =>
    intro s hz hstu i hi
    have hsm := failBlockedNode_same (p := p) true s j
    refine ih _ (hsm.inFlight.trans hz) ?_ i ?_
    · intro k hk
      have hunm := hstu k (failBlockedNode_pending hk)
      unfold Plan.dependenciesMet at hunm ⊢
      rwa [hsm.completed]
    · by_cases hin : i ∈ nodes
      · exact .inl hin
      · refine .inr ?_
        by_cases hij : i = j
        · rw [hij]
          exact failBlockedNode_stuck hz (hstu j)
        · rcases hi with hmem | hdn
          · exact absurd ((mem_cons.mp hmem).resolve_left hij) hin
          · exact fun hpnd => hdn (failBlockedNode_pending hpnd)

/-! ## The count -/

theorem Accounted.card (h : Accounted p marks s) (hids : Function.Injective p.nodeId)
    (hall : ∀ i, p.nodeId i ∈ s.completed ∨ p.nodeId i ∈ s.failed) :
    s.completed.card + s.failed.card = n := by
  have huni : s.completed ∪ s.failed = Finset.univ.image p.nodeId := by
    ext id
    rw [Finset.mem_union, Finset.mem_image]
    constructor
    · intro hid
      obtain ⟨i, hi⟩ := h.known id hid
      exact ⟨i, Finset.mem_univ i, hi⟩
    · intro ⟨i, _, hi⟩
      exact hi ▸ hall i
  rw [← Finset.card_union_of_disjoint h.disjoint, huni, Finset.card_image_of_injective _ hids,
    Finset.card_univ, Fintype.card_fin]

omit [DecidableEq κ] in
theorem Accounted.all (h : Accounted p marks s)
    (hmks : ∀ i, (marks i).status = .pending ∨ (marks i).status = .completed)
    (hrst : ∀ i, (s.phase i).live = false) (hno : ∀ i, (s.marks i).status ≠ .pending) (i : Fin n) :
    p.nodeId i ∈ s.completed ∨ p.nodeId i ∈ s.failed := by
  rw [h.completed, h.failed]
  have hstl := hrst i
  cases hph : s.phase i with
  | idle =>
    rcases h.idle i hph with hsm | hblk
    · rcases hmks i with hpnd | hcmp
      · rw [← hsm] at hpnd
        exact absurd hpnd (hno i)
      · exact .inl (.inl hcmp)
    · exact .inr (.inr hblk)
  | done ending =>
    cases ending with
    | completed => exact .inl (.inr rfl)
    | refused => exact .inr (.inl ⟨.refused, rfl, Ending.noConfusion⟩)
    | failed => exact .inr (.inl ⟨.failed, rfl, Ending.noConfusion⟩)
  | taken | waiting | starting | lookup | calling | answered | retrying | paying | returned | counted
  | freed =>
    rw [hph] at hstl
    cases hstl

/-- **With nothing in flight after it, scheduling has settled the run.** -/
theorem scheduleReadyNodes_settled (hids : Function.Injective p.nodeId)
    (hmks : ∀ i, (marks i).status = .pending ∨ (marks i).status = .completed)
    (hs : Passed p guard marks s) (hz : (p.scheduleReadyNodes s).inFlight = 0) :
    (p.scheduleReadyNodes s).settled = true := by
  have haf : Passed p guard marks (p.scheduleReadyNodes s) :=
    hs.trans (scheduleReadyNodes_changes s)
  unfold Plan.scheduleReadyNodes at hz ⊢
  cases hab : s.aborted with
  | true =>
    rw [hab, if_pos rfl, finishIfSettled_inFlight] at hz
    rw [if_pos rfl]
    exact finishIfSettled_aborted ((cancelPendingNodes_same s).aborted.trans hab) hz
  | false =>
    rw [hab, if_neg Bool.false_ne_true] at hz
    rw [if_neg Bool.false_ne_true]
    dsimp only at hz ⊢
    cases hany : ((List.finRange n).foldl p.scheduleNode (s, false)).2 with
    | true =>
      -- a node was taken, and is in flight
      have hpos := scheduleLoop_inFlight (List.finRange n) s hany
      rw [hany, Bool.not_true, Bool.false_and, if_neg Bool.false_ne_true] at hz
      omega
    | false =>
      obtain ⟨_, hfo, hun⟩ := scheduleLoop_none (List.finRange n) (s, false) hany
      rw [hfo] at hz ⊢
      dsimp only at hz hun ⊢
      have hrst : s.inFlight = 0 := by
        by_contra hne
        rw [decide_eq_false hne, Bool.and_false, if_neg Bool.false_ne_true] at hz
        exact hne hz
      rw [decide_eq_true hrst, Bool.not_false, Bool.true_and, if_pos rfl]
      have hsm := failBlockedNodes_same (p := p) true s
      have hblk : Passed p guard marks (p.failBlockedNodes true s) :=
        hs.trans (failBlockedNodes_changes true s)
      have hacd := hblk.accounted hids (hsm.aborted.trans hab)
      refine finishIfSettled_counted (hacd.card hids ?_)
      have hstl : ∀ i, (s.phase i).live = false := hs.wired.at_rest hrst
      refine hacd.all hmks (by rw [hsm.phase]; exact hstl) ?_
      have hbf := hs.accounted hids hab
      intro i
      refine failBlocked_stuck _ s hrst ?_ i (.inl (mem_finRange i))
      -- a pending node is idle and was not taken, so its dependencies are not met
      intro j hpnd
      have hil : s.phase j = .idle := by
        cases hph : s.phase j with
        | idle => rfl
        | done ending =>
          have hst := (hbf.status j _ (congrArg Phase.status hph)).1
          rw [hpnd] at hst
          cases ending <;> cases hst
        | _ =>
          have hlv := hstl j
          rw [hph] at hlv
          cases hlv
      have hfr : p.nodeId j ∉ s.scheduled := by
        intro hin
        rcases hbf.scheduled j hin with hne | hcmp
        · exact hne hil
        · rw [hbf.initially_pending hil hpnd] at hcmp
          cases hcmp
      have hnot := hun j (mem_finRange j)
      unfold Plan.ready at hnot
      rw [decide_eq_true hpnd, decide_eq_false hfr] at hnot
      exact hnot

/-! ## Every turn -/

theorem free_inFlight (i : Fin n) (ending : Ending) (s : Run κ n) :
    (p.free i ending s).inFlight = s.inFlight := by
  unfold Plan.free
  dsimp only
  split
  · rfl
  · exact runNode_inFlight _ _

theorem step_inFlight {e : Event n} (hw : Wired p s.control) (h : step p s e = some s') :
    (s'.inFlight = s.inFlight ∧ 0 < s.inFlight) ∨ (s.aborted = false ∧ s' = p.abort s) ∨
      ∃ i ending, s.phase i = .freed ending ∧ s' = p.finish i ending s := by
  have hlv : ∀ {i : Fin n} {f : Phase}, s.phase i = f → f.live = true → 0 < s.inFlight :=
    fun hi hf => hw.inFlight_pos ((congrArg Phase.live hi).trans hf)
  cases e with
  | abort =>
    obtain ⟨hab, h⟩ := ite_none_left_eq_some.mp h
    exact .inr (.inl ⟨Bool.eq_false_of_not_eq_true hab, (some.inj h).symm⟩)
  | agentsFor i found =>
    dsimp only [step] at h
    split at h
    · rename_i hph
      cases h
      refine .inl ⟨?_, hlv hph rfl⟩
      cases found <;> rfl
    · cases h
  | answer i reply =>
    dsimp only [step] at h
    split at h
    · rename_i target told hph
      cases h
      refine .inl ⟨?_, hlv hph rfl⟩
      unfold Plan.answer
      cases reply with
      | result =>
        dsimp only
        split <;> rfl
      | failure => rfl
    · cases h
  | resume i =>
    dsimp only [step] at h
    split at h
    · rename_i halt hph
      cases h
      refine .inl ⟨?_, hlv hph rfl⟩
      unfold Plan.complete
      dsimp only
      split <;> rfl
    · rename_i target hph
      cases h
      exact .inl ⟨rfl, hlv hph rfl⟩
    · rename_i message hph
      cases h
      exact .inl ⟨rfl, hlv hph rfl⟩
    · cases h
  | payment i ok =>
    dsimp only [step] at h
    split at h
    · rename_i hph
      cases h
      exact .inl ⟨rfl, hlv hph rfl⟩
    · cases h
  | count i =>
    dsimp only [step] at h
    split at h
    · rename_i ending hph
      cases h
      refine .inl ⟨?_, hlv hph rfl⟩
      cases ending <;> rfl
    · cases h
  | free i =>
    dsimp only [step] at h
    split at h
    · rename_i ending hph
      cases h
      exact .inl ⟨free_inFlight i ending s, hlv hph rfl⟩
    · cases h
  | finish i =>
    dsimp only [step] at h
    split at h
    · rename_i ending hph
      exact .inr (.inr ⟨i, ending, hph, (some.inj h).symm⟩)
    · cases h

/-- **A run with nothing in flight has settled.** -/
theorem settled_of_rest (hids : Function.Injective p.nodeId)
    (hmks : ∀ i, (marks i).status = .pending ∨ (marks i).status = .completed)
    (h : (system p marks).Reachable guard s) : s.inFlight = 0 → s.settled = true := by
  refine System.Reachable.invariant (I := fun s => s.inFlight = 0 → s.settled = true) ?_ ?_ h
  · intro s h0
    rw [show s = p.executeDAG marks from h0]
    have hbla : Passed p guard marks (p.blank marks) := .refl
    exact scheduleReadyNodes_settled hids hmks hbla
  · intro s e s' hr hg ih hst hz
    have hs := passed_of_reachable hr
    rcases step_inFlight hs.wired hst with ⟨hsm, hpos⟩ | ⟨hab, rfl⟩ | ⟨i, ending, hph, rfl⟩
    · omega
    · -- the abort signal settles a run with nothing in flight
      unfold Plan.abort at hz ⊢
      rw [finishIfSettled_inFlight] at hz
      exact finishIfSettled_aborted (cancelPendingNodes_same _).aborted hz
    · -- the last node has ended, and the scheduler has settled the run
      unfold Plan.finish at hz ⊢
      have hedd : Passed p guard marks
          (({ s with inFlight := s.inFlight - 1 }).goto i (.done ending)) :=
        hs.tail (.finish i ending hph)
      rw [finishIfSettled_inFlight, (failBlockedNodes_same _ _).inFlight] at hz
      have hstl := scheduleReadyNodes_settled hids hmks hedd hz
      have hkpt := (failBlockedNodes_same (p := p) false _).settled.trans hstl
      rw [finishIfSettled_mono hkpt]
      exact hkpt

/-! ## One terminal status -/

/-- The task gets a terminal status. -/
def Effect.ends : Effect n → Bool
  | .task final => final.terminal
  | _ => false

omit [DecidableEq κ] in
theorem outcome_terminal (s : Run κ n) : (Plan.outcome s).terminal = true := by
  unfold Plan.outcome
  split
  · rfl
  · split <;> rfl

/-- **The task gets a terminal status once, when the run settles.** -/
theorem Passed.terminal (h : Passed p guard marks s) :
    s.log.countP Effect.ends = s.settled.toNat := by
  refine h.invariant (I := fun s => s.log.countP Effect.ends = s.settled.toNat) rfl ?_
  intro s s' hs hc ih
  cases hc with
  | settleCancelled hun =>
    dsimp only [Plan.settleCost, Run.note]
    rw [countP_append, ih, hun]
    rfl
  | settle hun =>
    dsimp only [Plan.settleCost, Run.note]
    rw [countP_append, ih, hun, countP_singleton,
      show (Effect.task (Plan.outcome s) : Effect n).ends = true from outcome_terminal s]
    rfl
  | take | enqueue | occupy | free | hand | finish | missing | overridden | fail | countCompleted
  | countFailed => exact ih
  | refuse | dial | search | found | redial | recorded | halt | complete | throw | payment | abort
  | cancel | block =>
    refine Eq.trans ?_ ih
    simp [Plan.enter, Plan.claim, Plan.failNodeForBudget, Plan.settleClaim, Plan.catchError,
      Plan.payment, Plan.dispatchNode, Plan.recordNodeUsage, Run.goto, Run.note, Run.setNode,
      Run.setStatus, Run.keep, Effect.ends]

/-! ## A run ends -/

/-- The turns that are still to come, at most. -/
def turnsLeft (s : Run κ n) : Nat := distance s.phase + (!s.aborted).toNat

theorem Passed.change_turnsLeft (hs : Passed p guard marks s) (hc : Change p guard s s') :
    turnsLeft s' ≤ turnsLeft s ∧ (Opens s s' → turnsLeft s' < turnsLeft s) := by
  have hab : (!s'.aborted).toNat ≤ (!s.aborted).toNat := by
    cases hs' : s'.aborted with
    | true => exact Nat.zero_le _
    | false => rw [hc.aborted hs']
  unfold turnsLeft
  rcases hs.wired.distance hc.move with hsm | hle
  · have hph : s'.phase = s.phase := congrArg Control.phase hsm
    rw [hph]
    refine ⟨Nat.add_le_add_left hab _, ?_⟩
    intro hops
    rcases hops with hmv | ⟨hbf, haf⟩
    · exact absurd hph hmv
    · rw [hbf, haf]
      exact Nat.lt_succ_self _
  · have hle' : distance s'.phase < distance s.phase := hle
    omega

theorem Passed.changes_turnsLeft (hs : Passed p guard marks s) (hc : Changes p guard s s') :
    turnsLeft s' ≤ turnsLeft s := by
  induction hc with
  | refl => exact le_refl _
  | tail hchn hla ih => exact le_trans (Passed.change_turnsLeft (hs.trans hchn) hla).1 ih

/-- **Every turn leaves fewer to come.** -/
theorem turnsLeft_logged {log : List (Run κ n × Event n)}
    (h : (system p marks).Logged guard s log) : log.length + turnsLeft s ≤ 17 * n + 1 := by
  induction h with
  | start h0 =>
    rename_i s
    rw [show s = p.executeDAG marks from h0]
    have hbla : Passed p guard marks (p.blank marks) := .refl
    have hsta := hbla.changes_turnsLeft (executeDAG_changes marks)
    have hbu : turnsLeft (p.blank marks) = 17 * n + 1 := by
      unfold turnsLeft distance tally Plan.blank
      simp [Phase.rank, Nat.mul_comm]
    rw [length_nil]
    omega
  | step hlog hg hst =>
    have hs := passed_of_reachable hlog.reachable
    obtain ⟨s₁, hfst, hops, hrst⟩ := step_opens hs.active_pos hg hst
    have hls := (hs.change_turnsLeft hfst).2 hops
    have hle := Passed.changes_turnsLeft (hs.tail hfst) hrst
    rw [length_append, length_singleton]
    omega

/--
**A run settles.** Where the ids are distinct, every node starts out pending or completed and the
limiter has a slot: once no continuation is left but those that wait for a slot, the run has
settled, and the task has got exactly one terminal status, none before. No run goes on for ever.
-/
theorem executeDAG_settles (p : Plan κ n) (marks : Fin n → Mark)
    (hids : Function.Injective p.nodeId)
    (hmarks : ∀ i, (marks i).status = .pending ∨ (marks i).status = .completed)
    (hslots : 0 < p.concurrency) {s : Run κ n} {log : List (Run κ n × Event n)}
    (h : (system p marks).Logged (fun _ _ => True) s log) :
    (Quiet s → s.settled = true) ∧ s.log.countP Effect.ends = s.settled.toNat ∧
      log.length ≤ 17 * n + 1 := by
  have hs := passed_of_reachable h.reachable
  refine ⟨?_, hs.terminal, ?_⟩
  · intro hqt
    exact settled_of_rest hids hmarks h.reachable (hs.inFlight_of_quiet hslots hqt)
  · have htur := turnsLeft_logged h
    omega

/-! ## Examples -/

instance (e : Event n) : Decidable (e = .abort) :=
  match e with
  | .abort => isTrue rfl
  | .agentsFor _ _ | .answer _ _ | .resume _ | .payment _ _ | .count _ | .free _ | .finish _ =>
    isFalse nofun

namespace Sample

/-- Nodes with the given ids and dependencies, three slots and a `dispatch` function. -/
def plan (n : Nat) (nodeId : Fin n → Nat) (dependencies : Fin n → List Nat) : Plan Nat n where
  nodeId := nodeId
  dependencies := dependencies
  concurrency := defaultConcurrency
  dispatchOverride := true
  budgetLimits := ⟨100, 10⟩
  dailyExceeded := fun _ => false

scoped instance nonzero : NeZero 2 := ⟨two_ne_zero⟩

/-- The second node depends on the first. -/
def chain : Plan Nat 2 := plan 2 (fun i => i) fun i => if i = 0 then [] else [0]

/-- Two nodes, one as good as the other. -/
def pair : Plan Nat 2 := plan 2 (fun i => i) fun _ => []

/-- Two nodes with one id. -/
def twins : Plan Nat 2 := plan 2 (fun _ => 0) fun _ => []

/-- Nodes as a new task has them. -/
def fresh {n : Nat} : Fin n → Mark := fun _ => ⟨.pending, none⟩

/-- The process crashed while the second node ran. -/
def crashed : Fin 2 → Mark := fun i => ⟨if i = 0 then .pending else .running, none⟩

/-- A node is dispatched, completed and paid. -/
def through {n : Nat} (i : Fin n) : List (Event n) :=
  [ .answer i (.result false ⟨none, 0, 0⟩), .resume i, .payment i true, .count i, .free i, .finish i ]

end Sample

/-- Two nodes run one after the other, and the run settles. -/
theorem executeDAG_settles_chain : ∃ s log,
    (system Sample.chain Sample.fresh).Logged (fun _ _ => True) s log ∧
      ((Quiet s → s.settled = true) ∧ s.log.countP Effect.ends = s.settled.toNat ∧
        log.length ≤ 17 * 2 + 1) ∧ Quiet s := by
  have hpl : ((system Sample.chain Sample.fresh).play (fun _ _ => True)
      (Sample.through 0 ++ Sample.through 1) (Sample.chain.executeDAG Sample.fresh)).any
        (fun s => decide (Quiet s)) = true := by decide
  obtain ⟨s, hlog, hqt⟩ := exists_logged (S := system Sample.chain Sample.fresh) (s := Sample.chain.executeDAG Sample.fresh) rfl hpl
  refine ⟨s, _, hlog, ?_, hqt⟩
  exact executeDAG_settles Sample.chain Sample.fresh (by decide) (by decide) (by decide) hlog

/--
A task that crashed while its second node ran, and one that has an id twice: the node that could
be dispatched is through, nothing but an abort can happen any more, and the run has not settled.
-/
theorem executeDAG_hangs :
    (∃ s, (system Sample.pair Sample.crashed).Reachable (fun _ e => e ≠ .abort) s ∧
      s.settled = false ∧ ∀ e, e ≠ .abort → step Sample.pair s e = none) ∧
    ∃ s, (system Sample.twins Sample.fresh).Reachable (fun _ e => e ≠ .abort) s ∧
      s.settled = false ∧ ∀ e, e ≠ .abort → step Sample.twins s e = none := by
  have hcr : ((system Sample.pair Sample.crashed).play (fun _ e => e ≠ .abort)
      (Sample.through 0) (Sample.pair.executeDAG Sample.crashed)).any
        (fun s => decide (Quiet s ∧ s.settled = false)) = true := by decide
  have htwi : ((system Sample.twins Sample.fresh).play (fun _ e => e ≠ .abort)
      (Sample.through 0) (Sample.twins.executeDAG Sample.fresh)).any
        (fun s => decide (Quiet s ∧ s.settled = false)) = true := by decide
  obtain ⟨s, hs, hstu⟩ := exists_reachable (S := system Sample.pair Sample.crashed) rfl hcr
  obtain ⟨t, ht, hstu'⟩ := exists_reachable (S := system Sample.twins Sample.fresh) rfl htwi
  have hqt := hstu
  have hqt' := hstu'
  exact ⟨⟨s, hs, hqt.2, fun e he => hqt.1.step he⟩, ⟨t, ht, hqt'.2, fun e he => hqt'.1.step he⟩⟩

end AiNet.Coordinator
