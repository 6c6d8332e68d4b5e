import AiNet.Coordinator.Execution
import AiNet.Core.Trace

/-!
# What a turn of the event loop can do

A turn re-enters the scheduler and the limiter and may move many nodes. `Change` lists the
small changes it is made of, each with what the code checked before it; `step_changes` says
that a turn is a chain of them. An invariant of the run is then shown for the small changes,
once each, whatever the order of the loops around them.

The relation carries the guard of the runs, for the changes that an outside event brings:
the abort signal, a call that goes out, an answer.
-/

namespace AiNet.Coordinator

open Core AiNet.Budget Relation Function Plan

variable {κ : Type} [DecidableEq κ] {n : Nat}

/-- One small change of a run. -/
inductive Change (p : Plan κ n) (guard : Run κ n → Event n → Prop) : Run κ n → Run κ n → Prop where
  -- the scheduler and the limiter
  | take {s} (i) : s.aborted = false → p.ready s i = true → Change p guard s (p.take s i)
  | enqueue {s} (i) : s.phase i = .taken → p.concurrency ≤ s.active →
      Change p guard s (({ s with queue := s.queue ++ [i] }).goto i .waiting)
  | occupy {s} (i) : s.phase i = .taken → s.active < p.concurrency →
      Change p guard s (({ s with active := s.active + 1 }).goto i .starting)
  | free {s} (i ending) : s.phase i = .counted ending → s.queue = [] →
      Change p guard s (({ s with active := s.active - 1 }).goto i (.freed ending))
  | hand {s} (i ending j rest) : s.phase i = .counted ending → s.queue = j :: rest →
      Change p guard s ((({ s with queue := rest }).goto i (.freed ending)).goto j .starting)
  | finish {s} (i ending) : s.phase i = .freed ending →
      Change p guard s (({ s with inFlight := s.inFlight - 1 }).goto i (.done ending))
  -- a node
  | refuse {s} (i) : s.phase i = .starting → p.maySpend s i = false →
      Change p guard s ((p.failNodeForBudget (enter i s) i).goto i (.returned .refused))
  | dial {s} (i) : s.phase i = .starting → p.maySpend s i = true → p.dispatchOverride = true →
      Change p guard s ((((p.claim i (enter i s)).note (.dispatch i)).note
        (.call i .override none)).goto i (.calling .override none))
  | search {s} (i) : s.phase i = .starting → p.maySpend s i = true → p.dispatchOverride = false →
      Change p guard s (((p.claim i (enter i s)).note (.dispatch i)).goto i .lookup)
  | found {s} (i fallback) : s.phase i = .lookup → guard s (.agentsFor i (.ok fallback)) →
      Change p guard s (dispatchNode i (.primary 1 fallback) s)
  | missing {s} (i message) : s.phase i = .lookup → Change p guard s (s.goto i (.retrying (.throw message)))
  | redial {s} (i target) : s.phase i = .retrying (.call target) → guard s (.resume i) →
      Change p guard s (dispatchNode i target s)
  | overridden {s} (i halt params told) : s.phase i = .calling .override told →
      guard s (.answer i (.result halt params)) → Change p guard s (s.goto i (.answered halt))
  | recorded {s} (i target halt params told) : s.phase i = .calling target told →
      target ≠ .override → guard s (.answer i (.result halt params)) →
      Change p guard s ((p.recordNodeUsage i params s).goto i (.answered halt))
  | fail {s} (i target retryable message told) : s.phase i = .calling target told →
      Change p guard s (s.goto i (.retrying (afterFailure target retryable message)))
  | halt {s} (i) : s.phase i = .answered true →
      Change p guard s ((p.failNodeForBudget (p.settleClaim s i) i).goto i (.returned .failed))
  | complete {s} (i) : s.phase i = .answered false →
      Change p guard s ((((p.settleClaim s i).setStatus i .completed).note (.release i)).goto i
        .paying)
  | throw {s} (i message) : s.phase i = .retrying (.throw message) →
      Change p guard s (p.catchError i message s)
  | payment {s} (i ok) : s.phase i = .paying → Change p guard s (Plan.payment i ok s)
  | countCompleted {s} (i) : s.phase i = .returned .completed →
      Change p guard s (({ s with completed := insert (p.nodeId i) s.completed }).goto i
        (.counted .completed))
  | countFailed {s} (i ending) : s.phase i = .returned ending → ending ≠ .completed →
      Change p guard s (({ s with failed := insert (p.nodeId i) s.failed }).goto i
        (.counted ending))
  -- the accounting
  | abort {s} : s.aborted = false → guard s .abort →
      Change p guard s (({ s with aborted := true }).note .aborted)
  | cancel {s} (i) : s.aborted = true → (s.marks i).status = .pending →
      Change p guard s { s.setNode i ⟨.cancelled, some "task_cancelled"⟩ with
        failed := insert (p.nodeId i) s.failed }
  | block {s} (i error) : (s.marks i).status = .pending →
      (p.hasFailedDependency s i = true ∨ p.hasUnresolvedDependency i = true ∨
        s.inFlight = 0 ∧ p.dependenciesMet s i = false) →
      Change p guard s { s.setNode i ⟨.failed, some error⟩ with
        failed := insert (p.nodeId i) s.failed }
  | settleCancelled {s} : s.settled = false → s.aborted = true → s.inFlight = 0 →
      Change p guard s (settleCost (({ s with settled := true }).note (.task .cancelled)))
  | settle {s} : s.settled = false → s.completed.card + s.failed.card = n → Change p guard s (settleCost
        { ({ s with settled := true }).note (.task (outcome s)) with paymentFailed := false })

/-- Small changes in a row. -/
abbrev Changes (p : Plan κ n) (guard : Run κ n → Event n → Prop) : Run κ n → Run κ n → Prop :=
  ReflTransGen (Change p guard)

variable {p : Plan κ n} {guard : Run κ n → Event n → Prop} {s s' : Run κ n}

/-! ## The accounting -/

theorem finishIfSettled_changes (s : Run κ n) : Changes p guard s (finishIfSettled s) := by
  unfold finishIfSettled
  cases hstl : s.settled with
  | true => exact .refl
  | false =>
    rw [if_neg Bool.false_ne_true]
    split
    · rename_i hab
      exact .single (.settleCancelled hstl hab.1 hab.2)
    · split
      · exact .refl
      · rename_i hca
        exact .single (.settle hstl (not_not.mp hca))

theorem cancelNode_aborted (s : Run κ n) (i : Fin n) : (p.cancelNode s i).aborted = s.aborted := by
  unfold cancelNode
  split
  · rfl
  · rfl

theorem cancelPendingNodes_changes (hs : s.aborted = true) :
    Changes p guard s (p.cancelPendingNodes s) := by
  unfold cancelPendingNodes
  generalize List.finRange n = nodes
  induction nodes generalizing s with
  | nil => exact .refl
  | cons i nodes ih =>
    have hi : (p.cancelNode s i).aborted = true := (cancelNode_aborted s i).trans hs
    refine ReflTransGen.trans ?_ (ih hi)
    unfold cancelNode
    split
    · exact .refl
    · rename_i hpnd
      exact .single (.cancel i hs (not_not.mp hpnd))

theorem failBlockedNodes_changes (includeDeadlocked : Bool) (s : Run κ n) :
    Changes p guard s (p.failBlockedNodes includeDeadlocked s) := by
  refine chain_foldl (fun s i => ?_) _ s
  unfold failBlockedNode
  split
  · exact .refl
  · rename_i hpnd
    split
    · exact .refl
    · rename_i hblk
      refine .single (.block i _ (not_not.mp hpnd) ?_)
      unfold isDeadlocked at hblk
      simp only [Bool.and_eq_true, Bool.not_eq_true', decide_eq_true_eq, not_and,
        Bool.and_eq_false_imp] at hblk
      by_cases hfai : p.hasFailedDependency s i = true
      · exact .inl hfai
      · by_cases hmis : p.hasUnresolvedDependency i = true
        · exact .inr (.inl hmis)
        · -- neither, so the node is found deadlocked
          refine .inr (.inr ?_)
          simp_all

/-! ## Scheduling -/

theorem runNode_changes (i : Fin n) (hs : s.phase i = .starting) :
    Changes p guard s (p.runNode i s) := by
  unfold runNode dispatchWithRetry
  dsimp only
  split
  · rename_i hspe
    split
    · rename_i hov
      exact .single (.dial i hs hspe hov)
    · rename_i hov
      exact .single (.search i hs hspe (Bool.eq_false_of_not_eq_true hov))
  · rename_i hspe
    exact .single (.refuse i hs (Bool.eq_false_of_not_eq_true hspe))

theorem limiterRun_changes (i : Fin n) (hs : s.phase i = .taken) :
    Changes p guard s (p.limiterRun i s) := by
  unfold limiterRun
  split
  · rename_i hsl
    refine .head (.occupy i hs hsl) (runNode_changes i ?_)
    exact Run.goto_phase_self _ i .starting
  · rename_i hfl
    exact .single (.enqueue i hs (Nat.le_of_not_lt hfl))

theorem runNode_aborted (i : Fin n) (s : Run κ n) : (p.runNode i s).aborted = s.aborted := by
  unfold runNode dispatchWithRetry
  dsimp only
  split
  · split
    · rfl
    · rfl
  · rfl

theorem limiterRun_aborted (i : Fin n) (s : Run κ n) : (p.limiterRun i s).aborted = s.aborted := by
  unfold limiterRun
  split
  · exact runNode_aborted i _
  · rfl

theorem scheduleNode_changes (guard : Run κ n → Event n → Prop) (acc : Run κ n × Bool)
    (i : Fin n) (hs : acc.1.aborted = false) :
    Changes p guard acc.1 (p.scheduleNode acc i).1 ∧ (p.scheduleNode acc i).1.aborted = false := by
  unfold scheduleNode
  split
  · rename_i hrdy
    refine ⟨.head (.take i hs hrdy) (limiterRun_changes i ?_), ?_⟩
    · exact Run.goto_phase_self _ i .taken
    · rw [limiterRun_aborted]
      exact hs
  · exact ⟨.refl, hs⟩

theorem scheduleLoop_changes (guard : Run κ n → Event n → Prop) (nodes : List (Fin n)) :
    ∀ (acc : Run κ n × Bool), acc.1.aborted = false → Changes p guard acc.1 (nodes.foldl p.scheduleNode acc).1 := by
  induction nodes with
  | nil => exact fun _ _ => .refl
  | cons i nodes ih =>
    intro acc hs
    obtain ⟨hchn, hs'⟩ := scheduleNode_changes guard acc i hs
    exact hchn.trans (ih _ hs')

theorem scheduleReadyNodes_changes (s : Run κ n) :
    Changes p guard s (p.scheduleReadyNodes s) := by
  unfold scheduleReadyNodes
  cases hs : s.aborted with
  | true =>
    rw [if_pos rfl]
    exact (cancelPendingNodes_changes hs).trans (finishIfSettled_changes _)
  | false =>
    rw [if_neg Bool.false_ne_true]
    have hlo := scheduleLoop_changes (p := p) guard (List.finRange n) (s, false) hs
    dsimp only
    split
    · exact hlo.trans ((failBlockedNodes_changes true _).trans (finishIfSettled_changes _))
    · exact hlo

theorem executeDAG_changes (marks : Fin n → Mark) :
    Changes p guard (p.blank marks) (p.executeDAG marks) :=
  scheduleReadyNodes_changes _

/-! ## A turn -/

theorem goto_phase_ne (i : Fin n) {phase : Phase} (h : s.phase i ≠ phase) :
    (s.goto i phase).phase ≠ s.phase := by
  intro heq
  have hi := congrFun heq i
  rw [Run.goto_phase_self] at hi
  exact h hi.symm

/-- What begins a turn of the event loop: a continuation that moves on, or the abort signal. -/
def Opens (s s₁ : Run κ n) : Prop := s₁.phase ≠ s.phase ∨ s.aborted = false ∧ s₁.aborted = true

theorem free_changes (i : Fin n) (ending : Ending) (hs : s.phase i = .counted ending)
    (hact : 0 < s.active) :
    ∃ s₁, Change p guard s s₁ ∧ Opens s s₁ ∧ Changes p guard s₁ (p.free i ending s) := by
  unfold Plan.free
  dsimp only [Run.goto]
  split
  · rename_i hque
    refine ⟨_, .free i ending hs hque, .inl (goto_phase_ne i ?_), .refl⟩
    rw [hs]
    exact Phase.noConfusion
  · -- the slot goes from one node to the other, the count of slots stays
    rename_i j rest hque
    have hsl : s.active - 1 + 1 = s.active := by omega
    dsimp only [start, Run.goto]
    rw [hsl]
    refine ⟨_, .hand i ending j rest hs hque, .inl ?_, runNode_changes j ?_⟩
    · intro heq
      have hi := congrFun heq i
      dsimp only [Run.goto] at hi
      rw [hs] at hi
      by_cases hij : i = j
      · rw [hij, update_self] at hi
        cases hi
      · rw [update_of_ne hij, update_self] at hi
        cases hi
    · exact Run.goto_phase_self ..

/-- **A turn of the event loop is a chain of small changes**, the first of which opens it. -/
theorem step_opens {e : Event n} (hact : ∀ i ending, s.phase i = .counted ending → 0 < s.active)
    (hg : guard s e) (h : step p s e = some s') :
    ∃ s₁, Change p guard s s₁ ∧ Opens s s₁ ∧ Changes p guard s₁ s' := by
  cases e with
  | abort =>
    obtain ⟨hab, h⟩ := Option.ite_none_left_eq_some.mp h
    cases h
    have hs := Bool.eq_false_of_not_eq_true hab
    exact ⟨_, .abort hs hg, .inr ⟨hs, rfl⟩,
      (cancelPendingNodes_changes rfl).trans (finishIfSettled_changes _)⟩
  | agentsFor i found =>
    dsimp only [step] at h
    split at h
    · rename_i hph
      cases h
      cases found with
      | ok fallback =>
        refine ⟨_, .found i fallback hph hg, .inl (goto_phase_ne i ?_), .refl⟩
        exact hph.trans_ne Phase.noConfusion
      | error message =>
        refine ⟨_, .missing i message hph, .inl (goto_phase_ne i ?_), .refl⟩
        exact hph.trans_ne Phase.noConfusion
    · cases h
  | answer i reply =>
    dsimp only [step] at h
    split at h
    · rename_i target told hph
      cases h
      unfold Plan.answer
      cases reply with
      | result halt params =>
        dsimp only
        by_cases htgt : target = .override
        · rw [if_pos htgt]
          rw [htgt] at hph
          refine ⟨_, .overridden i halt params told hph hg, .inl (goto_phase_ne i ?_), .refl⟩
          exact hph.trans_ne Phase.noConfusion
        · rw [if_neg htgt]
          refine ⟨_, .recorded i target halt params told hph htgt hg, .inl (goto_phase_ne i ?_), .refl⟩
          exact hph.trans_ne Phase.noConfusion
      | failure retryable message =>
        refine ⟨_, .fail i target retryable message told hph, .inl (goto_phase_ne i ?_), .refl⟩
        exact hph.trans_ne Phase.noConfusion
    · cases h
  | resume i =>
    dsimp only [step] at h
    split at h
    · rename_i halt hph
      cases h
      cases halt with
      | true =>
        refine ⟨_, .halt i hph, .inl (goto_phase_ne i ?_), .refl⟩
        exact hph.trans_ne Phase.noConfusion
      | false =>
        refine ⟨_, .complete i hph, .inl (goto_phase_ne i ?_), .refl⟩
        exact hph.trans_ne Phase.noConfusion
    · rename_i target hph
      cases h
      refine ⟨_, .redial i target hph hg, .inl (goto_phase_ne i ?_), .refl⟩
      exact hph.trans_ne Phase.noConfusion
    · rename_i message hph
      cases h
      refine ⟨_, .throw i message hph, .inl (goto_phase_ne i ?_), .refl⟩
      exact hph.trans_ne Phase.noConfusion
    · cases h
  | payment i ok =>
    dsimp only [step] at h
    split at h
    · rename_i hph
      cases h
      refine ⟨_, .payment i ok hph, .inl (goto_phase_ne i ?_), .refl⟩
      exact hph.trans_ne Phase.noConfusion
    · cases h
  | count i =>
    dsimp only [step] at h
    split at h
    · rename_i ending hph
      cases h
      cases ending with
      | completed =>
        refine ⟨_, .countCompleted i hph, .inl (goto_phase_ne i ?_), .refl⟩
        exact hph.trans_ne Phase.noConfusion
      | refused | failed =>
        refine ⟨_, .countFailed i _ hph Ending.noConfusion, .inl (goto_phase_ne i ?_), .refl⟩
        exact hph.trans_ne Phase.noConfusion
    · cases h
  | free i =>
    dsimp only [step] at h
    split at h
    · rename_i ending hph
      cases h
      exact free_changes i ending hph (hact i ending hph)
    · cases h
  | finish i =>
    dsimp only [step] at h
    split at h
    · rename_i ending hph
      cases h
      refine ⟨_, .finish i ending hph, .inl (goto_phase_ne i ?_), ?_⟩
      · exact hph.trans_ne Phase.noConfusion
      · exact (scheduleReadyNodes_changes _).trans
          ((failBlockedNodes_changes false _).trans (finishIfSettled_changes _))
    · cases h

theorem step_changes {e : Event n} (hact : ∀ i ending, s.phase i = .counted ending → 0 < s.active)
    (hg : guard s e) (h : step p s e = some s') : Changes p guard s s' := by
  obtain ⟨s₁, hfst, _, hrst⟩ := step_opens hact hg h
  exact .head hfst hrst

end AiNet.Coordinator
