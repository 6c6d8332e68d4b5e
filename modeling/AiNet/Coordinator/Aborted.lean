import AiNet.Coordinator.Cancellation

/-!
# An aborted run

What is left for a run to do once its signal has fired. No node is pending any more, so the
scheduler and the accounting have nothing to mark, and the one thing a turn can write into the
task is the status in which the run settles. That is `cancelled` if no node is in flight. But the
sets may be full while a node is: two nodes are counted, and the first of them finishes before the
second. Then the run settles as if it had not been aborted.
-/

namespace AiNet.Coordinator

open Core AiNet.Budget Relation List Option Function

variable {κ : Type} [DecidableEq κ] {n : Nat} {p : Plan κ n}
  {guard : Run κ n → Event n → Prop} {marks : Fin n → Mark} {s s' : Run κ n}

/-! ## The log grows -/

theorem Changes.appends (hc : Changes p guard s s') : ∃ es, s'.log = s.log ++ es := by
  refine chain_preserves (I := fun s' : Run κ n => ∃ es, s'.log = s.log ++ es) hc ?_
    ⟨[], (append_nil _).symm⟩
  intro s₁ s₂ hc ⟨es, hes⟩
  obtain ⟨more, hmo, _⟩ := hc.said
  exact ⟨es ++ more, by rw [hmo, hes, append_assoc]⟩

variable {e : Event n}

theorem step_appends (h : Passed p guard marks s) (hg : guard s e)
    (hst : step p s e = some s') : ∃ es, s'.log = s.log ++ es :=
  Changes.appends (step_changes h.active_pos hg hst)

theorem abort_appends (hst : step p s .abort = some s') :
    s'.aborted = true ∧ ∃ rest, s'.log = s.log ++ .aborted :: rest := by
  obtain ⟨_, hst⟩ := ite_none_left_eq_some.mp hst
  cases hst
  have hchn : Changes p (fun _ e => e ≠ .abort) (({ s with aborted := true }).note .aborted)
      (p.abort s) := (cancelPendingNodes_changes rfl).trans (finishIfSettled_changes _)
  constructor
  · refine chain_preserves (I := fun s : Run κ n => s.aborted = true) hchn ?_ rfl
    intro s s' hc hs
    exact (hc.stays fun _ hg => hg rfl).trans hs
  · obtain ⟨rest, hrst⟩ := hchn.appends
    exact ⟨rest, by rw [hrst]; exact append_assoc ..⟩

theorem step_aborted (h : Passed p guard marks s) (he : e ≠ .abort)
    (hst : step p s e = some s') : s'.aborted = s.aborted := by
  have hchn : Changes p (fun _ e => e ≠ .abort) s s' := step_changes h.active_pos he hst
  refine chain_preserves (I := fun s' : Run κ n => s'.aborted = s.aborted) hchn ?_ rfl
  intro s₁ s₂ hc hs
  exact (hc.stays fun _ hg => hg rfl).trans hs

theorem Passed.never_queued (h : Passed p guard marks s) : .task .queued ∉ s.log := by
  refine h.invariant (I := fun s => .task .queued ∉ s.log) ?_ ?_
  · intro hin
    cases mem_singleton.mp hin
  · intro s s' _ hc ih hin
    cases hc with
    | settle =>
      rcases mem_append.mp hin with hold | hnew
      · exact ih hold
      · have hend := outcome_terminal s
        rw [← Effect.task.inj (mem_singleton.mp hnew)] at hend
        cases hend
    | _ =>
      refine ih ?_
      simpa [Plan.enter, Plan.claim, Plan.failNodeForBudget, Plan.settleClaim, Plan.catchError,
        Plan.payment, Plan.dispatchNode, Plan.recordNodeUsage, Plan.settleCost, Plan.take, Run.goto,
        Run.note, Run.setNode, Run.setStatus, Run.keep] using hin

/-! ## Nothing is pending -/

theorem cancelNode_none (s : Run κ n) (i : Fin n) : ((p.cancelNode s i).marks i).status ≠ .pending := by
  unfold Plan.cancelNode
  split
  · assumption
  · dsimp only [Run.setNode]
    rw [update_self]
    exact NodeStatus.noConfusion

theorem cancelNode_pending {s : Run κ n} {i j : Fin n}
    (h : ((p.cancelNode s i).marks j).status = .pending) : (s.marks j).status = .pending := by
  unfold Plan.cancelNode at h
  split at h
  · exact h
  · dsimp only [Run.setNode] at h
    by_cases hji : j = i
    · rw [hji, update_self] at h
      cases h
    · rwa [update_of_ne hji] at h

theorem cancelPendingNodes_none (s : Run κ n) (i : Fin n) :
    ((p.cancelPendingNodes s).marks i).status ≠ .pending := by
  suffices key : ∀ (nodes : List (Fin n)) (s : Run κ n), i ∈ nodes ∨ (s.marks i).status ≠ .pending →
      ((nodes.foldl p.cancelNode s).marks i).status ≠ .pending by
    exact key (List.finRange n) s (.inl (mem_finRange i))
  intro nodes
  induction nodes with
  | nil =>
    intro s h
    exact h.resolve_left not_mem_nil
  | cons j nodes ih =>
    intro s h
    refine ih (p.cancelNode s j) ?_
    rcases h with hin | hnot
    · rcases mem_cons.mp hin with rfl | hltr
      · exact .inr (cancelNode_none s i)
      · exact .inl hltr
    · exact .inr fun hpnd => hnot (cancelNode_pending hpnd)

omit [DecidableEq κ] in
theorem finishIfSettled_marks (s : Run κ n) : (Plan.finishIfSettled s).marks = s.marks := by
  unfold Plan.finishIfSettled
  split
  · rfl
  · split
    · rfl
    · split <;> rfl

/-- **After the signal no node is pending.** -/
theorem none_pending (h : (system p marks).Reachable guard s) :
    s.aborted = true → ∀ i, (s.marks i).status ≠ .pending := by
  refine System.Reachable.invariant
    (I := fun s => s.aborted = true → ∀ i, (s.marks i).status ≠ .pending) ?_ ?_ h
  · intro s h0 hab
    rw [show s = p.executeDAG marks from h0] at hab
    have hchn : Changes p (fun _ e => e ≠ .abort) (p.blank marks) (p.executeDAG marks) :=
      executeDAG_changes marks
    have hon : (p.executeDAG marks).aborted = false := by
      refine chain_preserves (I := fun s : Run κ n => s.aborted = false) hchn ?_ rfl
      intro s s' hc hs
      exact (hc.stays fun _ hg => hg rfl).trans hs
    rw [hon] at hab
    cases hab
  · intro s e s' hr hg ih hst hab i
    by_cases he : e = .abort
    · subst he
      obtain ⟨_, hst⟩ := ite_none_left_eq_some.mp hst
      cases hst
      unfold Plan.abort
      rw [finishIfSettled_marks]
      exact cancelPendingNodes_none _ i
    · have hs := passed_of_reachable hr
      have hchn : Changes p (fun _ e => e ≠ .abort) s s' := step_changes hs.active_pos he hst
      have hbo : s'.aborted = s.aborted ∧
          ((s'.marks i).status = .pending → (s.marks i).status = .pending) := by
        refine chain_preserves (I := fun s' : Run κ n => s'.aborted = s.aborted ∧
          ((s'.marks i).status = .pending → (s.marks i).status = .pending)) hchn ?_ ⟨rfl, id⟩
        intro s₁ s₂ hc ⟨hsm, hbk⟩
        exact ⟨(hc.stays fun _ hg => hg rfl).trans hsm, fun hp => hbk (hc.pending hp)⟩
      rw [hbo.1] at hab
      exact fun hpnd => ih hab i (hbo.2 hpnd)

theorem cancelPendingNodes_done (h : ∀ i, (s.marks i).status ≠ .pending) :
    p.cancelPendingNodes s = s := by
  unfold Plan.cancelPendingNodes
  generalize List.finRange n = nodes
  induction nodes with
  | nil => rfl
  | cons i nodes ih =>
    rw [foldl_cons]
    unfold Plan.cancelNode at ih ⊢
    rw [if_pos (h i)]
    exact ih

theorem failBlockedNodes_done {includeDeadlocked : Bool} (h : ∀ i, (s.marks i).status ≠ .pending) :
    p.failBlockedNodes includeDeadlocked s = s := by
  unfold Plan.failBlockedNodes
  generalize List.finRange n = nodes
  induction nodes with
  | nil => rfl
  | cons i nodes ih =>
    rw [foldl_cons]
    unfold Plan.failBlockedNode at ih ⊢
    rw [if_pos (h i)]
    exact ih

/-! ## What it writes into the task -/

/-- The sets of an aborted run are not full before its last node finishes. -/
def LastToFinish (s : Run κ n) : Event n → Prop
  | .finish _ => s.aborted = true → s.settled = true ∨ s.inFlight ≤ 1 ∨ s.completed.card + s.failed.card ≠ n
  | _ => True

instance (s : Run κ n) : ∀ e, Decidable (LastToFinish s e)
  | .finish _ => inferInstanceAs (Decidable (s.aborted = true →
      s.settled = true ∨ s.inFlight ≤ 1 ∨ s.completed.card + s.failed.card ≠ n))
  | .abort | .agentsFor _ _ | .answer _ _ | .resume _ | .payment _ _ | .count _ | .free _ =>
    .isTrue trivial

omit [DecidableEq κ] in
theorem finishIfSettled_cancels (hab : s.aborted = true)
    (hla : s.settled = true ∨ s.inFlight = 0 ∨ s.completed.card + s.failed.card ≠ n) :
    Plan.finishIfSettled s = s ∨
      Plan.finishIfSettled s = Plan.settleCost (({ s with settled := true }).note (.task .cancelled)) := by
  unfold Plan.finishIfSettled
  split
  · exact .inl rfl
  · rename_i hon
    split
    · exact .inr rfl
    · rename_i hfl
      refine .inl (if_pos ?_)
      rcases hla with hstl | hz | hca
      · exact absurd hstl hon
      · exact absurd ⟨hab, hz⟩ hfl
      · exact hca

/-- **A turn of an aborted run writes no status but `cancelled` into the task**, if no set is full
too early. -/
theorem aborted_tasks (h : (system p marks).Reachable guard s) (hab : s.aborted = true)
    (hst : step p s e = some s') (hla : LastToFinish s e) :
    ∃ es, s'.log = s.log ++ es ∧ ∀ status, .task status ∈ es → status = .cancelled := by
  have hnth : ∀ {t : Run κ n}, t.log = s.log →
      ∃ es, t.log = s.log ++ es ∧ ∀ status, .task status ∈ es → status = .cancelled :=
    fun hlog => ⟨[], by rw [hlog, append_nil], fun _ hin => absurd hin not_mem_nil⟩
  cases e with
  | abort =>
    obtain ⟨hnot, _⟩ := ite_none_left_eq_some.mp hst
    exact absurd hab hnot
  | agentsFor i found =>
    dsimp only [step] at hst
    split at hst
    · cases hst
      cases found with
      | ok => exact ⟨_, rfl, by simp⟩
      | error => exact hnth rfl
    · cases hst
  | answer i reply =>
    dsimp only [step] at hst
    split at hst
    · cases hst
      cases reply with
      | result =>
        dsimp only [Plan.answer]
        split
        · exact hnth rfl
        · exact ⟨_, rfl, by simp⟩
      | failure => exact hnth rfl
    · cases hst
  | resume =>
    dsimp only [step] at hst
    split at hst
    · cases hst
      unfold Plan.complete
      dsimp only
      split
      · exact ⟨_, rfl, by simp⟩
      · exact ⟨_, append_assoc .., by simp⟩
    · cases hst
      exact ⟨_, rfl, by simp⟩
    · cases hst
      exact ⟨_, rfl, by simp⟩
    · cases hst
  | payment =>
    dsimp only [step] at hst
    split at hst
    · cases hst
      exact ⟨_, rfl, by simp⟩
    · cases hst
  | count i =>
    dsimp only [step] at hst
    split at hst
    · rename_i ending _
      cases hst
      cases ending with
      | refused | failed | completed => exact hnth rfl
    · cases hst
  | free =>
    dsimp only [step] at hst
    split at hst
    · cases hst
      unfold Plan.free
      dsimp only
      split
      · exact hnth rfl
      · -- the head of the queue begins, which writes into nodes only
        unfold Plan.start Plan.runNode Plan.dispatchWithRetry
        dsimp only
        split
        · split
          · exact ⟨_, (append_assoc ..).trans (append_assoc ..), by simp⟩
          · exact ⟨_, append_assoc .., by simp⟩
        · exact ⟨_, append_assoc .., by simp⟩
    · cases hst
  | finish i =>
    have hpnd := none_pending h hab
    dsimp only [step] at hst
    split at hst
    · rename_i ending _
      cases hst
      -- no node is pending, so only the two calls of `finishIfSettled` are left
      unfold Plan.finish Plan.scheduleReadyNodes
      generalize hgn : ({ s with inFlight := s.inFlight - 1 }).goto i (.done ending) = t
      have hsm : t.log = s.log ∧ t.aborted = true ∧ t.marks = s.marks := by
        rw [← hgn]
        exact ⟨rfl, hab, rfl⟩
      have hdn : ∀ j, (t.marks j).status ≠ .pending := by
        rw [hsm.2.2]
        exact hpnd
      rw [if_pos hsm.2.1, cancelPendingNodes_done hdn]
      have hrdy : t.settled = true ∨ t.inFlight = 0 ∨ t.completed.card + t.failed.card ≠ n := by
        rw [← hgn]
        refine (hla hab).imp_right fun hrst => hrst.imp_left fun hone => ?_
        show s.inFlight - 1 = 0
        omega
      rw [failBlockedNodes_done (by rw [finishIfSettled_marks]; exact hdn)]
      rcases finishIfSettled_cancels hsm.2.1 hrdy with hstt | hstt
      · rw [hstt, hstt]
        exact hnth hsm.1
      · rw [hstt, finishIfSettled_mono rfl]
        refine ⟨[.task .cancelled], ?_, ?_⟩
        · show t.log ++ [.task .cancelled] = s.log ++ [.task .cancelled]
          rw [hsm.1]
        · intro status hin
          exact Effect.task.inj (mem_singleton.mp hin)
    · cases hst

/-! ## What it does for nodes -/

/--
**What a run does once it is stopped.** The turn that fires the signal and every later one dispatch
no node, and pay for nodes only that were dispatched before the signal.
-/
theorem stopped_works (h : (system p marks).Reachable FiresClear s') {es : List (Effect n)}
    (hlog : s'.log = s.log ++ es) (hab : s'.aborted = true)
    (hwh : .aborted ∈ s.log ∨ ∃ rest, es = .aborted :: rest) (i : Fin n) :
    .dispatch i ∉ es ∧ (.release i ∈ es ∨ (∃ ok, .paid i ok ∈ es) → .dispatch i ∈ s.log) := by
  have halw : Justified Allowed s'.log := by
    rcases stopped_reachable h with hon | hstp
    · rw [hab] at hon
      cases hon
    · exact hstp.allowed
  have hno : ∀ j, .dispatch j ∉ es := by
    intro j hin
    obtain ⟨before, after, hes⟩ := append_of_mem hin
    have hbf := halw (s.log ++ before) (.dispatch j) after (by
      rw [hlog, hes, append_assoc])
    refine hbf.dispatch j rfl ?_
    rcases hwh with hold | ⟨rest, hrst⟩
    · exact mem_append_left _ hold
    · refine mem_append_right _ ?_
      cases before with
      | nil => cases hes.symm.trans hrst
      | cons =>
        rw [hrst] at hes
        rw [← (List.cons.inj hes).1]
        exact mem_cons_self
  refine ⟨hno i, fun hpd => ?_⟩
  have hear : ∀ {before after : List (Effect n)} {e : Effect n}, es = before ++ e :: after →
      .dispatch i ∈ s.log ++ before → .dispatch i ∈ s.log := by
    intro before after e hes hin
    refine (mem_append.mp hin).resolve_right fun hnew => hno i ?_
    rw [hes]
    exact mem_append_left _ hnew
  rcases hpd with hin | ⟨ok, hin⟩
  · obtain ⟨before, after, hes⟩ := append_of_mem hin
    refine hear hes ((halw (s.log ++ before) (.release i) after ?_).release i rfl)
    rw [hlog, hes, append_assoc]
  · obtain ⟨before, after, hes⟩ := append_of_mem hin
    refine hear hes ((halw (s.log ++ before) (.paid i ok) after ?_).paid i ok rfl)
    rw [hlog, hes, append_assoc]

end AiNet.Coordinator
