import AiNet.Coordinator.Dispatching

/-!
# Cancellation

The abort signal keeps the scheduler from taking nodes, and marks those that are still pending
as cancelled. A node that was taken and waits for a slot is pending too: it is marked like the
others, yet it is in the queue of the limiter, which knows nothing of the signal and starts it
when a slot comes free. So the signal stops new work exactly if nothing waits behind a running
node when it fires.
-/

namespace AiNet.Coordinator

open Core AiNet.Budget Relation List Option Function Run System

variable {κ : Type} [DecidableEq κ] {n : Nat} {p : Plan κ n}
  {guard : Run κ n → Event n → Prop} {marks : Fin n → Mark} {s s' : Run κ n}

/-! ## Between two turns -/

/-- A node in the hands of the scheduler or the limiter. -/
def Phase.handed : Phase → Bool
  | .taken | .starting => true
  | .idle | .waiting | .lookup | .calling _ _ | .answered _ | .retrying _ | .paying | .returned _
  | .counted _ | .freed _ | .done _ => false

/-- No turn of the event loop ends with a node in between. -/
def Landed (s : Run κ n) : Prop := ∀ i, (s.phase i).handed = false

variable {i : Fin n}

theorem landed_update {phase : Fin n → Phase} {f : Phase} (h : ∀ j, j ≠ i → (phase j).handed = false)
    (hf : f.handed = false) (j : Fin n) :
    (update phase i f j).handed = false := by
  by_cases hji : j = i
  · rw [hji, update_self]
    exact hf
  · rw [update_of_ne hji]
    exact h j hji

theorem runNode_landed (h : ∀ j, j ≠ i → (s.phase j).handed = false) :
    Landed (p.runNode i s) := by
  unfold Plan.runNode Plan.dispatchWithRetry
  dsimp only
  split
  · split
    · exact landed_update h rfl
    · exact landed_update h rfl
  · exact landed_update h rfl

theorem start_landed (h : ∀ j, j ≠ i → (s.phase j).handed = false) :
    Landed (p.start i s) := by
  refine runNode_landed fun j hj => ?_
  rw [goto_phase_of_ne _ hj]
  exact h j hj

theorem limiterRun_landed (h : ∀ j, j ≠ i → (s.phase j).handed = false) :
    Landed (p.limiterRun i s) := by
  unfold Plan.limiterRun
  split
  · exact start_landed h
  · exact landed_update h rfl

section

omit [DecidableEq κ]

theorem Landed.congr (h : Landed s) (hph : s'.phase = s.phase) : Landed s' := by
  unfold Landed
  rw [hph]
  exact h

theorem finishIfSettled_phase (s : Run κ n) : (Plan.finishIfSettled s).phase = s.phase := by
  unfold Plan.finishIfSettled
  split
  · rfl
  · split
    · rfl
    · split <;> rfl

end

theorem scheduleReadyNodes_landed (h : Landed s) : Landed (p.scheduleReadyNodes s) := by
  unfold Plan.scheduleReadyNodes
  split
  · exact (h.congr (cancelPendingNodes_same s).phase).congr (finishIfSettled_phase _)
  · have hlo : Landed ((List.finRange n).foldl p.scheduleNode (s, false)).1 := by
      refine foldl_preserves (I := fun acc : Run κ n × Bool => Landed acc.1)
        (fun acc i hacc => ?_) (List.finRange n) (s := (s, false)) h
      unfold Plan.scheduleNode
      split
      · refine limiterRun_landed fun j hj => ?_
        unfold Plan.take
        rw [goto_phase_of_ne _ hj]
        exact hacc j
      · exact hacc
    dsimp only
    split
    · exact (hlo.congr (failBlockedNodes_same true _).phase).congr (finishIfSettled_phase _)
    · exact hlo

theorem step_landed {e : Event n} (h : Landed s) (hst : step p s e = some s') : Landed s' := by
  have hmv : ∀ {i : Fin n} {f : Phase}, f.handed = false → ∀ j, (update s.phase i f j).handed = false :=
    fun hf => landed_update (fun j _ => h j) hf
  cases e with
  | abort =>
    obtain ⟨_, hst⟩ := ite_none_left_eq_some.mp hst
    cases hst
    unfold Plan.abort
    refine Landed.congr ?_ (finishIfSettled_phase _)
    exact h.congr (cancelPendingNodes_same _).phase
  | agentsFor i found =>
    dsimp only [step] at hst
    split at hst
    · cases hst
      cases found with
      | ok | error => exact hmv rfl
    · cases hst
  | answer i reply =>
    dsimp only [step] at hst
    split at hst
    · cases hst
      unfold Plan.answer
      cases reply with
      | result =>
        dsimp only
        split
        · exact hmv rfl
        · exact hmv rfl
      | failure => exact hmv rfl
    · cases hst
  | resume =>
    dsimp only [step] at hst
    split at hst
    · cases hst
      unfold Plan.complete
      dsimp only
      split
      · exact hmv rfl
      · exact hmv rfl
    · cases hst
      exact hmv rfl
    · cases hst
      exact hmv rfl
    · cases hst
  | payment =>
    dsimp only [step] at hst
    split at hst
    · cases hst
      exact hmv rfl
    · cases hst
  | count i =>
    dsimp only [step] at hst
    split at hst
    · rename_i ending _
      cases hst
      cases ending with
      | refused | failed | completed => exact hmv rfl
    · cases hst
  | free =>
    dsimp only [step] at hst
    split at hst
    · cases hst
      unfold Plan.free
      dsimp only
      split
      · exact hmv rfl
      · exact start_landed fun j _ => hmv rfl j
    · cases hst
  | finish i =>
    dsimp only [step] at hst
    split at hst
    · rename_i ending _
      cases hst
      have hsc : Landed (p.scheduleReadyNodes
          (({ s with inFlight := s.inFlight - 1 }).goto i (.done ending))) :=
        scheduleReadyNodes_landed (hmv rfl)
      exact (hsc.congr (failBlockedNodes_same false _).phase).congr
        (finishIfSettled_phase _)
    · cases hst

theorem landed_reachable (h : (system p marks).Reachable guard s) : Landed s := by
  refine System.Reachable.invariant ?_ ?_ h
  · intro s h0
    rw [show s = p.executeDAG marks from h0]
    exact scheduleReadyNodes_landed fun _ => rfl
  · intro s e s' _ _ hs hst
    exact step_landed hs hst

/-! ## Statuses and phases -/

/-- `runNode` has begun. -/
def Phase.begun : Phase → Bool
  | .idle | .taken | .waiting | .starting => false
  | .lookup | .calling _ _ | .answered _ | .retrying _ | .paying | .returned _ | .counted _
  | .freed _ | .done _ => true

/-- **Once `runNode` has begun, the status of the node follows it**, whatever else goes on. -/
theorem Passed.stands (h : Passed p guard marks s) (hi : (s.phase i).begun = true) :
    (s.phase i).status = some (s.marks i).status := by
  refine h.invariant (I := fun s => ∀ i, (s.phase i).begun = true →
    (s.phase i).status = some (s.marks i).status) (fun i hi => (by cases hi)) ?_ i hi
  intro s s' hs hc ih
  -- one node moves
  have htn : ∀ {j : Fin n} (f' : Phase), s'.phase = update s.phase j f' →
      (∀ k, k ≠ j → s'.marks k = s.marks k) →
      (f'.begun = true → f'.status = some (s'.marks j).status) →
      ∀ k, (s'.phase k).begun = true → (s'.phase k).status = some (s'.marks k).status := by
    intro j f' hph hmks hsf k hk
    rw [hph] at hk ⊢
    by_cases hkj : k = j
    · rw [hkj, update_self] at hk ⊢
      exact hsf hk
    · rw [update_of_ne hkj] at hk ⊢
      rw [hmks k hkj]
      exact ih k hk
  -- one node moves and keeps its status
  have hmvs : ∀ {j : Fin n} {f : Phase} (f' : Phase), s.phase j = f → f.begun = true →
      f'.status = f.status → s'.phase = update s.phase j f' → s'.marks = s.marks →
      ∀ k, (s'.phase k).begun = true → (s'.phase k).status = some (s'.marks k).status := by
    intro j f f' hph hbeg hst hupd hmks
    rw [← hph] at hbeg hst
    refine htn f' hupd (fun k _ => congrFun hmks k) fun _ => ?_
    rw [hst, hmks]
    exact ih j hbeg
  -- a pending node is written, which is not one that has begun
  have hwrs : ∀ {j : Fin n}, (s.marks j).status = .pending → s'.phase = s.phase →
      (∀ k, k ≠ j → s'.marks k = s.marks k) →
      ∀ k, (s'.phase k).begun = true → (s'.phase k).status = some (s'.marks k).status := by
    intro j hpnd hph hmks k hk
    rw [hph] at hk ⊢
    have hkj : k ≠ j := by
      intro hkj
      have hsds := ih k hk
      rw [hkj, hpnd] at hsds
      rw [hkj] at hk
      cases hj : s.phase j with
      | idle | taken | waiting | starting =>
        rw [hj] at hk
        cases hk
      | lookup | calling | answered | retrying | paying =>
        rw [hj] at hsds
        cases hsds
      | returned ending | counted ending | freed ending | done ending =>
        rw [hj] at hsds
        cases ending <;> cases hsds
    rw [hmks k hkj]
    exact ih k hk
  cases hc with
  | take => exact htn .taken rfl (fun _ _ => rfl) nofun
  | enqueue => exact htn .waiting rfl (fun _ _ => rfl) nofun
  | occupy => exact htn .starting rfl (fun _ _ => rfl) nofun
  | hand j ending k rest hph =>
    intro i hi
    dsimp only [goto] at hi ⊢
    by_cases hik : i = k
    · rw [hik, update_self] at hi
      cases hi
    · rw [update_of_ne hik] at hi ⊢
      by_cases hij : i = j
      · rw [hij, update_self]
        have hsds := ih j (hph ▸ rfl)
        rw [hph] at hsds
        exact hsds
      · rw [update_of_ne hij] at hi ⊢
        exact ih i hi
  | free j ending hph => exact hmvs (.freed ending) hph rfl rfl rfl rfl
  | finish j ending hph => exact hmvs (.done ending) hph rfl rfl rfl rfl
  | found j fallback hph =>
    exact hmvs (.calling (.primary 1 fallback) (some s.ledger.allowanceFor)) hph rfl rfl rfl rfl
  | missing j message hph => exact hmvs (.retrying (.throw message)) hph rfl rfl rfl rfl
  | redial j target hph =>
    exact hmvs (.calling target (some s.ledger.allowanceFor)) hph rfl rfl rfl rfl
  | overridden j halt params told hph => exact hmvs (.answered halt) hph rfl rfl rfl rfl
  | recorded j target halt params told hph =>
    exact hmvs (.answered halt) hph rfl rfl rfl rfl
  | fail j target retryable message told hph =>
    exact hmvs (.retrying (Plan.afterFailure target retryable message)) hph rfl rfl rfl rfl
  | payment j ok hph => exact hmvs (.returned .completed) hph rfl rfl rfl rfl
  | countCompleted j hph => exact hmvs (.counted .completed) hph rfl rfl rfl rfl
  | countFailed j ending hph => exact hmvs (.counted ending) hph rfl rfl rfl rfl
  | refuse =>
    refine htn (.returned .refused) rfl (fun k hkj => ?_) fun _ => ?_
    · dsimp only [Plan.failNodeForBudget, Plan.enter, goto, setNode, setStatus, keep]
      rw [update_of_ne hkj, update_of_ne hkj]
    · dsimp only [Plan.failNodeForBudget, Plan.enter, goto, setNode, setStatus, keep]
      rw [update_self]
      rfl
  | dial =>
    refine htn (.calling .override none) rfl (fun k hkj => update_of_ne hkj ..)
      fun _ => ?_
    dsimp only [Plan.claim, Plan.enter, goto, note, setNode, setStatus, keep]
    rw [update_self]
    rfl
  | search =>
    refine htn .lookup rfl (fun k hkj => update_of_ne hkj ..) fun _ => ?_
    dsimp only [Plan.claim, Plan.enter, goto, note, setNode, setStatus, keep]
    rw [update_self]
    rfl
  | halt =>
    refine htn (.returned .failed) rfl (fun k hkj => update_of_ne hkj ..) fun _ => ?_
    dsimp only [Plan.failNodeForBudget, Plan.settleClaim, goto, setNode, keep]
    rw [update_self]
    rfl
  | complete =>
    refine htn .paying rfl (fun k hkj => update_of_ne hkj ..) fun _ => ?_
    dsimp only [Plan.settleClaim, goto, note, setNode, setStatus, keep]
    rw [update_self]
    rfl
  | throw =>
    refine htn (.returned .failed) rfl (fun k hkj => update_of_ne hkj ..) fun _ => ?_
    dsimp only [Plan.catchError, Plan.settleClaim, goto, setNode, keep]
    rw [update_self]
    rfl
  | abort | settleCancelled | settle => exact ih
  | cancel j _ hpnd | block j error hpnd => exact hwrs hpnd rfl fun k hkj => update_of_ne hkj ..

theorem Passed.not_pending (h : Passed p guard marks s)
    (hi : (s.phase i).begun = true) : (s.marks i).status ≠ .pending := by
  intro hpnd
  have hsds := h.stands hi
  rw [hpnd] at hsds
  cases hph : s.phase i with
  | idle | taken | waiting | starting =>
    rw [hph] at hi
    cases hi
  | lookup | calling | answered | retrying | paying =>
    rw [hph] at hsds
    cases hsds
  | returned ending | counted ending | freed ending | done ending =>
    rw [hph] at hsds
    cases ending <;> cases hsds

/-! ## The signal in the log -/

theorem Passed.aborted_iff (h : Passed p guard marks s) : s.aborted = true ↔ .aborted ∈ s.log := by
  refine h.invariant (I := fun s => s.aborted = true ↔ .aborted ∈ s.log) ?_ ?_
  · refine iff_of_false Bool.false_ne_true ?_
    intro hin
    cases mem_singleton.mp hin
  · intro s s' hs hc ih
    cases hc with
    | abort => exact iff_of_true rfl (mem_append_right _ mem_cons_self)
    | take | enqueue | occupy | free | hand | finish | missing | overridden | fail | countCompleted
    | countFailed => exact ih
    | refuse | dial | search | found | redial | recorded | halt | complete | throw | payment
    | cancel | block | settleCancelled | settle =>
      refine ih.trans ?_
      simp [Plan.enter, Plan.claim, Plan.failNodeForBudget, Plan.settleClaim, Plan.catchError,
        Plan.payment, Plan.dispatchNode, Plan.recordNodeUsage, Plan.settleCost, goto, note,
        setNode, setStatus, keep]

theorem Change.stays (hg : ∀ s : Run κ n, ¬ guard s .abort) (hc : Change p guard s s') :
    s'.aborted = s.aborted := by
  cases hc with
  | abort _ hab => exact absurd hab (hg s)
  | _ => rfl

/-- The entry is about the run of a node, not about its cancellation. -/
def Effect.works (i : Fin n) : Effect n → Bool
  | .status j st => decide (j = i) && (decide (st = .running) || decide (st = .completed))
  | .dispatch j | .release j | .paid j _ => decide (j = i)
  | .task _ | .call _ _ _ | .recorded _ _ | .aborted => false

/-- What the signal allows: no dispatch after it, a payment for dispatched nodes only, and no
work on a node that is cancelled. -/
structure Allowed (before : List (Effect n)) (e : Effect n) : Prop where
  dispatch : ∀ i, e = .dispatch i → .aborted ∉ before
  release : ∀ i, e = .release i → .dispatch i ∈ before
  paid : ∀ i ok, e = .paid i ok → .dispatch i ∈ before
  cancelled : ∀ i, e.works i = true → .status i .cancelled ∉ before

theorem Allowed.other {before : List (Effect n)} {e : Effect n} (hwks : ∀ i, e.works i = false) :
    Allowed before e := by
  have hsf : ∀ {i : Fin n} {e' : Effect n}, e'.works i = true → e ≠ e' := by
    intro i e' hi he
    rw [← he, hwks i] at hi
    cases hi
  refine ⟨?_, ?_, ?_, ?_⟩
  · intro i hi
    exact absurd hi (hsf (decide_eq_true rfl : (Effect.dispatch i).works i = true))
  · intro i hi
    exact absurd hi (hsf (decide_eq_true rfl : (Effect.release i).works i = true))
  · intro i ok hi
    exact absurd hi (hsf (decide_eq_true rfl : (Effect.paid i ok).works i = true))
  · intro i hi
    rw [hwks i] at hi
    cases hi

theorem Allowed.work {before : List (Effect n)} {e : Effect n} (hwks : ∀ j, e.works j = true → j = i)
    (hdi : e = .dispatch i → .aborted ∉ before)
    (hpd : (e = .release i ∨ ∃ ok, e = .paid i ok) → .dispatch i ∈ before)
    (hnot : .status i .cancelled ∉ before) : Allowed before e where
  dispatch := by
    intro j hj
    obtain rfl := hwks j (hj ▸ decide_eq_true rfl)
    exact hdi hj
  release := by
    intro j hj
    obtain rfl := hwks j (hj ▸ decide_eq_true rfl)
    exact hpd (.inl hj)
  paid := by
    intro j ok hj
    obtain rfl := hwks j (hj ▸ decide_eq_true rfl)
    exact hpd (.inr ⟨ok, hj⟩)
  cancelled := by
    intro j hj
    obtain rfl := hwks j hj
    exact hnot

theorem Passed.mem_dispatch (h : Passed p guard marks s)
    (hi : .dispatched ∈ (s.phase i).deeds) : .dispatch i ∈ s.log := by
  rw [← count_pos_iff, count_dispatch, h.trail, count_pos_iff]
  exact hi

theorem Saying.allowed (hs : Passed p guard marks s)
    (hfr : ∀ i, s.phase i = .starting → .aborted ∉ s.log)
    (hnot : ∀ i, s.phase i ≠ .idle → s.phase i ≠ .waiting → .status i .cancelled ∉ s.log)
    {es : List (Effect n)} (h : Saying s es) : Continues Allowed s.log es := by
  have hsf : ∀ {i : Fin n} {st : NodeStatus} {j : Fin n}, (Effect.status i st).works j = true → j = i := by
    intro i st j hj
    unfold Effect.works at hj
    simp only [Bool.and_eq_true, decide_eq_true_eq] at hj
    exact hj.1.symm
  have hrng : ∀ {i : Fin n} {st : NodeStatus} {before : List (Effect n)},
      .status i .cancelled ∉ before → Allowed before (.status i st) := by
    intro i st before hcle
    refine .work (fun j => hsf) nofun ?_ hcle
    intro he
    rcases he with he | ⟨ok, he⟩
    · cases he
    · cases he
  have hbe : ∀ {i : Fin n}, s.phase i = .starting → .status i .cancelled ∉ s.log :=
    fun hph => hnot _ (hph.trans_ne Phase.noConfusion) (hph.trans_ne Phase.noConfusion)
  have hdi : ∀ {i : Fin n}, s.phase i = .starting →
      Allowed (s.log ++ [.status i .running]) (.dispatch i) := by
    intro i hph
    refine .work (fun j hj => (of_decide_eq_true hj).symm) (fun _ hin => ?_) ?_ ?_
    · rcases mem_append.mp hin with hold | hnew
      · exact hfr i hph hold
      · cases mem_singleton.mp hnew
    · intro he
      rcases he with he | ⟨ok, he⟩
      · cases he
      · cases he
    · intro hin
      rcases mem_append.mp hin with hold | hnew
      · exact hbe hph hold
      · cases mem_singleton.mp hnew
  cases h with
  | nothing => exact trivial
  | refuse i hph =>
    refine ⟨hrng (hbe hph), .other fun j => ?_, trivial⟩
    simp [Effect.works]
  | dial i hph =>
    exact ⟨hrng (hbe hph), hdi hph, .other fun _ => rfl, trivial⟩
  | search i hph => exact ⟨hrng (hbe hph), hdi hph, trivial⟩
  | call | recorded | aborted | task => exact ⟨.other fun _ => rfl, trivial⟩
  | failed | cancel | block =>
    refine ⟨.other fun j => ?_, trivial⟩
    simp [Effect.works]
  | complete i hph =>
    have hcle := hnot i (hph.trans_ne Phase.noConfusion) (hph.trans_ne Phase.noConfusion)
    have hdis : .dispatch i ∈ s.log := by
      refine hs.mem_dispatch ?_
      rw [hph]
      exact mem_singleton_self _
    refine ⟨hrng hcle, .work (fun j hj => (of_decide_eq_true hj).symm)
      nofun (fun _ => mem_append_left _ hdis) ?_, trivial⟩
    intro hin
    rcases mem_append.mp hin with hold | hnew
    · exact hcle hold
    · cases mem_singleton.mp hnew
  | paid i ok hph =>
    refine ⟨.work (fun j hj => (of_decide_eq_true hj).symm) nofun (fun _ => ?_)
      (hnot i (hph.trans_ne Phase.noConfusion) (hph.trans_ne Phase.noConfusion)), trivial⟩
    refine hs.mem_dispatch ?_
    rw [hph]
    exact mem_cons_self

theorem Change.allowed (hc : Change p guard s s') (hs : Passed p guard marks s)
    (hfr : ∀ i, s.phase i = .starting → .aborted ∉ s.log)
    (hnot : ∀ i, s.phase i ≠ .idle → s.phase i ≠ .waiting → .status i .cancelled ∉ s.log)
    (h : Justified Allowed s.log) : Justified Allowed s'.log := by
  obtain ⟨es, hlog, hsa⟩ := hc.said
  rw [hlog]
  exact justified_append.mpr ⟨h, hsa.allowed hs hfr hnot⟩

/-! ## Before the signal and after it -/

theorem Passed.uncancelled (h : Passed p guard marks s) :
    s.aborted = false → ∀ i, .status i .cancelled ∉ s.log := by
  refine h.invariant (I := fun s => s.aborted = false → ∀ i, .status i .cancelled ∉ s.log) ?_ ?_
  · intro _ i hin
    cases mem_singleton.mp hin
  · intro s s' hs hc ih hab i hin
    have hbf := hc.aborted hab
    obtain ⟨es, hlog, hsa⟩ := hc.said
    rw [hlog] at hin
    rcases mem_append.mp hin with hold | hnew
    · exact ih hbf i hold
    · cases hsa with
      | cancel j hps =>
        rw [hbf] at hps
        cases hps
      | _ => simp at hnew

theorem Passed.allowed (h : Passed p guard marks s) :
    s.aborted = false → Justified Allowed s.log := by
  refine h.invariant (I := fun s => s.aborted = false → Justified Allowed s.log) ?_ ?_
  · intro _
    exact justified_snoc.mpr ⟨justified_nil, .other fun _ => rfl⟩
  · intro s s' hs hc ih hab
    have hbf := hc.aborted hab
    refine hc.allowed hs (fun i _ => ?_) (fun i _ _ => hs.uncancelled hbf i) (ih hbf)
    rw [← hs.aborted_iff, hbf]
    exact Bool.false_ne_true

/-- What holds from the signal on, if no node waited behind a running one when it fired. -/
structure Stopped (s : Run κ n) : Prop where
  aborted : s.aborted = true
  landed : Landed s
  stuck : s.queue ≠ [] → s.active = 0
  cancelled : ∀ i, .status i .cancelled ∈ s.log → s.phase i = .idle ∨ s.phase i = .waiting
  allowed : Justified Allowed s.log

/-- **A run that is stopped stays so**: what runs goes on, nothing begins. -/
theorem Stopped.change (h : Stopped s) (hs : Passed p guard marks s) (hc : Change p guard s s') :
    Stopped s' := by
  have hha : ∀ {i : Fin n} {f : Phase}, s.phase i = f → f.handed = true → False := by
    intro i f hi hf
    have hnot := h.landed i
    rw [hi, hf] at hnot
    cases hnot
  have halw : Justified Allowed s'.log := by
    refine hc.allowed hs (fun i hph => (hha hph rfl).elim) ?_ h.allowed
    intro i hil hwts hin
    rcases h.cancelled i hin with hi | hi
    · exact hil hi
    · exact hwts hi
  -- a node that runs goes on
  have hmv : ∀ {i : Fin n} {f : Phase} (f' : Phase), s.phase i = f → f ≠ .idle → f ≠ .waiting →
      f'.handed = false → s'.phase = update s.phase i f' → s'.aborted = s.aborted →
      (s'.queue ≠ [] → s'.active = 0) →
      (∀ j, .status j .cancelled ∈ s'.log → .status j .cancelled ∈ s.log) → Stopped s' := by
    intro i f f' hph hil hwts hf' hupd har hstu hlog
    refine ⟨har.trans h.aborted, ?_, hstu, ?_, halw⟩
    · unfold Landed
      rw [hupd]
      exact landed_update (fun j _ => h.landed j) hf'
    · intro j hj
      have hold := h.cancelled j (hlog j hj)
      have hji : j ≠ i := by
        intro hji
        rw [hji, hph] at hold
        rcases hold with hi | hi
        · exact hil hi
        · exact hwts hi
      rw [hupd, update_of_ne hji]
      exact hold
  -- nothing moves
  have hkpt : s'.phase = s.phase → s'.aborted = s.aborted → s'.queue = s.queue →
      s'.active = s.active → (∀ j, .status j .cancelled ∈ s'.log →
        .status j .cancelled ∈ s.log ∨ s.phase j = .idle ∨ s.phase j = .waiting) → Stopped s' := by
    intro hph har hque hact hlog
    refine ⟨har.trans h.aborted, h.landed.congr hph, ?_, ?_, halw⟩
    · rw [hque, hact]
      exact h.stuck
    · intro j hj
      rw [hph]
      rcases hlog j hj with hold | hsds
      · exact h.cancelled j hold
      · exact hsds
  cases hc with
  | take i hab | abort hab =>
    rw [h.aborted] at hab
    cases hab
  | enqueue i hph | occupy i hph | refuse i hph | dial i hph | search i hph =>
    exact (hha hph rfl).elim
  | hand i ending j rest hph hque =>
    -- no slot was held when the signal fired, so none comes free
    have hz := h.stuck (by rw [hque]; exact cons_ne_nil j rest)
    have hpos := hs.active_pos i ending hph
    omega
  | free i ending hph hque =>
    exact hmv (.freed ending) hph Phase.noConfusion Phase.noConfusion rfl rfl rfl
      (fun hne => absurd hque hne) fun _ => id
  | finish i ending hph =>
    exact hmv (.done ending) hph Phase.noConfusion Phase.noConfusion rfl rfl rfl h.stuck
      fun _ => id
  | found i fallback hph =>
    refine hmv (.calling (.primary 1 fallback) (some s.ledger.allowanceFor)) hph
      Phase.noConfusion Phase.noConfusion rfl rfl rfl h.stuck fun j hj => ?_
    simpa [Plan.dispatchNode, note, goto] using hj
  | missing i message hph =>
    exact hmv (.retrying (.throw message)) hph Phase.noConfusion Phase.noConfusion rfl rfl
      rfl h.stuck fun _ => id
  | redial i target hph =>
    refine hmv (.calling target (some s.ledger.allowanceFor)) hph Phase.noConfusion
      Phase.noConfusion rfl rfl rfl h.stuck fun j hj => ?_
    simpa [Plan.dispatchNode, note, goto] using hj
  | overridden i halt params told hph =>
    exact hmv (.answered halt) hph Phase.noConfusion Phase.noConfusion rfl rfl rfl h.stuck
      fun _ => id
  | recorded i target halt params told hph =>
    refine hmv (.answered halt) hph Phase.noConfusion Phase.noConfusion rfl rfl rfl h.stuck
      fun j hj => ?_
    simpa [Plan.recordNodeUsage, note, goto, keep] using hj
  | fail i target retryable message told hph =>
    exact hmv (.retrying (Plan.afterFailure target retryable message)) hph
      Phase.noConfusion Phase.noConfusion rfl rfl rfl h.stuck fun _ => id
  | halt i hph =>
    refine hmv (.returned .failed) hph Phase.noConfusion Phase.noConfusion rfl rfl rfl
      h.stuck fun j hj => ?_
    simpa [Plan.failNodeForBudget, Plan.settleClaim, goto, setNode, keep] using hj
  | complete i hph =>
    refine hmv .paying hph Phase.noConfusion Phase.noConfusion rfl rfl rfl h.stuck
      fun j hj => ?_
    simpa [Plan.settleClaim, goto, note, setNode, setStatus, keep] using hj
  | throw i message hph =>
    refine hmv (.returned .failed) hph Phase.noConfusion Phase.noConfusion rfl rfl rfl
      h.stuck fun j hj => ?_
    simpa [Plan.catchError, Plan.settleClaim, goto, setNode, keep] using hj
  | payment i ok hph =>
    refine hmv (.returned .completed) hph Phase.noConfusion Phase.noConfusion rfl rfl rfl
      h.stuck fun j hj => ?_
    simpa [Plan.payment, note, goto] using hj
  | countCompleted i hph =>
    exact hmv (.counted .completed) hph Phase.noConfusion Phase.noConfusion rfl rfl rfl
      h.stuck fun _ => id
  | countFailed i ending hph =>
    exact hmv (.counted ending) hph Phase.noConfusion Phase.noConfusion rfl rfl rfl
      h.stuck fun _ => id
  | cancel i _ hpnd =>
    refine hkpt rfl rfl rfl rfl fun j hj => ?_
    rcases mem_append.mp hj with hold | hnew
    · exact .inl hold
    · -- a pending node that the limiter does not hold is idle or waits
      obtain rfl := (Effect.status.inj (mem_singleton.mp hnew)).1
      refine .inr ?_
      have hnev := hs.not_pending (i := j)
      cases hph : s.phase j with
      | idle => exact .inl rfl
      | waiting => exact .inr rfl
      | taken | starting => exact (hha hph rfl).elim
      | _ =>
        rw [hph] at hnev
        exact absurd hpnd (hnev rfl)
  | block =>
    refine hkpt rfl rfl rfl rfl fun j hj => .inl ?_
    simpa [setNode] using hj
  | settleCancelled | settle =>
    refine hkpt rfl rfl rfl rfl fun j hj => .inl ?_
    simpa [Plan.settleCost, note] using hj

theorem Stopped.changes (h : Stopped s) (hs : Passed p guard marks s)
    (hc : Changes p guard s s') : Stopped s' := by
  have hbo : Passed p guard marks s' ∧ Stopped s' := by
    refine chain_preserves (I := fun s => Passed p guard marks s ∧ Stopped s) hc ?_ ⟨hs, h⟩
    intro s s' hc hs
    exact ⟨hs.1.tail hc, hs.2.change hs.1 hc⟩
  exact hbo.2

/-- The signal fires while no node waits behind a running one. -/
def FiresClear (s : Run κ n) (e : Event n) : Prop := e = .abort → s.queue ≠ [] → s.active = 0

/-- **Every run that is aborted so is stopped from then on.** -/
theorem stopped_reachable (h : (system p marks).Reachable FiresClear s) :
    s.aborted = false ∨ Stopped s := by
  refine System.Reachable.invariant (I := fun s => s.aborted = false ∨ Stopped s) ?_ ?_ h
  · intro s h0
    rw [show s = p.executeDAG marks from h0]
    have hchn : Changes p (fun _ e => e ≠ .abort) (p.blank marks) (p.executeDAG marks) :=
      executeDAG_changes marks
    refine .inl (chain_preserves (I := fun s : Run κ n => s.aborted = false) hchn ?_ rfl)
    intro s s' hc hs
    exact (hc.stays fun _ hg => hg rfl).trans hs
  · intro s e s' hr hg ih hst
    have hs := passed_of_reachable hr
    rcases ih with hon | hstp
    · by_cases he : e = .abort
      · -- the signal fires now
        subst he
        obtain ⟨_, hst⟩ := ite_none_left_eq_some.mp hst
        cases hst
        have hfir : Change p FiresClear s (({ s with aborted := true }).note .aborted) :=
          .abort hon hg
        have hstp : Stopped (({ s with aborted := true }).note .aborted) := by
          refine ⟨rfl, (landed_reachable hr).congr rfl, hg rfl, ?_, ?_⟩
          · intro i hin
            rcases mem_append.mp hin with hold | hnew
            · exact absurd hold (hs.uncancelled hon i)
            · cases mem_singleton.mp hnew
          · exact justified_snoc.mpr ⟨hs.allowed hon, .other fun _ => rfl⟩
        exact .inr (hstp.changes (hs.tail hfir)
          ((cancelPendingNodes_changes rfl).trans (finishIfSettled_changes _)))
      · have hchn : Changes p (fun _ e => e ≠ .abort) s s' :=
          step_changes hs.active_pos he hst
        refine .inl (chain_preserves (I := fun s : Run κ n => s.aborted = false) hchn ?_ hon)
        intro s s' hc hs
        exact (hc.stays fun _ hg => hg rfl).trans hs
    · exact .inr (hstp.changes hs (step_changes hs.active_pos hg hst))

/--
**Cancellation stops new work, if it comes while no node waits behind a running one.** In such
runs no node is dispatched after the signal, a payment is released after it only for a node that
was dispatched before, and a node reported as cancelled is not touched any more.
-/
theorem abort_stops (p : Plan κ n) (marks : Fin n → Mark) {s : Run κ n}
    (h : (system p marks).Reachable FiresClear s) :
    (∀ before after, s.log = before ++ .aborted :: after → ∀ i, .dispatch i ∉ after ∧
      (.release i ∈ after ∨ (∃ ok, .paid i ok ∈ after) → .dispatch i ∈ before)) ∧
    ∀ before i after, s.log = before ++ .status i .cancelled :: after →
      .status i .running ∉ after ∧ .status i .completed ∉ after ∧ .dispatch i ∉ after ∧
        .release i ∉ after ∧ ∀ ok, .paid i ok ∉ after := by
  have halw : Justified Allowed s.log := by
    rcases stopped_reachable h with hon | hstp
    · exact (passed_of_reachable h).allowed hon
    · exact hstp.allowed
  constructor
  · intro before after hlog i
    have hno : ∀ j, .dispatch j ∉ after := by
      intro j hin
      obtain ⟨between, _, hok⟩ := halw.of_split hlog hin
      exact hok.dispatch j rfl (mem_append_right _ mem_cons_self)
    refine ⟨hno i, fun hpd => ?_⟩
    have hear : ∀ {between rest : List (Effect n)} {e : Effect n},
        after = between ++ e :: rest → .dispatch i ∈ before ++ .aborted :: between →
          .dispatch i ∈ before := by
      intro between rest e haf hin
      rcases mem_append.mp hin with hold | hnew
      · exact hold
      · refine absurd ?_ (hno i)
        rw [haf]
        refine mem_append_left _ ?_
        exact (mem_cons.mp hnew).resolve_left nofun
    rcases hpd with hin | ⟨ok, hin⟩
    · obtain ⟨between, ⟨rest, haf⟩, hok⟩ := halw.of_split hlog hin
      exact hear haf (hok.release i rfl)
    · obtain ⟨between, ⟨rest, haf⟩, hok⟩ := halw.of_split hlog hin
      exact hear haf (hok.paid i ok rfl)
  · intro before i after hlog
    have hno : ∀ {e : Effect n}, e.works i = true → e ∉ after := by
      intro e hwks hin
      obtain ⟨between, _, hok⟩ := halw.of_split hlog hin
      exact hok.cancelled i hwks (mem_append_right _ mem_cons_self)
    have hsf : decide (i = i) = true := decide_eq_true rfl
    refine ⟨hno ?_, hno ?_, hno hsf, hno hsf, fun ok => hno hsf⟩
    · simp [Effect.works]
    · simp [Effect.works]

/-! ## Examples -/

instance (s : Run κ n) (e : Event n) : Decidable (FiresClear s e) :=
  inferInstanceAs (Decidable (e = .abort → s.queue ≠ [] → s.active = 0))

/-- Four nodes, one more than there are slots. -/
def Sample.quad : Plan Nat 4 := plan 4 (fun i => i) fun _ => []

/-- The signal fires while the first of two nodes runs; the second never begins. -/
theorem abort_stops_chain : ∃ s, (system Sample.chain Sample.fresh).Reachable FiresClear s ∧
    ((∀ before after, s.log = before ++ .aborted :: after → ∀ i, .dispatch i ∉ after ∧
      (.release i ∈ after ∨ (∃ ok, .paid i ok ∈ after) → .dispatch i ∈ before)) ∧
    ∀ before i after, s.log = before ++ .status i .cancelled :: after →
      .status i .running ∉ after ∧ .status i .completed ∉ after ∧ .dispatch i ∉ after ∧
        .release i ∉ after ∧ ∀ ok, .paid i ok ∉ after) ∧
    .aborted ∈ s.log ∧ s.settled = true := by
  have hpl : ((system Sample.chain Sample.fresh).play FiresClear
      (.abort :: Sample.through 0) (Sample.chain.executeDAG Sample.fresh)).any
        (fun s => decide (.aborted ∈ s.log ∧ s.settled = true)) = true := by decide
  obtain ⟨s, hs, hend⟩ := exists_reachable (S := system Sample.chain Sample.fresh) rfl hpl
  exact ⟨s, hs, abort_stops Sample.chain Sample.fresh hs, hend⟩

/--
The signal fires while three of four nodes run. The fourth, reported as cancelled, is dispatched,
completed and paid for when the first one leaves its slot.
-/
theorem abort_starts_waiting : ∃ s before after,
    (system Sample.quad Sample.fresh).Reachable (fun _ _ => True) s ∧
      s.log = before ++ .aborted :: .status 3 .cancelled :: after ∧ .dispatch 3 ∉ before ∧
      .status 3 .running ∈ after ∧ .dispatch 3 ∈ after ∧ .status 3 .completed ∈ after ∧
      .paid 3 true ∈ after := by
  have hpl : ((system Sample.quad Sample.fresh).play (fun _ _ => True)
      (.abort :: (Sample.through 0 ++ Sample.through 3)) (Sample.quad.executeDAG Sample.fresh)).any
        (fun s => decide (s.log = s.log.take 10 ++ .aborted :: .status 3 .cancelled :: s.log.drop 12 ∧
          .dispatch 3 ∉ s.log.take 10 ∧ .status 3 .running ∈ s.log.drop 12 ∧
          .dispatch 3 ∈ s.log.drop 12 ∧ .status 3 .completed ∈ s.log.drop 12 ∧
          .paid 3 true ∈ s.log.drop 12)) = true := by decide
  obtain ⟨s, hs, hend⟩ := exists_reachable (S := system Sample.quad Sample.fresh) rfl hpl
  exact ⟨s, s.log.take 10, s.log.drop 12, hs, hend⟩

end AiNet.Coordinator
