import AiNet.Coordinator.Settling

/-!
# What the log says about a node

The deeds done for a node are its dispatch, its completion, the call of the payment service and
the answer of that. The log holds them in this order and each at most once: the `trail` of a
node is determined by where its continuation stands. This is true of every run, whatever the
ids and the statuses the nodes start with, and whether or not it is aborted.
-/

namespace AiNet.Coordinator

open Core AiNet.Budget Relation List Function Sample

section

variable {κ : Type} [DecidableEq κ] {n : Nat} {p : Plan κ n}
  {guard : Run κ n → Event n → Prop} {marks : Fin n → Mark} {s s' : Run κ n}

/-! ## What a small change writes down -/

/-- What a small change adds to the log, with what held before it. -/
inductive Saying (s : Run κ n) : List (Effect n) → Prop where
  | nothing : Saying s []
  | refuse (i) : s.phase i = .starting → Saying s [.status i .running, .status i .failed]
  | dial (i) : s.phase i = .starting → Saying s [.status i .running, .dispatch i, .call i .override none]
  | search (i) : s.phase i = .starting → Saying s [.status i .running, .dispatch i]
  | call (i target told) : s.phase i = .lookup ∨ s.phase i = .retrying (.call target) →
      Saying s [.call i target told]
  | recorded (i target told tokens) : s.phase i = .calling target told → Saying s [.recorded i tokens]
  | failed (i) : s.phase i = .answered true ∨ (∃ message, s.phase i = .retrying (.throw message)) →
      Saying s [.status i .failed]
  | complete (i) : s.phase i = .answered false → Saying s [.status i .completed, .release i]
  | paid (i ok) : s.phase i = .paying → Saying s [.paid i ok]
  | aborted : s.aborted = false → Saying s [.aborted]
  | cancel (i) : s.aborted = true → (s.marks i).status = .pending → Saying s [.status i .cancelled]
  | block (i) : (s.marks i).status = .pending → Saying s [.status i .failed]
  | task (final) : s.settled = false → Saying s [.task final]

theorem Change.said (h : Change p guard s s') : ∃ es, s'.log = s.log ++ es ∧ Saying s es := by
  cases h with
  | take | enqueue | occupy | free | hand | finish | missing | overridden | fail | countCompleted
  | countFailed => exact ⟨[], (append_nil _).symm, .nothing⟩
  | refuse i hph => exact ⟨_, append_assoc .., .refuse i hph⟩
  | dial i hph =>
    exact ⟨_, (append_assoc ..).trans (append_assoc ..), .dial i hph⟩
  | search i hph => exact ⟨_, append_assoc .., .search i hph⟩
  | found i fallback hph => exact ⟨_, rfl, .call i _ _ (.inl hph)⟩
  | redial i target hph => exact ⟨_, rfl, .call i target _ (.inr hph)⟩
  | recorded i target halt params told hph =>
    exact ⟨_, rfl, .recorded i target told params.totalTokens hph⟩
  | halt i hph => exact ⟨_, rfl, .failed i (.inl hph)⟩
  | throw i message hph => exact ⟨_, rfl, .failed i (.inr ⟨message, hph⟩)⟩
  | complete i hph => exact ⟨_, append_assoc .., .complete i hph⟩
  | payment i ok hph => exact ⟨_, rfl, .paid i ok hph⟩
  | abort hs => exact ⟨_, rfl, .aborted hs⟩
  | cancel i hs hpnd => exact ⟨_, rfl, .cancel i hs hpnd⟩
  | block i error hpnd => exact ⟨_, rfl, .block i hpnd⟩
  | settleCancelled hs | settle hs => exact ⟨_, rfl, .task _ hs⟩

/-! ## Deeds -/

/-- What is done for a node. -/
inductive Deed where
  | dispatched
  | completed
  | released
  | paid
  deriving DecidableEq

def Effect.deed (i : Fin n) : Effect n → Option Deed
  | .dispatch j => if j = i then some .dispatched else none
  | .status j st => if j = i ∧ st = .completed then some .completed else none
  | .release j => if j = i then some .released else none
  | .paid j _ => if j = i then some .paid else none
  | .task _ | .call _ _ _ | .recorded _ _ | .aborted => none

/-- The deeds for a node, in the order of the log. -/
def trail (i : Fin n) (log : List (Effect n)) : List Deed := log.filterMap (Effect.deed i)

def Ending.deeds : Ending → List Deed
  | .refused => []
  | .failed => [.dispatched]
  | .completed => [.dispatched, .completed, .released, .paid]

/-- The deeds for a node that stands here. -/
def Phase.deeds : Phase → List Deed
  | .idle | .taken | .waiting | .starting => []
  | .lookup | .calling _ _ | .answered _ | .retrying _ => [.dispatched]
  | .paying => [.dispatched, .completed, .released]
  | .returned ending | .counted ending | .freed ending | .done ending => ending.deeds

theorem trail_append (i : Fin n) (log more : List (Effect n)) :
    trail i (log ++ more) = trail i log ++ trail i more :=
  filterMap_append

variable {i : Fin n}

section

omit [DecidableEq κ]

theorem trail_goto {f f' : Phase} {es : List (Effect n)}
    (ih : ∀ j, trail j s.log = (s.phase j).deeds) (hph : s.phase i = f)
    (hmv : s'.phase = update s.phase i f') (hlog : s'.log = s.log ++ es)
    (hots : ∀ j, i ≠ j → trail j es = []) (hdee : f'.deeds = f.deeds ++ trail i es)
    (j : Fin n) : trail j s'.log = (s'.phase j).deeds := by
  rw [hlog, trail_append, hmv, ih]
  by_cases hij : i = j
  · rw [← hij, update_self, hph]
    exact hdee.symm
  · rw [update_of_ne (Ne.symm hij), hots j hij, append_nil]

theorem trail_note {es : List (Effect n)} (ih : ∀ j, trail j s.log = (s.phase j).deeds)
    (hmv : s'.phase = s.phase) (hlog : s'.log = s.log ++ es) (hno : ∀ j, trail j es = [])
    (j : Fin n) : trail j s'.log = (s'.phase j).deeds := by
  rw [hlog, trail_append, hno, append_nil, hmv]
  exact ih j

end

/-- **The deeds for a node are those of the place where it stands.** -/
theorem Passed.trail (h : Passed p guard marks s) (i : Fin n) :
    trail i s.log = (s.phase i).deeds := by
  refine h.invariant (I := fun s => ∀ i, AiNet.Coordinator.trail i s.log = (s.phase i).deeds)
    (fun _ => rfl) ?_ i
  intro s s' hs hc ih
  have hmo : ∀ {i : Fin n} {f : Phase} (f' : Phase) (es : List (Effect n)), s.phase i = f →
      s'.phase = update s.phase i f' → s'.log = s.log ++ es →
      (∀ j, i ≠ j → AiNet.Coordinator.trail j es = []) →
      f'.deeds = f.deeds ++ AiNet.Coordinator.trail i es →
      ∀ j, AiNet.Coordinator.trail j s'.log = (s'.phase j).deeds :=
    fun f' es hph hmv hlog hots hdee => trail_goto ih hph hmv hlog hots hdee
  have hsm : ∀ (es : List (Effect n)), s'.phase = s.phase → s'.log = s.log ++ es →
      (∀ j, AiNet.Coordinator.trail j es = []) →
      ∀ j, AiNet.Coordinator.trail j s'.log = (s'.phase j).deeds :=
    fun es hmv hlog hno => trail_note ih hmv hlog hno
  cases hc with
  | take i hab hrdy =>
    have hil : s.phase i = .idle := by
      by_contra hne
      unfold Plan.ready at hrdy
      simp only [Bool.and_eq_true, Bool.not_eq_true', decide_eq_false_iff_not] at hrdy
      exact hrdy.1.2 (hs.wired.scheduled i hne)
    exact hmo .taken [] hil rfl (append_nil _).symm (fun _ _ => rfl) rfl
  | enqueue i hph =>
    exact hmo .waiting [] hph rfl (append_nil _).symm (fun _ _ => rfl) rfl
  | occupy i hph =>
    exact hmo .starting [] hph rfl (append_nil _).symm (fun _ _ => rfl) rfl
  | free i ending hph =>
    exact hmo (.freed ending) [] hph rfl (append_nil _).symm (fun _ _ => rfl)
      (append_nil _).symm
  | finish i ending hph =>
    exact hmo (.done ending) [] hph rfl (append_nil _).symm (fun _ _ => rfl)
      (append_nil _).symm
  | hand i ending j rest hph hque =>
    have hwts : s.phase j = .waiting := by
      rw [← show (j ∈ s.queue ↔ s.phase j = .waiting) from hs.wired.queued j, hque]
      exact mem_cons_self
    have hji : j ≠ i := by
      intro hji
      rw [hji, hph] at hwts
      cases hwts
    have hlf : ∀ k, AiNet.Coordinator.trail k (({ s with queue := rest }).goto i (.freed ending)).log =
          ((({ s with queue := rest }).goto i (.freed ending)).phase k).deeds :=
      trail_goto ih hph rfl (append_nil _).symm (fun _ _ => rfl) (append_nil _).symm
    have hthe : (({ s with queue := rest }).goto i (.freed ending)).phase j = .waiting := by
      rw [Run.goto_phase_of_ne _ hji]
      exact hwts
    exact trail_goto hlf hthe rfl (append_nil _).symm (fun _ _ => rfl) rfl
  | refuse i hph =>
    refine hmo (.returned .refused) [.status i .running, .status i .failed] hph rfl
      (append_assoc ..) (fun j hij => ?_) ?_
    · simp [AiNet.Coordinator.trail, Effect.deed]
    · simp [AiNet.Coordinator.trail, Effect.deed, Phase.deeds, Ending.deeds]
  | dial i hph =>
    refine hmo (.calling .override none)
      [.status i .running, .dispatch i, .call i .override none] hph rfl ?_ (fun j hij => ?_) ?_
    · exact (append_assoc ..).trans (append_assoc ..)
    · simp [AiNet.Coordinator.trail, Effect.deed, hij]
    · simp [AiNet.Coordinator.trail, Effect.deed, Phase.deeds]
  | search i hph =>
    refine hmo .lookup [.status i .running, .dispatch i] hph rfl
      (append_assoc ..) (fun j hij => ?_) ?_
    · simp [AiNet.Coordinator.trail, Effect.deed, hij]
    · simp [AiNet.Coordinator.trail, Effect.deed, Phase.deeds]
  | found i fallback hph =>
    exact hmo (.calling (.primary 1 fallback) (some s.ledger.allowanceFor)) [.call i _ _] hph
      rfl rfl (fun _ _ => rfl) rfl
  | missing i message hph =>
    exact hmo (.retrying (.throw message)) [] hph rfl (append_nil _).symm
      (fun _ _ => rfl) rfl
  | redial i target hph =>
    exact hmo (.calling target (some s.ledger.allowanceFor)) [.call i _ _] hph rfl rfl
      (fun _ _ => rfl) rfl
  | overridden i halt params told hph =>
    exact hmo (.answered halt) [] hph rfl (append_nil _).symm (fun _ _ => rfl) rfl
  | recorded i target halt params told hph =>
    exact hmo (.answered halt) [.recorded i params.totalTokens] hph rfl rfl
      (fun _ _ => rfl) rfl
  | fail i target retryable message told hph =>
    exact hmo (.retrying (Plan.afterFailure target retryable message)) [] hph rfl
      (append_nil _).symm (fun _ _ => rfl) rfl
  | halt i hph | throw i message hph =>
    refine hmo (.returned .failed) [.status i .failed] hph rfl rfl (fun j hij => ?_) ?_
    · simp [AiNet.Coordinator.trail, Effect.deed]
    · simp [AiNet.Coordinator.trail, Effect.deed, Phase.deeds, Ending.deeds]
  | complete i hph =>
    refine hmo .paying [.status i .completed, .release i] hph rfl
      (append_assoc ..) (fun j hij => ?_) ?_
    · simp [AiNet.Coordinator.trail, Effect.deed, hij]
    · simp [AiNet.Coordinator.trail, Effect.deed, Phase.deeds]
  | payment i ok hph =>
    refine hmo (.returned .completed) [.paid i ok] hph rfl rfl (fun j hij => ?_) ?_
    · simp [AiNet.Coordinator.trail, Effect.deed, hij]
    · simp [AiNet.Coordinator.trail, Effect.deed, Phase.deeds, Ending.deeds]
  | countCompleted i hph =>
    exact hmo (.counted .completed) [] hph rfl (append_nil _).symm (fun _ _ => rfl) rfl
  | countFailed i ending hph =>
    exact hmo (.counted ending) [] hph rfl (append_nil _).symm (fun _ _ => rfl)
      (append_nil _).symm
  | abort => exact hsm [.aborted] rfl rfl fun _ => rfl
  | settleCancelled => exact hsm [.task .cancelled] rfl rfl fun _ => rfl
  | settle => exact hsm [.task _] rfl rfl fun _ => rfl
  | cancel i => exact hsm [.status i .cancelled] rfl rfl fun j => (by
      simp [AiNet.Coordinator.trail, Effect.deed])
  | block i => exact hsm [.status i .failed] rfl rfl fun j => (by
      simp [AiNet.Coordinator.trail, Effect.deed])

/-! ## Counting deeds -/

theorem count_of_deed {e : Effect n} {d : Deed} (h : ∀ e' : Effect n, e'.deed i = some d ↔ e' = e)
    (log : List (Effect n)) :
    log.count e = (trail i log).count d := by
  unfold trail
  rw [count_filterMap, count_eq_countP]
  refine countP_congr fun e' _ => ?_
  rw [beq_iff_eq, beq_iff_eq, h]

theorem count_dispatch (i : Fin n) (log : List (Effect n)) :
    log.count (.dispatch i) = (trail i log).count .dispatched := by
  refine count_of_deed (fun e => ?_) log
  cases e <;> simp [Effect.deed]

theorem count_completed (i : Fin n) (log : List (Effect n)) :
    log.count (.status i .completed) = (trail i log).count .completed := by
  refine count_of_deed (fun e => ?_) log
  cases e <;> simp [Effect.deed]

theorem count_release (i : Fin n) (log : List (Effect n)) :
    log.count (.release i) = (trail i log).count .released := by
  refine count_of_deed (fun e => ?_) log
  cases e <;> simp [Effect.deed]

theorem Ending.nodup_deeds (ending : Ending) : ending.deeds.Nodup := by
  cases ending <;> decide

theorem Phase.nodup_deeds (f : Phase) : f.deeds.Nodup := by
  cases f with
  | idle | taken | waiting | starting => exact nodup_nil
  | lookup | calling | answered | retrying => exact nodup_singleton _
  | paying => decide
  | returned ending | counted ending | freed ending | done ending => exact ending.nodup_deeds

theorem Phase.count_deeds_le (f : Phase) (d : Deed) : f.deeds.count d ≤ 1 :=
  nodup_iff_count_le_one.mp f.nodup_deeds d

theorem Phase.count_released (f : Phase) :
    f.deeds.count .released = f.deeds.count .completed := by
  cases f with
  | idle | taken | waiting | starting | lookup | calling | answered | retrying | paying => rfl
  | returned ending | counted ending | freed ending | done ending => cases ending <;> rfl

end

/-!
## Dependencies, dispatches and payments

A node is handed to an agent once, after its dependencies are completed; the payment service
is called once for each node that this run completes. The task ends completed exactly when
every node is and no payment failed.
-/

variable {κ : Type} [DecidableEq κ] {n : Nat} {p : Plan κ n}
  {guard : Run κ n → Event n → Prop} {marks : Fin n → Mark} {s s' : Run κ n}

/-! ## Before a node is dispatched -/

variable {i : Fin n}

theorem Change.ready_of_awake (hw : Wired p s.control) (hc : Change p guard s s')
    (hi : s'.phase i ≠ .idle) : s.phase i ≠ .idle ∨ p.ready s i = true := by
  rcases hw.awake hc.move hi with hold | ⟨hfr, hin, _⟩
  · exact .inl hold
  · cases hc with
    | take j hab hrdy =>
      by_cases hij : i = j
      · exact .inr (hij ▸ hrdy)
      · unfold Plan.take at hi
        rw [Run.goto_phase_of_ne _ hij] at hi
        exact .inl hi
    | _ => exact absurd hin hfr

theorem Change.completed (hc : Change p guard s s') : s'.completed = s.completed ∨
    ∃ i, s.phase i = .returned .completed ∧ s'.completed = insert (p.nodeId i) s.completed := by
  cases hc with
  | countCompleted i hph => exact .inr ⟨i, hph, rfl⟩
  | _ => exact .inl rfl

theorem Change.pending (hc : Change p guard s s')
    (hi : (s'.marks i).status = .pending) : (s.marks i).status = .pending := by
  have hwrt : ∀ {j : Fin n} {mark : Mark}, mark.status ≠ .pending →
      (update s.marks j mark i).status = .pending → (s.marks i).status = .pending := by
    intro j mark hne hupd
    by_cases hij : i = j
    · rw [hij, update_self] at hupd
      exact absurd hupd hne
    · rwa [update_of_ne hij] at hupd
  cases hc with
  | refuse j =>
    dsimp only [Plan.failNodeForBudget, Plan.enter, Run.goto, Run.setNode, Run.setStatus, Run.keep] at hi
    by_cases hij : i = j
    · rw [hij, update_self] at hi
      cases hi
    · rw [update_of_ne hij] at hi
      exact hwrt NodeStatus.noConfusion hi
  | dial | search | halt | complete | throw | cancel | block =>
    exact hwrt NodeStatus.noConfusion hi
  | take | enqueue | occupy | free | hand | finish | found | missing | redial | overridden
  | recorded | fail | payment | countCompleted | countFailed | abort | settleCancelled | settle =>
    exact hi

theorem Passed.initially_pending (h : Passed p guard marks s)
    (hi : s.phase i ≠ .idle ∨ (s.marks i).status = .pending) : (marks i).status = .pending := by
  refine h.invariant (I := fun s => ∀ i, s.phase i ≠ .idle ∨ (s.marks i).status = .pending →
    (marks i).status = .pending) (fun i hi => hi.resolve_left fun hne => hne rfl) ?_ i hi
  intro s s' hs hc ih i hi
  refine ih i ?_
  rcases hi with hph | hpnd
  · rcases hc.ready_of_awake hs.wired hph with hold | hrdy
    · exact .inl hold
    · unfold Plan.ready at hrdy
      simp only [Bool.and_eq_true, decide_eq_true_eq] at hrdy
      exact .inr hrdy.1.1
  · exact .inr (hc.pending hpnd)

theorem Passed.met (h : Passed p guard marks s) (hi : s.phase i ≠ .idle) {dep : κ}
    (hdep : dep ∈ p.dependencies i) : dep ∈ s.completed := by
  refine h.invariant (I := fun s => ∀ i, s.phase i ≠ .idle → ∀ dep ∈ p.dependencies i,
    dep ∈ s.completed) (fun i hi => absurd rfl hi) ?_ i hi dep hdep
  intro s s' hs hc ih i hi dep hdep
  have hmet : dep ∈ s.completed := by
    rcases hc.ready_of_awake hs.wired hi with hold | hrdy
    · exact ih i hold dep hdep
    · unfold Plan.ready at hrdy
      simp only [Bool.and_eq_true] at hrdy
      exact of_decide_eq_true (List.all_eq_true.mp hrdy.2 dep hdep)
  rcases hc.completed with hsm | ⟨j, _, hmo⟩
  · rwa [hsm]
  · rw [hmo]
    exact Finset.mem_insert_of_mem hmet

/-- Some node with this id is completed, from the start or in this run. -/
def Done (p : Plan κ n) (marks : Fin n → Mark) (log : List (Effect n)) (id : κ) : Prop :=
  ∃ i, p.nodeId i = id ∧ ((marks i).status = .completed ∨ .status i .completed ∈ log)

omit [DecidableEq κ] in
theorem Done.append {log : List (Effect n)} {id : κ} (h : Done p marks log id)
    (more : List (Effect n)) : Done p marks (log ++ more) id := by
  obtain ⟨i, hid, hi⟩ := h
  exact ⟨i, hid, hi.imp_right (mem_append_left more)⟩

theorem Passed.mem_completed (h : Passed p guard marks s)
    (hi : .completed ∈ (s.phase i).deeds) : .status i .completed ∈ s.log := by
  rw [← count_pos_iff, count_completed, h.trail, count_pos_iff]
  exact hi

theorem Passed.done (h : Passed p guard marks s) {id : κ} (hid : id ∈ s.completed) :
    Done p marks s.log id := by
  refine h.invariant (I := fun s => ∀ id ∈ s.completed, Done p marks s.log id) ?_ ?_ id hid
  · intro id hid
    obtain ⟨i, hi, rfl⟩ := Finset.mem_image.mp hid
    exact ⟨i, rfl, .inl (Finset.mem_filter.mp hi).2⟩
  · intro s s' hs hc ih id hid
    obtain ⟨es, hlog, _⟩ := hc.said
    rw [hlog]
    rcases hc.completed with hsm | ⟨i, hph, hmo⟩
    · rw [hsm] at hid
      exact (ih id hid).append es
    · rw [hmo] at hid
      rcases Finset.mem_insert.mp hid with rfl | hold
      · refine Done.append ⟨i, rfl, .inr (hs.mem_completed ?_)⟩ es
        rw [hph]
        decide
      · exact (ih id hold).append es

/-- What holds when a node is dispatched. -/
def Due (p : Plan κ n) (marks : Fin n → Mark) (before : List (Effect n)) (e : Effect n) : Prop :=
  ∀ i, e = .dispatch i → .dispatch i ∉ before ∧ ∀ dep ∈ p.dependencies i, Done p marks before dep

/-- **A node is dispatched once, and after its dependencies are completed.** -/
theorem Passed.due (h : Passed p guard marks s) : Justified (Due p marks) s.log := by
  refine h.invariant (I := fun s => Justified (Due p marks) s.log) ?_ ?_
  · refine justified_snoc.mpr ⟨justified_nil, ?_⟩
    intro i hi
    cases hi
  · intro s s' hs hc ih
    obtain ⟨es, hlog, hsa⟩ := hc.said
    rw [hlog, justified_append]
    refine ⟨ih, ?_⟩
    have hdue : ∀ i, s.phase i = .starting → Due p marks (s.log ++ [.status i .running]) (.dispatch i) := by
      intro i hph j hj
      cases hj
      constructor
      · -- its continuation stands before the dispatch
        intro hin
        have hno : s.log.count (.dispatch i) = 0 := by
          rw [count_dispatch, hs.trail, hph]
          rfl
        rcases mem_append.mp hin with hold | hnew
        · exact count_eq_zero.mp hno hold
        · cases mem_singleton.mp hnew
      · intro dep hdep
        exact (hs.done (hs.met (hph.trans_ne Phase.noConfusion) hdep)).append _
    cases hsa with
    | dial i hph =>
      exact ⟨nofun, hdue i hph, nofun, trivial⟩
    | search i hph => exact ⟨nofun, hdue i hph, trivial⟩
    | nothing => exact trivial
    | refuse | complete => exact ⟨nofun, nofun, trivial⟩
    | call | recorded | failed | paid | aborted | cancel | block | task =>
      exact ⟨nofun, trivial⟩

/-! ## Payments -/

theorem Passed.released (h : Passed p guard marks s) (i : Fin n) :
    s.log.count (.release i) = s.log.count (.status i .completed) ∧ s.log.count (.release i) ≤ 1 := by
  rw [count_release, count_completed, h.trail]
  exact ⟨(s.phase i).count_released, (s.phase i).count_deeds_le .released⟩

theorem Passed.released_iff (h : Passed p guard marks s) (hids : Function.Injective p.nodeId)
    (hab : s.aborted = false) (i : Fin n) : s.log.count (.release i) =
      if (s.marks i).status = .completed ∧ (marks i).status ≠ .completed then 1 else 0 := by
  have hacd := h.accounted hids hab
  rw [count_release, h.trail]
  cases hph : s.phase i with
  | idle =>
    refine (if_neg ?_).symm
    intro ⟨hcmp, hbf⟩
    rcases hacd.idle i hph with hsm | hblk
    · rw [hsm] at hcmp
      exact hbf hcmp
    · rw [hblk.2.2] at hcmp
      cases hcmp
  | taken | waiting | starting | lookup | calling | answered | retrying | paying =>
    have hst := hacd.status i _ (congrArg Phase.status hph)
    rw [hst.1, hst.2]
    rfl
  | returned ending | counted ending | freed ending | done ending =>
    have hst := hacd.status i _ (congrArg Phase.status hph)
    rw [hst.1, hst.2]
    cases ending <;> rfl

/-! ## The verdict -/

theorem Passed.paymentFailed (h : Passed p guard marks s) : s.settled = false →
    (s.paymentFailed = true ↔ ∃ i, .paid i false ∈ s.log) := by
  refine h.invariant (I := fun s => s.settled = false →
    (s.paymentFailed = true ↔ ∃ i, .paid i false ∈ s.log)) ?_ ?_
  · intro _
    refine iff_of_false Bool.false_ne_true ?_
    intro ⟨i, hi⟩
    cases mem_singleton.mp hi
  · intro s s' hs hc ih
    have hsm : ∀ {es : List (Effect n)}, s'.log = s.log ++ es → (∀ i, .paid i false ∉ es) →
        s'.paymentFailed = s.paymentFailed → s'.settled = s.settled → s'.settled = false →
          (s'.paymentFailed = true ↔ ∃ i, .paid i false ∈ s'.log) := by
      intro es hlog hno hkpt hstl hon
      rw [hkpt, ih (hstl ▸ hon), hlog]
      refine exists_congr fun i => ?_
      rw [mem_append]
      exact (or_iff_left (hno i)).symm
    cases hc with
    | settle | settleCancelled => exact nofun
    | payment i ok =>
      intro hon
      have hbf := ih hon
      dsimp only [Plan.payment, Run.goto, Run.note]
      rw [Bool.or_eq_true, hbf]
      constructor
      · intro hfai
        rcases hfai with ⟨j, hj⟩ | hnow
        · exact ⟨j, mem_append_left _ hj⟩
        · obtain rfl : ok = false := by simpa using hnow
          exact ⟨i, mem_append_right _ mem_cons_self⟩
      · intro ⟨j, hj⟩
        rcases mem_append.mp hj with hold | hnew
        · exact .inl ⟨j, hold⟩
        · cases mem_singleton.mp hnew
          exact .inr rfl
    | take | enqueue | occupy | free | hand | finish | missing | overridden | fail | countCompleted
    | countFailed =>
      exact hsm (append_nil _).symm (fun _ => not_mem_nil) rfl rfl
    | refuse | search | complete =>
      exact hsm (append_assoc ..) (fun _ => by simp) rfl rfl
    | dial =>
      exact hsm ((append_assoc ..).trans (append_assoc ..)) (fun _ => by simp) rfl rfl
    | found | redial | recorded | halt | throw | abort | cancel | block =>
      exact hsm rfl (fun _ => by simp) rfl rfl

omit [DecidableEq κ] in
theorem Accounted.through (h : Accounted p marks s)
    (hall : ∀ i, p.nodeId i ∈ s.completed ∨ p.nodeId i ∈ s.failed)
    (hfr : ∀ i, s.phase i ≠ .idle → (marks i).status = .pending) (i : Fin n) :
    s.phase i = .idle ∧ (s.marks i).status ≠ .pending ∨ ∃ ending, (s.phase i).tallied = some ending := by
  rcases hall i with hc | hf
  · rcases (h.completed i).mp hc with hcmp | htly
    · have hil : s.phase i = .idle := by
        by_contra hne
        rw [hfr i hne] at hcmp
        cases hcmp
      refine .inl ⟨hil, ?_⟩
      intro hpnd
      rw [h.initially_pending hil hpnd] at hcmp
      cases hcmp
    · exact .inr ⟨_, htly⟩
  · rcases (h.failed i).mp hf with ⟨ending, hedg, _⟩ | hblk
    · exact .inr ⟨ending, hedg⟩
    · refine .inl ⟨hblk.1, ?_⟩
      rw [hblk.2.2]
      exact NodeStatus.noConfusion

theorem Accounted.all_of_card (h : Accounted p marks s) (hids : Function.Injective p.nodeId)
    (hca : s.completed.card + s.failed.card = n) (i : Fin n) :
    p.nodeId i ∈ s.completed ∨ p.nodeId i ∈ s.failed := by
  have hsub : s.completed ∪ s.failed ⊆ Finset.univ.image p.nodeId := by
    intro id hid
    obtain ⟨j, hj⟩ := h.known id (Finset.mem_union.mp hid)
    exact Finset.mem_image.mpr ⟨j, Finset.mem_univ j, hj⟩
  have heq : s.completed ∪ s.failed = Finset.univ.image p.nodeId := by
    refine Finset.eq_of_subset_of_card_le hsub ?_
    rw [Finset.card_union_of_disjoint h.disjoint, hca, Finset.card_image_of_injective _ hids,
      Finset.card_univ, Fintype.card_fin]
  rw [← Finset.mem_union, heq]
  exact Finset.mem_image_of_mem _ (Finset.mem_univ i)

/-- A run that settled without an abort: every node is counted, and the verdict is on record. -/
structure Closed (p : Plan κ n) (s : Run κ n) : Prop where
  all : ∀ i, p.nodeId i ∈ s.completed ∨ p.nodeId i ∈ s.failed
  verdict : .task .completed ∈ s.log ↔ s.failed = ∅ ∧ ∀ i, .paid i false ∉ s.log

theorem Passed.not_ended (h : Passed p guard marks s) (hstl : s.settled = false)
    {final : TaskStatus} (hfnl : final.terminal = true) : .task final ∉ s.log := by
  intro hin
  have hcnt := h.terminal
  rw [hstl] at hcnt
  exact countP_eq_zero.mp hcnt _ hin hfnl

omit [DecidableEq κ] in
theorem outcome_completed (s : Run κ n) :
    Plan.outcome s = .completed ↔ s.failed = ∅ ∧ s.paymentFailed = false := by
  unfold Plan.outcome
  rw [← Finset.card_eq_zero]
  by_cases hfai : 0 < s.failed.card
  · rw [if_pos hfai]
    exact iff_of_false TaskStatus.noConfusion fun h => (Nat.ne_of_gt hfai) h.1
  · rw [if_neg hfai]
    have hz : s.failed.card = 0 := Nat.eq_zero_of_not_pos hfai
    cases s.paymentFailed with
    | true => exact iff_of_false TaskStatus.noConfusion fun h => (by cases h.2)
    | false => exact iff_of_true rfl ⟨hz, rfl⟩

theorem Passed.settles (h : Passed p guard marks s) (hids : Function.Injective p.nodeId)
    (hab : s.aborted = false) (hstl : s.settled = false)
    (hca : s.completed.card + s.failed.card = n) : Closed p (Plan.settleCost
      { ({ s with settled := true }).note (.task (Plan.outcome s)) with paymentFailed := false }) where
  all := (h.accounted hids hab).all_of_card hids hca
  verdict := by
    have hpd := h.paymentFailed hstl
    dsimp only [Plan.settleCost, Run.note]
    rw [mem_append, mem_singleton, or_iff_right (h.not_ended hstl rfl)]
    have hsm : (Effect.task .completed : Effect n) = .task (Plan.outcome s) ↔ Plan.outcome s = .completed :=
      ⟨fun he => (Effect.task.inj he).symm, fun he => congrArg Effect.task he.symm⟩
    rw [hsm, outcome_completed, ← Bool.not_eq_true, hpd, not_exists]
    refine and_congr_right fun _ => forall_congr' fun i => not_congr ?_
    rw [mem_append, mem_singleton]
    exact (or_iff_left nofun).symm

theorem Closed.change (h : Closed p s) (hc : Change p guard s s')
    (hacd : Accounted p marks s) (hfr : ∀ i, s.phase i ≠ .idle → (marks i).status = .pending)
    (hstl : s.settled = true) (hab : s.aborted = false) (hab' : s'.aborted = false) :
    Closed p s' := by
  have hthr := hacd.through h.all hfr
  have hsti : ∀ {i : Fin n} {f : Phase} {status : NodeStatus}, s.phase i = f →
      f.status = some status → f.tallied = none → False := by
    intro i f status hph hst hno
    rcases hthr i with ⟨hil, _⟩ | ⟨ending, hedg⟩
    · rw [← hph, hil] at hst
      cases hst
    · rw [hph, hno] at hedg
      cases hedg
  have hpnd : ∀ i, (s.marks i).status ≠ .pending := by
    intro i hpnd
    rcases hthr i with ⟨_, hne⟩ | ⟨ending, hedg⟩
    · exact hne hpnd
    · have hst := (hacd.status i _ (Phase.status_of_tallied hedg)).1
      rw [hpnd] at hst
      cases ending <;> cases hst
  cases hc with
  | take i _ hrdy =>
    unfold Plan.ready at hrdy
    simp only [Bool.and_eq_true, decide_eq_true_eq] at hrdy
    exact absurd hrdy.1.1 (hpnd i)
  | abort => cases hab'
  | cancel i hps =>
    rw [hab] at hps
    cases hps
  | block i error hwas => exact absurd hwas (hpnd i)
  | settleCancelled hon | settle hon =>
    rw [hstl] at hon
    cases hon
  | enqueue | occupy | free | hand | finish | missing | overridden | fail =>
    exact ⟨h.all, h.verdict⟩
  | refuse i hph | dial i hph | search i hph | found i _ hph | redial i _ hph
  | recorded i _ _ _ _ hph | halt i hph | complete i hph | throw i _ hph
  | payment i _ hph | countCompleted i hph | countFailed i _ hph =>
    exact (hsti hph rfl rfl).elim

theorem Passed.closed (h : Passed p guard marks s) (hids : Function.Injective p.nodeId) :
    s.aborted = false → s.settled = true → Closed p s := by
  refine h.invariant (I := fun s => s.aborted = false → s.settled = true → Closed p s)
    nofun ?_
  intro s s' hs hc ih hab' hstl'
  have hab := hc.aborted hab'
  cases hstl : s.settled with
  | false =>
    cases hc with
    | settle _ hca => exact hs.settles hids hab hstl hca
    | settleCancelled _ hps =>
      rw [hab] at hps
      cases hps
    | _ =>
      have hon : s.settled = true := hstl'
      rw [hstl] at hon
      cases hon
  | true =>
    exact (ih hab hstl).change hc (hs.accounted hids hab)
      (fun i hi => hs.initially_pending (.inl hi)) hstl hab hab'

/-- **The verdict is that every node is completed and no payment has failed.** -/
theorem Passed.verdict (h : Passed p guard marks s) (hids : Function.Injective p.nodeId)
    (hab : s.aborted = false) (hstl : s.settled = true) : .task .completed ∈ s.log ↔
      (∀ i, (s.marks i).status = .completed) ∧ ∀ i, .paid i false ∉ s.log := by
  have hacd := h.accounted hids hab
  have hcld := h.closed hids hab hstl
  rw [hcld.verdict]
  refine and_congr_left fun _ => ?_
  have hst : ∀ i, (s.marks i).status = .completed ↔ p.nodeId i ∉ s.failed := by
    intro i
    have hedd : ∀ {ending : Ending}, (s.phase i).tallied = some ending →
        (s.marks i).status = ending.status :=
      fun hedg => (hacd.status i _ (Phase.status_of_tallied hedg)).1
    constructor
    · intro hcmp hin
      rcases (hacd.failed i).mp hin with ⟨ending, hedg, hne⟩ | hblk
      · rw [hedd hedg] at hcmp
        cases ending with
        | completed => exact hne rfl
        | refused | failed => cases hcmp
      · rw [hblk.2.2] at hcmp
        cases hcmp
    · intro hout
      rcases (hacd.completed i).mp ((hcld.all i).resolve_right hout) with hwas | hedg
      · -- the node was completed before the run, which has not touched it
        have hil : s.phase i = .idle := by
          by_contra hne
          rw [h.initially_pending (.inl hne)] at hwas
          cases hwas
        rcases hacd.idle i hil with hsm | hblk
        · rw [hsm]
          exact hwas
        · rw [hblk.2.1] at hwas
          cases hwas
      · exact hedd hedg
  constructor
  · intro hemp i
    rw [hst, hemp]
    exact Finset.notMem_empty _
  · intro hall
    refine Finset.eq_empty_of_forall_notMem fun id hid => ?_
    obtain ⟨i, rfl⟩ := hacd.known id (.inr hid)
    exact (hst i).mp (hall i) hid

end AiNet.Coordinator
