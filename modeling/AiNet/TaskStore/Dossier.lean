import AiNet.Core.Keyed
import AiNet.TaskStore.Contract

/-!
# One task on its own

A `Dossier` is everything stored under one task id, by both submission paths: the two
records, and the creator, history and version count they share. `Dossier.Change` says
what the four calls that act on a task require and leave behind, and `book` packages
the contract as a table of dossiers: every call acts on one of them or on none.
-/

namespace AiNet.TaskStore

open Core List Option Sample Storage System

section

variable {Addr Sym : Type}

/-- Everything stored under one task id. -/
structure Dossier (Addr Sym : Type) where
  metadata : Option (TaskMetadata Addr Sym)
  record : Option (TaskRecord Addr)
  creator : Option Addr
  history : List (TaskVersionRecord Addr)
  count : Nat

/-- The dossier of a task nobody has submitted. -/
def Dossier.empty : Dossier Addr Sym where
  metadata := none
  record := none
  creator := none
  history := []
  count := 0

/-- What can be done to a task. -/
inductive Act (Addr : Type) where
  | storeTaskMetadata (submitter : Addr)
  | updateTaskStatus (agent : Addr) (newStatus : TaskStatus)
  | createTask (creator : Addr)
  | updateStatus (updater : Addr) (newStatus : TaskStatus)
  deriving DecidableEq

def Act.actor : Act Addr → Addr
  | .storeTaskMetadata submitter => submitter
  | .updateTaskStatus agent _ => agent
  | .createTask creator => creator
  | .updateStatus updater _ => updater

def Act.status : Act Addr → TaskStatus
  | .storeTaskMetadata _ => .assigned
  | .updateTaskStatus _ newStatus => newStatus
  | .createTask _ => .created
  | .updateStatus _ newStatus => newStatus

def Event.act : Event Addr Sym → Option (TaskId × Act Addr)
  | .invoke _ (.storeTaskMetadata submitter taskId _ _ _ _ _) =>
    some (taskId, .storeTaskMetadata submitter)
  | .invoke _ (.updateTaskStatus taskId agent newStatus) =>
    some (taskId, .updateTaskStatus agent newStatus)
  | .invoke _ (.createTask taskId creator _ _) => some (taskId, .createTask creator)
  | .invoke _ (.updateStatus taskId newStatus updater) =>
    some (taskId, .updateStatus updater newStatus)
  | _ => none

/-- `append_version` on a dossier. -/
def Dossier.append (w : World Addr Sym) (status : TaskStatus) (updater : Addr)
    (D : Dossier Addr Sym) : Dossier Addr Sym :=
  if maxHistoryRecords ≤ D.history.length then D
  else
    { D with
      history := D.history ++
        [{ seq := satAdd32 D.count 1
           status := status
           timestamp := w.now
           ledgerSequence := w.sequence
           updater := updater }]
      count := satAdd32 D.count 1 }

/--
The life of one task. `Dossier.Change w act D D'` says that `act`, performed in the world `w`, may
take the dossier `D` to `D'`.
-/
inductive Dossier.Change (w : World Addr Sym) :
    Act Addr → Dossier Addr Sym → Dossier Addr Sym → Prop where
  | store {D : Dossier Addr Sym} {submitter : Addr} {m : TaskMetadata Addr Sym} :
      D.metadata = none → m.status = .assigned →
      Change w (.storeTaskMetadata submitter) D
        (Dossier.append w .assigned submitter
          { D with metadata := some m, creator := some submitter })
  | move {D : Dossier Addr Sym} {agent : Addr} {newStatus : TaskStatus}
      {m : TaskMetadata Addr Sym} :
      D.metadata = some m → w.now < m.expiresAt →
      (D.creator = some agent ∨ w.coordinator = some agent) ∨ agent ∈ m.assignedAgents →
      canTransition m.status newStatus = true →
      Change w (.updateTaskStatus agent newStatus) D
        (Dossier.append w newStatus agent
          { D with metadata := some { m with status := newStatus } })
  | create {D : Dossier Addr Sym} {creator : Addr} {r : TaskRecord Addr} :
      D.record = none → r.creator = creator → r.status = .created →
      r.version = (D.append w .created creator).count →
      Change w (.createTask creator) D
        { D.append w .created creator with
          record := some r
          creator := some creator }
  | update {D : Dossier Addr Sym} {updater : Addr} {newStatus : TaskStatus}
      {r : TaskRecord Addr} :
      D.record = some r → w.now < lifecycleExpiresAt r.createdAt →
      (r.creator = updater ∨ w.coordinator = some updater) →
      canTransition r.status newStatus = true →
      Change w (.updateStatus updater newStatus) D
        { D.append w newStatus updater with
          record := some
            { r with
              status := newStatus
              updatedAt := w.now
              version := (D.append w newStatus updater).count } }

def World.dossier (taskId : TaskId) (w : World Addr Sym) : Dossier Addr Sym where
  metadata := w.tasks.get taskId
  record := w.lifecycleTasks.get taskId
  creator := w.taskCreator.get taskId
  history := readHistory w taskId
  count := (w.taskVersionCount.get taskId).getD 0

/-! ## Helpers -/

theorem appendVersion_dossier (w : World Addr Sym) (taskId : TaskId) (status : TaskStatus)
    (updater : Addr) :
    (appendVersion w taskId status updater).1.dossier taskId
        = (w.dossier taskId).append w status updater ∧
      (appendVersion w taskId status updater).2
        = ((w.dossier taskId).append w status updater).count ∧
      ∀ id, id ≠ taskId → (appendVersion w taskId status updater).1.dossier id = w.dossier id := by
  unfold appendVersion Dossier.append
  dsimp only
  by_cases hfl : maxHistoryRecords ≤ (readHistory w taskId).length
  · have hfl' : maxHistoryRecords ≤ (w.dossier taskId).history.length := hfl
    rw [if_pos hfl, if_pos hfl']
    exact ⟨rfl, rfl, fun _ _ => rfl⟩
  · have hfl' : ¬ maxHistoryRecords ≤ (w.dossier taskId).history.length := hfl
    rw [if_neg hfl, if_neg hfl']
    refine ⟨?_, rfl, ?_⟩
    · simp [World.dossier, readHistory]
    · intro id hid
      simp [World.dossier, readHistory, get_set_ne _ _ hid]

theorem appendVersion_frame (w : World Addr Sym) (taskId : TaskId) (status : TaskStatus)
    (updater : Addr) :
    (appendVersion w taskId status updater).1.lifecycleTasks = w.lifecycleTasks ∧
      (appendVersion w taskId status updater).1.now = w.now := by
  unfold appendVersion
  dsimp only
  split <;> exact ⟨rfl, rfl⟩

theorem dossier_setRecord (w : World Addr Sym) (taskId : TaskId) (r : TaskRecord Addr) :
    ({ w with lifecycleTasks := w.lifecycleTasks.set taskId r } : World Addr Sym).dossier taskId
        = { w.dossier taskId with record := some r } ∧
      ∀ id, id ≠ taskId →
        ({ w with lifecycleTasks := w.lifecycleTasks.set taskId r } : World Addr Sym).dossier id
          = w.dossier id := by
  refine ⟨by simp [World.dossier, readHistory], ?_⟩
  intro id hid
  simp [World.dossier, readHistory, get_set_ne _ _ hid]

variable {w : World Addr Sym} {taskId : TaskId}

@[simp] theorem readMetadata_eq_ok {m : TaskMetadata Addr Sym} :
    readMetadata w taskId = .ok m ↔ w.tasks.get taskId = some m ∧ w.now < m.expiresAt := by
  simp only [readMetadata, bind_eq_ok, okOr_eq_ok, failIf_eq_ok, exists_const, pure_eq_ok, not_le]
  constructor
  · rintro ⟨x, hx, hlv, rfl⟩
    exact ⟨hx, hlv⟩
  · rintro ⟨hm, hlv⟩
    exact ⟨m, hm, hlv, rfl⟩

@[simp] theorem readRecord_eq_ok {r : TaskRecord Addr} :
    readRecord w taskId = .ok r ↔
      w.lifecycleTasks.get taskId = some r ∧ w.now < lifecycleExpiresAt r.createdAt := by
  simp only [readRecord, bind_eq_ok, okOr_eq_ok, failIf_eq_ok, exists_const, pure_eq_ok, not_le]
  constructor
  · rintro ⟨x, hx, hlv, rfl⟩
    exact ⟨hx, hlv⟩
  · rintro ⟨hr, hlv⟩
    exact ⟨r, hr, hlv, rfl⟩

variable [DecidableEq Addr]

theorem ensureCanUpdate_eq_ok {updater : Addr} {creator : Option Addr}
    {assignedAgents : Option (List Addr)} {denied : Error} {u : Unit} :
    ensureCanUpdate w updater creator assignedAgents denied = .ok u ↔
      (creator = some updater ∨ w.coordinator = some updater) ∨
        ∃ agents, assignedAgents = some agents ∧ updater ∈ agents := by
  unfold ensureCanUpdate
  by_cases h : creator = some updater ∨ w.coordinator = some updater
  · rw [if_pos h]
    exact iff_of_true rfl (.inl h)
  · rw [if_neg h, or_iff_right h]
    by_cases hags : assignedAgents.any (fun agents => agents.contains updater) = true
    · rw [if_pos hags]
      obtain ⟨agents, ha, hmem⟩ := (Option.any_eq_true _ _).mp hags
      exact iff_of_true rfl ⟨agents, ha, contains_iff_mem.mp hmem⟩
    · rw [if_neg hags]
      refine iff_of_false nofun ?_
      rintro ⟨agents, ha, hmem⟩
      exact hags ((Option.any_eq_true _ _).mpr ⟨agents, ha, contains_iff_mem.mpr hmem⟩)

/-! ## Every call is a change of one dossier -/

variable {host : Host Addr Sym} {call : Call Addr Sym} {w w' : World Addr Sym}

/-- What a call does to the dossiers: it changes one and leaves the others alone. -/
structure Acted (taskId : TaskId) (act : Act Addr) (w w' : World Addr Sym) : Prop where
  change : Dossier.Change w act (w.dossier taskId) (w'.dossier taskId)
  others : ∀ id, id ≠ taskId → w'.dossier id = w.dossier id

theorem storeTaskMetadata_acts {submitter : Addr} {promptHash : BytesN 32} {assignedAgents : List Addr}
    {compressedDag : List UInt8} {ttlDays : Nat} {pricePair : Option Sym}
    (h : storeTaskMetadata host call submitter taskId promptHash assignedAgents compressedDag ttlDays pricePair w = .ok w') :
    Acted taskId (.storeTaskMetadata submitter) w w' := by
  simp only [storeTaskMetadata, requireNotPaused, bind_eq_ok, failIf_eq_ok, requireAuth_eq_ok,
    exists_and_left, exists_const, pure_eq_ok, Prod.exists, Bool.not_eq_true,
    has_eq_false] at h
  obtain ⟨-, -, hno, -, -, -, -, price, pair, -, rfl⟩ := h
  let m : TaskMetadata Addr Sym :=
    { taskId := taskId
      promptHash := promptHash
      assignedAgents := assignedAgents
      compressedDag := compressedDag
      status := .assigned
      createdAt := w.now
      expiresAt := satAdd64 w.now
        (satMul64 (if ttlDays = 0 then defaultTtlDays else ttlDays) secondsPerDay)
      quotedPriceStroops := price
      pricePair := pair }
  let w₁ := indexCreatorTask { w with tasks := w.tasks.set taskId m } submitter taskId
  have hsf : w₁.dossier taskId
      = { w.dossier taskId with metadata := some m, creator := some submitter } := by
    simp [w₁, World.dossier, indexCreatorTask, readHistory]
  have hoth : ∀ id, id ≠ taskId → w₁.dossier id = w.dossier id := by
    intro id hid
    simp [w₁, World.dossier, indexCreatorTask, readHistory, get_set_ne _ _ hid]
  obtain ⟨happ, -, hrst⟩ := appendVersion_dossier w₁ taskId .assigned submitter
  refine ⟨?_, fun id hid => (hrst id hid).trans (hoth id hid)⟩
  show Dossier.Change w _ _ ((appendVersion w₁ taskId .assigned submitter).1.dossier taskId)
  rw [happ, hsf]
  exact .store hno rfl

theorem updateTaskStatus_acts {agent : Addr} {newStatus : TaskStatus}
    (h : updateTaskStatus host call taskId agent newStatus w = .ok w') :
    Acted taskId (.updateTaskStatus agent newStatus) w w' := by
  simp only [updateTaskStatus, requireNotPaused, ensureTransition, bind_eq_ok, failIf_eq_ok,
    requireAuth_eq_ok, exists_and_left, exists_const, pure_eq_ok, readMetadata_eq_ok,
    ensureCanUpdate_eq_ok, Option.some.injEq, exists_eq_left', Bool.not_eq_false] at h
  obtain ⟨-, -, m, ⟨hm, hlv⟩, hmay, htrs, rfl⟩ := h
  let w₁ : World Addr Sym :=
    { w with tasks := w.tasks.set taskId { m with status := newStatus } }
  have hsf : w₁.dossier taskId
      = { w.dossier taskId with metadata := some { m with status := newStatus } } := by
    simp [w₁, World.dossier, readHistory]
  have hoth : ∀ id, id ≠ taskId → w₁.dossier id = w.dossier id := by
    intro id hid
    simp [w₁, World.dossier, readHistory, get_set_ne _ _ hid]
  obtain ⟨happ, -, hrst⟩ := appendVersion_dossier w₁ taskId newStatus agent
  refine ⟨?_, fun id hid => (hrst id hid).trans (hoth id hid)⟩
  show Dossier.Change w _ _ ((appendVersion w₁ taskId newStatus agent).1.dossier taskId)
  rw [happ, hsf]
  exact .move hm hlv hmay htrs

theorem createTask_acts {creator : Addr} {promptHash : BytesN 32} {budgetXlm : Int}
    (h : createTask host call taskId creator promptHash budgetXlm w = .ok w') :
    Acted taskId (.createTask creator) w w' := by
  simp only [createTask, requireNotPaused, bind_eq_ok, failIf_eq_ok, requireAuth_eq_ok,
    exists_and_left, exists_const, pure_eq_ok, Bool.not_eq_true, has_eq_false] at h
  obtain ⟨-, -, -, hno, rfl⟩ := h
  let w₁ := indexCreatorTask w creator taskId
  have hsf : w₁.dossier taskId = { w.dossier taskId with creator := some creator } := by
    simp [w₁, World.dossier, indexCreatorTask, readHistory]
  have hoth : ∀ id, id ≠ taskId → w₁.dossier id = w.dossier id := by
    intro id hid
    simp [w₁, World.dossier, indexCreatorTask, readHistory, get_set_ne _ _ hid]
  obtain ⟨happ, hcnt, hrst⟩ := appendVersion_dossier w₁ taskId .created creator
  obtain ⟨hwte, hkp⟩ := dossier_setRecord (appendVersion w₁ taskId .created creator).1 taskId
    { taskId := taskId
      creator := creator
      promptHash := promptHash
      budgetXlm := budgetXlm
      status := .created
      createdAt := (appendVersion w₁ taskId .created creator).1.now
      updatedAt := (appendVersion w₁ taskId .created creator).1.now
      version := (appendVersion w₁ taskId .created creator).2 }
  -- the creator is written before the history, which does not look at it
  have hsw : (w₁.dossier taskId).append w₁ .created creator
      = { (w.dossier taskId).append w .created creator with creator := some creator } := by
    rw [hsf]
    unfold Dossier.append
    split <;> rfl
  refine ⟨?_, fun id hid => ((hkp id hid).trans (hrst id hid)).trans (hoth id hid)⟩
  refine hwte ▸ ?_
  rw [happ, hsw]
  refine .create hno rfl rfl ?_
  rw [hcnt, hsw]

theorem updateStatus_acts {updater : Addr} {newStatus : TaskStatus}
    (h : updateStatus host call taskId newStatus updater w = .ok w') :
    Acted taskId (.updateStatus updater newStatus) w w' := by
  simp only [updateStatus, requireNotPaused, ensureTransition, bind_eq_ok, failIf_eq_ok,
    requireAuth_eq_ok, exists_and_left, exists_const, pure_eq_ok, readRecord_eq_ok,
    ensureCanUpdate_eq_ok, Option.some.injEq, Bool.not_eq_false, reduceCtorEq, false_and,
    or_false] at h
  obtain ⟨-, -, r, ⟨hr, hlv⟩, hmay, htrs, rfl⟩ := h
  obtain ⟨happ, hcnt, hrst⟩ := appendVersion_dossier w taskId newStatus updater
  obtain ⟨hsm, hnow⟩ := appendVersion_frame w taskId newStatus updater
  obtain ⟨hwte, hkp⟩ := dossier_setRecord (appendVersion w taskId newStatus updater).1 taskId
    { r with
      status := newStatus
      updatedAt := (appendVersion w taskId newStatus updater).1.now
      version := (appendVersion w taskId newStatus updater).2 }
  refine ⟨?_, fun id hid => (hkp id hid).trans (hrst id hid)⟩
  refine hwte ▸ ?_
  rw [happ, hcnt, hnow]
  exact .update hr hlv hmay htrs

/-- **Every call that acts on a task is a change of its dossier**, signed by whoever acts. -/
theorem exec_acts {op : Op Addr Sym} {act : Act Addr}
    (hact : Event.act (.invoke call op) = some (taskId, act)) (h : exec host call op w = .ok w') :
    Acted taskId act w w' ∧ call.signed act.actor = true := by
  cases op with
  | storeTaskMetadata =>
    cases hact
    refine ⟨storeTaskMetadata_acts h, ?_⟩
    simp only [exec, storeTaskMetadata, bind_eq_ok, requireAuth_eq_ok, exists_const] at h
    obtain ⟨-, -, hsgn, -⟩ := h
    exact hsgn.2
  | updateTaskStatus =>
    cases hact
    refine ⟨updateTaskStatus_acts h, ?_⟩
    simp only [exec, updateTaskStatus, bind_eq_ok, requireAuth_eq_ok, exists_const] at h
    obtain ⟨-, -, hsgn, -⟩ := h
    exact hsgn.2
  | createTask =>
    cases hact
    refine ⟨createTask_acts h, ?_⟩
    simp only [exec, createTask, bind_eq_ok, requireAuth_eq_ok, exists_const] at h
    obtain ⟨-, -, hsgn, -⟩ := h
    exact hsgn.2
  | updateStatus =>
    cases hact
    refine ⟨updateStatus_acts h, ?_⟩
    simp only [exec, updateStatus, bind_eq_ok, requireAuth_eq_ok, exists_const] at h
    obtain ⟨-, -, hsgn, -⟩ := h
    exact hsgn.2
  | _ => cases hact

theorem exec_admin {op : Op Addr Sym} (hact : Event.act (.invoke call op) = none)
    (h : exec host call op w = .ok w') (taskId : TaskId) : w'.dossier taskId = w.dossier taskId := by
  cases op with
  | initializeContract | pause | unpause | setOracleManager | setCoordinator =>
    simp only [exec, initializeContract, pause, unpause, setOracleManager, setCoordinator] at h
    repeat obtain ⟨_, _, h⟩ := bind_eq_ok.mp h
    obtain rfl := pure_eq_ok.mp h
    rfl
  | _ => cases hact

/-- **The contract is a table of dossiers.** -/
def book (host : Host Addr Sym) :
    Keyed (system host) TaskId (Act Addr) (Dossier Addr Sym) where
  act := Event.act
  view := World.dossier
  vacant := .empty
  Change _ w := Dossier.Change w
  start := by
    rintro w ⟨now, sequence, rfl⟩ taskId
    rfl
  acted := by
    intro w w' e taskId act _ hs hact
    cases e with
    | close => cases hact
    | invoke => exact (exec_acts hact (step_invoke.mp hs)).1.change
  untouched := by
    intro w w' e taskId _ hs hnone
    cases e with
    | close => cases hs; rfl
    | invoke call op =>
      have hexec := step_invoke.mp hs
      cases hact : Event.act (.invoke call op) with
      | none => exact exec_admin hact hexec taskId
      | some ka =>
        obtain ⟨id, act⟩ := ka
        have hid : taskId ≠ id := fun he => hnone act (he ▸ hact)
        exact (exec_acts hact hexec).1.others taskId hid

end

/-!
## Who may move a task with a graph

`update_task_status` accepts the address stored as the task's creator, and both
submission paths store one under the same key. As long as `create_task` is only used
on such a task by its own submitter or agents, the stored creator is one of them;
anybody else who uses it puts themselves in the submitter's place.
-/

variable {Addr Sym : Type}

/-- `create_task` is used on a task with a graph by its stored creator or its agents only. -/
def Dossier.OwnCreates (D : Dossier Addr Sym) : Act Addr → Prop
  | .createTask creator =>
    ∀ m ∈ D.metadata, D.creator = some creator ∨ creator ∈ m.assignedAgents
  | _ => True

/-- Where a task with a graph comes from, given what was done to it. -/
structure Provenance (D : Dossier Addr Sym) (done : List (Act Addr)) : Prop where
  /-- Without a graph nobody submitted one. -/
  unsubmitted : D.metadata = none → ∀ a, .storeTaskMetadata a ∉ done
  /-- With a graph one address did, and the stored creator is that address or an agent. -/
  creator : ∀ m, D.metadata = some m → ∃ submitter,
    (D.creator = some submitter ∨ ∃ agent ∈ m.assignedAgents, D.creator = some agent) ∧
      ∀ a, .storeTaskMetadata a ∈ done ↔ a = submitter

theorem Dossier.append_metadata (D : Dossier Addr Sym) (w : World Addr Sym)
    (status : TaskStatus) (updater : Addr) :
    (D.append w status updater).metadata = D.metadata ∧
      (D.append w status updater).creator = D.creator := by
  unfold Dossier.append
  split <;> exact ⟨rfl, rfl⟩

theorem Provenance.keep {D D' : Dossier Addr Sym} {done : List (Act Addr)}
    {act : Act Addr} (h : Provenance D done) (hact : ∀ a, act ≠ .storeTaskMetadata a)
    (hno : D'.metadata = none → D.metadata = none)
    (hso : ∀ m', D'.metadata = some m' → ∃ m, D.metadata = some m ∧ m'.assignedAgents = m.assignedAgents ∧
        (D'.creator = D.creator ∨ ∃ agent ∈ m.assignedAgents, D'.creator = some agent)) :
    Provenance D' (done ++ [act]) := by
  have hdn : ∀ a, .storeTaskMetadata a ∈ done ++ [act] ↔ .storeTaskMetadata a ∈ done := by
    intro a
    rw [mem_append, mem_singleton, or_iff_left]
    exact fun he => hact a he.symm
  refine ⟨?_, ?_⟩
  · intro hn a
    rw [hdn]
    exact h.unsubmitted (hno hn) a
  · intro m' hm'
    obtain ⟨m, hm, hags, hkp⟩ := hso m' hm'
    obtain ⟨submitter, hc, hon⟩ := h.creator m hm
    refine ⟨submitter, ?_, fun a => by rw [hdn]; exact hon a⟩
    rw [hags]
    rcases hkp with hkp | hagt
    · rw [hkp]
      exact hc
    · exact .inr hagt

theorem Dossier.Change.provenance {w : World Addr Sym} {act : Act Addr}
    {D D' : Dossier Addr Sym} {done : List (Act Addr)} (h : Dossier.Change w act D D')
    (hown : D.OwnCreates act) (hp : Provenance D done) : Provenance D' (done ++ [act]) := by
  cases h with
  | @store D submitter m hno hst =>
    obtain ⟨hme, hcre⟩ := Dossier.append_metadata
      { D with metadata := some m, creator := some submitter } w .assigned submitter
    refine ⟨?_, ?_⟩
    · intro hn
      rw [hme] at hn
      cases hn
    · intro m' _
      refine ⟨submitter, .inl hcre, ?_⟩
      intro a
      rw [mem_append, or_iff_right (hp.unsubmitted hno a), mem_singleton]
      constructor
      · intro he
        injection he
      · intro he
        rw [he]
  | @move D agent newStatus m hm hlv hmay htrs =>
    obtain ⟨hme, hcre⟩ := Dossier.append_metadata
      { D with metadata := some { m with status := newStatus } } w newStatus agent
    refine hp.keep (fun a => by simp) ?_ ?_
    · intro hn
      rw [hme] at hn
      cases hn
    · intro m' hm'
      rw [hme] at hm'
      injection hm' with hm'
      exact ⟨m, hm, by rw [← hm'], .inl hcre⟩
  | @create D creator r hno hc hst hver =>
    obtain ⟨hme, -⟩ := D.append_metadata w .created creator
    refine hp.keep (fun a => by simp) (fun hn => hme ▸ hn) ?_
    intro m hm
    have hm : D.metadata = some m := hme ▸ hm
    -- here the guard is used: the creator written is the one already there, or an agent
    refine ⟨m, hm, rfl, ?_⟩
    rcases hown m hm with hsm | hagt
    · exact .inl hsm.symm
    · exact .inr ⟨creator, hagt, rfl⟩
  | @update D updater newStatus r hr hlv hmay htrs =>
    obtain ⟨hme, hcre⟩ := D.append_metadata w newStatus updater
    exact hp.keep (fun a => by simp) (fun hn => hme ▸ hn)
      (fun m hm => ⟨m, hme ▸ hm, rfl, .inl hcre⟩)

variable [DecidableEq Addr] {host : Host Addr Sym} {taskId : TaskId}

/-- The run recorded in the log has `a` submit the task with a graph. -/
def Submitted (host : Host Addr Sym) (taskId : TaskId)
    (log : List (World Addr Sym × Event Addr Sym)) (a : Addr) : Prop :=
  .storeTaskMetadata a ∈ ((book host).acts taskId log).map Prod.snd

instance (log : List (World Addr Sym × Event Addr Sym)) (a : Addr) :
    Decidable (Submitted host taskId log a) :=
  inferInstanceAs (Decidable (_ ∈ _))

instance (D : Dossier Addr Sym) (act : Act Addr) : Decidable (D.OwnCreates act) := by
  cases act <;> unfold Dossier.OwnCreates <;> infer_instance

/-- The runs in which no stranger creates a budget task over the task with a graph. -/
def OwnRun (host : Host Addr Sym) (taskId : TaskId) :
    World Addr Sym → Event Addr Sym → Prop :=
  (book host).OnKey taskId fun _ => Dossier.OwnCreates

instance (w : World Addr Sym) (e : Event Addr Sym) :
    Decidable (OwnRun host taskId w e) := by
  unfold OwnRun
  infer_instance

theorem provenance_logged {w : World Addr Sym}
    {log : List (World Addr Sym × Event Addr Sym)}
    (h : (system host).Logged (OwnRun host taskId) w log) :
    Provenance (w.dossier taskId) (((book host).acts taskId log).map Prod.snd) := by
  refine (book host).invariant (fun D l => Provenance D (l.map Prod.snd)) (fun _ _ hg => hg)
    ?_ ?_ h
  · refine ⟨fun _ a hmem => ?_, fun m hm => ?_⟩
    · cases hmem
    · cases hm
  · intro w act D D' l hc hown hp
    rw [map_append]
    exact hc.provenance hown hp

/--
**Only entitled parties move a task with a graph**: a transition is made by its submitter, by the
coordinator of the moment, or by one of its agents. This holds in every run in which `create_task`
is used on the task, once it has a graph, only by its submitter or its agents.
-/
theorem entitled_update {w : World Addr Sym}
    {log : List (World Addr Sym × Event Addr Sym)}
    (h : (system host).Logged (OwnRun host taskId) w log) {call : Call Addr Sym}
    {agent : Addr} {newStatus : TaskStatus} {w' : World Addr Sym}
    (hs : (system host).step w (.invoke call (.updateTaskStatus taskId agent newStatus)) = some w') :
    call.signed agent = true ∧ ∃ m submitter, w.tasks.get taskId = some m ∧
      (∀ a, Submitted host taskId log a ↔ a = submitter) ∧
        (agent = submitter ∨ w.coordinator = some agent ∨ agent ∈ m.assignedAgents) := by
  obtain ⟨hatd, hsgn⟩ := exec_acts rfl (step_invoke.mp hs)
  refine ⟨hsgn, ?_⟩
  have hp := provenance_logged h
  have hchg := hatd.change
  generalize w'.dossier taskId = D' at hchg
  cases hchg with
  | @move _ _ _ m hm hlv hmay htrs =>
    obtain ⟨submitter, hc, hon⟩ := hp.creator m hm
    refine ⟨m, submitter, hm, hon, ?_⟩
    rcases hmay with (hcre | hcoo) | hagt
    · rw [hcre] at hc
      rcases hc with hc | ⟨a, ha, hc⟩
      · injection hc with hc
        exact .inl hc
      · injection hc with hc
        exact .inr (.inr (hc ▸ ha))
    · exact .inr (.inl hcoo)
    · exact .inr (.inr hagt)

/-- The submitter opens a budget task under the same id and goes on moving the one with a graph. -/
theorem entitled_update_own : ∃ (w : World Nat Nat) (log : List (World Nat Nat × Event Nat Nat))
    (w' : World Nat Nat),
    (system Sample.chain).Logged (OwnRun Sample.chain Sample.task) w log ∧
      (system Sample.chain).step w (Sample.move 2 .running) = some w' ∧
      ∃ m submitter, w.tasks.get Sample.task = some m ∧
        (∀ a, Submitted Sample.chain Sample.task log a ↔ a = submitter) ∧
          (2 = submitter ∨ w.coordinator = some 2 ∨ 2 ∈ m.assignedAgents) := by
  have hpl : ((system Sample.chain).play (OwnRun Sample.chain Sample.task)
      [Sample.store 2, Sample.create 2] (World.init 1000 1)).any
        (fun w => ((system Sample.chain).step w (Sample.move 2 .running)).isSome) = true := by
    decide
  obtain ⟨w, hw, hmo⟩ := (Option.any_eq_true _ _).mp hpl
  obtain ⟨w', hs⟩ := isSome_iff_exists.mp hmo
  have hlog := logged_of_play (start_init _ 1000 1) hw
  exact ⟨w, _, w', hlog, hs, (entitled_update hlog hs).2⟩

/--
The takeover: address `5` opens a budget task under the id of a task with a graph that `2` submitted
for agent `3`, and is then allowed to fail the task with the graph.
-/
theorem stranger_moves_task : ∃ (w : World Nat Nat) (log : List (World Nat Nat × Event Nat Nat)),
    (system Sample.chain).Logged (fun _ _ => True) w log ∧
      ((system Sample.chain).step w (Sample.move 5 .failed)).isSome = true ∧
      ¬ Submitted Sample.chain Sample.task log 5 ∧ w.coordinator = none ∧
      (w.tasks.get Sample.task).map TaskMetadata.assignedAgents = some [3] := by
  have hpl : ((system Sample.chain).play (fun _ _ => True)
      [Sample.store 2, Sample.create 5] (World.init 1000 1)).any
        (fun w => ((system Sample.chain).step w (Sample.move 5 .failed)).isSome = true ∧
          w.coordinator = none ∧
          (w.tasks.get Sample.task).map TaskMetadata.assignedAgents = some [3]) = true := by
    decide
  obtain ⟨w, hw, hmo, hcoo, hags⟩ := exists_logged (start_init _ 1000 1) hpl
  exact ⟨w, _, hw, hmo, by decide, hcoo, hags⟩

end AiNet.TaskStore
