import AiNet.TaskStore.Contract
import Mathlib.Data.List.DropRight

/-!
# The index of a creator

Both submission paths put the task last in its creator's index, without a look at who has it already:
a task submitted through both is listed twice, or by a creator it no longer belongs to.
-/

namespace AiNet.TaskStore

open Core List Option Sample Storage System

def maxTasksPageSize : Nat := 20

structure TaskPage where
  taskIds : List TaskId
  total : Nat
  nextCursor : Option Nat

variable {Addr Sym : Type} [DecidableEq Addr] (w : World Addr Sym) (creator : Addr)

def World.index : List TaskId := (w.creatorTasks.get creator).getD []

def getTasksByCreator (cursor limit : Nat) : TaskPage :=
  let ids := w.index creator
  let total := ids.length
  let pageSize := min limit maxTasksPageSize
  let start := min cursor total
  let stop := min (satAdd32 start pageSize) total
  ⟨(ids.take stop).drop start, total, if stop < total then some stop else none⟩

/-- The pages from a cursor on, each asked for with the `next_cursor` of the one before. -/
def walk (limit : Nat) : Nat → Nat → Option (List TaskId)
  | 0, _ => none
  | fuel + 1, cursor =>
    let page := getTasksByCreator w creator cursor limit
    match page.nextCursor with
    | none => some page.taskIds
    | some next => (walk limit fuel next).map fun rest => page.taskIds ++ rest

/-- Who submits which task, on either path. -/
def Event.submission : Event Addr Sym → Option (Addr × TaskId)
  | .invoke _ (.storeTaskMetadata submitter taskId ..) => some (submitter, taskId)
  | .invoke _ (.createTask taskId creator ..) => some (creator, taskId)
  | _ => none

/-- The tasks of a creator, the oldest first. -/
def submitted (log : List (World Addr Sym × Event Addr Sym)) : List TaskId :=
  log.filterMap fun entry => entry.2.submission.bind fun s => if s.1 = creator then some s.2 else none

/-- What of an index is left when a creator's task comes in. -/
def World.room (submitter : Addr) : List TaskId :=
  if submitter = creator ∧ maxTrackedTasksPerCreator ≤ (w.index creator).length then (w.index creator).tail
  else w.index creator

/-- A submitted task is not in the index of the creator it has, or goes from there. -/
def Fresh (w : World Addr Sym) (e : Event Addr Sym) : Prop :=
  ∀ s ∈ e.submission, ∀ creator ∈ getTaskCreator w s.2, s.2 ∉ w.room creator s.1

instance (w : World Addr Sym) (e : Event Addr Sym) : Decidable (Fresh w e) := by
  unfold Fresh
  infer_instance

variable {host : Host Addr Sym} {w w' : World Addr Sym} {creator : Addr}
  {log : List (World Addr Sym × Event Addr Sym)}

/-! ## What a call does to the indexes -/

omit [DecidableEq Addr] in
theorem appendVersion_index (w : World Addr Sym) (taskId : TaskId) (status : TaskStatus) (updater : Addr) :
    (appendVersion w taskId status updater).1.taskCreator = w.taskCreator ∧
      (appendVersion w taskId status updater).1.creatorTasks = w.creatorTasks := by
  unfold appendVersion
  dsimp only
  split
  · exact ⟨rfl, rfl⟩
  · exact ⟨rfl, rfl⟩

theorem step_index {e : Event Addr Sym} (h : (system host).step w e = some w') :
    w'.taskCreator = (e.submission.elim w fun s => indexCreatorTask w s.1 s.2).taskCreator ∧
      w'.creatorTasks = (e.submission.elim w fun s => indexCreatorTask w s.1 s.2).creatorTasks := by
  cases e with
  | close =>
    cases h
    exact ⟨rfl, rfl⟩
  | invoke call op =>
    have hok := step_invoke.mp h
    cases op with
    | initializeContract | pause | unpause | setOracleManager | setCoordinator =>
      simp only [exec, initializeContract, pause, unpause, setOracleManager, setCoordinator] at hok
      repeat obtain ⟨_, _, hok⟩ := bind_eq_ok.mp hok
      obtain rfl := pure_eq_ok.mp hok
      exact ⟨rfl, rfl⟩
    | storeTaskMetadata =>
      simp only [exec, storeTaskMetadata] at hok
      repeat obtain ⟨_, _, hok⟩ := bind_eq_ok.mp hok
      obtain rfl := pure_eq_ok.mp hok
      exact appendVersion_index ..
    | updateTaskStatus | createTask | updateStatus =>
      simp only [exec, updateTaskStatus, createTask, updateStatus] at hok
      repeat obtain ⟨_, _, hok⟩ := bind_eq_ok.mp hok
      obtain rfl := pure_eq_ok.mp hok
      exact appendVersion_index ..

theorem index_kept {e : Event Addr Sym} (h : (system host).step w e = some w') (hsub : e.submission = none) :
    w'.index = w.index ∧ getTaskCreator w' = getTaskCreator w := by
  have hidx := step_index h
  rw [hsub, elim_none] at hidx
  unfold World.index getTaskCreator
  rw [hidx.1, hidx.2]
  exact ⟨rfl, rfl⟩

theorem index_submitted {e : Event Addr Sym} (h : (system host).step w e = some w') {s : Addr × TaskId}
    (hsub : e.submission = some s) :
    (∀ creator, w'.index creator = if s.1 = creator then w.room creator creator ++ [s.2] else w.index creator) ∧
      ∀ id, getTaskCreator w' id = if s.2 = id then some s.1 else getTaskCreator w id := by
  have hidx := step_index h
  rw [hsub, elim_some] at hidx
  unfold World.room World.index getTaskCreator
  rw [hidx.1, hidx.2]
  refine ⟨fun creator => ?_, fun id => ?_⟩
  · by_cases hc : s.1 = creator
    · simp [indexCreatorTask, hc]
    · simp [indexCreatorTask, hc, get_set_ne _ _ (Ne.symm hc)]
  · by_cases hid : s.2 = id
    · simp [indexCreatorTask, hid]
    · simp [indexCreatorTask, hid, get_set_ne _ _ (Ne.symm hid)]

theorem rtake_snoc {α : Type} (l : List α) (a : α) {n : Nat} (hn : 0 < n) :
    (l ++ [a]).rtake n = (if n ≤ (l.rtake n).length then (l.rtake n).tail else l.rtake n) ++ [a] := by
  obtain ⟨n, rfl⟩ := Nat.exists_eq_add_one.mpr hn
  rw [rtake_concat_succ]
  congr 1
  unfold rtake
  rw [length_drop]
  split
  · rw [tail_drop]
    congr 1
    omega
  · congr 1
    omega

/-- **The index is the end of what was submitted.** -/
theorem index_eq_submitted {guard : World Addr Sym → Event Addr Sym → Prop}
    (h : (system host).Logged guard w log) (creator : Addr) :
    w.index creator = (submitted creator log).rtake maxTrackedTasksPerCreator := by
  induction h with
  | start h0 =>
    obtain ⟨now, sequence, rfl⟩ := h0
    rfl
  | @step w w' e log hlog hg hs ih =>
    rw [submitted, filterMap_append, ← submitted]
    cases hsub : e.submission with
    | none => rw [(index_kept hs hsub).1, filterMap_cons, hsub, bind_none, filterMap_nil, append_nil, ih]
    | some s =>
      rw [(index_submitted hs hsub).1, filterMap_cons, hsub, bind_some]
      by_cases hc : s.1 = creator
      · rw [if_pos hc, if_pos hc]
        show _ = (submitted creator log ++ [s.2]).rtake maxTrackedTasksPerCreator
        rw [rtake_snoc _ _ (by decide), ← ih]
        simp [World.room]
      · rw [if_neg hc, if_neg hc, filterMap_nil, append_nil, ih]

/-! ## Whose tasks they are -/

/-- An index lists tasks of its creator, each once. -/
def Own (w : World Addr Sym) : Prop :=
  ∀ creator, (w.index creator).Nodup ∧ ∀ id ∈ w.index creator, getTaskCreator w id = some creator

theorem Own.step {e : Event Addr Sym} (h : Own w) (hf : Fresh w e) (hs : (system host).step w e = some w') : Own w' := by
  intro creator
  cases hsub : e.submission with
  | none =>
    obtain ⟨hix, hcr⟩ := index_kept hs hsub
    rw [hix, hcr]
    exact h creator
  | some s =>
    obtain ⟨hix, hcr⟩ := index_submitted hs hsub
    have hfr := hf s hsub
    have hsubl : w.room creator creator <+ w.index creator := by
      unfold World.room
      split
      · exact tail_sublist _
      · exact Sublist.refl _
    simp only [hix, hcr]
    split
    · next hc =>
      have hout : s.2 ∉ w.room creator creator := fun hmem =>
        hfr creator ((h creator).2 s.2 (hsubl.subset hmem)) (hc ▸ hmem)
      refine ⟨concat_eq_append ▸ ((h creator).1.sublist hsubl).concat hout, fun id hid => ?_⟩
      split
      · exact congrArg some hc
      · next hne =>
        have hold := (mem_append.mp hid).resolve_right fun heq => hne (mem_singleton.mp heq).symm
        exact (h creator).2 id (hsubl.subset hold)
    · next hc =>
      refine ⟨(h creator).1, fun id hid => ?_⟩
      rw [if_neg]
      · exact (h creator).2 id hid
      · rintro rfl
        exact hfr creator ((h creator).2 s.2 hid) (by rwa [World.room, if_neg fun hc' => hc hc'.1])

/-! ## Pages -/

/-- **The pages are the index from the cursor on.** -/
theorem walk_eq {limit : Nat} (hl : 0 < limit) (hlen : (w.index creator).length ≤ maxTrackedTasksPerCreator)
    {fuel cursor : Nat} (hfuel : (w.index creator).length ≤ fuel + cursor) :
    walk w creator limit (fuel + 1) cursor = some ((w.index creator).drop cursor) := by
  have hpos : 0 < min limit maxTasksPageSize := lt_min hl (by decide)
  have hle : min limit maxTasksPageSize ≤ maxTasksPageSize := min_le_right ..
  have hmax : maxTrackedTasksPerCreator + maxTasksPageSize ≤ u32Max := by decide
  have hlast : ∀ fuel cursor, (w.index creator).length ≤
      min cursor (w.index creator).length + min limit maxTasksPageSize →
      walk w creator limit (fuel + 1) cursor = some ((w.index creator).drop cursor) := by
    intro fuel cursor hend
    simp only [walk, getTasksByCreator]
    rw [satAdd32_of_le (by omega), min_eq_right hend, if_neg (Nat.lt_irrefl _), take_length]
    rcases Nat.le_total cursor (w.index creator).length with hc | hc
    · rw [min_eq_left hc]
    · rw [min_eq_right hc, drop_length, drop_eq_nil_of_le hc]
  induction fuel generalizing cursor with
  | zero => exact hlast 0 cursor (by omega)
  | succ fuel ih =>
    rcases Nat.lt_or_ge (min cursor (w.index creator).length + min limit maxTasksPageSize) (w.index creator).length
      with hmore | hend
    · rw [walk]
      simp only [getTasksByCreator]
      rw [satAdd32_of_le (by omega), min_eq_left hmore.le, if_pos hmore]
      dsimp only
      rw [ih (by omega), map_some, min_eq_left (by omega : cursor ≤ (w.index creator).length), drop_take,
        Nat.add_sub_cancel_left, ← drop_drop, take_append_drop]
    · exact hlast _ cursor hend

/-- **The index of a creator**, where no task is submitted again while it is listed. -/
theorem creator_index (h : (system host).Logged Fresh w log) (creator : Addr) :
    w.index creator = (submitted creator log).rtake maxTrackedTasksPerCreator ∧ (w.index creator).Nodup ∧
      (∀ id ∈ w.index creator, getTaskCreator w id = some creator) ∧
        ∀ limit, 0 < limit → ∃ fuel, walk w creator limit fuel 0 = some (w.index creator) := by
  have hown : Own w := by
    refine h.reachable.invariant (fun w h0 => ?_) fun w e w' _ hf hI hs => Own.step hI hf hs
    obtain ⟨now, sequence, rfl⟩ := h0
    exact fun creator => ⟨nodup_nil, fun id hid => absurd hid not_mem_nil⟩
  have hix := index_eq_submitted h creator
  refine ⟨hix, (hown creator).1, (hown creator).2, fun limit hl => ⟨(w.index creator).length + 1, walk_eq hl ?_ le_rfl⟩⟩
  rw [hix, rtake, length_drop]
  omega

/-- A task of the one creator and, once it is there, a budget for it by the same one. -/
theorem creator_index_one : ∃ (w : World Nat Nat) (log : List (World Nat Nat × Event Nat Nat)),
    w.index 2 = [task] ∧ w.index 2 = (submitted 2 log).rtake maxTrackedTasksPerCreator ∧ (w.index 2).Nodup ∧
      (∀ id ∈ w.index 2, getTaskCreator w id = some 2) ∧
        ∀ limit, 0 < limit → ∃ fuel, walk w 2 limit fuel 0 = some (w.index 2) := by
  have hpl : ((system chain).play Fresh [store 2, move 3 .running] (World.init 1000 1)).any
      (fun w => w.index 2 = [task]) = true := by
    decide
  obtain ⟨w, hw, hend⟩ := exists_logged (start_init _ 1000 1) hpl
  exact ⟨w, _, hend, creator_index hw 2⟩

/-- A task submitted through both paths is listed twice. -/
theorem task_listed_twice : ¬∀ w, (system chain).Reachable (fun _ _ => True) w →
    ∀ creator : Nat, (w.index creator).Nodup := by
  intro hall
  have hpl : ((system chain).play (fun _ _ => True) [create 2, store 2] (World.init 1000 1)).any
      (fun w : World Nat Nat => w.index 2 = [task, task]) = true := by
    decide
  obtain ⟨w, hw, hend⟩ := exists_reachable (start_init _ 1000 1) hpl
  have hnd := hall w hw 2
  rw [hend] at hnd
  exact absurd hnd (by decide)

end AiNet.TaskStore
