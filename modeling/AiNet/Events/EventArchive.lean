import AiNet.Core.UniqueTable
import Mathlib.Data.List.Sort
import Mathlib.Logic.Function.Basic

/-!
# The event store and the bus

`task_events` holds an event per row, at most one for each task and sequence number. The bus stamps
the sequence numbers: it counts for each task, and a new bus continues from the largest number that
is stored. An event that the store refuses is logged and lost.

A timestamp is the milliseconds that its ISO text stands for, and a payload is its JSON text.
-/

namespace AiNet.Events

open Core List UniqueTable

variable {τ : Type} [DecidableEq τ]

/-! ## Events -/

/-- An event as components emit it. An empty node id is none. -/
structure DAGEvent (τ : Type) where
  type : String
  taskId : τ
  nodeId : Option String
  timestamp : Nat
  payload : Option String
  deriving DecidableEq

/-- An event as it is appended. -/
structure AppEvent (τ : Type) where
  type : String
  taskId : τ
  nodeId : Option String
  occurredAt : Nat
  version : Nat
  taskSeq : Nat
  payload : Option String
  deriving DecidableEq

/-- A row of `task_events`. -/
structure EventRow (τ : Type) where
  globalSeq : Nat
  taskSeq : Nat
  version : Nat
  type : String
  taskId : τ
  nodeId : Option String
  occurredAt : Nat
  payload : Option String
  deriving DecidableEq

def EventRow.key (r : EventRow τ) : τ × Nat := (r.taskId, r.taskSeq)

def currentEventVersion : Nat := 2

/-- `TYPE_MAP`; other types are kept. -/
def typeMap : String → String
  | "node_started" => "NodeStarted"
  | "node_completed" => "NodeCompleted"
  | "node_failed" => "NodeFailed"
  | "payment_locked" => "PaymentLocked"
  | "payment_released" => "PaymentReleased"
  | "task_completed" => "TaskCompleted"
  | "task_failed" => "TaskFailed"
  | type => type

/-- A node event without a payload gets an empty object. -/
def dagEventToAppEvent (event : DAGEvent τ) (seq : Nat) : AppEvent τ where
  type := typeMap event.type
  taskId := event.taskId
  nodeId := event.nodeId.filter fun nodeId => decide (nodeId ≠ "")
  occurredAt := event.timestamp
  version := currentEventVersion
  taskSeq := seq
  payload :=
    match event.nodeId.filter fun nodeId => decide (nodeId ≠ "") with
    | some _ => some (event.payload.getD "\x7b\x7d")
    | none => event.payload

/-! ## The store -/

/-- The table `task_events`, and the last row number that SQLite gave. -/
structure EventStore (τ : Type) where
  events : UniqueTable (EventRow.key : EventRow τ → τ × Nat)
  sequence : Nat

namespace EventStore

variable (store : EventStore τ)

/-- The row of an event that is appended next. -/
def row (event : AppEvent τ) : EventRow τ where
  globalSeq := store.sequence + 1
  taskSeq := event.taskSeq
  version := event.version
  type := event.type
  taskId := event.taskId
  nodeId := event.nodeId
  occurredAt := event.occurredAt
  payload := event.payload

/-- `append`; it throws if the number is taken. -/
def append (event : AppEvent τ) : Option (EventStore τ) :=
  (store.events.insert (store.row event)).map fun events => ⟨events, store.sequence + 1⟩

def ofTask (taskId : τ) : List (EventRow τ) :=
  store.events.rows.filter fun r => decide (r.taskId = taskId)

def listByTask (taskId : τ) : List (EventRow τ) :=
  (store.ofTask taskId).insertionSort fun r r' => r.taskSeq ≤ r'.taskSeq

/-- `listByTaskSince`, with a limit. -/
def listByTaskSince (taskId : τ) (afterSeq : Int) (limit : Nat) : List (EventRow τ) :=
  (((store.ofTask taskId).filter fun r => decide (afterSeq < r.taskSeq)).insertionSort
    fun r r' => r.taskSeq ≤ r'.taskSeq).take limit

def maxTaskSeqPerTask (taskId : τ) : Option Nat :=
  ((store.ofTask taskId).map EventRow.taskSeq).max?

end EventStore

/-! ## The bus -/

/-- `nextSeqByTask`; a task that is missing starts at 0. -/
abbrev Counters (τ : Type) := τ → Option Nat

/-- The counters of a new bus. -/
def rehydrate (store : EventStore τ) : Counters τ :=
  fun taskId => (store.maxTaskSeqPerTask taskId).map (· + 1)

/-- `emit`: the number and the counters after it, and the store if it takes the event. Every caller
emits an event of the task. -/
def emit (counters : Counters τ) (store : EventStore τ) (event : DAGEvent τ) :
    Counters τ × EventStore τ :=
  let seq := (counters event.taskId).getD 0
  (Function.update counters event.taskId (some (seq + 1)),
    (store.append (dagEventToAppEvent event seq)).getD store)

/-!
## The archive of compacted tasks

A finished task is compacted: its rows are copied to `task_event_archive`, counted there, and deleted
from `task_events`, in one transaction. A row whose task and number the archive already has is not
copied. The summaries that compaction also writes are counted only.
-/

def taskLevelNodeId : String := ""

/-- A row of `task_event_archive`. -/
structure ArchivedRow (τ : Type) where
  globalSeq : Nat
  taskSeq : Nat
  version : Nat
  type : String
  taskId : τ
  nodeId : String
  occurredAt : Nat
  payload : Option String
  archivedAt : Nat
  deriving DecidableEq

def ArchivedRow.key (r : ArchivedRow τ) : τ × Nat := (r.taskId, r.taskSeq)

def EventRow.archived (archivedAt : Nat) (r : EventRow τ) : ArchivedRow τ where
  globalSeq := r.globalSeq
  taskSeq := r.taskSeq
  version := r.version
  type := r.type
  taskId := r.taskId
  nodeId := r.nodeId.getD taskLevelNodeId
  occurredAt := r.occurredAt
  payload := r.payload
  archivedAt := archivedAt

/-- `rowToArchivedEvent`. -/
def ArchivedRow.event (r : ArchivedRow τ) : EventRow τ where
  globalSeq := r.globalSeq
  taskSeq := r.taskSeq
  version := r.version
  type := r.type
  taskId := r.taskId
  nodeId := if r.nodeId ≠ taskLevelNodeId then some r.nodeId else none
  occurredAt := r.occurredAt
  payload := r.payload

section

omit [DecidableEq τ]

@[simp] theorem key_archived (archivedAt : Nat) (r : EventRow τ) : (r.archived archivedAt).key = r.key :=
  rfl

/-- **The archive keeps an event as it is**, if its node id is not the empty text. -/
theorem event_archived (archivedAt : Nat) {r : EventRow τ} (h : r.nodeId ≠ some taskLevelNodeId) :
    (r.archived archivedAt).event = r := by
  obtain ⟨globalSeq, taskSeq, version, type, taskId, nodeId, occurredAt, payload⟩ := r
  unfold EventRow.archived ArchivedRow.event
  cases nodeId with
  | none => simp
  | some nodeId =>
    have hne : nodeId ≠ taskLevelNodeId := fun heq => h (by rw [heq])
    simp [hne]

end

theorem nodeId_row (store : EventStore τ) (event : DAGEvent τ) (seq : Nat) :
    (store.row (dagEventToAppEvent event seq)).nodeId ≠ some taskLevelNodeId := by
  intro hno
  have hpos := (Option.filter_eq_some_iff.mp hno).2
  exact of_decide_eq_true hpos rfl

/-- The event database: the live table, and the archive beside it. -/
structure EventDb (τ : Type) where
  store : EventStore τ
  archive : UniqueTable (ArchivedRow.key : ArchivedRow τ → τ × Nat)

structure CompactionOutcome where
  compacted : Bool
  eventsArchived : Nat
  summariesWritten : Nat
  eventsPurged : Nat
  deriving DecidableEq

namespace EventDb

variable (db : EventDb τ)

/-- `compactTask`: `none` where it throws, and then nothing is changed. -/
def compactTask (taskId : τ) (archivedAt : Nat) (stillCompacting : Bool) :
    Option (EventDb τ × CompactionOutcome) :=
  if !stillCompacting then none
  else
    let rows := db.store.ofTask taskId
    let preCount := rows.length
    if preCount = 0 then some (db, ⟨false, 0, 0, 0⟩)
    else
      let archive := db.archive.insertAll (rows.map (EventRow.archived archivedAt))
      let archivedCount := (archive.rows.filter fun r => decide (r.taskId = taskId)).length
      if archivedCount < preCount then none
      else
        let events := db.store.events.keep fun r => decide (r.taskId ≠ taskId)
        let deleted := db.store.events.rows.length - events.rows.length
        if deleted ≠ preCount then none
        else
          some (⟨{ db.store with events := events }, archive⟩,
            ⟨true, preCount, ((rows.map EventRow.nodeId).dedup).length, deleted⟩)

/-- What a compaction makes of the database. -/
def compacted (taskId : τ) (archivedAt : Nat) : EventDb τ where
  store := { db.store with events := db.store.events.keep fun r => decide (r.taskId ≠ taskId) }
  archive := db.archive.insertAll ((db.store.ofTask taskId).map (EventRow.archived archivedAt))

end EventDb

variable {db : EventDb τ} {store : EventStore τ}

theorem mem_ofTask {taskId : τ} {r : EventRow τ} :
    r ∈ store.ofTask taskId ↔ r ∈ store.events.rows ∧ r.taskId = taskId := by
  unfold EventStore.ofTask
  simp

/-- **The archive has every row of the task once they are copied.** -/
theorem archived_count (db : EventDb τ) (taskId : τ) (archivedAt : Nat) : (db.store.ofTask taskId).length ≤
    ((db.compacted taskId archivedAt).archive.rows.filter fun r => decide (r.taskId = taskId)).length := by
  refine length_le_of_keys (t := db.store.events.keep fun r => decide (r.taskId = taskId))
    (u := (db.compacted taskId archivedAt).archive.keep fun r => decide (r.taskId = taskId)) ?_
  intro r hr
  rw [mem_keep, decide_eq_true_eq] at hr
  obtain ⟨a, ha, hkey⟩ := key_of_insertAll (t := db.archive)
    (List.mem_map_of_mem (f := EventRow.archived archivedAt) (mem_ofTask.mpr hr))
  rw [key_archived] at hkey
  refine ⟨a, mem_keep.mpr ⟨ha, decide_eq_true ?_⟩, hkey⟩
  have htk : a.taskId = r.taskId := congrArg Prod.fst hkey
  exact htk.trans hr.2

theorem deleted_count (taskId : τ) : db.store.events.rows.length -
    (db.store.events.keep fun r => decide (r.taskId ≠ taskId)).rows.length =
      (db.store.ofTask taskId).length := by
  have hkpt : (db.store.events.keep fun r => decide (r.taskId ≠ taskId)).rows =
      db.store.events.rows.filter fun r => !decide (r.taskId = taskId) := by
    unfold keep
    dsimp only
    refine filter_congr fun r _ => ?_
    simp
  have hsum := length_eq_length_filter_add (l := db.store.events.rows)
    fun r => decide (r.taskId = taskId)
  rw [hkpt]
  unfold EventStore.ofTask
  omega

/-- **A compaction never fails on its counts.** -/
theorem compactTask_eq (db : EventDb τ) (taskId : τ) (archivedAt : Nat) :
    (db.compactTask taskId archivedAt true).map Prod.fst =
      some (if (db.store.ofTask taskId).length = 0 then db else db.compacted taskId archivedAt) := by
  unfold EventDb.compactTask
  rw [if_neg (by simp)]
  dsimp only
  by_cases hno : (db.store.ofTask taskId).length = 0
  · rw [if_pos hno, if_pos hno]
    rfl
  · have hcnt := archived_count db taskId archivedAt
    unfold EventDb.compacted at hcnt
    rw [if_neg hno, if_neg hno, if_neg (Nat.not_lt.mpr hcnt), deleted_count, if_neg (by simp)]
    rfl

end AiNet.Events
