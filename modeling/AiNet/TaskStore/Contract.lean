import AiNet.Core.Host
import AiNet.Core.Machine
import AiNet.Core.Storage
import AiNet.Core.Transition

/-!
# Task store types

The records of `task_store/src/types.rs`. A task is submitted either with a graph and a
list of assigned agents (`TaskMetadata`) or with a budget (`TaskRecord`). The two
records of one task id have separate storage slots, but its creator, its version
history and its version count are kept once, under keys both paths use.

Task ids are 32 bytes. Rent extension, the stored version string and the events are
left out: nothing reads them back.
-/

namespace AiNet.TaskStore

open Core

/-! ## Constants -/

def defaultTtlDays : Nat := 14
def maxTtlDays : Nat := 30
def maxCompressedDagBytes : Nat := 4 * 1024
def maxHistoryRecords : Nat := 8
def maxTrackedTasksPerCreator : Nat := 64
def secondsPerDay : Nat := 86400

/-- The error codes the modelled functions return. -/
inductive Error where
  | notFound | alreadyExists | noAssignedAgents | duplicateAgent | invalidDag | invalidTtl
  | notAssignedAgent | invalidStatusTransition | expired | alreadyInitialized | notInitialized
  | contractPaused | missingPricePair | oraclePriceUnavailable | invalidBudget
  | notAuthorizedUpdater
  deriving DecidableEq

inductive TaskStatus where
  | created
  | queued
  | assigned
  | running
  | completed
  | failed
  | cancelled
  deriving DecidableEq

/-! ## Records -/

abbrev TaskId := BytesN 32

/-- `TaskMetadata`, the record of a task submitted with a graph. -/
structure TaskMetadata (Addr Sym : Type) where
  taskId : TaskId
  promptHash : BytesN 32
  assignedAgents : List Addr
  compressedDag : List UInt8
  status : TaskStatus
  createdAt : Nat
  expiresAt : Nat
  quotedPriceStroops : Option Int
  pricePair : Option Sym
  deriving DecidableEq

/-- `TaskRecord`, the record of a task submitted with a budget. -/
structure TaskRecord (Addr : Type) where
  taskId : TaskId
  creator : Addr
  promptHash : BytesN 32
  budgetXlm : Int
  status : TaskStatus
  createdAt : Nat
  updatedAt : Nat
  /-- Meant to be the number of records in the task's history. -/
  version : Nat
  deriving DecidableEq

/-- `TaskVersionRecord`, one entry of a history. -/
structure TaskVersionRecord (Addr : Type) where
  seq : Nat
  status : TaskStatus
  timestamp : Nat
  ledgerSequence : Nat
  updater : Addr
  deriving DecidableEq

/-- The contract's storage, and the ledger's clock and number. -/
structure World (Addr Sym : Type) where
  /-- `env.ledger().timestamp()`. -/
  now : Nat
  /-- `env.ledger().sequence()`. -/
  sequence : Nat
  admin : Option Addr
  paused : Bool
  oracleManager : Option Addr
  coordinator : Option Addr
  tasks : Storage TaskId (TaskMetadata Addr Sym)
  lifecycleTasks : Storage TaskId (TaskRecord Addr)
  taskCreator : Storage TaskId Addr
  taskHistory : Storage TaskId (List (TaskVersionRecord Addr))
  taskVersionCount : Storage TaskId Nat
  creatorTasks : Storage Addr (List TaskId)

/-- The contract as deployed, before any call. -/
def World.init {Addr Sym : Type} (now sequence : Nat) : World Addr Sym where
  now := now
  sequence := sequence
  admin := none
  paused := false
  oracleManager := none
  coordinator := none
  tasks := ∅
  lifecycleTasks := ∅
  taskCreator := ∅
  taskHistory := ∅
  taskVersionCount := ∅
  creatorTasks := ∅

/-!
## The entry points of `task_store`

Each function of `task_store/src/lib.rs` that reads or writes the contract's state, in
the source's order of checks. The oracle manager is another contract: what it answers
comes with the call.
-/

variable {Addr Sym : Type} [DecidableEq Addr]

/-- What differs from call to call: who signed, and what the oracle manager would answer. -/
structure Call (Addr Sym : Type) where
  signed : Addr → Bool
  /-- The `price` in the answer of `resolve_price`; `none` if the call fails or has no such field. -/
  resolvePrice : Addr → Sym → Option Int

variable (host : Host Addr Sym) (call : Call Addr Sym)

/-! ## Helpers -/

def requireNotPaused (w : World Addr Sym) : Outcome Error Unit :=
  failIf (w.paused = true) .contractPaused

def requireAdmin (w : World Addr Sym) : Outcome Error Addr := do
  let admin ← okOr w.admin .notInitialized
  requireAuth host call.signed admin
  pure admin

def readMetadata (w : World Addr Sym) (taskId : TaskId) :
    Outcome Error (TaskMetadata Addr Sym) := do
  let metadata ← okOr (w.tasks.get taskId) .notFound
  failIf (metadata.expiresAt ≤ w.now) .expired
  pure metadata

def lifecycleExpiresAt (createdAt : Nat) : Nat :=
  satAdd64 createdAt (satMul64 defaultTtlDays secondsPerDay)

def readRecord (w : World Addr Sym) (taskId : TaskId) : Outcome Error (TaskRecord Addr) := do
  let record ← okOr (w.lifecycleTasks.get taskId) .notFound
  failIf (lifecycleExpiresAt record.createdAt ≤ w.now) .expired
  pure record

def requireLiveTask (w : World Addr Sym) (taskId : TaskId) : Outcome Error Unit :=
  if w.lifecycleTasks.has taskId = true then do
    let _ ← readRecord w taskId
    pure ()
  else do
    let _ ← readMetadata w taskId
    pure ()

def hasDuplicateAgents (agents : List Addr) : Bool := hasDuplicate agents

def readHistory (w : World Addr Sym) (taskId : TaskId) : List (TaskVersionRecord Addr) :=
  (w.taskHistory.get taskId).getD []

/-- `append_version`: the new state and the resulting number of records. -/
def appendVersion (w : World Addr Sym) (taskId : TaskId) (status : TaskStatus)
    (updater : Addr) : World Addr Sym × Nat :=
  let history := readHistory w taskId
  let seq := (w.taskVersionCount.get taskId).getD 0
  if maxHistoryRecords ≤ history.length then (w, seq)
  else
    let nextSeq := satAdd32 seq 1
    let record : TaskVersionRecord Addr :=
      { seq := nextSeq
        status := status
        timestamp := w.now
        ledgerSequence := w.sequence
        updater := updater }
    ({ w with
      taskHistory := w.taskHistory.set taskId (history ++ [record])
      taskVersionCount := w.taskVersionCount.set taskId nextSeq }, nextSeq)

def indexCreatorTask (w : World Addr Sym) (creator : Addr) (taskId : TaskId) :
    World Addr Sym :=
  let ids := (w.creatorTasks.get creator).getD []
  let ids := if maxTrackedTasksPerCreator ≤ ids.length then ids.tail else ids
  { w with
    taskCreator := w.taskCreator.set taskId creator
    creatorTasks := w.creatorTasks.set creator (ids ++ [taskId]) }

def canTransition (src dst : TaskStatus) : Bool :=
  match src with
  | .created => [.queued, .assigned, .cancelled, .failed].contains dst
  | .queued => [.assigned, .running, .cancelled, .failed].contains dst
  | .assigned => [.running, .cancelled, .failed].contains dst
  | .running => [.completed, .failed, .cancelled].contains dst
  | .completed | .failed | .cancelled => false

def ensureTransition (src dst : TaskStatus) : Outcome Error Unit :=
  failIf (canTransition src dst = false) .invalidStatusTransition

def ensureCanUpdate (w : World Addr Sym) (updater : Addr) (creator : Option Addr)
    (assignedAgents : Option (List Addr)) (denied : Error) : Outcome Error Unit :=
  if creator = some updater ∨ w.coordinator = some updater then .ok ()
  else if assignedAgents.any (fun agents => agents.contains updater) = true then .ok ()
  else .error (.error denied)

def tryResolvePrice (oracleManager : Addr) (pair : Sym) : Option Int :=
  (call.resolvePrice oracleManager pair).filter fun price => decide (0 < price)

/-! ## Administration -/

/-- `initialize` asks for no signature. -/
def initializeContract (admin : Addr) (w : World Addr Sym) :
    Outcome Error (World Addr Sym) := do
  failIf (w.admin.isSome = true) .alreadyInitialized
  pure { w with admin := some admin, paused := false }

def pause (w : World Addr Sym) : Outcome Error (World Addr Sym) := do
  let _ ← requireAdmin host call w
  pure { w with paused := true }

def unpause (w : World Addr Sym) : Outcome Error (World Addr Sym) := do
  let _ ← requireAdmin host call w
  pure { w with paused := false }

def setOracleManager (oracleManager : Option Addr) (w : World Addr Sym) :
    Outcome Error (World Addr Sym) := do
  let _ ← requireAdmin host call w
  pure { w with oracleManager := oracleManager }

def setCoordinator (coordinator : Option Addr) (w : World Addr Sym) :
    Outcome Error (World Addr Sym) := do
  let _ ← requireAdmin host call w
  pure { w with coordinator := coordinator }

/-! ## Tasks with a graph -/

/-- The quoted price and its pair: mandatory with an oracle manager, absent without. -/
def quote (w : World Addr Sym) (pricePair : Option Sym) :
    Outcome Error (Option Int × Option Sym) :=
  match w.oracleManager with
  | some oracleManager => do
    let pair ← okOr pricePair .missingPricePair
    let price ← okOr (tryResolvePrice call oracleManager pair) .oraclePriceUnavailable
    pure (some price, some pair)
  | none => pure (none, none)

def storeTaskMetadata (submitter : Addr) (taskId : TaskId) (promptHash : BytesN 32)
    (assignedAgents : List Addr) (compressedDag : List UInt8) (ttlDays : Nat)
    (pricePair : Option Sym) (w : World Addr Sym) :
    Outcome Error (World Addr Sym) := do
  requireNotPaused w
  requireAuth host call.signed submitter
  failIf (w.tasks.has taskId = true) .alreadyExists
  failIf (assignedAgents = []) .noAssignedAgents
  failIf (hasDuplicateAgents assignedAgents = true) .duplicateAgent
  failIf (compressedDag = [] ∨ maxCompressedDagBytes < compressedDag.length) .invalidDag
  let retentionDays := if ttlDays = 0 then defaultTtlDays else ttlDays
  failIf (maxTtlDays < retentionDays) .invalidTtl
  let (quotedPriceStroops, resolvedPair) ← quote call w pricePair
  let metadata : TaskMetadata Addr Sym :=
    { taskId := taskId
      promptHash := promptHash
      assignedAgents := assignedAgents
      compressedDag := compressedDag
      status := .assigned
      createdAt := w.now
      expiresAt := satAdd64 w.now (satMul64 retentionDays secondsPerDay)
      quotedPriceStroops := quotedPriceStroops
      pricePair := resolvedPair }
  let w := { w with tasks := w.tasks.set taskId metadata }
  let w := indexCreatorTask w submitter taskId
  pure (appendVersion w taskId .assigned submitter).1

def updateTaskStatus (taskId : TaskId) (agent : Addr) (newStatus : TaskStatus)
    (w : World Addr Sym) : Outcome Error (World Addr Sym) := do
  requireNotPaused w
  requireAuth host call.signed agent
  let metadata ← readMetadata w taskId
  let creator := w.taskCreator.get taskId
  ensureCanUpdate w agent creator (some metadata.assignedAgents) .notAssignedAgent
  ensureTransition metadata.status newStatus
  let w := { w with tasks := w.tasks.set taskId { metadata with status := newStatus } }
  pure (appendVersion w taskId newStatus agent).1

/-! ## Tasks with a budget -/

def createTask (taskId : TaskId) (creator : Addr) (promptHash : BytesN 32) (budgetXlm : Int)
    (w : World Addr Sym) : Outcome Error (World Addr Sym) := do
  requireNotPaused w
  requireAuth host call.signed creator
  failIf (budgetXlm < 0) .invalidBudget
  -- only the record of this path is looked at, while the index below is shared by both
  failIf (w.lifecycleTasks.has taskId = true) .alreadyExists
  let w := indexCreatorTask w creator taskId
  let (w, version) := appendVersion w taskId .created creator
  let record : TaskRecord Addr :=
    { taskId := taskId
      creator := creator
      promptHash := promptHash
      budgetXlm := budgetXlm
      status := .created
      createdAt := w.now
      updatedAt := w.now
      version := version }
  pure { w with lifecycleTasks := w.lifecycleTasks.set taskId record }

def updateStatus (taskId : TaskId) (newStatus : TaskStatus) (updater : Addr)
    (w : World Addr Sym) : Outcome Error (World Addr Sym) := do
  requireNotPaused w
  requireAuth host call.signed updater
  let record ← readRecord w taskId
  ensureCanUpdate w updater (some record.creator) none .notAuthorizedUpdater
  ensureTransition record.status newStatus
  let (w, version) := appendVersion w taskId newStatus updater
  pure { w with
    lifecycleTasks := w.lifecycleTasks.set taskId
      { record with status := newStatus, updatedAt := w.now, version := version } }

/-! ## Views -/

def getHistory (w : World Addr Sym) (taskId : TaskId) :
    Outcome Error (List (TaskVersionRecord Addr)) := do
  requireLiveTask w taskId
  pure (readHistory w taskId)

def getTaskCreator (w : World Addr Sym) (taskId : TaskId) : Option Addr :=
  w.taskCreator.get taskId

/-! ## The contract as a transition system -/

/-- The state-changing entry points and their arguments; `upgrade` ends the program modelled here. -/
inductive Op (Addr Sym : Type) where
  | initializeContract (admin : Addr)
  | pause
  | unpause
  | setOracleManager (oracleManager : Option Addr)
  | setCoordinator (coordinator : Option Addr)
  | storeTaskMetadata (submitter : Addr) (taskId : TaskId) (promptHash : BytesN 32)
      (assignedAgents : List Addr) (compressedDag : List UInt8) (ttlDays : Nat)
      (pricePair : Option Sym)
  | updateTaskStatus (taskId : TaskId) (agent : Addr) (newStatus : TaskStatus)
  | createTask (taskId : TaskId) (creator : Addr) (promptHash : BytesN 32) (budgetXlm : Int)
  | updateStatus (taskId : TaskId) (newStatus : TaskStatus) (updater : Addr)

/-- One call of an entry point. -/
def exec : Op Addr Sym → World Addr Sym → Outcome Error (World Addr Sym)
  | .initializeContract admin => initializeContract admin
  | .pause => pause host call
  | .unpause => unpause host call
  | .setOracleManager oracleManager => setOracleManager host call oracleManager
  | .setCoordinator coordinator => setCoordinator host call coordinator
  | .storeTaskMetadata submitter taskId promptHash assignedAgents compressedDag ttlDays pricePair =>
    storeTaskMetadata host call submitter taskId promptHash assignedAgents compressedDag ttlDays
      pricePair
  | .updateTaskStatus taskId agent newStatus => updateTaskStatus host call taskId agent newStatus
  | .createTask taskId creator promptHash budgetXlm =>
    createTask host call taskId creator promptHash budgetXlm
  | .updateStatus taskId newStatus updater => updateStatus host call taskId newStatus updater

/-- What can happen in a run. -/
inductive Event (Addr Sym : Type) where
  /-- A ledger closes; calls from now on see this timestamp and number. -/
  | close (timestamp sequence : Nat)
  /-- A call of the contract. -/
  | invoke (call : Call Addr Sym) (op : Op Addr Sym)

/-- The contract among its callers, as deployed at any time. -/
def system : System (World Addr Sym) (Event Addr Sym) where
  start w := ∃ now sequence, w = World.init now sequence
  step w
    | .close timestamp seq => some { w with now := timestamp, sequence := seq }
    | .invoke call op => (exec host call op w).toOption

theorem start_init (host : Host Addr Sym) (now sequence : Nat) :
    (system host).start (World.init now sequence) := ⟨now, sequence, rfl⟩

theorem step_invoke {host : Host Addr Sym} {w w' : World Addr Sym}
    {call : Call Addr Sym} {op : Op Addr Sym} :
    (system host).step w (.invoke call op) = some w' ↔ exec host call op w = .ok w' :=
  toOption_eq_some

/-! ## A deployment to run

Addresses and symbols are numbers, the contract is `0`, and the oracle manager never answers. -/

namespace Sample

def chain : Host Nat Nat where
  self := 0
  sha256 := fun _ => BytesN.zero 32
  xdr :=
    { string := id
      address := fun _ => []
      symbol := fun _ => []
      i128 := fun _ => []
      bytes := id }

def signed (signer : Nat) (op : Op Nat Nat) : Event Nat Nat :=
  .invoke ⟨fun a => a == signer, fun _ _ => none⟩ op

/-- The task all runs are about. -/
def task : TaskId := ⟨List.replicate 32 7, List.length_replicate⟩

/-- Submission with a graph, by `submitter`, assigned to agent `3`. -/
def store (submitter : Nat) : Event Nat Nat :=
  signed submitter (.storeTaskMetadata submitter task (BytesN.zero 32) [3] [1] 0 none)

/-- Submission with a budget, by `creator`. -/
def create (creator : Nat) : Event Nat Nat :=
  signed creator (.createTask task creator (BytesN.zero 32) 100)

/-- A transition of the task with a graph. -/
def move (agent : Nat) (newStatus : TaskStatus) : Event Nat Nat :=
  signed agent (.updateTaskStatus task agent newStatus)

/-- A transition of the task with a budget. -/
def update (updater : Nat) (newStatus : TaskStatus) : Event Nat Nat :=
  signed updater (.updateStatus task newStatus updater)

end Sample

end AiNet.TaskStore
