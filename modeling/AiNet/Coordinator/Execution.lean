import Mathlib.Data.Fintype.Basic
import Mathlib.Data.Finset.Card
import AiNet.Budget.Ledger

/-!
# The state of a DAG run

`executeDAG` runs the nodes of one task. Between two turns of the event loop the run is a
`Run`: the nodes' statuses, the accounting sets, the limiter with its queue, the coordinator's
ledger of the task, and for each node the point at which its continuation is suspended
(`Phase`). What the run does to the world is kept as a log of `Effect`s.

Results, contexts and quality scores of the nodes decide nothing here and are left out, as
are logging, tracing and the progress callback. The task store is taken to answer.
-/

namespace AiNet.Coordinator

open Core AiNet.Budget Function List

/-- Node-level statuses. -/
inductive NodeStatus where
  | pending
  | running
  | completed
  | failed
  | cancelled
  deriving DecidableEq

/-- The statuses of a task. -/
inductive TaskStatus where
  | queued
  | running
  | completed
  | cancelled
  | failed
  | paymentFailed
  deriving DecidableEq

/-- The statuses a task ends in. -/
def TaskStatus.terminal : TaskStatus → Bool
  | .queued | .running => false
  | .completed | .cancelled | .failed | .paymentFailed => true

/-- What the run writes into a node. -/
structure Mark where
  status : NodeStatus
  error : Option String
  deriving DecidableEq

/-- What `executeDAG` is given: the nodes of the task, and how its coordinator is set up. -/
structure Plan (κ : Type) (n : Nat) where
  /-- The ids, in the order of the list. Nothing keeps two nodes from having the same. -/
  nodeId : Fin n → κ
  dependencies : Fin n → List κ
  /-- The slots of the limiter. -/
  concurrency : Nat
  /-- Was a `dispatch` function given in place of the agent registry? -/
  dispatchOverride : Bool
  budgetLimits : BudgetLimits
  /-- Does `assertDailyCostBudgetAvailable` throw when the node's turn comes? -/
  dailyExceeded : Fin n → Bool

def defaultConcurrency : Nat := 3

def primaryAttempts : Nat := 3

/-- Whom a call of `dispatchWithRetry` goes to. -/
inductive Target where
  | override
  /-- The cheapest agent, and whether there is another one to fall back to. -/
  | primary (attempt : Nat) (fallback : Bool)
  | fallback
  deriving DecidableEq

/-- How a call comes back. -/
inductive Reply where
  /-- A result, which may be the marker of an agent that ran out of budget. -/
  | result (halt : Bool) (params : UsageParams)
  | failure (retryable : Bool) (message : String)
  deriving DecidableEq

/-- What `dispatchWithRetry` does after a failure. -/
inductive Next where
  | call (target : Target)
  | throw (message : String)
  deriving DecidableEq

/-- How `runNode` returned. -/
inductive Ending where
  /-- `failed`, without a dispatch. -/
  | refused
  /-- `failed`, after the dispatch. -/
  | failed
  | completed
  deriving DecidableEq

/-- Where the continuation of a node stands. -/
inductive Phase where
  /-- Not scheduled. -/
  | idle
  /-- Scheduled, the limiter about to take it. -/
  | taken
  /-- In the queue of the limiter. -/
  | waiting
  /-- Holds a slot, `runNode` about to begin. -/
  | starting
  /-- Asking the registry for agents. -/
  | lookup
  /-- A call is in flight, with the allowance it was told. -/
  | calling (target : Target) (told : Option Int)
  /-- The call came back with a result. -/
  | answered (halt : Bool)
  /-- The call failed. -/
  | retrying (next : Next)
  /-- The release of the payment is in flight. -/
  | paying
  /-- `runNode` returned. -/
  | returned (ending : Ending)
  /-- The status is in the accounting sets. -/
  | counted (ending : Ending)
  /-- The limiter has its slot back. -/
  | freed (ending : Ending)
  | done (ending : Ending)
  deriving DecidableEq

/-- What a run does that others see. -/
inductive Effect (n : Nat) where
  | task (status : TaskStatus)
  | status (i : Fin n) (status : NodeStatus)
  /-- The node is handed to `dispatchWithRetry`. -/
  | dispatch (i : Fin n)
  /-- A call goes out. -/
  | call (i : Fin n) (target : Target) (told : Option Int)
  /-- Tokens are recorded for the node. -/
  | recorded (i : Fin n) (tokens : Int)
  /-- `paymentService.release` is called for the node. -/
  | release (i : Fin n)
  | paid (i : Fin n) (ok : Bool)
  /-- The abort signal fires. -/
  | aborted
  deriving DecidableEq

/-- One run of `executeDAG`, between two turns of the event loop. -/
structure Run (κ : Type) (n : Nat) where
  marks : Fin n → Mark
  completed : Finset κ
  failed : Finset κ
  scheduled : Finset κ
  inFlight : Nat
  settled : Bool
  aborted : Bool
  /-- Slots of the limiter that are taken. -/
  active : Nat
  queue : List (Fin n)
  /-- `paymentFailedTasks` has the task. -/
  paymentFailed : Bool
  /-- The ledgers the task has had. `settleCost` drops the current one, a later use opens the next. -/
  shelf : Nat → TaskBudgetLedger κ
  /-- The current one. -/
  book : Nat
  /-- The one that `runNode` of a node took at its start. -/
  holds : Fin n → Nat
  phase : Fin n → Phase
  log : List (Effect n)

namespace Run

variable {κ : Type} {n : Nat}

/-- `ledgerForTask`. -/
def ledger (s : Run κ n) : TaskBudgetLedger κ := s.shelf s.book

/-- Write down an effect. -/
def note (s : Run κ n) (e : Effect n) : Run κ n := { s with log := s.log ++ [e] }

/-- Suspend a node's continuation. -/
def goto (s : Run κ n) (i : Fin n) (phase : Phase) : Run κ n :=
  { s with phase := update s.phase i phase }

/-- Write a node, in the list and in the task store. -/
def setNode (s : Run κ n) (i : Fin n) (mark : Mark) : Run κ n :=
  { s with marks := update s.marks i mark, log := s.log ++ [.status i mark.status] }

def keep (s : Run κ n) (book : Nat) (f : TaskBudgetLedger κ → TaskBudgetLedger κ) : Run κ n :=
  { s with shelf := update s.shelf book (f (s.shelf book)) }

def setStatus (s : Run κ n) (i : Fin n) (status : NodeStatus) : Run κ n :=
  s.setNode i { s.marks i with status := status }

@[simp] theorem goto_phase_self (s : Run κ n) (i : Fin n) (phase : Phase) :
    (s.goto i phase).phase i = phase := by
  unfold goto
  exact update_self ..

theorem goto_phase_of_ne (s : Run κ n) {i j : Fin n} (h : j ≠ i) (phase : Phase) :
    (s.goto i phase).phase j = s.phase j := by
  unfold goto
  exact update_of_ne h ..

end Run

/-!
## `executeDAG`

The coordinator's run of a DAG, function by function. What the source does between two
`await`s is one step here: a call or a payment comes back, the agents are found, one of the
promise callbacks of a node runs, or the abort signal fires. Any interleaving of these is a
run of `system`. The synchronous prefix of `executeDAG` makes the initial state.
-/

variable {κ : Type} [DecidableEq κ] {n : Nat}

namespace Plan

variable (p : Plan κ n)

/-- `nodeById.has`. -/
def has (dep : κ) : Bool := (finRange n).any fun j => p.nodeId j = dep

/-! ## Settling -/

/-- `settleCost`: the ledger is taken from the registry and from the coordinator. -/
def settleCost (s : Run κ n) : Run κ n := { s with book := s.book + 1 }

/-- The status a run that was not aborted ends with. -/
def outcome (s : Run κ n) : TaskStatus :=
  if 0 < s.failed.card then .failed
  else if s.paymentFailed then .paymentFailed
  else .completed

def finishIfSettled (s : Run κ n) : Run κ n :=
  if s.settled then s
  else if s.aborted ∧ s.inFlight = 0 then
    settleCost (({ s with settled := true }).note (.task .cancelled))
  else if s.completed.card + s.failed.card ≠ n then s
  else
    settleCost { ({ s with settled := true }).note (.task (outcome s)) with paymentFailed := false }

def cancelNode (s : Run κ n) (i : Fin n) : Run κ n :=
  if (s.marks i).status ≠ .pending then s
  else
    { s.setNode i ⟨.cancelled, some "task_cancelled"⟩ with
      failed := insert (p.nodeId i) s.failed }

def cancelPendingNodes (s : Run κ n) : Run κ n := (finRange n).foldl p.cancelNode s

def hasFailedDependency (s : Run κ n) (i : Fin n) : Bool :=
  (p.dependencies i).any fun dep => dep ∈ s.failed

def hasUnresolvedDependency (i : Fin n) : Bool := (p.dependencies i).any fun dep => !p.has dep

def dependenciesMet (s : Run κ n) (i : Fin n) : Bool :=
  (p.dependencies i).all fun dep => dep ∈ s.completed

def isDeadlocked (includeDeadlocked : Bool) (s : Run κ n) (i : Fin n) : Bool :=
  includeDeadlocked && decide (s.inFlight = 0) && !p.dependenciesMet s i

def failBlockedNode (includeDeadlocked : Bool) (s : Run κ n) (i : Fin n) : Run κ n :=
  if (s.marks i).status ≠ .pending then s
  else if !p.hasFailedDependency s i && !p.hasUnresolvedDependency i &&
      !p.isDeadlocked includeDeadlocked s i then s
  else
    { s.setNode i ⟨.failed,
        some (if p.hasUnresolvedDependency i then "dependency_not_found" else "upstream_failed")⟩ with
      failed := insert (p.nodeId i) s.failed }

def failBlockedNodes (includeDeadlocked : Bool) (s : Run κ n) : Run κ n :=
  (finRange n).foldl (p.failBlockedNode includeDeadlocked) s

/-! ## Running a node -/

def failNodeForBudget (s : Run κ n) (i : Fin n) : Run κ n :=
  (s.keep (s.holds i) fun l => l.markExhausted (p.nodeId i)).setNode i
    ⟨.failed, some "budget_exhausted"⟩

/-- `dispatchNode`, up to the request. -/
def dispatchNode (i : Fin n) (target : Target) (s : Run κ n) : Run κ n :=
  (s.note (.call i target (some s.ledger.allowanceFor))).goto i
    (.calling target (some s.ledger.allowanceFor))

/-- `dispatchWithRetry`, up to its first `await`. -/
def dispatchWithRetry (i : Fin n) (s : Run κ n) : Run κ n :=
  let s := s.note (.dispatch i)
  if p.dispatchOverride then (s.note (.call i .override none)).goto i (.calling .override none)
  else s.goto i .lookup

/-- May the node spend? `assertCanSpend` and `assertDailyCostBudgetAvailable` throw if not. -/
def maySpend (s : Run κ n) (i : Fin n) : Bool := !s.ledger.exhausted && !p.dailyExceeded i

/-- The first lines of `runNode`: the node is running, the ledger is looked up. -/
def enter (i : Fin n) (s : Run κ n) : Run κ n :=
  { s.setStatus i .running with holds := update s.holds i s.book }

/-- The node's share of the remaining budget is claimed. -/
def claim (i : Fin n) (s : Run κ n) : Run κ n :=
  s.keep s.book fun l => l.reserve (p.nodeId i) l.allowanceFor

/-- `runNode`, up to its first `await`. -/
def runNode (i : Fin n) (s : Run κ n) : Run κ n :=
  let s := enter i s
  if p.maySpend s i then p.dispatchWithRetry i (p.claim i s)
  else (p.failNodeForBudget s i).goto i (.returned .refused)

/-- The `start` of the limiter. -/
def start (i : Fin n) (s : Run κ n) : Run κ n :=
  p.runNode i (({ s with active := s.active + 1 }).goto i .starting)

/-- `limiter.run`. -/
def limiterRun (i : Fin n) (s : Run κ n) : Run κ n :=
  if s.active < p.concurrency then p.start i s
  else ({ s with queue := s.queue ++ [i] }).goto i .waiting

/-! ## Scheduling -/

def ready (s : Run κ n) (i : Fin n) : Bool :=
  decide ((s.marks i).status = .pending) && !decide (p.nodeId i ∈ s.scheduled) &&
    p.dependenciesMet s i

def take (s : Run κ n) (i : Fin n) : Run κ n :=
  ({ s with
      scheduled := insert (p.nodeId i) s.scheduled
      inFlight := s.inFlight + 1 }).goto i .taken

/-- One turn of the loop of `scheduleReadyNodes`; the flag is `scheduledAny`. -/
def scheduleNode (acc : Run κ n × Bool) (i : Fin n) : Run κ n × Bool :=
  if p.ready acc.1 i then (p.limiterRun i (p.take acc.1 i), true) else acc

def scheduleReadyNodes (s : Run κ n) : Run κ n :=
  if s.aborted then finishIfSettled (p.cancelPendingNodes s)
  else
    let turn := (finRange n).foldl p.scheduleNode (s, false)
    if !turn.2 && decide (turn.1.inFlight = 0) then finishIfSettled (p.failBlockedNodes true turn.1)
    else turn.1

/-! ## What comes back -/

/-- The agents of the node's type, or none registered. -/
def agentsFor (i : Fin n) (found : Except String Bool) (s : Run κ n) : Run κ n :=
  match found with
  | .ok fallback => dispatchNode i (.primary 1 fallback) s
  | .error message => s.goto i (.retrying (.throw message))

/-- The loop of `dispatchWithRetry`, after a failed call. -/
def afterFailure (target : Target) (retryable : Bool) (message : String) : Next :=
  match target with
  | .override => .throw message
  | .primary attempt fallback =>
    if !retryable then .throw message
    else if attempt < primaryAttempts then .call (.primary (attempt + 1) fallback)
    else if fallback then .call .fallback
    else .throw message
  | .fallback => .throw message

def recordNodeUsage (i : Fin n) (params : UsageParams) (s : Run κ n) : Run κ n :=
  (s.keep s.book fun l => l.record (p.nodeId i) params).note (.recorded i params.totalTokens)

/-- `dispatchNode` from its response on. A `dispatch` function is not accounted. -/
def answer (i : Fin n) (target : Target) (reply : Reply) (s : Run κ n) : Run κ n :=
  match reply with
  | .result halt params =>
    (if target = .override then s else p.recordNodeUsage i params s).goto i (.answered halt)
  | .failure retryable message =>
    s.goto i (.retrying (afterFailure target retryable message))

/-- Give back a claim that no recorded call has settled. -/
def settleClaim (s : Run κ n) (i : Fin n) : Run κ n :=
  s.keep (s.holds i) fun l =>
    if l.usageCallsFor (p.nodeId i) = 0 then l.release (p.nodeId i) else l

/-- `runNode` from the result of its dispatch on. -/
def complete (i : Fin n) (halt : Bool) (s : Run κ n) : Run κ n :=
  let s := p.settleClaim s i
  if halt then (p.failNodeForBudget s i).goto i (.returned .failed)
  else ((s.setStatus i .completed).note (.release i)).goto i .paying

/-- The `catch` of `runNode`. -/
def catchError (i : Fin n) (message : String) (s : Run κ n) : Run κ n :=
  ((p.settleClaim s i).setNode i ⟨.failed, some message⟩).goto i (.returned .failed)

/-- `runNode` from the answer of the payment service on. -/
def payment (i : Fin n) (ok : Bool) (s : Run κ n) : Run κ n :=
  ({ s with paymentFailed := s.paymentFailed || !ok }.note (.paid i ok)).goto i
    (.returned .completed)

/-- The `then` of a scheduled node: its status goes into the accounting sets. -/
def count (i : Fin n) (ending : Ending) (s : Run κ n) : Run κ n :=
  (match ending with
    | .completed => { s with completed := insert (p.nodeId i) s.completed }
    | .refused | .failed => { s with failed := insert (p.nodeId i) s.failed }).goto i
      (.counted ending)

/-- The `finally` of the limiter: the head of the queue starts. -/
def free (i : Fin n) (ending : Ending) (s : Run κ n) : Run κ n :=
  let s := ({ s with active := s.active - 1 }).goto i (.freed ending)
  match s.queue with
  | [] => s
  | j :: rest => p.start j { s with queue := rest }

/-- The `finally` of a scheduled node. -/
def finish (i : Fin n) (ending : Ending) (s : Run κ n) : Run κ n :=
  finishIfSettled (p.failBlockedNodes false
    (p.scheduleReadyNodes (({ s with inFlight := s.inFlight - 1 }).goto i (.done ending))))

/-- The listener of the abort signal. -/
def abort (s : Run κ n) : Run κ n :=
  finishIfSettled (p.cancelPendingNodes (({ s with aborted := true }).note .aborted))

/-! ## The run -/

/-- Before anything is scheduled. -/
def blank (marks : Fin n → Mark) : Run κ n where
  marks := marks
  completed := (Finset.univ.filter fun i => (marks i).status = .completed).image p.nodeId
  failed := ∅
  scheduled := (Finset.univ.filter fun i => (marks i).status = .completed).image p.nodeId
  inFlight := 0
  settled := false
  aborted := false
  active := 0
  queue := []
  paymentFailed := false
  shelf := fun _ => .fresh p.budgetLimits
  book := 0
  holds := fun _ => 0
  phase := fun _ => .idle
  log := [.task .running]

/-- `executeDAG`, up to its first `await`. -/
def executeDAG (marks : Fin n → Mark) : Run κ n := p.scheduleReadyNodes (p.blank marks)

end Plan

/-- What may happen next. -/
inductive Event (n : Nat) where
  | abort
  | agentsFor (i : Fin n) (found : Except String Bool)
  | answer (i : Fin n) (reply : Reply)
  /-- `dispatchWithRetry` goes on, or hands its outcome to `runNode`. -/
  | resume (i : Fin n)
  | payment (i : Fin n) (ok : Bool)
  | count (i : Fin n)
  | free (i : Fin n)
  | finish (i : Fin n)

/-- One turn of the event loop. -/
def step (p : Plan κ n) (s : Run κ n) : Event n → Option (Run κ n)
  | .abort => if s.aborted then none else some (p.abort s)
  | .agentsFor i found =>
    match s.phase i with
    | .lookup => some (Plan.agentsFor i found s)
    | _ => none
  | .answer i reply =>
    match s.phase i with
    | .calling target _ => some (p.answer i target reply s)
    | _ => none
  | .resume i =>
    match s.phase i with
    | .answered halt => some (p.complete i halt s)
    | .retrying (.call target) => some (Plan.dispatchNode i target s)
    | .retrying (.throw message) => some (p.catchError i message s)
    | _ => none
  | .payment i ok =>
    match s.phase i with
    | .paying => some (Plan.payment i ok s)
    | _ => none
  | .count i =>
    match s.phase i with
    | .returned ending => some (p.count i ending s)
    | _ => none
  | .free i =>
    match s.phase i with
    | .counted ending => some (p.free i ending s)
    | _ => none
  | .finish i =>
    match s.phase i with
    | .freed ending => some (p.finish i ending s)
    | _ => none

/-- The runs of `executeDAG` on nodes with the given statuses. -/
def system (p : Plan κ n) (marks : Fin n → Mark) : System (Run κ n) (Event n) where
  start s := s = p.executeDAG marks
  step := step p

end AiNet.Coordinator
