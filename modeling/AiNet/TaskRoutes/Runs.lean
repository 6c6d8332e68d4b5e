import AiNet.Coordinator.Attempts
import AiNet.Queue.Worker

/-!
# A task and its runs

What one process does with one task: its row, the job queue that hands it to a worker, the handler
of `createTaskJobHandler`, the runs of `executeDAG` that the handlers began, the registry of abort
controllers in `taskStore.ts`, and the route that cancels the task. A job whose lease was given
up is claimed again while its first handler may still run, so several runs of the task may be
there at once, each with its own copy of the nodes and its own controller; the registry has room
for one of these.

The queue has jobs of any tasks. The process may crash, which leaves the row and the jobs. The
row of the task exists; nothing deletes it.
-/

namespace AiNet.TaskRoutes

open Core AiNet.Coordinator

variable {κ τ ω : Type} {n : Nat}

/-- The row of the task. -/
structure TaskRow (n : Nat) where
  walletPublicKey : String
  status : TaskStatus
  dag : Fin n → Mark

/-- How far a handler is that called `executeDAG`. -/
inductive Stage where
  | executing
  /-- `executeDAG` has settled and taken its controller out of the registry. -/
  | unregistered
  | returned
  deriving DecidableEq

/-- A handler that called `executeDAG`: its execution in the worker, what the run was given, the run. -/
structure Attempt (κ : Type) (n : Nat) where
  handler : Nat
  plan : Plan κ n
  given : Fin n → Mark
  run : Run κ n
  stage : Stage

structure World (κ τ ω : Type) (n : Nat) where
  queue : Queue.State τ ω
  task : TaskRow n
  /-- The task's entry in `runningControllers`: whose controller it is. -/
  runningController : Option Nat
  attempts : Register (Attempt κ n)
  /-- What the runs did, in order. -/
  log : List (Nat × Effect n)

/-! ## The row -/

/-- The node that `findIndex` finds for the id of a node. -/
def findIndex [DecidableEq κ] (plan : Plan κ n) (i : Fin n) : Fin n :=
  ((List.finRange n).find? fun j => plan.nodeId j = plan.nodeId i).getD i

namespace TaskRow

variable [DecidableEq κ] (row : TaskRow n)

def updateNode (plan : Plan κ n) (i : Fin n) (patch : Mark → Mark) : TaskRow n :=
  { row with dag := Function.update row.dag (findIndex plan i) (patch (row.dag (findIndex plan i))) }

/-- What an effect writes. The nodes are those of the run, after the turn that had the effect. -/
def write (plan : Plan κ n) (nodes : Fin n → Mark) (row : TaskRow n) : Effect n → TaskRow n
  | .task status => { row with status := status, dag := if status.terminal then nodes else row.dag }
  | .status i .failed | .status i .cancelled =>
    row.updateNode plan i fun _ => ⟨.failed, (nodes i).error⟩
  | .status i status => row.updateNode plan i fun mark => { mark with status := status }
  | .dispatch _ | .call _ _ _ | .recorded _ _ | .release _ | .paid _ _ | .aborted => row

/-- `failRunningTasks`, as far as it is about this task. -/
def failRunning : TaskRow n :=
  if row.status = .running then
    { row with
      status := .failed
      dag := fun i =>
        if (row.dag i).status = .running ∨ (row.dag i).status = .pending then
          ⟨.failed, some "Server shutdown"⟩
        else row.dag i }
  else row

end TaskRow

namespace World

variable [DecidableEq κ] [DecidableEq τ] [DecidableEq ω] (w : World κ τ ω n)

/-! ## The runs -/

/-- What a run did in a turn reaches the row. -/
def report (plan : Plan κ n) (a : Nat) (nodes : Fin n → Mark) (es : List (Effect n)) :
    World κ τ ω n :=
  { w with
    task := es.foldl (TaskRow.write plan nodes) w.task
    log := w.log ++ es.map fun e => (a, e) }

def turn (a : Nat) (x : Attempt κ n) (run : Run κ n) : World κ τ ω n :=
  { w with attempts := w.attempts.rewrite (fun k _ => decide (k = a)) fun x => { x with run := run } }.report
    x.plan a run.marks (run.log.drop x.run.log.length)

/-- `executeDAG`, up to its first `await`. -/
def executeDAG (handler : Nat) (plan : Plan κ n) (given : Fin n → Mark) : World κ τ ω n :=
  let run := plan.executeDAG given
  { w with
    runningController := some w.attempts.next
    attempts := w.attempts.add ⟨handler, plan, given, run, .executing⟩ }.report plan w.attempts.next
      run.marks run.log

/-- The handler, up to its first `await`. -/
def handle (handler : Nat) (plan : Plan κ n) : World κ τ ω n :=
  if w.task.status = .cancelled then w
  else
    let nodes := fun i => resetFailed (w.task.dag i)
    executeDAG { w with task := { w.task with dag := nodes } } handler plan nodes

/-- `controller.abort()`. -/
def abort (a : Nat) : World κ τ ω n :=
  ((w.attempts.get a).bind fun x =>
    (Coordinator.step x.plan x.run .abort).map fun run => w.turn a x run).getD w

def abortTask : World κ τ ω n :=
  match w.runningController with
  | none => w
  | some a => { w.abort a with runningController := none }

/-- The `finally` of `executeDAG`: `unregisterTaskController`. -/
def unregister (a : Nat) : World κ τ ω n :=
  { w with
    runningController := none
    attempts := w.attempts.rewrite (fun k _ => decide (k = a)) fun x => { x with stage := .unregistered } }

end World

/-! ## The route -/

/-- What `DELETE /:taskId` answers. -/
inductive Answer where
  | forbidden
  | cancelled
  | cancelling
  | conflict (currentStatus : TaskStatus)
  deriving DecidableEq

/-- Is it answered with status 200? -/
def Answer.ok : Answer → Bool
  | .cancelled | .cancelling => true
  | .forbidden | .conflict _ => false

/-- `!requesterKey || requesterKey !== task.walletPublicKey`, negated. -/
def TaskRow.owned (row : TaskRow n) (requesterKey : Option String) : Bool :=
  requesterKey.any fun key => !key.isEmpty && decide (key = row.walletPublicKey)

/-- `DELETE /:taskId`. -/
def World.delete [DecidableEq κ] (w : World κ τ ω n) (requesterKey : Option String) :
    Answer × World κ τ ω n :=
  if !w.task.owned requesterKey then (.forbidden, w)
  else
    match w.task.status with
    | .queued => (.cancelled, { w with task := { w.task with status := .cancelled } })
    | .running =>
      let w := w.abortTask
      (.cancelling, { w with task := { w.task with status := .cancelled } })
    | status => (.conflict status, w)

/-! ## Steps -/

/-- What may happen next. -/
inductive Event (τ ω : Type) (n : Nat) where
  /-- A statement on the job store that neither claims nor settles a job. -/
  | queue (e : Queue.Event τ ω)
  /-- A worker claims a job, and calls its handler. -/
  | claim (worker : ω) (id now : Nat) (dailyExceeded : Fin n → Bool)
  /-- A continuation of a run. -/
  | resume (a : Nat) (e : Coordinator.Event n)
  | unregister (a : Nat)
  /-- The handler of a run returns or throws, and the worker settles the job. -/
  | settle (a now delayMs : Nat)
  /-- A handler returns that found the task cancelled, or is about another task. -/
  | returned (handler now : Nat)
  /-- A handler throws that is about another task. -/
  | threw (handler now delayMs : Nat) (error : String)
  | delete (requesterKey : Option String)
  /-- The process shuts down and marks what still runs as failed. -/
  | failRunningTasks
  | crash

section Step

variable [DecidableEq κ] [DecidableEq τ] [DecidableEq ω]

/-- Events of the job store that the world's own events bring about. -/
def ours : Queue.Event τ ω → Bool
  | .claim _ _ _ | .returned _ _ | .threw _ _ _ _ | .crash _ => true
  | .enqueue _ _ _ | .check _ _ | .insertUnique _ _ | .heartbeat _ _ | .progress _ _ _
  | .release _ _ | .recover _ | .retryDeadLetter _ _ | .purge _ | .delete _ => false

def about (taskId : τ) (queue : Queue.State τ ω) (handler : Nat) : Bool :=
  (queue.running.get handler).any fun x => decide (x.job.taskId = taskId)

/-- A statement on the job store. -/
def World.onQueue (options : ω → Queue.JobWorkerOptions) (w : World κ τ ω n)
    (e : Queue.Event τ ω) : Option (World κ τ ω n) :=
  (Queue.step options w.queue e).map fun queue => { w with queue := queue }

/-- The lines of the handler after `executeDAG`, and the end of `executeJob`. -/
def World.settle (options : ω → Queue.JobWorkerOptions) (w : World κ τ ω n) (a : Nat)
    (x : Attempt κ n) (now delayMs : Nat) : Option (World κ τ ω n) :=
  let event := match handlerError w.task.dag w.task.status with
    | some error => Queue.Event.threw x.handler now delayMs error
    | none => .returned x.handler now
  { w with
    attempts := w.attempts.rewrite (fun k _ => decide (k = a)) fun x => { x with stage := .returned } }.onQueue
      options event

def step (options : ω → Queue.JobWorkerOptions) (taskId : τ) (plan : Plan κ n)
    (w : World κ τ ω n) : Event τ ω n → Option (World κ τ ω n)
  | .queue e => if ours e then none else w.onQueue options e
  | .claim worker id now dailyExceeded =>
    (w.onQueue options (.claim worker id now)).map fun w' =>
      if about taskId w'.queue w.queue.running.next then
        w'.handle w.queue.running.next { plan with dailyExceeded := dailyExceeded }
      else w'
  | .resume _ .abort => none
  | .resume a e =>
    (w.attempts.get a).bind fun x =>
      (Coordinator.step x.plan x.run e).map fun run => w.turn a x run
  | .unregister a =>
    (w.attempts.get a).bind fun x =>
      if x.stage = .executing ∧ x.run.settled then some (w.unregister a) else none
  | .settle a now delayMs =>
    (w.attempts.get a).bind fun x =>
      if x.stage = .unregistered then w.settle options a x now delayMs else none
  | .returned handler now =>
    if w.attempts.any fun _ x => decide (x.handler = handler) then none
    else w.onQueue options (.returned handler now)
  | .threw handler now delayMs error =>
    if about taskId w.queue handler then none
    else w.onQueue options (.threw handler now delayMs error)
  | .delete requesterKey => some (w.delete requesterKey).2
  | .failRunningTasks => some { w with task := w.task.failRunning }
  | .crash =>
    some { w with
      queue := { w.queue with
        running := w.queue.running.drop fun _ _ => true
        submitting := w.queue.submitting.drop fun _ _ => true }
      runningController := none
      attempts := w.attempts.drop fun _ _ => true }

/-- The runs that begin with the row of a new task and an empty job store. -/
def system (options : ω → Queue.JobWorkerOptions) (taskId : τ) (plan : Plan κ n) :
    System (World κ τ ω n) (Event τ ω n) where
  start w := w.queue = ⟨.empty, .empty, .empty⟩ ∧ w.task.status = .queued ∧
    (∀ i, w.task.dag i = ⟨.pending, none⟩) ∧ w.runningController = none ∧ w.attempts = .empty ∧
    w.log = []
  step := step options taskId plan

end Step

end AiNet.TaskRoutes
