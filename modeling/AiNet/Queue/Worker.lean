import AiNet.Core.Register
import AiNet.Core.Transition

/-!
# The job store

The table `jobs` and the statements on it, each of which the database executes atomically. A
job is claimed by the statement that makes it active, which also writes the lease: who works on
it and until when. Times are milliseconds; every caller brings its own clock.

The type and the payload of a job decide nothing here and are left out, as is `job_history`,
which nothing reads.
-/

namespace AiNet.Queue

open Core List Option

section

inductive JobStatus where
  | pending
  | active
  | completed
  | failed
  | deadLetter
  deriving DecidableEq

inductive JobPriority where
  | low
  | normal
  | high
  | critical
  deriving DecidableEq

/-- `PRIORITY_WEIGHTS`. -/
def JobPriority.weight : JobPriority → Nat
  | .critical => 4
  | .high => 3
  | .normal => 2
  | .low => 1

/-- A row of the table; `τ` are the task ids, `ω` the ids of workers. -/
structure Job (τ ω : Type) where
  taskId : τ
  status : JobStatus
  priority : JobPriority
  progress : Nat
  attempts : Nat
  maxAttempts : Int
  lastError : Option String
  nextRunAt : Nat
  createdAt : Nat
  updatedAt : Nat
  completedAt : Option Nat
  failedAt : Option Nat
  leaseOwner : Option ω
  leaseExpiresAt : Option Nat
  deriving DecidableEq

abbrev JobStore (τ ω : Type) := Register (Job τ ω)

namespace Job

variable {τ ω : Type} (job : Job τ ω)

def claimable : Bool :=
  decide (job.status = .pending) ||
    decide (job.status = .failed) && decide ((job.attempts : Int) < job.maxAttempts)

/-- The rows that the claim selects from. -/
def runnable (now : Nat) : Bool := job.claimable && decide (job.nextRunAt ≤ now)

/-- `ORDER BY priorityNum DESC, createdAt ASC`: does the one sort strictly before the other? -/
def sortsBefore (other : Job τ ω) : Bool :=
  decide (other.priority.weight < job.priority.weight) ||
    decide (job.priority = other.priority) && decide (job.createdAt < other.createdAt)

/-- The statuses that block another job of the task. -/
def live : Bool :=
  match job.status with
  | .pending | .active | .failed => true
  | .completed | .deadLetter => false

/-- No owner, or one that stopped renewing its lease. -/
def lapsed (now : Nat) : Bool := job.leaseExpiresAt.all fun expiresAt => decide (expiresAt < now)

end Job

/-- The columns that `updateStatus` may write, and the statuses it expects. -/
structure Updates where
  attempts : Option Nat
  progress : Option Nat
  lastError : Option String
  nextRunAt : Option Nat
  completedAt : Option Nat
  failedAt : Option Nat
  expectedStatus : List JobStatus

/-! ## What the statements write into a row -/

namespace Job

variable {τ ω : Type} (job : Job τ ω) (now : Nat)

def claimed (owner : ω) (expiresAt : Nat) : Job τ ω :=
  { job with
    status := .active
    updatedAt := now
    leaseOwner := some owner
    leaseExpiresAt := some expiresAt }

/-- The lease columns are not among those that `updateStatus` writes. -/
def updated (status : JobStatus) (updates : Updates) : Job τ ω :=
  { job with
    status := status
    updatedAt := now
    attempts := updates.attempts.getD job.attempts
    progress := updates.progress.getD job.progress
    lastError := updates.lastError.or job.lastError
    nextRunAt := updates.nextRunAt.getD job.nextRunAt
    completedAt := updates.completedAt.or job.completedAt
    failedAt := updates.failedAt.or job.failedAt }

def released : Job τ ω :=
  { job with
    leaseOwner := none
    leaseExpiresAt := none
    updatedAt := now }

def replayed : Job τ ω :=
  { job with
    status := .pending
    attempts := 0
    lastError := none
    nextRunAt := now
    failedAt := none
    leaseOwner := none
    leaseExpiresAt := none
    updatedAt := now }

def recovered : Job τ ω :=
  { job with
    status := .pending
    nextRunAt := now
    updatedAt := now
    leaseOwner := none
    leaseExpiresAt := none }

end Job

/-! ## The statements -/

namespace JobStore

variable {τ ω : Type} [DecidableEq τ] [DecidableEq ω] (store : JobStore τ ω)

def hasPendingJobForTask (taskId : τ) : Bool :=
  store.any fun _ job => decide (job.taskId = taskId) && job.live

/-- Is the job the one the claim picks, or one of those that it may pick? -/
def isNext (id now : Nat) : Bool :=
  (store.get id).any fun job => job.runnable now &&
    !store.any fun _ other => other.runnable now && other.sortsBefore job

/-- `claimNextPendingJob`, for the job it picks: the row turns active and is leased. -/
def claimNextPendingJob (id now : Nat) (owner : ω) (expiresAt : Nat) : JobStore τ ω :=
  store.rewrite (fun k _ => decide (k = id)) fun job => job.claimed now owner expiresAt

def ownedBy (id : Nat) (owner : ω) (k : Nat) (job : Job τ ω) : Bool :=
  decide (k = id) && decide (job.status = .active) && decide (job.leaseOwner = some owner)

def extendLease (id now : Nat) (owner : ω) (expiresAt : Nat) : JobStore τ ω :=
  store.rewrite (ownedBy id owner) fun job =>
    { job with leaseExpiresAt := some expiresAt, updatedAt := now }

def releaseLease (id now : Nat) (owner : ω) : JobStore τ ω :=
  store.rewrite (ownedBy id owner) fun job => job.released now

def updateStatus (id now : Nat) (status : JobStatus) (updates : Updates) : JobStore τ ω :=
  store.rewrite
    (fun k job => decide (k = id) &&
      (updates.expectedStatus.isEmpty || decide (job.status ∈ updates.expectedStatus)))
    fun job => job.updated now status updates

def updateProgress (id now progress : Nat) : JobStore τ ω :=
  store.rewrite (fun k _ => decide (k = id)) fun job =>
    { job with progress := min 100 progress, updatedAt := now }

def retryDeadLetterJob (id now : Nat) : JobStore τ ω :=
  store.rewrite (fun k job => decide (k = id) && decide (job.status = .deadLetter)) fun job =>
    job.replayed now

def purgeDeadLetters (before : Nat) : JobStore τ ω :=
  store.drop fun _ job => decide (job.status = .deadLetter) &&
    decide (job.failedAt.getD job.updatedAt ≤ before)

def recoverIncompleteJobs (now : Nat) : JobStore τ ω :=
  store.rewrite (fun _ job => decide (job.status = .active) && job.lapsed now) fun job =>
    job.recovered now

def delete (id : Nat) : JobStore τ ω := store.drop fun k _ => decide (k = id)

end JobStore

/-!
## Workers over one job store

Any number of workers, in any number of processes, share the table. A worker claims a job, runs
the handler on the row that the claim returned, and writes the outcome; in between it may renew
the lease, stop, or crash. It may have any number of handlers running. Jobs come in through `enqueue`, or through `enqueueUnique`, which is
a query and an insert and not one statement. Every statement is a step of `system`, with the
clock of whoever executes it.
-/

/-- What a submitter gives to `enqueue`. -/
structure EnqueueOptions (τ : Type) where
  taskId : τ
  priority : Option JobPriority
  maxAttempts : Option Int
  deriving DecidableEq

/-- The options of a worker that matter here. -/
structure JobWorkerOptions where
  maxAttempts : Int
  leaseTtlMs : Nat

/-- A handler that runs: whose it is, and the row that the claim returned. -/
structure Execution (τ ω : Type) where
  worker : ω
  jobId : Nat
  job : Job τ ω
  deriving DecidableEq

/-- The store, the handlers that run, and the submissions between their query and their insert. -/
structure State (τ ω : Type) where
  jobs : JobStore τ ω
  running : Register (Execution τ ω)
  submitting : Register (EnqueueOptions τ × Int)

variable {τ ω : Type} [DecidableEq τ] [DecidableEq ω]

/-- The row that `enqueue` inserts. -/
def EnqueueOptions.job (options : EnqueueOptions τ) (defaultMaxAttempts : Int) (now : Nat) :
    Job τ ω where
  taskId := options.taskId
  status := .pending
  priority := options.priority.getD .normal
  progress := 0
  attempts := 0
  maxAttempts := options.maxAttempts.getD defaultMaxAttempts
  lastError := none
  nextRunAt := now
  createdAt := now
  updatedAt := now
  completedAt := none
  failedAt := none
  leaseOwner := none
  leaseExpiresAt := none

/-- `job.maxAttempts || this.maxAttempts`. -/
def maxAllowedAttempts (options : JobWorkerOptions) (job : Job τ ω) : Int :=
  if job.maxAttempts = 0 then options.maxAttempts else job.maxAttempts

/-- What `DeadLetterQueue.push` writes. -/
def parkUpdates (now attempts : Nat) (maxAttempts : Int) (error : String) : Updates where
  attempts := some attempts
  progress := none
  lastError := some s!"max attempts exceeded ({attempts}/{maxAttempts}): {error}"
  nextRunAt := none
  completedAt := none
  failedAt := some now
  expectedStatus := [.active, .failed, .pending]

def push (store : JobStore τ ω) (id now attempts : Nat) (maxAttempts : Int) (error : String) :
    JobStore τ ω :=
  store.updateStatus id now .deadLetter (parkUpdates now attempts maxAttempts error)

/-- What a worker writes when the handler returned. -/
def completeUpdates (now : Nat) : Updates where
  attempts := none
  progress := some 100
  lastError := none
  nextRunAt := none
  completedAt := some now
  failedAt := none
  expectedStatus := [.active]

/-- What it writes when there will be another attempt. -/
def retryUpdates (attempts nextRunAt : Nat) (error : String) : Updates where
  attempts := some attempts
  progress := none
  lastError := some error
  nextRunAt := some nextRunAt
  completedAt := none
  failedAt := none
  expectedStatus := [.active]

/-- The end of `executeJob` when the handler returned. -/
def handlerReturned (store : JobStore τ ω) (x : Execution τ ω) (now : Nat) : JobStore τ ω :=
  store.updateStatus x.jobId now .completed (completeUpdates now)

/-- The end of `executeJob` when the handler threw. The delay is what the backoff draws. -/
def handlerThrew (options : JobWorkerOptions) (store : JobStore τ ω) (x : Execution τ ω)
    (now delayMs : Nat) (error : String) : JobStore τ ω :=
  let attempts := x.job.attempts + 1
  if (attempts : Int) < maxAllowedAttempts options x.job then
    store.updateStatus x.jobId now .failed (retryUpdates attempts (now + delayMs) error)
  else push store x.jobId now attempts (maxAllowedAttempts options x.job) error

/-- What may happen next. -/
inductive Event (τ ω : Type) where
  | enqueue (options : EnqueueOptions τ) (defaultMaxAttempts : Int) (now : Nat)
  /-- `enqueueUnique` finds no job that blocks it. -/
  | check (options : EnqueueOptions τ) (defaultMaxAttempts : Int)
  /-- It goes on to insert. -/
  | insertUnique (k now : Nat)
  | claim (worker : ω) (id now : Nat)
  | heartbeat (x now : Nat)
  | progress (x now percentage : Nat)
  | returned (x now : Nat)
  | threw (x now delayMs : Nat) (error : String)
  /-- The process of the handler is gone. -/
  | crash (x : Nat)
  /-- The worker was stopped, and gives back the lease of a handler that still runs. -/
  | release (x now : Nat)
  /-- A worker starts, and takes back jobs whose lease has lapsed. -/
  | recover (now : Nat)
  | retryDeadLetter (id now : Nat)
  | purge (before : Nat)
  | delete (id : Nat)

/-- One statement on the store, with what its caller does besides. -/
def step (options : ω → JobWorkerOptions) (s : State τ ω) : Event τ ω → Option (State τ ω)
  | .enqueue job max now => some { s with jobs := s.jobs.add (job.job max now) }
  | .check job max =>
    if s.jobs.hasPendingJobForTask job.taskId then none
    else some { s with submitting := s.submitting.add (job, max) }
  | .insertUnique k now =>
    (s.submitting.get k).map fun submission =>
      { s with
        jobs := s.jobs.add (submission.1.job submission.2 now)
        submitting := s.submitting.drop fun k' _ => decide (k' = k) }
  | .claim worker id now =>
    if s.jobs.isNext id now then
      let jobs := s.jobs.claimNextPendingJob id now worker (now + (options worker).leaseTtlMs)
      (jobs.get id).map fun job => { s with jobs := jobs, running := s.running.add ⟨worker, id, job⟩ }
    else none
  | .heartbeat x now =>
    (s.running.get x).map fun x =>
      { s with jobs := s.jobs.extendLease x.jobId now x.worker (now + (options x.worker).leaseTtlMs) }
  | .progress x now percentage =>
    (s.running.get x).map fun x => { s with jobs := s.jobs.updateProgress x.jobId now percentage }
  | .returned x now =>
    (s.running.get x).map fun e =>
      { s with
        jobs := handlerReturned s.jobs e now
        running := s.running.drop fun k _ => decide (k = x) }
  | .threw x now delayMs error =>
    (s.running.get x).map fun e =>
      { s with
        jobs := handlerThrew (options e.worker) s.jobs e now delayMs error
        running := s.running.drop fun k _ => decide (k = x) }
  | .crash x =>
    (s.running.get x).map fun _ => { s with running := s.running.drop fun k _ => decide (k = x) }
  | .release x now =>
    (s.running.get x).map fun x => { s with jobs := s.jobs.releaseLease x.jobId now x.worker }
  | .recover now => some { s with jobs := s.jobs.recoverIncompleteJobs now }
  | .retryDeadLetter id now => some { s with jobs := s.jobs.retryDeadLetterJob id now }
  | .purge before => some { s with jobs := s.jobs.purgeDeadLetters before }
  | .delete id => some { s with jobs := s.jobs.delete id }

/-- The runs from an empty store. -/
def system (options : ω → JobWorkerOptions) : System (State τ ω) (Event τ ω) where
  start s := s = ⟨.empty, .empty, .empty⟩
  step := step options

end

/-!
## What a step writes

`Wrote` lists what a step can do to the row of one job, with what the statement checked;
`step_running` says which handlers run after a step. Everything later is derived from these two.
-/

variable {τ ω : Type} [DecidableEq τ] [DecidableEq ω] {options : ω → JobWorkerOptions}
  {s s' : State τ ω} {e : Event τ ω}

/-- Renewing a lease and reporting progress leave alone what decides over a job. -/
structure Touched (job job' : Job τ ω) : Prop where
  taskId : job'.taskId = job.taskId
  status : job'.status = job.status
  attempts : job'.attempts = job.attempts
  maxAttempts : job'.maxAttempts = job.maxAttempts
  leaseOwner : job'.leaseOwner = job.leaseOwner

/-- What a step does to the row of the job `id`. -/
inductive Wrote (options : ω → JobWorkerOptions) (s : State τ ω) :
    Event τ ω → Nat → Option (Job τ ω) → Option (Job τ ω) → Prop where
  | kept {e id row} : Wrote options s e id row row
  | touched {e id job job'} : Touched job job' → Wrote options s e id (some job) (some job')
  | enqueued {o max now} :
      Wrote options s (.enqueue o max now) s.jobs.next none (some (o.job max now))
  | inserted {k now o max} : s.submitting.get k = some (o, max) →
      Wrote options s (.insertUnique k now) s.jobs.next none (some (o.job max now))
  | claimed {worker id now job} : job.runnable now = true →
      Wrote options s (.claim worker id now) id (some job)
        (some (job.claimed now worker (now + (options worker).leaseTtlMs)))
  | returned {x now y job} : s.running.get x = some y → job.status = .active →
      Wrote options s (.returned x now) y.jobId (some job)
        (some (job.updated now .completed (completeUpdates now)))
  | retried {x now delayMs error y job} : s.running.get x = some y → job.status = .active →
      ((y.job.attempts + 1 : Nat) : Int) < maxAllowedAttempts (options y.worker) y.job →
      Wrote options s (.threw x now delayMs error) y.jobId (some job)
        (some (job.updated now .failed (retryUpdates (y.job.attempts + 1) (now + delayMs) error)))
  | parked {x now delayMs error y job} : s.running.get x = some y →
      (job.status = .active ∨ job.status = .failed ∨ job.status = .pending) →
      maxAllowedAttempts (options y.worker) y.job ≤ ((y.job.attempts + 1 : Nat) : Int) →
      Wrote options s (.threw x now delayMs error) y.jobId (some job)
        (some (job.updated now .deadLetter (parkUpdates now (y.job.attempts + 1)
          (maxAllowedAttempts (options y.worker) y.job) error)))
  | released {x now y job} : s.running.get x = some y → job.status = .active →
      Wrote options s (.release x now) y.jobId (some job) (some (job.released now))
  | recovered {now id job} : job.status = .active → job.lapsed now = true →
      Wrote options s (.recover now) id (some job) (some (job.recovered now))
  | replayed {id now job} : job.status = .deadLetter →
      Wrote options s (.retryDeadLetter id now) id (some job) (some (job.replayed now))
  | removed {e id job} : (e = .delete id ∨ job.status = .deadLetter) → Wrote options s e id (some job) none

/-! ## Rows -/

section Rows

variable {store : JobStore τ ω} {id k : Nat} {row : Option (Job τ ω)}

theorem wrote_rewrite {p : Nat → Job τ ω → Bool} {f : Job τ ω → Job τ ω}
    (h : ∀ job, s.jobs.get id = some job → p id job = true →
      Wrote options s e id (some job) (some (f job))) :
    Wrote options s e id (s.jobs.get id) ((s.jobs.rewrite p f).get id) := by
  rw [Register.get_rewrite]
  cases hrow : s.jobs.get id with
  | none => exact .kept
  | some job =>
    rw [map_some]
    split
    · rename_i hp
      exact h job hrow hp
    · exact .kept

theorem wrote_drop {p : Nat → Job τ ω → Bool}
    (h : ∀ job, p id job = true → e = .delete id ∨ job.status = .deadLetter) :
    Wrote options s e id (s.jobs.get id) ((s.jobs.drop p).get id) := by
  cases hrow : s.jobs.get id with
  | none =>
    rw [Register.get_drop_of_none hrow]
    exact .kept
  | some job =>
    cases hp : p id job with
    | true =>
      rw [Register.get_drop_of_pos hrow hp]
      exact .removed (h job hp)
    | false =>
      rw [Register.get_drop_of_not hrow hp]
      exact .kept

theorem wrote_add {job : Job τ ω} (h : Wrote options s e s.jobs.next none (some job)) :
    Wrote options s e id (s.jobs.get id) ((s.jobs.add job).get id) := by
  by_cases hid : id = s.jobs.next
  · rw [hid, Register.get_add_self, s.jobs.fresh _ (Nat.le_refl _)]
    exact h
  · rw [Register.get_add_of_ne hid]
    exact .kept

theorem wrote_updateStatus {now : Nat} {status : JobStatus} {updates : Updates}
    (hee : updates.expectedStatus ≠ [])
    (h : ∀ job, s.jobs.get k = some job → job.status ∈ updates.expectedStatus →
      Wrote options s e k (some job) (some (job.updated now status updates))) :
    Wrote options s e id (s.jobs.get id) ((s.jobs.updateStatus k now status updates).get id) := by
  refine wrote_rewrite fun job hrow hp => ?_
  simp only [Bool.and_eq_true, Bool.or_eq_true, List.isEmpty_iff, decide_eq_true_eq] at hp
  obtain ⟨rfl, hst⟩ := hp
  exact h job hrow (hst.resolve_left hee)

end Rows

theorem runnable_of_isNext {store : JobStore τ ω} {id now : Nat} (h : store.isNext id now = true) :
    ∃ job, store.get id = some job ∧ job.runnable now = true := by
  obtain ⟨job, hrow, hjob⟩ := (Option.any_eq_true _ _).mp h
  rw [Bool.and_eq_true] at hjob
  exact ⟨job, hrow, hjob.1⟩

/-- **What a step does to a row.** -/
theorem step_wrote (h : step options s e = some s') (id : Nat) :
    Wrote options s e id (s.jobs.get id) (s'.jobs.get id) := by
  cases e with
  | enqueue =>
    cases h
    exact wrote_add .enqueued
  | check =>
    obtain ⟨_, h⟩ := ite_none_left_eq_some.mp h
    cases h
    exact .kept
  | insertUnique =>
    obtain ⟨⟨o, max⟩, hk, rfl⟩ := map_eq_some_iff.mp h
    exact wrote_add (.inserted hk)
  | claim =>
    obtain ⟨hnx, h⟩ := ite_none_right_eq_some.mp h
    obtain ⟨job', _, rfl⟩ := map_eq_some_iff.mp h
    obtain ⟨job, hrow, hjob⟩ := runnable_of_isNext hnx
    refine wrote_rewrite fun job'' hrow'' hk => ?_
    obtain rfl := of_decide_eq_true hk
    rw [hrow] at hrow''
    cases hrow''
    exact .claimed hjob
  | heartbeat | progress =>
    obtain ⟨y, hx, rfl⟩ := map_eq_some_iff.mp h
    exact wrote_rewrite fun job hrow hp => .touched ⟨rfl, rfl, rfl, rfl, rfl⟩
  | returned =>
    obtain ⟨y, hx, rfl⟩ := map_eq_some_iff.mp h
    refine wrote_updateStatus (cons_ne_nil _ _) fun job hrow hst => ?_
    exact .returned hx (mem_singleton.mp hst)
  | threw x now delayMs error =>
    obtain ⟨y, hx, rfl⟩ := map_eq_some_iff.mp h
    dsimp only [handlerThrew]
    split
    · rename_i hle
      refine wrote_updateStatus (cons_ne_nil _ _) fun job hrow hst => ?_
      exact .retried hx (mem_singleton.mp hst) hle
    · rename_i hmax
      refine wrote_updateStatus (cons_ne_nil _ _) fun job hrow hst => ?_
      refine .parked hx ?_ (Int.not_lt.mp hmax)
      simpa [parkUpdates] using hst
  | crash =>
    obtain ⟨y, hx, rfl⟩ := map_eq_some_iff.mp h
    exact .kept
  | release =>
    obtain ⟨y, hx, rfl⟩ := map_eq_some_iff.mp h
    refine wrote_rewrite fun job hrow hp => ?_
    unfold JobStore.ownedBy at hp
    simp only [Bool.and_eq_true, decide_eq_true_eq] at hp
    obtain ⟨⟨rfl, hact⟩, _⟩ := hp
    exact .released hx hact
  | recover =>
    cases h
    refine wrote_rewrite fun job hrow hp => ?_
    simp only [Bool.and_eq_true, decide_eq_true_eq] at hp
    exact .recovered hp.1 hp.2
  | retryDeadLetter =>
    cases h
    refine wrote_rewrite fun job hrow hp => ?_
    simp only [Bool.and_eq_true, decide_eq_true_eq] at hp
    obtain ⟨rfl, hdd⟩ := hp
    exact .replayed hdd
  | purge =>
    cases h
    refine wrote_drop fun job hp => .inr ?_
    rw [Bool.and_eq_true] at hp
    exact of_decide_eq_true hp.1
  | delete =>
    cases h
    refine wrote_drop fun job hp => .inl ?_
    rw [of_decide_eq_true hp]

/-! ## Handlers -/

/-- The step is the write at the end of the handler `x`. -/
def Event.settles (x : Nat) : Event τ ω → Bool
  | .returned k _ | .threw k _ _ _ => decide (k = x)
  | _ => false

theorem of_running_drop {x k : Nat} {y : Execution τ ω}
    (h : (s.running.drop fun k' _ => decide (k' = k)).get x = some y) :
    s.running.get x = some y ∧ decide (k = x) = false := by
  obtain ⟨hx, hne⟩ := Register.of_get_drop h
  exact ⟨hx, decide_eq_false fun hk => of_decide_eq_false hne hk.symm⟩

/-- **A handler that runs did before, and is not at its end, or was started by a claim.** -/
theorem step_running (h : step options s e = some s') {x : Nat} {y : Execution τ ω}
    (hx : s'.running.get x = some y) :
    s.running.get x = some y ∧ e.settles x = false ∨
      ∃ worker id now job, e = .claim worker id now ∧ s.jobs.get id = some job ∧
        job.runnable now = true ∧ x = s.running.next ∧
          y = ⟨worker, id, job.claimed now worker (now + (options worker).leaseTtlMs)⟩ := by
  cases e with
  | claim worker id now =>
    obtain ⟨hnx, h⟩ := ite_none_right_eq_some.mp h
    obtain ⟨job', hrow', rfl⟩ := map_eq_some_iff.mp h
    obtain ⟨job, hrow, hjob⟩ := runnable_of_isNext hnx
    rcases Register.of_get_add hx with ⟨hnew, rfl⟩ | hold
    · refine .inr ⟨worker, id, now, job, rfl, hrow, hjob, hnew, ?_⟩
      unfold JobStore.claimNextPendingJob at hrow'
      rw [Register.get_rewrite_of_some hrow, if_pos (decide_eq_true rfl)] at hrow'
      rw [Option.some.inj hrow']
    · exact .inl ⟨hold, rfl⟩
  | returned | threw =>
    obtain ⟨_, _, rfl⟩ := map_eq_some_iff.mp h
    exact .inl (of_running_drop hx)
  | crash =>
    obtain ⟨_, _, rfl⟩ := map_eq_some_iff.mp h
    exact .inl ⟨(of_running_drop hx).1, rfl⟩
  | check =>
    obtain ⟨_, h⟩ := ite_none_left_eq_some.mp h
    cases h
    exact .inl ⟨hx, rfl⟩
  | insertUnique | heartbeat | progress | release =>
    obtain ⟨_, _, rfl⟩ := map_eq_some_iff.mp h
    exact .inl ⟨hx, rfl⟩
  | enqueue | recover | retryDeadLetter | purge | delete =>
    cases h
    exact .inl ⟨hx, rfl⟩

end AiNet.Queue
