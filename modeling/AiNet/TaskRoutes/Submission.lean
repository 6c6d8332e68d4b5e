import AiNet.Core.Json
import AiNet.Queue.Worker

/-!
# The quotas of a wallet

Two services limit what a wallet submits in the trailing 24 hours. `walletQuota.ts` keeps a table of
its own, to which it adds an event for every submission that it lets through, and `dailyQuota.ts`
counts the tasks of the wallet. They share the database with the tasks; any statement on it may
fail, and throws then.

Times are milliseconds. The counters of rejections are left out: they are written inside a `try`
whose error is dropped, and nothing here reads them.
-/

namespace AiNet.TaskRoutes

open Core List

def anonymousWallet : String := "anonymous"

def quotaWindowMs : Nat := 24 * 60 * 60 * 1000

inductive WalletQuotaEventKind where
  | task
  | tokens
  deriving DecidableEq

/-- A row of `wallet_quota_events`. -/
structure QuotaEvent where
  walletPublicKey : String
  kind : WalletQuotaEventKind
  units : Nat
  createdAt : Nat
  deriving DecidableEq

/-- A row of `tasks`, as a submission inserts it; `δ` are the DAGs. -/
structure TaskRecord (δ : Type) where
  id : String
  prompt : JsString
  walletPublicKey : String
  status : String
  dag : δ
  createdAt : Nat
  updatedAt : Nat
  deriving DecidableEq

/-- What submissions read and write. -/
structure Store (δ : Type) where
  events : List QuotaEvent
  tasks : List (TaskRecord δ)
  jobs : Queue.JobStore String String

/-- The settings, as the environment gives them. -/
structure QuotaConfig where
  maxDailyTasksPerWallet : Int
  maxDailyVeniceTokensPerWallet : Int
  maxPromptCharsPerRequest : Int
  dailyTaskLimitPerWallet : Int

/-- The statements that may fail. -/
inductive Operation where
  | ensureWalletQuotaSchema
  | countEvents
  | sumUnits
  | insertEvent
  | listTasks
  | insertTask
  | insertJob
  deriving DecidableEq

/-- What a quota is about. -/
inductive Resource where
  | tokens
  | tasks
  | promptChars
  deriving DecidableEq

/-- The errors that the route answers with. -/
inductive AppError where
  | quotaExceeded (message : String) (resource : Resource) (used limit : Nat) (resetAt : Option Nat)
      (retryAfterSeconds : Nat)
  | rateLimit (message : String) (limit : Nat) (window : String)
  /-- A statement failed. -/
  | internal (operation : Operation)
  deriving DecidableEq

/-- Execute a statement that may fail. -/
def execute (fails : Operation → Bool) (operation : Operation) : Except AppError Unit :=
  if fails operation then .error (.internal operation) else .ok ()

/-- A limit that is not positive switches its quota off. -/
def positiveInt (value : Int) : Nat := value.toNat

/-- `createdAt > windowStart`. -/
def inWindow (now createdAt : Nat) : Bool := decide (now < createdAt + quotaWindowMs)

/-- `nextMidnightIso`. -/
def nextMidnight (now : Nat) : Nat := (now / quotaWindowMs + 1) * quotaWindowMs

def secondsUntil (resetAt now : Nat) : Nat := (resetAt - now + 999) / 1000

/-! ## The wallet's quota -/

/-- `countEvents`, for the window that ends now. -/
def countEvents (events : List QuotaEvent) (wallet : String) (kind : WalletQuotaEventKind)
    (now : Nat) : Nat :=
  events.countP fun e => decide (e.walletPublicKey = wallet) && decide (e.kind = kind) &&
    inWindow now e.createdAt

def sumUnits (events : List QuotaEvent) (wallet : String) (kind : WalletQuotaEventKind)
    (now : Nat) : Nat :=
  ((events.filter fun e => decide (e.walletPublicKey = wallet) && decide (e.kind = kind) &&
    inWindow now e.createdAt).map (·.units)).sum

/-- Result of evaluating a wallet's quota. What remains is unlimited where no number is given. -/
structure WalletQuotaCheck where
  limit : Nat
  used : Nat
  remaining : Option Nat
  tokenLimit : Nat
  tokenUsed : Nat
  resetAt : Nat
  disabled : Bool
  rejected : Bool
  deriving DecidableEq

def checkWalletQuota (config : QuotaConfig) (fails : Operation → Bool) (events : List QuotaEvent)
    (wallet : String) (now : Nat) : Except AppError WalletQuotaCheck :=
  let taskLimit := positiveInt config.maxDailyTasksPerWallet
  let tokenLimit := positiveInt config.maxDailyVeniceTokensPerWallet
  if wallet = anonymousWallet ∨ taskLimit = 0 ∧ tokenLimit = 0 then
    .ok ⟨taskLimit, 0, none, tokenLimit, 0, nextMidnight now, true, false⟩
  else do
    execute fails .ensureWalletQuotaSchema
    if 0 < taskLimit then execute fails .countEvents
    if 0 < tokenLimit then execute fails .sumUnits
    let used := if 0 < taskLimit then countEvents events wallet .task now else 0
    let tokenUsed := if 0 < tokenLimit then sumUnits events wallet .tokens now else 0
    .ok {
      limit := taskLimit
      used := used
      remaining := if 0 < taskLimit then some (taskLimit - used) else none
      tokenLimit := tokenLimit
      tokenUsed := tokenUsed
      resetAt := nextMidnight now
      disabled := false
      rejected := decide (0 < taskLimit ∧ taskLimit ≤ used ∨ 0 < tokenLimit ∧ tokenLimit ≤ tokenUsed) }

/-- The error of `assertWalletQuota`. -/
def quotaExceeded (check : WalletQuotaCheck) (now : Nat) : AppError :=
  if 0 < check.tokenLimit ∧ check.tokenLimit ≤ check.tokenUsed then
    .quotaExceeded s!"Venice token quota reached (max {check.tokenLimit} per 24 hours)" .tokens
      check.tokenUsed check.tokenLimit (some check.resetAt) (secondsUntil check.resetAt now)
  else
    .quotaExceeded s!"Task submission quota reached (max {check.limit} per 24 hours)" .tasks
      check.used check.limit (some check.resetAt) (secondsUntil check.resetAt now)

/-- The clock is read at the check, and again for the error. -/
def assertWalletQuota (config : QuotaConfig) (fails : Operation → Bool) (events : List QuotaEvent)
    (wallet : String) (checked thrown : Nat) : Except AppError WalletQuotaCheck := do
  let check ← checkWalletQuota config fails events wallet checked
  if check.rejected then .error (quotaExceeded check thrown) else .ok check

/-- The event that `checkAndConsumeTask` records. An unidentified wallet has no quota. -/
def charge (wallet : String) (now : Nat) : List QuotaEvent :=
  if wallet = anonymousWallet then [] else [⟨wallet, .task, 1, now⟩]

def assertPromptWithinQuota (config : QuotaConfig) (prompt : JsString) : Except AppError Unit :=
  let limit := positiveInt config.maxPromptCharsPerRequest
  if limit = 0 ∨ prompt.length ≤ limit then .ok ()
  else .error (.quotaExceeded s!"Prompt exceeds the {limit}-character limit" .promptChars
    prompt.length limit none 60)

/-! ## The daily quota -/

def walletTasksInWindow {δ : Type} (tasks : List (TaskRecord δ)) (wallet : String) (now : Nat) : Nat :=
  tasks.countP fun t => decide (t.walletPublicKey = wallet) && inWindow now t.createdAt

structure DailyQuotaCheck where
  limit : Nat
  used : Nat
  remaining : Option Nat
  disabled : Bool
  rejected : Bool
  deriving DecidableEq

def checkDailyTaskQuota {δ : Type} (config : QuotaConfig) (fails : Operation → Bool)
    (tasks : List (TaskRecord δ)) (wallet : String) (now : Nat) : Except AppError DailyQuotaCheck :=
  let limit := positiveInt config.dailyTaskLimitPerWallet
  if limit = 0 ∨ wallet = anonymousWallet then .ok ⟨limit, 0, none, true, false⟩
  else do
    execute fails .listTasks
    let used := walletTasksInWindow tasks wallet now
    .ok ⟨limit, used, some (limit - used), false, decide (limit ≤ used)⟩

def assertDailyTaskQuota {δ : Type} (config : QuotaConfig) (fails : Operation → Bool)
    (tasks : List (TaskRecord δ)) (wallet : String) (now : Nat) : Except AppError DailyQuotaCheck := do
  let check ← checkDailyTaskQuota config fails tasks wallet now
  if check.rejected then
    .error (.rateLimit s!"Daily task limit reached (max {check.limit} per 24 hours)" check.limit "24h")
  else .ok check

/-! ## What a unit is -/

variable {events : List QuotaEvent} {consumed now : Nat}

theorem countEvents_charge {wallet : String} (hwal : wallet ≠ anonymousWallet)
    (hnow : now < consumed + quotaWindowMs) :
    countEvents (events ++ charge wallet consumed) wallet .task now =
      countEvents events wallet .task now + 1 := by
  unfold countEvents charge
  rw [if_neg hwal, countP_append, countP_singleton]
  simp [inWindow, hnow]

theorem countEvents_charge_other {wallet other : String} {kind : WalletQuotaEventKind} (hoth : other ≠ wallet) :
    countEvents (events ++ charge wallet consumed) other kind now = countEvents events other kind now := by
  unfold countEvents charge
  split
  · rw [append_nil]
  · rw [countP_append, countP_singleton]
    simp [Ne.symm hoth]

theorem walletTasksInWindow_snoc {δ : Type} {tasks : List (TaskRecord δ)} {task : TaskRecord δ}
    {now : Nat} (hnow : now < task.createdAt + quotaWindowMs) :
    walletTasksInWindow (tasks ++ [task]) task.walletPublicKey now =
      walletTasksInWindow tasks task.walletPublicKey now + 1 := by
  unfold walletTasksInWindow
  rw [countP_append, countP_singleton]
  simp [inWindow, hnow]

/-!
## Submitting a task

The part of `POST /` from the wallet's quota on: the middleware `walletQuotaCheck`, which records the
submission, and the handler, which asks the daily quota, inserts the task and enqueues its job. All of
it runs in one turn of the event loop, and each write is a statement of its own: nothing takes one
back when a later one fails. The request has passed what stands before: the idempotency middleware,
the rate limit and the validation of its body.
-/

variable {δ : Type}

/-- A request whose body is validated. -/
structure Request where
  prompt : JsString
  walletPublicKey : Option String
  priority : Option Queue.JobPriority
  /-- The header `walletpublickey`. -/
  header : Option String
  deriving DecidableEq

/-- `walletFromRequest`: an empty name counts as none. -/
def Request.walletFromRequest (req : Request) : String :=
  (req.walletPublicKey.filter (!·.isEmpty)).getD
    ((req.header.filter (!·.isEmpty)).getD anonymousWallet)

/-- The wallet of the handler: an empty name is one. -/
def Request.wallet (req : Request) : String :=
  req.walletPublicKey.getD (req.header.getD anonymousWallet)

/-- What the clock says, each time it is read. -/
structure Clock where
  checked : Nat
  thrown : Nat
  consumed : Nat
  daily : Nat
  created : Nat
  enqueued : Nat

/-- What a request meets: the settings, the statements that fail, the clock, the id drawn for the task,
and what a prompt is decomposed into. -/
structure Circumstances (δ : Type) where
  config : QuotaConfig
  fails : Operation → Bool
  clock : Clock
  taskId : String
  decompose : String → JsString → δ

/-- The body of the answer 201. -/
structure Created (δ : Type) where
  taskId : String
  dagPreview : δ
  status : String
  deriving DecidableEq

variable (c : Circumstances δ)

def checkAndConsumeTask (wallet : String) (store : Store δ) :
    Except AppError WalletQuotaCheck × Store δ :=
  match assertWalletQuota c.config c.fails store.events wallet c.clock.checked c.clock.thrown with
  | .error e => (.error e, store)
  | .ok check =>
    if wallet = anonymousWallet then (.ok check, store)
    else if c.fails .insertEvent then (.error (.internal .insertEvent), store)
    else (.ok check, { store with events := store.events ++ charge wallet c.clock.consumed })

def walletQuotaCheck (req : Request) (store : Store δ) : Except AppError WalletQuotaCheck × Store δ :=
  match assertPromptWithinQuota c.config req.prompt with
  | .error e => (.error e, store)
  | .ok _ => checkAndConsumeTask c req.walletFromRequest store

/-- The task that the handler makes. -/
def Circumstances.task (req : Request) : TaskRecord δ where
  id := c.taskId
  prompt := req.prompt
  walletPublicKey := req.wallet
  status := "queued"
  dag := c.decompose c.taskId req.prompt
  createdAt := c.clock.created
  updatedAt := c.clock.created

/-- `createTask`: the id is the primary key. -/
def createTask (task : TaskRecord δ) (store : Store δ) : Except AppError Unit × Store δ :=
  if c.fails .insertTask || store.tasks.any fun t => decide (t.id = task.id) then
    (.error (.internal .insertTask), store)
  else (.ok (), { store with tasks := store.tasks ++ [task] })

def Circumstances.job (req : Request) : Queue.Job String String :=
  Queue.EnqueueOptions.job ⟨c.taskId, some (req.priority.getD .normal), none⟩ 3 c.clock.enqueued

def enqueue (req : Request) (store : Store δ) : Except AppError Unit × Store δ :=
  if c.fails .insertJob then (.error (.internal .insertJob), store)
  else (.ok (), { store with jobs := store.jobs.add (c.job req) })

/-- The handler of `POST /`. -/
def postTask (req : Request) (store : Store δ) : Except AppError (Created δ) × Store δ :=
  match assertDailyTaskQuota c.config c.fails store.tasks req.wallet c.clock.daily with
  | .error e => (.error e, store)
  | .ok _ =>
    match createTask c (c.task req) store with
    | (.error e, store) => (.error e, store)
    | (.ok _, store) =>
      match enqueue c req store with
      | (.error e, store) => (.error e, store)
      | (.ok _, store) => (.ok ⟨c.taskId, (c.task req).dag, "queued"⟩, store)

/-- The request, from the middleware to its answer. -/
def submit (req : Request) (store : Store δ) : Except AppError (Created δ) × Store δ :=
  match walletQuotaCheck c req store with
  | (.error e, store) => (.error e, store)
  | (.ok _, store) => postTask c req store

variable {c} {req : Request} {store : Store δ}

/-! ## What each part leaves behind -/

theorem walletQuotaCheck_cases (c : Circumstances δ) (req : Request) (store : Store δ) :
    (∃ e, walletQuotaCheck c req store = (.error e, store)) ∨ ∃ check, walletQuotaCheck c req store =
        (.ok check, { store with
          events := store.events ++ charge req.walletFromRequest c.clock.consumed }) := by
  unfold walletQuotaCheck checkAndConsumeTask
  split
  · exact .inl ⟨_, rfl⟩
  · split
    · exact .inl ⟨_, rfl⟩
    · rename_i check _
      split
      · -- an unidentified wallet is not charged
        rename_i hwal
        refine .inr ⟨check, ?_⟩
        unfold charge
        rw [if_pos hwal, append_nil]
      · split
        · exact .inl ⟨_, rfl⟩
        · exact .inr ⟨check, rfl⟩

theorem postTask_cases (c : Circumstances δ) (req : Request) (store : Store δ) :
    (postTask c req store = (.ok ⟨c.taskId, (c.task req).dag, "queued"⟩, { store with
        tasks := store.tasks ++ [c.task req]
        jobs := store.jobs.add (c.job req) }) ∧ ∀ t ∈ store.tasks, t.id ≠ c.taskId) ∨
      (∃ e, postTask c req store = (.error e, store)) ∨
      c.fails .insertJob = true ∧ postTask c req store =
        (.error (.internal .insertJob), { store with tasks := store.tasks ++ [c.task req] }) := by
  unfold postTask createTask enqueue
  split
  · exact .inr (.inl ⟨_, rfl⟩)
  · by_cases htk : (c.fails .insertTask ||
        store.tasks.any fun t => decide (t.id = (c.task req).id)) = true
    · rw [if_pos htk]
      exact .inr (.inl ⟨_, rfl⟩)
    · rw [if_neg htk]
      cases hjob : c.fails .insertJob with
      | true => exact .inr (.inr ⟨rfl, rfl⟩)
      | false =>
        refine .inl ⟨rfl, fun t ht hid => htk ?_⟩
        rw [Bool.or_eq_true]
        exact .inr (List.any_eq_true.mpr ⟨t, ht, decide_eq_true hid⟩)

/-! ## The outcome -/

/-- A submission that is taken: one new task, one job for it, one unit of each quota. -/
structure Taken (c : Circumstances δ) (req : Request) (before after : Store δ) : Prop where
  tasks : after.tasks = before.tasks ++ [c.task req]
  fresh : ∀ t ∈ before.tasks, t.id ≠ (c.task req).id
  jobs : after.jobs = before.jobs.add (c.job req)
  job : (c.job req).taskId = (c.task req).id
  /-- One unit of the wallet's quota, if the middleware finds a wallet. -/
  walletUnit : req.walletFromRequest ≠ anonymousWallet → ∀ now < c.clock.consumed + quotaWindowMs,
    countEvents after.events req.walletFromRequest .task now =
      countEvents before.events req.walletFromRequest .task now + 1
  /-- And none of any other's. -/
  otherUnits : ∀ wallet, (wallet ≠ req.walletFromRequest ∨ wallet = anonymousWallet) → ∀ now,
    countEvents after.events wallet .task now = countEvents before.events wallet .task now
  dailyUnit : ∀ now < c.clock.created + quotaWindowMs,
    walletTasksInWindow after.tasks req.wallet now = walletTasksInWindow before.tasks req.wallet now + 1

theorem countEvents_charge_anonymous {wallet other : String} (hoth : other ≠ wallet ∨ other = anonymousWallet) :
    countEvents (events ++ charge wallet consumed) other .task now =
      countEvents events other .task now := by
  by_cases hsm : other = wallet
  · have han := hoth.resolve_left fun hne => hne hsm
    unfold charge
    rw [if_pos (hsm.symm.trans han), append_nil]
  · exact countEvents_charge_other hsm

/--
**The outcome of a submission.** It is taken and answered with 201. Or it is answered with an error,
and no job is enqueued; no task is left unless the enqueueing failed; and the wallet's quota has been
charged exactly if the middleware let the request through.
-/
theorem submit_outcome (c : Circumstances δ) (req : Request) (store : Store δ) :
    (submit c req store).1 = .ok ⟨c.taskId, (c.task req).dag, "queued"⟩ ∧
        Taken c req store (submit c req store).2 ∨
      ∃ e, (submit c req store).1 = .error e ∧ (submit c req store).2.jobs = store.jobs ∧
        (c.fails .insertJob = false → (submit c req store).2.tasks = store.tasks) ∧
        (submit c req store).2.events = store.events ++
          if (walletQuotaCheck c req store).1.isOk then charge req.walletFromRequest c.clock.consumed
          else [] := by
  rcases walletQuotaCheck_cases c req store with ⟨e, hquo⟩ | ⟨check, hquo⟩
  · -- the middleware rejects
    have hsub : submit c req store = (.error e, store) := by
      unfold submit
      rw [hquo]
    rw [hsub, hquo]
    exact .inr ⟨e, rfl, rfl, fun _ => rfl, (append_nil _).symm⟩
  · have hsub : submit c req store = postTask c req { store with
        events := store.events ++ charge req.walletFromRequest c.clock.consumed } := by
      unfold submit
      rw [hquo]
    rw [hsub, hquo]
    rcases postTask_cases c req { store with
        events := store.events ++ charge req.walletFromRequest c.clock.consumed } with
      ⟨hpo, hfr⟩ | ⟨e, hpo⟩ | ⟨hjob, hpo⟩
    · rw [hpo]
      refine .inl ⟨rfl, ?_⟩
      exact {
        tasks := rfl
        fresh := hfr
        jobs := rfl
        job := rfl
        walletUnit := fun hwal now hnow => countEvents_charge hwal hnow
        otherUnits := fun wallet hoth now => countEvents_charge_anonymous hoth
        dailyUnit := fun now hnow => walletTasksInWindow_snoc hnow }
    · rw [hpo]
      exact .inr ⟨e, rfl, rfl, fun _ => rfl, rfl⟩
    · rw [hpo]
      refine .inr ⟨_, rfl, rfl, fun hnot => ?_, rfl⟩
      rw [hjob] at hnot
      cases hnot

namespace Sample

/-- One task a day, fifty attempts. -/
def once : Circumstances Unit where
  config := ⟨50, 0, 0, 1⟩
  fails := fun _ => false
  clock := ⟨1000, 1000, 1000, 1000, 1000, 1000⟩
  taskId := "task_2"
  decompose := fun _ _ => ()

def request : Request := ⟨[104, 105], some "GWALLET", none, none⟩

/-- The wallet has its task of the day. -/
def spent : Store Unit where
  events := []
  tasks := [⟨"task_1", [104], "GWALLET", "queued", (), 500, 500⟩]
  jobs := .empty

end Sample

/-- The daily quota rejects a submission that the wallet's quota has already counted. -/
theorem submit_counts_rejected :
    (submit Sample.once Sample.request Sample.spent).1 =
        .error (.rateLimit "Daily task limit reached (max 1 per 24 hours)" 1 "24h") ∧
      Sample.spent.events = [] ∧
      (submit Sample.once Sample.request Sample.spent).2.events = [⟨"GWALLET", .task, 1, 1000⟩] := by
  refine ⟨?_, rfl, ?_⟩
  · decide
  · decide

end AiNet.TaskRoutes
