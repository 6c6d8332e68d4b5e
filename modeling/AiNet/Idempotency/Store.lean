import AiNet.Core.Transition
import AiNet.Core.UniqueTable

/-!
# The idempotency store

The table `idempotency_keys`, the statements on it, and the calls of `createIdempotencyStore`: a
reservation is a short program over these statements, and the statements of different callers, in
one process or in several, come in any order. Every statement is atomic. The ISO timestamps compare
like the milliseconds they stand for, so times are milliseconds.

`ω` are the wallets, `κ` the keys, `ρ` the reservation ids, `β` the JSON texts of the responses.
`get` and `delete` take no part in the middleware and are left out, as is the logging.
-/

namespace AiNet.Idempotency

open Core

inductive IdempotencyStatus where
  | pending
  | completed
  deriving DecidableEq

/-- A row of the table. -/
structure Row (ω κ ρ β : Type) where
  wallet : ω
  key : κ
  status : IdempotencyStatus
  reservationId : ρ
  statusCode : Option Nat
  body : Option β
  createdAt : Nat
  expiresAt : Nat
  deriving DecidableEq

variable {ω κ ρ β : Type}

/-- The composite primary key. -/
def Row.slot (row : Row ω κ ρ β) : ω × κ := (row.wallet, row.key)

abbrev Table (ω κ ρ β : Type) := UniqueTable (Row.slot : Row ω κ ρ β → ω × κ)

/-- `IdempotencyEntry`: what a caller sees of a row. -/
structure IdempotencyEntry (ω κ β : Type) where
  wallet : ω
  key : κ
  status : IdempotencyStatus
  statusCode : Option Nat
  responseBody : Option β
  createdAt : Nat
  expiresAt : Nat
  deriving DecidableEq

def toEntry (row : Row ω κ ρ β) : IdempotencyEntry ω κ β where
  wallet := row.wallet
  key := row.key
  status := row.status
  statusCode := row.statusCode
  responseBody := row.body
  createdAt := row.createdAt
  expiresAt := row.expiresAt

/-- `IdempotencyReservation`: how a reservation ends. -/
inductive Reservation (ω κ ρ β : Type) where
  | reserved (reservationId : ρ)
  | replay (entry : IdempotencyEntry ω κ β)
  | conflict
  deriving DecidableEq

/-- `IdempotencyStoreOptions`. -/
structure Options where
  ttlMs : Nat
  pendingTtlMs : Nat
  deriving DecidableEq

/-! ## The statements -/

section Statements

def pendingRow (slot : ω × κ) (reservationId : ρ) (createdAt expiresAt : Nat) : Row ω κ ρ β where
  wallet := slot.1
  key := slot.2
  status := .pending
  reservationId := reservationId
  statusCode := none
  body := none
  createdAt := createdAt
  expiresAt := expiresAt

/-- What a promotion makes of a row. -/
def Row.completedWith (row : Row ω κ ρ β) (statusCode : Nat) (body : Option β) (expiresAt : Nat) :
    Row ω κ ρ β :=
  { row with
    status := .completed
    statusCode := some statusCode
    body := body
    expiresAt := expiresAt }

variable [DecidableEq ω] [DecidableEq κ] [DecidableEq ρ]

/-- `status = 'pending' AND reservation_id = @reservationId` on the row of a slot. -/
def Row.heldBy (row : Row ω κ ρ β) (slot : ω × κ) (reservationId : ρ) : Bool :=
  decide (row.slot = slot) && decide (row.status = .pending) &&
    decide (row.reservationId = reservationId)

variable (table : Table ω κ ρ β)

/-- `INSERT OR IGNORE`: with the one row changed, or with none. -/
def reserveStmt (row : Row ω κ ρ β) : Option (Table ω κ ρ β) := table.insert row

def selectStmt (slot : ω × κ) : Option (Row ω κ ρ β) := table.find slot

def deleteExpiredStmt (slot : ω × κ) (now : Nat) : Table ω κ ρ β :=
  table.keep fun row => !(decide (row.slot = slot) && decide (row.expiresAt ≤ now))

def completeStmt (slot : ω × κ) (reservationId : ρ) (statusCode : Nat) (body : Option β)
    (expiresAt : Nat) : Table ω κ ρ β :=
  table.update
    (fun row =>
      if row.heldBy slot reservationId then row.completedWith statusCode body expiresAt else row)
    (by
      intro row
      split
      · rfl
      · rfl)

def releaseStmt (slot : ω × κ) (reservationId : ρ) : Table ω κ ρ β :=
  table.keep fun row => !row.heldBy slot reservationId

def cleanupStmt (now : Nat) : Table ω κ ρ β :=
  table.keep fun row => !decide (row.expiresAt ≤ now)

end Statements

/-! ## Reservations under way -/

/-- Where a call of `reserve` stands: the next statement it runs, and what it knows by then. -/
inductive Stage (ω κ ρ β : Type) where
  /-- Before `new Date()` of an attempt. -/
  | attempt (n : Nat)
  | insert (n now : Nat)
  | select (n now : Nat)
  | deleteExpired (n now : Nat)
  | returned (result : Reservation ω κ ρ β)
  deriving DecidableEq

structure Call (ω κ ρ β : Type) where
  slot : ω × κ
  reservationId : ρ
  stage : Stage ω κ ρ β
  deriving DecidableEq

/-- `continue`: the next of the three attempts. -/
def Stage.continued (n : Nat) : Stage ω κ ρ β :=
  if n + 1 < 3 then .attempt (n + 1) else .returned .conflict

/-- After `selectStmt`: replay it, reject it, or reclaim it. -/
def Stage.selected (n now : Nat) : Option (Row ω κ ρ β) → Stage ω κ ρ β
  | none => .continued n
  | some row =>
    if row.expiresAt ≤ now then .deleteExpired n now
    else
      match row.status with
      | .completed => .returned (.replay (toEntry row))
      | .pending => .returned .conflict

/-- One statement of a reservation, at a time: what it leaves of the table, and where the call stands. -/
def runStage [DecidableEq ω] [DecidableEq κ] (options : Options) (clock : Nat)
    (table : Table ω κ ρ β) (call : Call ω κ ρ β) :
    Option (Table ω κ ρ β × Stage ω κ ρ β) :=
  match call.stage with
  | .attempt n => some (table, .insert n clock)
  | .insert n now =>
    match reserveStmt table
        (pendingRow call.slot call.reservationId now (now + options.pendingTtlMs)) with
    | some table' => some (table', .returned (.reserved call.reservationId))
    | none => some (table, .select n now)
  | .select n now => some (table, .selected n now (selectStmt table call.slot))
  | .deleteExpired n now => some (deleteExpiredStmt table call.slot now, .continued n)
  | .returned _ => none

/-! ## The store and its callers -/

structure State (ω κ ρ β : Type) where
  clock : Nat
  table : Table ω κ ρ β
  calls : List (Call ω κ ρ β)

instance [DecidableEq ω] [DecidableEq κ] [DecidableEq ρ] [DecidableEq β] :
    DecidableEq (State ω κ ρ β) := fun s t =>
  decidable_of_iff (s.clock = t.clock ∧ s.table = t.table ∧ s.calls = t.calls) (by
    cases s
    cases t
    simp)

/-- `complete` and `cleanup` read the clock before their statement runs. -/
inductive Event (ω κ ρ β : Type) where
  | reserve (slot : ω × κ) (reservationId : ρ)
  | run (call : Nat)
  | complete (slot : ω × κ) (reservationId : ρ) (statusCode : Nat) (body : Option β) (now : Nat)
  | release (slot : ω × κ) (reservationId : ρ)
  | cleanup (now : Nat)
  | tick (clock : Nat)
  deriving DecidableEq

section Step

variable [DecidableEq ω] [DecidableEq κ] [DecidableEq ρ] (options : Options)

def step (s : State ω κ ρ β) : Event ω κ ρ β → Option (State ω κ ρ β)
  | .reserve slot reservationId =>
    some { s with calls := s.calls ++ [⟨slot, reservationId, .attempt 0⟩] }
  | .run i => do
      let call ← s.calls[i]?
      let (table, stage) ← runStage options s.clock s.table call
      some { s with table := table, calls := s.calls.set i { call with stage := stage } }
  | .complete slot reservationId statusCode body now =>
    if now ≤ s.clock then
      some { s with
        table := completeStmt s.table slot reservationId statusCode body (now + options.ttlMs) }
    else none
  | .release slot reservationId => some { s with table := releaseStmt s.table slot reservationId }
  | .cleanup now =>
    if now ≤ s.clock then some { s with table := cleanupStmt s.table now } else none
  | .tick clock => if s.clock ≤ clock then some { s with clock := clock } else none

/-- Any table the database holds, and no call yet. -/
def store : System (State ω κ ρ β) (Event ω κ ρ β) where
  start s := s.calls = []
  step := step options

end Step

end AiNet.Idempotency
