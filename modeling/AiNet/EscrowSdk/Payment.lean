import AiNet.Core.Number
import AiNet.Core.Register
import AiNet.Core.Storage
import AiNet.Core.Transition
import Mathlib.Algebra.GroupWithZero.Nat

/-!
# The payment SDK

The SDK of the smart contracts locks an amount in a claimable balance that only the coordinator can claim,
with the task id as the memo. To release or refund it, the SDK looks for the newest transaction with that memo
that created a balance, among the last hundred of the coordinator's account, and claims what it finds. On top
of that, a plan of milestones is kept in memory; its total is locked in one balance.

A call runs up to an `await` and goes on when the reply is there, so calls are interleaved at each of them. A
transaction that was sent is included at some time, or fails, or neither; a call may fail at any `await`.
Sequence numbers and fees only keep transactions out and are left out, and sending the same transaction again,
as `executeWithRetry` does, changes nothing. Amounts on the network are stroops.
-/

namespace AiNet.EscrowSdk

open Core

abbrev Text := List Char

/-! ## Amounts -/

def digits (base : Nat) (text : Text) : Option Int :=
  if text ≠ [] ∧ text.all (isDigitOf base) = true then
    some (text.foldl (fun value c => value * base + digitValue c) 0 : Nat)
  else none

/-- `BigInt(text)`; it throws where the text is no integer. -/
def bigInt (text : Text) : Option Int :=
  match trim text with
  | [] => some 0
  | '0' :: 'x' :: rest | '0' :: 'X' :: rest => digits 16 rest
  | '0' :: 'o' :: rest | '0' :: 'O' :: rest => digits 8 rest
  | '0' :: 'b' :: rest | '0' :: 'B' :: rest => digits 2 rest
  | text =>
    let (negative, rest) := signed text
    (digits 10 rest).map fun value => if negative then -value else value

def xlmToStroops (xlm : Text) : Option Int :=
  (bigInt (xlm.takeWhile (· ≠ '.'))).bind fun whole =>
    let principal := whole * 10000000
    match xlm.dropWhile (· ≠ '.') with
    | [] => some principal
    | _ :: rest =>
      let part := (rest.takeWhile (· ≠ '.')).take 7
      (bigInt (part ++ List.replicate (7 - part.length) '0')).map fun fraction => principal + fraction

/-- The largest amount of an operation. -/
def maxAmount : Int := 2 ^ 63 - 1

/-- The numbers of the language, as far as a plan adds them up: `0 + a` is `a`. -/
structure Numbers (ν : Type) where
  zero : ν
  add : ν → ν → ν
  nonpositive : ν → Bool
  toText : ν → Text
  zero_add : ∀ a, add zero a = a

/-! ## The network -/

/-- A claimable balance: its amount, and whether the coordinator may claim it. -/
structure Balance where
  amount : Nat
  claimable : Bool
deriving DecidableEq

/-- The operations of a transaction. One of somebody else may create a balance in its first operation. -/
inductive Operation (κ : Type)
  | createClaimableBalance (amount : Nat)
  | release (balanceId : Nat) (destination : κ) (amount : Nat)
  | refund (balanceId : Nat)
  | other (creates : Option Balance)
deriving DecidableEq

def Operation.creates {κ : Type} : Operation κ → Option Balance
  | .createClaimableBalance amount => some ⟨amount, true⟩
  | .other creates => creates
  | .release .. | .refund _ => none

def Operation.claims {κ : Type} : Operation κ → Option Nat
  | .release balanceId _ _ | .refund balanceId => some balanceId
  | .createClaimableBalance _ | .other _ => none

inductive TransactionStatus
  | pending | success | failed
deriving DecidableEq

/-- A transaction, with the call that sent it. -/
structure Transaction (κ : Type) where
  memo : Option Text
  operation : Operation κ
  status : TransactionStatus
  sender : Option Nat
deriving DecidableEq

/-- A transaction as Horizon lists it: its text memo, and what `getClaimableBalanceId(0)` gives. -/
structure Record where
  memo : Option Text
  balanceId : Option Nat
deriving DecidableEq

/-- A balance was claimed: by which transaction, and how much went where the transaction says. -/
structure Claim where
  transaction : Nat
  balanceId : Nat
  amount : Nat
deriving DecidableEq

/-- The ledger and the history of the coordinator's account. Transactions that failed are not in it. The
number of a transaction stands for its hash, and for the id of the balance it creates. -/
structure Network (κ : Type) where
  transactions : Register (Transaction κ)
  history : List Record
  balances : Storage Nat Balance
  claims : List Claim

section Network

variable {κ : Type} (n : Network κ)

def Network.conclude (t : Nat) (status : TransactionStatus) : Network κ :=
  { n with transactions := n.transactions.rewrite (fun k _ => decide (k = t)) fun tx => { tx with status := status } }

/-- The balance goes to the coordinator, and an amount from there. Where it is gone, the transaction fails. -/
def Network.claim (t : Nat) (memo : Option Text) (balanceId : Nat) (amount : Balance → Nat) : Network κ :=
  match n.balances.get balanceId with
  | some balance =>
    if balance.claimable then
      { n.conclude t .success with
        history := n.history ++ [⟨memo, none⟩]
        balances := n.balances.remove balanceId
        claims := n.claims ++ [⟨t, balanceId, amount balance⟩] }
    else n.conclude t .failed
  | none => n.conclude t .failed

def Network.includes (t : Nat) : Option (Network κ) :=
  (n.transactions.get t).bind fun tx =>
    if tx.status = .pending then
      match tx.operation with
      | .createClaimableBalance amount =>
        some { n.conclude t .success with
          history := n.history ++ [⟨tx.memo, some t⟩]
          balances := n.balances.set t ⟨amount, true⟩ }
      | .release balanceId _ amount => some (n.claim t tx.memo balanceId fun _ => amount)
      | .refund balanceId => some (n.claim t tx.memo balanceId Balance.amount)
      | .other _ => none
    else none

def Network.rejects (t : Nat) : Option (Network κ) :=
  (n.transactions.get t).bind fun tx => if tx.status = .pending then some (n.conclude t .failed) else none

def Network.send (sender : Nat) (memo : Text) (operation : Operation κ) : Network κ :=
  { n with transactions := n.transactions.add ⟨some memo, operation, .pending, some sender⟩ }

/-- A transaction of somebody else that has to do with the coordinator's account. -/
def Network.others (memo : Option Text) (creates : Option Balance) : Network κ :=
  let t := n.transactions.next
  { n with
    transactions := n.transactions.add ⟨memo, .other creates, .success, none⟩
    history := n.history ++ [⟨memo, creates.map fun _ => t⟩]
    balances := match creates with
      | some balance => n.balances.set t balance
      | none => n.balances }

end Network

/-- How many transactions the SDK looks at. -/
def historyLimit : Nat := 100

/-- The newest transaction with the memo that created a balance, among the last hundred. -/
def resolveBalanceId (history : List Record) (taskId : Text) : Option Nat :=
  (history.reverse.take historyLimit).findSome? fun r => if r.memo = some taskId then r.balanceId else none

/-! ## Calls -/

/-- A milestone. That its time of release is set is all that is used of it. -/
structure MilestonePayment (κ ν : Type) where
  milestoneId : Text
  agentAddress : κ
  amountXLM : ν
  released : Bool
deriving DecidableEq

/-- A plan in the store, with the transaction that locked its total, and whether a call has cancelled it. -/
structure Plan (κ ν : Type) where
  taskId : Text
  milestones : List (MilestonePayment κ ν)
  lock : Nat
  cancelled : Bool
deriving DecidableEq

inductive Failure
  | taskIdTooLong
  | notAnInteger
  | invalidAmount
  | noTransaction
  | alreadySettled
  | noMilestones
  | duplicateMilestones
  | noTotal
  | noPlan
  | noMilestone (milestoneId : Text)
  | unavailable
deriving DecidableEq

inductive Result
  | hash (transaction : Nat)
  | alreadyReleased
  | nothingToRefund
  | balance (stroops : Nat)
  | threw (failure : Failure)
deriving DecidableEq

/-- Where a call waits: for the account, for the history, for the balance, for the account again, for its
transaction. -/
inductive Stage
  | loading
  | resolving
  | checking (balanceId : Nat)
  | building (balanceId amount : Nat)
  | submitted (transaction : Nat)
  | ended (result : Result)
deriving DecidableEq

inductive Action (κ : Type)
  | lock (stroops : Int)
  | release (agent : κ)
  | refund
  | balance
deriving DecidableEq

/-- What a call is for: a plan is to be recorded, or a milestone of one is released, or it is cancelled. -/
inductive Purpose (κ ν : Type)
  | plain
  | plan (milestones : List (MilestonePayment κ ν))
  | milestone (plan index : Nat)
  | cancel (plan : Nat)
deriving DecidableEq

structure Call (κ ν : Type) where
  taskId : Text
  action : Action κ
  purpose : Purpose κ ν
  stage : Stage
deriving DecidableEq

inductive Request (κ ν : Type)
  | lockEscrow (agent : κ) (amountXLM taskId : Text)
  | releasePayment (agent : κ) (taskId : Text)
  | refundEscrow (taskId : Text)
  | getEscrowBalance (taskId : Text)
  | lockMilestoneEscrow (taskId : Text) (milestones : List (MilestonePayment κ ν))
  | releaseMilestone (taskId milestoneId : Text)
  | cancelMilestoneEscrow (taskId : Text)

/-- The network, the calls, and the plans; `milestoneStore` says which plan is a task's. -/
structure World (κ ν : Type) where
  network : Network κ
  calls : Register (Call κ ν)
  plans : Register (Plan κ ν)
  milestoneStore : Storage Text Nat

section Calls

variable {κ ν : Type} (numbers : Numbers ν)

/-- `Buffer.byteLength(taskId, 'utf8')`. -/
def byteLength (text : Text) : Nat := (text.map fun c => c.utf8Size).sum

def throws (taskId : Text) (action : Action κ) (failure : Failure) : Call κ ν :=
  ⟨taskId, action, .plain, .ended (.threw failure)⟩

def lockEscrow (amountXLM taskId : Text) (purpose : Purpose κ ν) : Call κ ν :=
  if 28 < byteLength taskId then throws taskId (.lock 0) .taskIdTooLong
  else
    match xlmToStroops amountXLM with
    | none => throws taskId (.lock 0) .notAnInteger
    | some stroops => ⟨taskId, .lock stroops, purpose, .loading⟩

def releasePayment (agent : κ) (taskId : Text) (purpose : Purpose κ ν) : Call κ ν :=
  ⟨taskId, .release agent, purpose, .resolving⟩

def refundEscrow (taskId : Text) (purpose : Purpose κ ν) : Call κ ν := ⟨taskId, .refund, purpose, .resolving⟩

def getEscrowBalance (taskId : Text) : Call κ ν := ⟨taskId, .balance, .plain, .resolving⟩

/-- What a plan locks. -/
def totalXLM (milestones : List (MilestonePayment κ ν)) : ν :=
  milestones.foldl (fun total m => numbers.add total m.amountXLM) numbers.zero

def lockMilestoneEscrow (taskId : Text) (milestones : List (MilestonePayment κ ν)) : Call κ ν :=
  if milestones = [] then throws taskId (.lock 0) .noMilestones
  else if ¬(milestones.map MilestonePayment.milestoneId).Nodup then throws taskId (.lock 0) .duplicateMilestones
  else if numbers.nonpositive (totalXLM numbers milestones) then throws taskId (.lock 0) .noTotal
  else
    lockEscrow (numbers.toText (totalXLM numbers milestones)) taskId
      (.plan (milestones.map fun m => { m with released := false }))

variable (w : World κ ν)

def World.planOf (taskId : Text) : Option (Nat × Plan κ ν) :=
  (w.milestoneStore.get taskId).bind fun p => (w.plans.get p).map fun plan => (p, plan)

def World.releaseMilestone (taskId milestoneId : Text) : Call κ ν :=
  match w.planOf taskId with
  | none => throws taskId .refund .noPlan
  | some (p, plan) =>
    let index := plan.milestones.findIdx fun m => decide (m.milestoneId = milestoneId)
    match plan.milestones[index]? with
    | none => throws taskId .refund (.noMilestone milestoneId)
    | some milestone =>
      if milestone.released then ⟨taskId, .release milestone.agentAddress, .plain, .ended .alreadyReleased⟩
      else EscrowSdk.releasePayment milestone.agentAddress taskId (.milestone p index)

def World.cancelMilestoneEscrow (taskId : Text) : Call κ ν :=
  match w.planOf taskId with
  | none => throws taskId .refund .noPlan
  | some (p, plan) =>
    if plan.milestones.all MilestonePayment.released then ⟨taskId, .refund, .plain, .ended .nothingToRefund⟩
    else EscrowSdk.refundEscrow taskId (.cancel p)

/-- A call, up to its first `await`. -/
def World.begin : Request κ ν → Call κ ν
  | .lockEscrow _ amountXLM taskId => EscrowSdk.lockEscrow amountXLM taskId .plain
  | .releasePayment agent taskId => EscrowSdk.releasePayment agent taskId .plain
  | .refundEscrow taskId => EscrowSdk.refundEscrow taskId .plain
  | .getEscrowBalance taskId => EscrowSdk.getEscrowBalance taskId
  | .lockMilestoneEscrow taskId milestones => EscrowSdk.lockMilestoneEscrow numbers taskId milestones
  | .releaseMilestone taskId milestoneId => w.releaseMilestone taskId milestoneId
  | .cancelMilestoneEscrow taskId => w.cancelMilestoneEscrow taskId

def World.setStage (c : Nat) (stage : Stage) : World κ ν :=
  { w with calls := w.calls.rewrite (fun k _ => decide (k = c)) fun call => { call with stage := stage } }

/-- The call's transaction is built, signed and sent. -/
def World.submit (c : Nat) (call : Call κ ν) (operation : Operation κ) : World κ ν :=
  { w with network := w.network.send c call.taskId operation }.setStage c
    (.submitted w.network.transactions.next)

def World.amend (p : Nat) (f : Plan κ ν → Plan κ ν) : World κ ν :=
  { w with plans := w.plans.rewrite (fun k _ => decide (k = p)) f }

/-- `milestone.releasedAt = new Date()`. -/
def Plan.release (plan : Plan κ ν) (index : Nat) : Plan κ ν :=
  { plan with milestones := plan.milestones.modify index fun m => { m with released := true } }

/-- The call hears that its transaction succeeded. -/
def World.finish (c : Nat) (call : Call κ ν) (t : Nat) : World κ ν :=
  match call.purpose with
  | .plain => w.setStage c (.ended (.hash t))
  | .plan milestones =>
    { w with
      plans := w.plans.add ⟨call.taskId, milestones, t, false⟩
      milestoneStore := w.milestoneStore.set call.taskId w.plans.next }.setStage c (.ended (.hash t))
  | .milestone p index => (w.amend p fun plan => plan.release index).setStage c (.ended (.hash t))
  | .cancel p =>
    { w.amend p fun plan => { plan with cancelled := true } with
      milestoneStore := w.milestoneStore.remove call.taskId }.setStage c (.ended (.hash t))

/-- Where the balance is not found, it counts as settled for `getEscrowBalance`. -/
def World.missing (c : Nat) (call : Call κ ν) (failure : Failure) : World κ ν :=
  match call.action with
  | .balance => w.setStage c (.ended (.balance 0))
  | .lock _ | .release _ | .refund => w.setStage c (.ended (.threw failure))

/-- The reply that a call waits for arrives. -/
def World.advance (c : Nat) (call : Call κ ν) : Option (World κ ν) :=
  match call.stage with
  | .loading =>
    match call.action with
    | .lock stroops =>
      if 0 < stroops ∧ stroops ≤ maxAmount then
        some (w.submit c call (.createClaimableBalance stroops.toNat))
      else some (w.setStage c (.ended (.threw .invalidAmount)))
    | .release _ | .refund | .balance => none
  | .resolving =>
    match resolveBalanceId w.network.history call.taskId with
    | some balanceId => some (w.setStage c (.checking balanceId))
    | none => some (w.missing c call .noTransaction)
  | .checking balanceId =>
    match w.network.balances.get balanceId with
    | some balance =>
      match call.action with
      | .balance => some (w.setStage c (.ended (.balance balance.amount)))
      | .lock _ | .release _ | .refund => some (w.setStage c (.building balanceId balance.amount))
    | none => some (w.missing c call .alreadySettled)
  | .building balanceId amount =>
    match call.action with
    | .release agent => some (w.submit c call (.release balanceId agent amount))
    | .refund => some (w.submit c call (.refund balanceId))
    | .lock _ | .balance => none
  | .submitted t =>
    (w.network.transactions.get t).bind fun tx => if tx.status = .success then some (w.finish c call t) else none
  | .ended _ => none

/-- The call throws at its `await`. -/
def World.abandon (c : Nat) (call : Call κ ν) : Option (World κ ν) :=
  match call.stage with
  | .ended _ => none
  | _ => some (w.setStage c (.ended (.threw .unavailable)))

end Calls

inductive Event (κ ν : Type)
  | call (request : Request κ ν)
  | advance (c : Nat)
  | abandon (c : Nat)
  | includes (t : Nat)
  | rejects (t : Nat)
  | others (memo : Option Text) (creates : Option Balance)

section System

variable {κ ν : Type} (numbers : Numbers ν)

def step (w : World κ ν) : Event κ ν → Option (World κ ν)
  | .call request => some { w with calls := w.calls.add (w.begin numbers request) }
  | .advance c => (w.calls.get c).bind (w.advance c)
  | .abandon c => (w.calls.get c).bind (w.abandon c)
  | .includes t => (w.network.includes t).map fun network => { w with network := network }
  | .rejects t => (w.network.rejects t).map fun network => { w with network := network }
  | .others memo creates => some { w with network := w.network.others memo creates }

/-- Nothing has been called yet. Whatever the account has done before counts among the others. -/
def World.opening : World κ ν := ⟨⟨.empty, [], ∅, []⟩, .empty, .empty, ∅⟩

def system : System (World κ ν) (Event κ ν) where
  start w := w = .opening
  step := step numbers

end System

end AiNet.EscrowSdk
