import AiNet.Payment.Stellar

/-!
# Drift between records and chain

Detection compares the table of payments with a list of the claimable balances that Horizon returned,
and plans what to do about each difference. It is a function of what was fetched before; an
absent balance means that it is not in the list. Times are milliseconds. The texts and amounts
of a discrepancy, which only alerts read, are left out.
-/

namespace AiNet.Reconciliation

open AiNet.Payment (PaymentStatus)
open List Option

/-- What a record holds as its hash: that of a transaction, or `RECONCILED_TX_SENTINEL`. -/
inductive TxHash where
  | transaction (t : Nat)
  | reconciledRepair
  deriving DecidableEq

/-- A row of `payments`. A date that is missing or cannot be parsed is `none`. -/
structure PaymentRecord (τ ν β : Type) where
  taskId : τ
  nodeId : ν
  balanceId : β
  status : PaymentStatus
  amountStroops : Nat
  txHash : Option TxHash
  createdAt : Option Int
  deriving DecidableEq

structure ClaimableBalanceOnChain (β : Type) where
  balanceId : β
  amountStroops : Nat
  deriving DecidableEq

structure TaskState where
  status : String
  updatedAt : Option Int
  deriving DecidableEq

/-- What a released record says about its transaction, and what Horizon says. -/
structure ReleaseVerification where
  recordedTxHash : Option TxHash
  onChainTx : Option Nat
  deriving DecidableEq

inductive DriftType where
  | orphanedLocked
  | missingReleaseTx
  | releaseUnconfirmed
  | expiredEscrow
  | missingLocal
  | amountMismatch
  deriving DecidableEq

/-- A difference; a balance without a record has no key. -/
structure Discrepancy (τ ν β : Type) where
  driftType : DriftType
  balanceId : β
  record : Option (τ × ν)
  onChainTxHash : Option Nat
  deriving DecidableEq

inductive RemediationAction where
  | markOrphaned
  | backfillTxHash
  | requeueRelease
  | refundEscrow
  | manualReview
  deriving DecidableEq

/-- What to do about a discrepancy, and whether it can be done without a human. -/
structure RemediationPlan where
  action : RemediationAction
  automatic : Bool
  deriving DecidableEq

structure DriftDetectionOptions (τ : Type) where
  escrowExpiryMs : Int
  now : Int
  taskState : τ → Option TaskState

/-- What a detection pass returns. -/
structure DriftDetectionResult (τ ν β : Type) where
  discrepancies : List (Discrepancy τ ν β)
  matchedBalanceIds : List β
  releaseVerified : Nat
  releaseUnverified : Nat
  deriving DecidableEq

def isSettledPaymentStatus : PaymentStatus → Bool
  | .released | .refunded | .orphaned => true
  | .locked => false

/-- `TERMINAL_UNSUCCESSFUL_TASK_STATUSES` has both spellings. -/
def isTerminalUnsuccessful (status : Option String) : Bool :=
  status.any fun status => decide (status.toLower ∈ ["failed", "cancelled", "canceled"])

variable {τ ν β : Type} [DecidableEq τ] [DecidableEq ν] [DecidableEq β]

def PaymentRecord.key (r : PaymentRecord τ ν β) : τ × ν := (r.taskId, r.nodeId)

/-- The age of the record, or else that of the last change of its task. -/
def paymentAgeMs (r : PaymentRecord τ ν β) (task : Option TaskState) (now : Int) : Option Int :=
  match r.createdAt with
  | some created => some (max 0 (now - created))
  | none => (task.bind TaskState.updatedAt).map fun updated => max 0 (now - updated)

/-- An unknown age counts as expired, and a window of zero as no window. -/
def isEscrowExpired (ageMs : Option Int) (expiryMs : Int) : Bool :=
  if expiryMs ≤ 0 then true
  else
    match ageMs with
    | none => true
    | some age => decide (expiryMs ≤ age)

def detectOrphanedLock (r : PaymentRecord τ ν β) : Discrepancy τ ν β :=
  ⟨.orphanedLocked, r.balanceId, some r.key, none⟩

/-- Nothing is wrong if the recorded hash is the one on chain. -/
def detectMissingReleaseTx (r : PaymentRecord τ ν β) (verification : ReleaseVerification)
    (onChain : Option (ClaimableBalanceOnChain β)) : Option (Discrepancy τ ν β) :=
  if onChain.isSome then none
  else
    let realHash := verification.onChainTx
    if realHash.isSome ∧ realHash.map .transaction = verification.recordedTxHash then none
    else some ⟨.missingReleaseTx, r.balanceId, some r.key, realHash⟩

def detectUnconfirmedRelease (r : PaymentRecord τ ν β) : Discrepancy τ ν β :=
  ⟨.releaseUnconfirmed, r.balanceId, some r.key, none⟩

def detectExpiredEscrow (r : PaymentRecord τ ν β) : Discrepancy τ ν β :=
  ⟨.expiredEscrow, r.balanceId, some r.key, none⟩

def detectMissingLocal (balance : ClaimableBalanceOnChain β) : Discrepancy τ ν β :=
  ⟨.missingLocal, balance.balanceId, none, none⟩

def detectAmountMismatch (r : PaymentRecord τ ν β) : Discrepancy τ ν β :=
  ⟨.amountMismatch, r.balanceId, some r.key, none⟩

/-- `missingReleaseTx` is only safe to repair when there is a hash to copy. -/
def planRemediation (d : Discrepancy τ ν β) : RemediationPlan :=
  match d.driftType with
  | .orphanedLocked => ⟨.markOrphaned, true⟩
  | .missingReleaseTx =>
    if d.onChainTxHash.isSome then ⟨.backfillTxHash, true⟩ else ⟨.manualReview, false⟩
  | .expiredEscrow => ⟨.refundEscrow, true⟩
  | .releaseUnconfirmed => ⟨.requeueRelease, true⟩
  | .missingLocal | .amountMismatch => ⟨.manualReview, false⟩

/-- `onChainByBalanceId`: of two entries with one id, the later. -/
def onChainByBalanceId (listed : List (ClaimableBalanceOnChain β)) (balanceId : β) :
    Option (ClaimableBalanceOnChain β) :=
  listed.reverse.find? fun balance => decide (balance.balanceId = balanceId)

namespace DriftDetectionResult

variable (acc : DriftDetectionResult τ ν β)

def push (d : Discrepancy τ ν β) : DriftDetectionResult τ ν β :=
  { acc with discrepancies := acc.discrepancies ++ [d] }

def addMatched (balanceId : β) : DriftDetectionResult τ ν β :=
  if balanceId ∈ acc.matchedBalanceIds then acc
  else { acc with matchedBalanceIds := acc.matchedBalanceIds ++ [balanceId] }

/-- The loop body over the local records. -/
def addRecord (listed : List (ClaimableBalanceOnChain β)) (options : DriftDetectionOptions τ)
    (verifications : τ × ν → Option ReleaseVerification) (r : PaymentRecord τ ν β) :
    DriftDetectionResult τ ν β :=
  let onChain := onChainByBalanceId listed r.balanceId
  if isSettledPaymentStatus r.status then
    match onChain with
    | some _ =>
      let acc := acc.push (detectUnconfirmedRelease r)
      { acc with releaseUnverified := acc.releaseUnverified + 1 }
    | none =>
      if r.status = .released then
        match verifications r.key with
        | some verification =>
          match detectMissingReleaseTx r verification none with
          | some missing =>
            let acc := acc.push missing
            { acc with releaseUnverified := acc.releaseUnverified + 1 }
          | none => { acc with releaseVerified := acc.releaseVerified + 1 }
        | none => { acc with releaseVerified := acc.releaseVerified + 1 }
      else acc
  else
    match onChain with
    | none => acc.push (detectOrphanedLock r)
    | some balance =>
      let acc := acc.addMatched r.balanceId
      let task := options.taskState r.taskId
      if isTerminalUnsuccessful (task.map TaskState.status) ∧
          isEscrowExpired (paymentAgeMs r task options.now) options.escrowExpiryMs then
        acc.push (detectExpiredEscrow r)
      else if r.amountStroops ≠ balance.amountStroops then acc.push (detectAmountMismatch r)
      else acc

end DriftDetectionResult

def detectPaymentDrift (records : List (PaymentRecord τ ν β))
    (listed : List (ClaimableBalanceOnChain β)) (options : DriftDetectionOptions τ)
    (verifications : τ × ν → Option ReleaseVerification) : DriftDetectionResult τ ν β :=
  let result := records.foldl (fun acc r => acc.addRecord listed options verifications r) ⟨[], [], 0, 0⟩
  let localBalanceIds := records.map PaymentRecord.balanceId
  listed.foldl (fun acc balance =>
    if balance.balanceId ∈ localBalanceIds then acc else acc.push (detectMissingLocal balance)) result

/-! ## One discrepancy for each record -/

def driftOf (listed : List (ClaimableBalanceOnChain β)) (options : DriftDetectionOptions τ)
    (verifications : τ × ν → Option ReleaseVerification) (r : PaymentRecord τ ν β) :
    Option (Discrepancy τ ν β) :=
  match r.status, onChainByBalanceId listed r.balanceId with
  | .locked, none => some (detectOrphanedLock r)
  | .locked, some balance =>
    let task := options.taskState r.taskId
    if isTerminalUnsuccessful (task.map TaskState.status) ∧
        isEscrowExpired (paymentAgeMs r task options.now) options.escrowExpiryMs then
      some (detectExpiredEscrow r)
    else if r.amountStroops ≠ balance.amountStroops then some (detectAmountMismatch r)
    else none
  | _, some _ => some (detectUnconfirmedRelease r)
  | .released, none => (verifications r.key).bind fun v => detectMissingReleaseTx r v none
  | _, none => none

variable {listed : List (ClaimableBalanceOnChain β)} {options : DriftDetectionOptions τ}
  {verifications : τ × ν → Option ReleaseVerification}

section

omit [DecidableEq τ] [DecidableEq ν]

theorem discrepancies_addRecord (acc : DriftDetectionResult τ ν β) (r : PaymentRecord τ ν β) :
    (acc.addRecord listed options verifications r).discrepancies =
      acc.discrepancies ++ (driftOf listed options verifications r).toList := by
  unfold DriftDetectionResult.addRecord driftOf
  cases hst : r.status with
  | locked =>
    cases onChainByBalanceId listed r.balanceId with
    | none => rfl
    | some =>
      have hma : (acc.addMatched r.balanceId).discrepancies = acc.discrepancies := by
        unfold DriftDetectionResult.addMatched
        split
        · rfl
        · rfl
      dsimp only
      rw [if_neg (show ¬isSettledPaymentStatus .locked = true from Bool.false_ne_true)]
      split
      · exact congrArg (· ++ _) hma
      · split
        · exact congrArg (· ++ _) hma
        · rw [hma, toList_none, append_nil]
  | released =>
    cases onChainByBalanceId listed r.balanceId with
    | some => rfl
    | none =>
      cases verifications r.key with
      | none => exact (append_nil _).symm
      | some verification =>
        dsimp only [bind_some]
        rw [if_pos (show isSettledPaymentStatus .released = true from rfl)]
        cases detectMissingReleaseTx r verification none with
        | none => exact (append_nil _).symm
        | some => rfl
  | refunded | orphaned =>
    cases onChainByBalanceId listed r.balanceId with
    | some => rfl
    | none => exact (append_nil _).symm

theorem discrepancies_records (records : List (PaymentRecord τ ν β)) :
    ∀ acc : DriftDetectionResult τ ν β,
      (records.foldl (fun acc r => acc.addRecord listed options verifications r) acc).discrepancies =
        acc.discrepancies ++ records.filterMap (driftOf listed options verifications) := by
  induction records with
  | nil => exact fun acc => (append_nil _).symm
  | cons r rest ih =>
    intro acc
    rw [foldl_cons, ih, discrepancies_addRecord, append_assoc]
    cases hdft : driftOf listed options verifications r with
    | none => rw [filterMap_cons_none hdft, toList_none, nil_append]
    | some => rw [filterMap_cons_some hdft, toList_some, singleton_append]

theorem discrepancies_missing (localBalanceIds : List β) (listed : List (ClaimableBalanceOnChain β)) :
    ∀ acc : DriftDetectionResult τ ν β,
      (listed.foldl (fun acc balance => if balance.balanceId ∈ localBalanceIds then acc
        else acc.push (detectMissingLocal balance)) acc).discrepancies = acc.discrepancies ++
          (listed.filter fun balance => decide (balance.balanceId ∉ localBalanceIds)).map
            detectMissingLocal := by
  induction listed with
  | nil => exact fun acc => (append_nil _).symm
  | cons balance rest ih =>
    intro acc
    rw [foldl_cons, ih]
    by_cases hloc : balance.balanceId ∈ localBalanceIds
    · rw [if_pos hloc, filter_cons_of_neg (by simp [hloc])]
    · rw [if_neg hloc, filter_cons_of_pos (by simp [hloc]), map_cons]
      exact append_assoc _ _ _

/-- **What detection reports: at most one discrepancy a record, and the balances without one.** -/
theorem discrepancies_detectPaymentDrift (records : List (PaymentRecord τ ν β)) :
    (detectPaymentDrift records listed options verifications).discrepancies =
      records.filterMap (driftOf listed options verifications) ++
        (listed.filter fun balance =>
          decide (balance.balanceId ∉ records.map PaymentRecord.balanceId)).map detectMissingLocal := by
  unfold detectPaymentDrift
  dsimp only
  rw [discrepancies_missing, discrepancies_records, nil_append]

end

def Listed (listed : List (ClaimableBalanceOnChain β)) (balanceId : β) : Prop :=
  ∃ balance ∈ listed, balance.balanceId = balanceId

variable {balanceId : β}

theorem listed_of_onChain {balance : ClaimableBalanceOnChain β}
    (h : onChainByBalanceId listed balanceId = some balance) : Listed listed balanceId := by
  have hid := List.find?_some h
  exact ⟨balance, mem_reverse.mp (List.mem_of_find?_eq_some h), of_decide_eq_true hid⟩

theorem onChain_eq_none :
    onChainByBalanceId listed balanceId = none ↔ ¬Listed listed balanceId := by
  unfold onChainByBalanceId Listed
  simp only [List.find?_eq_none, mem_reverse, decide_eq_true_eq, not_exists, not_and]

theorem onChain_of_listed (h : Listed listed balanceId) :
    ∃ balance, onChainByBalanceId listed balanceId = some balance := by
  cases hoh : onChainByBalanceId listed balanceId with
  | none => exact absurd h (onChain_eq_none.mp hoh)
  | some balance => exact ⟨balance, rfl⟩

/-- The escrow counts as expired: its task ended without success, and its window is over. -/
def Expired (options : DriftDetectionOptions τ) (r : PaymentRecord τ ν β) : Prop :=
  isTerminalUnsuccessful ((options.taskState r.taskId).map TaskState.status) = true ∧
    isEscrowExpired (paymentAgeMs r (options.taskState r.taskId) options.now)
      options.escrowExpiryMs = true

/-- Why a record has a discrepancy. -/
inductive Drift (listed : List (ClaimableBalanceOnChain β)) (options : DriftDetectionOptions τ)
    (verifications : τ × ν → Option ReleaseVerification) (r : PaymentRecord τ ν β) :
    Discrepancy τ ν β → Prop where
  | orphaned : r.status = .locked → ¬Listed listed r.balanceId →
      Drift listed options verifications r (detectOrphanedLock r)
  | expired : r.status = .locked → Listed listed r.balanceId → Expired options r →
      Drift listed options verifications r (detectExpiredEscrow r)
  | mismatch : r.status = .locked → Listed listed r.balanceId →
      Drift listed options verifications r (detectAmountMismatch r)
  | unconfirmed : isSettledPaymentStatus r.status = true → Listed listed r.balanceId →
      Drift listed options verifications r (detectUnconfirmedRelease r)
  | missing {v realHash} : r.status = .released → ¬Listed listed r.balanceId →
      verifications r.key = some v → v.onChainTx = realHash →
      (realHash.isSome → realHash.map .transaction ≠ v.recordedTxHash) →
      Drift listed options verifications r ⟨.missingReleaseTx, r.balanceId, some r.key, realHash⟩

variable {r : PaymentRecord τ ν β}

theorem drift_of_driftOf {d : Discrepancy τ ν β}
    (h : driftOf listed options verifications r = some d) : Drift listed options verifications r d := by
  unfold driftOf at h
  cases hoh : onChainByBalanceId listed r.balanceId with
  | some balance =>
    have hlst := listed_of_onChain hoh
    rw [hoh] at h
    cases hst : r.status with
    | locked =>
      rw [hst] at h
      dsimp only at h
      split at h
      · rename_i hexp
        cases h
        exact .expired hst hlst hexp
      · split at h
        · cases h
          exact .mismatch hst hlst
        · cases h
    | released | refunded | orphaned =>
      rw [hst] at h
      cases h
      exact .unconfirmed (by rw [hst]; rfl) hlst
  | none =>
    have hnot := onChain_eq_none.mp hoh
    rw [hoh] at h
    cases hst : r.status with
    | locked =>
      rw [hst] at h
      cases h
      exact .orphaned hst hnot
    | released =>
      rw [hst] at h
      obtain ⟨v, hv, h⟩ := bind_eq_some_iff.mp h
      unfold detectMissingReleaseTx at h
      dsimp only at h
      rw [if_neg (show ¬(none : Option (ClaimableBalanceOnChain β)).isSome = true from
        Bool.false_ne_true)] at h
      split at h
      · cases h
      · rename_i hdif
        cases h
        exact .missing hst hnot hv rfl fun hso heq => hdif ⟨hso, heq⟩
    | refunded | orphaned =>
      rw [hst] at h
      cases h

omit [DecidableEq β] in
theorem Drift.key {d : Discrepancy τ ν β}
    (h : Drift listed options verifications r d) : d.record = some r.key ∧ d.balanceId = r.balanceId := by
  cases h with
  | orphaned | expired | mismatch | unconfirmed | missing => exact ⟨rfl, rfl⟩

theorem driftOf_unconfirmed (hst : isSettledPaymentStatus r.status = true)
    (hlst : Listed listed r.balanceId) :
    driftOf listed options verifications r = some (detectUnconfirmedRelease r) := by
  obtain ⟨balance, hbal⟩ := onChain_of_listed hlst
  unfold driftOf
  rw [hbal]
  cases hs : r.status with
  | locked =>
    rw [hs] at hst
    cases hst
  | released | refunded | orphaned => rfl

theorem driftOf_expired (hst : r.status = .locked) (hlst : Listed listed r.balanceId)
    (hexp : Expired options r) :
    driftOf listed options verifications r = some (detectExpiredEscrow r) := by
  obtain ⟨balance, hbal⟩ := onChain_of_listed hlst
  unfold driftOf
  rw [hbal, hst]
  exact if_pos hexp

theorem driftOf_orphaned (hst : r.status = .locked) (hlst : ¬Listed listed r.balanceId) :
    driftOf listed options verifications r = some (detectOrphanedLock r) := by
  unfold driftOf
  rw [onChain_eq_none.mpr hlst, hst]

end AiNet.Reconciliation

/-!
## The reconciliation service

A run reads the payments, lists claimable balances, verifies releases, detects drift, remediates
what it can and parks the rest. Remediation settles through a queue if there is one, or else
through a settler, which is the payment service with the coordinator's key. `accepts` says which
claims of the coordinator the network lets through. A second run does not start while one is running.

The chain is what its claimable balances are, in Horizon's order, and which balance each
transaction touched, the oldest first; the number of a transaction stands for its hash.
-/

namespace AiNet.Reconciliation

open AiNet.Payment (PaymentStatus)

variable {τ ν β : Type} [DecidableEq τ] [DecidableEq ν] [DecidableEq β]

/-! ## Horizon -/

/-- The answers of Horizon: pages of balances, `none` for an error, and transactions. -/
structure Horizon (β : Type) where
  pages : Nat → Option (List (ClaimableBalanceOnChain β))
  findClaim : β → Option Nat
  getTransaction : TxHash → Option Nat

/-- `LIST_BALANCES_MAX_PAGES` and `LIST_BALANCES_PAGE_LIMIT`. -/
def listBalancesMaxPages : Nat := 10

def listBalancesPageLimit : Nat := 200

/-- Pages are read until one is empty or fails, or their number is reached. -/
def readPages (pages : Nat → Option (List (ClaimableBalanceOnChain β))) :
    Nat → Nat → List (ClaimableBalanceOnChain β)
  | 0, _ => []
  | left + 1, n =>
    match pages n with
    | none => []
    | some [] => []
    | some page => page ++ readPages pages left (n + 1)

def Horizon.listBalances (horizon : Horizon β) : List (ClaimableBalanceOnChain β) :=
  readPages horizon.pages listBalancesMaxPages 0

/-- `createReleaseTransactionResolver`. -/
def Horizon.resolve (horizon : Horizon β) (r : PaymentRecord τ ν β) : ReleaseVerification :=
  match horizon.findClaim r.balanceId with
  | some claim => ⟨r.txHash, some claim⟩
  | none =>
    match r.txHash with
    | none => ⟨none, none⟩
    | some recorded => ⟨some recorded, horizon.getTransaction recorded⟩

def verifyReleaseTransactions (horizon : Horizon β) (limit : Nat)
    (records : List (PaymentRecord τ ν β)) (key : τ × ν) : Option ReleaseVerification :=
  let candidates := records.filter fun r => decide (r.status = .released) && r.txHash.isSome
  ((candidates.take limit).find? fun r => decide (r.key = key)).map horizon.resolve

/-! ## The database -/

/-- The table `payments`; its primary key is the task and the node. -/
structure Payments (τ ν β : Type) where
  rows : List (PaymentRecord τ ν β)
  keys : (rows.map PaymentRecord.key).Nodup

namespace Payments

variable (p : Payments τ ν β)

def findByKey (key : τ × ν) : Option (PaymentRecord τ ν β) :=
  p.rows.find? fun r => decide (r.key = key)

/-- A row with another status and hash. -/
def settle (status : PaymentStatus) (txHash : TxHash) (r : PaymentRecord τ ν β) :
    PaymentRecord τ ν β :=
  { r with status := status, txHash := some txHash }

def updateStatus (key : τ × ν) (status : PaymentStatus) (txHash : TxHash) : Payments τ ν β where
  rows := p.rows.map fun r => if r.key = key then settle status txHash r else r
  keys := by
    have hsame : (PaymentRecord.key ∘ fun r : PaymentRecord τ ν β =>
        if r.key = key then settle status txHash r else r) = PaymentRecord.key := by
      funext r
      dsimp only [Function.comp]
      split
      · rfl
      · rfl
    rw [List.map_map, hsame]
    exact p.keys

/-- `updateStatusIfCurrent`, if it changes a row. -/
def updateStatusIfCurrent (key : τ × ν) (expected status : PaymentStatus) (txHash : TxHash) :
    Option (Payments τ ν β) :=
  if (p.findByKey key).any fun r => decide (r.status = expected) then
    some (p.updateStatus key status txHash)
  else none

end Payments

inductive JobKind where
  | release
  | refund
  deriving DecidableEq

/-- A release or refund that remediation queues or submits. -/
structure Job (τ ν β : Type) where
  kind : JobKind
  key : τ × ν
  balanceId : β
  deriving DecidableEq

/-- The id of a parked drift: its record, or its balance. -/
inductive DriftId (τ ν β : Type) where
  | record (key : τ × ν)
  | balance (balanceId : β)
  deriving DecidableEq

structure PendingDrift (τ ν β : Type) where
  id : DriftId τ ν β
  driftType : DriftType
  balanceId : β
  recommendedAction : RemediationAction
  occurrences : Nat
  acknowledged : Bool
  deriving DecidableEq

inductive RemediationStatus where
  | remediated
  | skipped
  | failed
  | manualReview
  deriving DecidableEq

structure Remediation where
  action : RemediationAction
  status : RemediationStatus
  txHash : Option TxHash
  deriving DecidableEq

structure Config where
  settlementQueue : Bool
  settler : Bool
  remediationEnabled : Bool
  escrowExpiryMs : Int
  maxTxLookups : Nat

structure Chain (β : Type) where
  balances : List (ClaimableBalanceOnChain β)
  transactions : List β

/-- Payments, chain and parked drifts, with the jobs queued and those submitted. -/
structure World (τ ν β : Type) where
  payments : Payments τ ν β
  chain : Chain β
  pendingDrift : List (PendingDrift τ ν β)
  queue : List (Job τ ν β)
  submitted : List (Job τ ν β)

namespace Chain

variable (c : Chain β)

def holds (balanceId : β) : Bool := c.balances.any fun b => decide (b.balanceId = balanceId)

def claim (accepts : β → Bool) (balanceId : β) : Option (TxHash × Chain β) :=
  if c.holds balanceId && accepts balanceId then
    some (.transaction c.transactions.length,
      ⟨c.balances.filter fun b => decide (b.balanceId ≠ balanceId), c.transactions ++ [balanceId]⟩)
  else none

/-- What Horizon answers when it does not fail: pages of balances, the first transaction. -/
def horizon : Horizon β where
  pages n := some ((c.balances.drop (n * listBalancesPageLimit)).take listBalancesPageLimit)
  findClaim balanceId := c.transactions.findIdx? fun b => decide (b = balanceId)
  getTransaction
    | .transaction t => if t < c.transactions.length then some t else none
    | .reconciledRepair => none

end Chain

/-! ## The payment service, as the settler -/

/-- How a release or refund ends: it throws first, it returns a hash that it knew, or it sends a
transaction that fails or lands. -/
inductive Settlement where
  | refused
  | known (txHash : TxHash)
  | failed
  | landed (txHash : TxHash)
  deriving DecidableEq

/-- What the call returns, if it does not throw. -/
def Settlement.txHash : Settlement → Option TxHash
  | .known txHash | .landed txHash => some txHash
  | .refused | .failed => none

/-- A transaction was sent. -/
def Settlement.submits : Settlement → Bool
  | .failed | .landed _ => true
  | .refused | .known _ => false

namespace World

variable (w : World τ ν β)

def claim (accepts : β → Bool) (r : PaymentRecord τ ν β) (status : PaymentStatus) :
    World τ ν β × Settlement :=
  match w.chain.claim accepts r.balanceId with
  | none => (w, .failed)
  | some (txHash, chain) =>
    ({ w with chain := chain, payments := w.payments.updateStatus r.key status txHash }, .landed txHash)

/-- `PaymentService.release`. -/
def release (accepts : β → Bool) (key : τ × ν) : World τ ν β × Settlement :=
  match w.payments.findByKey key with
  | none => (w, .refused)
  | some r =>
    match r.status, r.txHash with
    | .released, some txHash => (w, .known txHash)
    | _, _ => w.claim accepts r .released

/-- `PaymentService.refund`. -/
def refund (accepts : β → Bool) (key : τ × ν) : World τ ν β × Settlement :=
  match w.payments.findByKey key with
  | none => (w, .refused)
  | some r => if r.status = .released then (w, .refused) else w.claim accepts r .refunded

def settle (accepts : β → Bool) (job : Job τ ν β) : World τ ν β × Settlement :=
  match job.kind with
  | .release => w.release accepts job.key
  | .refund => w.refund accepts job.key

/-- Whoever works off the queue executes a job; if it throws, so be it. -/
def execute (accepts : β → Bool) (job : Job τ ν β) : World τ ν β := (w.settle accepts job).1

/-! ## Remediation -/

def enqueue (job : Job τ ν β) : World τ ν β := { w with queue := w.queue ++ [job] }

def submit (accepts : β → Bool) (job : Job τ ν β) : World τ ν β × Option TxHash :=
  let (w', settlement) := w.settle accepts job
  ({ w' with submitted := if settlement.submits then w'.submitted ++ [job] else w'.submitted },
    settlement.txHash)

def remediate (cfg : Config) (accepts : β → Bool) (d : Discrepancy τ ν β) :
    World τ ν β × Remediation :=
  let plan := planRemediation d
  if !plan.automatic || decide (plan.action = .manualReview) then (w, ⟨plan.action, .manualReview, none⟩)
  else
    match d.record with
    | none => (w, ⟨plan.action, .skipped, none⟩)
    | some key =>
      match plan.action with
      | .markOrphaned =>
        match w.payments.updateStatusIfCurrent key .locked .orphaned .reconciledRepair with
        | none => (w, ⟨.markOrphaned, .skipped, none⟩)
        | some payments =>
          ({ w with payments := payments }, ⟨.markOrphaned, .remediated, some .reconciledRepair⟩)
      | .backfillTxHash =>
        match d.onChainTxHash with
        | none => (w, ⟨.backfillTxHash, .manualReview, none⟩)
        | some realHash =>
          match w.payments.updateStatusIfCurrent key .released .released
              (.transaction realHash) with
          | none => (w, ⟨.backfillTxHash, .skipped, none⟩)
          | some payments =>
            ({ w with payments := payments }, ⟨.backfillTxHash, .remediated, some (.transaction realHash)⟩)
      | .requeueRelease =>
        let job : Job τ ν β := ⟨.release, key, d.balanceId⟩
        if cfg.settlementQueue then (w.enqueue job, ⟨.requeueRelease, .remediated, none⟩)
        else if cfg.settler then
          match w.submit accepts job with
          | (w', some txHash) => (w', ⟨.requeueRelease, .remediated, some txHash⟩)
          | (w', none) => (w', ⟨.requeueRelease, .failed, none⟩)
        else (w, ⟨.requeueRelease, .skipped, none⟩)
      | .refundEscrow =>
        let job : Job τ ν β := ⟨.refund, key, d.balanceId⟩
        if (w.payments.findByKey key).map PaymentRecord.status ≠ some .locked then
          (w, ⟨.refundEscrow, .skipped, none⟩)
        else if cfg.settlementQueue then (w.enqueue job, ⟨.refundEscrow, .remediated, none⟩)
        else if cfg.settler then
          match w.submit accepts job with
          | (w', some txHash) =>
            ({ w' with payments := w'.payments.updateStatus key .refunded txHash },
              ⟨.refundEscrow, .remediated, some txHash⟩)
          | (w', none) => (w', ⟨.refundEscrow, .failed, none⟩)
        else (w, ⟨.refundEscrow, .skipped, none⟩)
      | .manualReview => (w, ⟨.manualReview, .manualReview, none⟩)

end World

def Discrepancy.driftId (d : Discrepancy τ ν β) : DriftId τ ν β :=
  match d.record with
  | some key => .record key
  | none => .balance d.balanceId

namespace World

variable (w : World τ ν β)

/-- `park`: what an operator has acknowledged stays acknowledged. -/
def park (d : Discrepancy τ ν β) : World τ ν β :=
  let action := (planRemediation d).action
  { w with pendingDrift :=
      if w.pendingDrift.any fun p => decide (p.id = d.driftId) then
        w.pendingDrift.map fun p =>
          if p.id = d.driftId then
            { p with
              driftType := d.driftType
              balanceId := d.balanceId
              recommendedAction := action
              occurrences := p.occurrences + 1 }
          else p
      else w.pendingDrift ++ [⟨d.driftId, d.driftType, d.balanceId, action, 1, false⟩] }

/-- Remediate a discrepancy, unless that is switched off, and park it if it was not. -/
def handle (cfg : Config) (accepts : β → Bool) (d : Discrepancy τ ν β) : World τ ν β × Remediation :=
  let (w', outcome) :=
    if cfg.remediationEnabled then w.remediate cfg accepts d
    else (w, ⟨(planRemediation d).action, .skipped, none⟩)
  (if outcome.status = .remediated then w' else w'.park d, outcome)

/-- The loop over the discrepancies. -/
def handleAll (cfg : Config) (accepts : β → Bool) :
    World τ ν β → List (Discrepancy τ ν β) → World τ ν β × List (Discrepancy τ ν β × Remediation)
  | w, [] => (w, [])
  | w, d :: ds =>
    let (w', outcome) := w.handle cfg accepts d
    let (w'', report) := handleAll cfg accepts w' ds
    (w'', (d, outcome) :: report)

def retain (ids : List (DriftId τ ν β)) : World τ ν β :=
  { w with pendingDrift := w.pendingDrift.filter fun p => decide (p.id ∈ ids) }

def detect (cfg : Config) (horizon : Horizon β) (taskState : τ → Option TaskState) (now : Int) :
    List (Discrepancy τ ν β) :=
  (detectPaymentDrift w.payments.rows horizon.listBalances ⟨cfg.escrowExpiryMs, now, taskState⟩
    (verifyReleaseTransactions horizon cfg.maxTxLookups w.payments.rows)).discrepancies

/-- `run`, with the discrepancies and remediations of its report. -/
def run (cfg : Config) (horizon : Horizon β) (taskState : τ → Option TaskState) (now : Int)
    (accepts : β → Bool) : World τ ν β × List (Discrepancy τ ν β × Remediation) :=
  let (w', report) := w.handleAll cfg accepts (w.detect cfg horizon taskState now)
  let pendingIds := (report.filter fun (_, outcome) => decide (outcome.status ≠ .remediated)).map
    fun (d, _) => d.driftId
  (w'.retain pendingIds, report)

end World

end AiNet.Reconciliation
