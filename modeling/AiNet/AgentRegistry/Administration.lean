import AiNet.AgentRegistry.Types

/-!
# Guards and administration

The checks that the entry points of `agent_registry/src/lib.rs` share, and the entry
points of the single administrator, in the source's order of checks.
-/

namespace AiNet.AgentRegistry

open Core

variable {Addr Sym : Type} [DecidableEq Addr] [DecidableEq Sym]
variable (env : Env Addr Sym) (signed : Addr → Bool)

/-! ## Guards -/

def requireNotPaused (w : World Addr Sym) : Outcome Error Unit :=
  failIf (w.paused = true) .contractPaused

/-- `is_admin`: the single administrator, or a signer of the multisig. -/
def isAdmin (w : World Addr Sym) (addr : Addr) : Bool :=
  w.admin = some addr || (w.multisigConfig.any fun config => config.admins.contains addr)

def requireAdmin (w : World Addr Sym) : Outcome Error Addr := do
  let admin ← okOr w.admin .notAdmin
  requireAuth env.toHost signed admin
  pure admin

def requireDisputeResolver (w : World Addr Sym) (caller : Addr) : Outcome Error Unit := do
  requireAuth env.toHost signed caller
  let resolver ← okOr w.disputeResolver .notAdmin
  failIf (caller ≠ resolver) .notAdmin

def isAgentFrozen (w : World Addr Sym) (agentId : Sym) : Bool :=
  (w.frozen.get agentId).getD false

def requireNotFrozen (w : World Addr Sym) (agentId : Sym) : Outcome Error Unit :=
  failIf (isAgentFrozen w agentId = true) .agentFrozen

def minBond (w : World Addr Sym) : Int := w.minBondSetting.getD defaultMinBondStroops

/-- `get_storage_config_internal`. -/
def getStorageConfig (w : World Addr Sym) : StorageConfig :=
  w.storageConfig.getD ⟨0, 0⟩

def validateRecord (record : AgentRecord Addr Sym) : Outcome Error Unit := do
  failIf (record.priceStroops ≤ 0) .invalidPrice
  failIf (maxMetadataEntries < record.metadata.entries.length) .invalidRecord

/-- `bond::load`. -/
def loadBond (w : World Addr Sym) (agentId : Sym) : Outcome Error (BondRecord Addr) :=
  okOr (w.bonds.get agentId) .notFound

def validateRegistrationBond (w : World Addr Sym) (record : AgentRecord Addr Sym) :
    Outcome Error Unit := do
  let required := minBond w
  failIf (record.bondAmount < required) .insufficientBond
  if w.slashedBond.has record.id = true then do
    let restored ← loadBond w record.id
    failIf (restored.status ≠ .active ∨ restored.amountStroops < required ∨
      restored.owner ≠ record.owner ∨ record.bondAmount < restored.amountStroops) .insufficientBond
  else pure ()

/-- What is left of a balance after a penalty, as every penalty computes it. -/
def remainingAfter (balance penalty : Int) : Int := if balance ≤ penalty then 0 else balance - penalty

theorem remainingAfter_nonneg (balance penalty : Int) : 0 ≤ remainingAfter balance penalty := by
  unfold remainingAfter
  split
  · exact le_refl 0
  · omega

/-! ## The entry points of the administrator -/

/-- `initialize`. -/
def initializeRegistry (admin : Addr) (w : World Addr Sym) :
    Outcome Error (World Addr Sym) := do
  failIf (w.admin.isSome = true) .alreadyExists
  requireAuth env.toHost signed admin
  pure { w with admin := some admin, paused := false }

def setAdmin (newAdmin : Addr) (w : World Addr Sym) :
    Outcome Error (World Addr Sym) := do
  failIf (w.multisigConfig.isSome = true) .multisigAlreadyConfigured
  let _ ← requireAdmin env signed w
  pure { w with admin := some newAdmin }

def pause (w : World Addr Sym) : Outcome Error (World Addr Sym) := do
  let _ ← requireAdmin env signed w
  pure { w with paused := true }

def unpause (w : World Addr Sym) : Outcome Error (World Addr Sym) := do
  let _ ← requireAdmin env signed w
  pure { w with paused := false }

def freezeAgent (agentId : Sym) (w : World Addr Sym) :
    Outcome Error (World Addr Sym) := do
  let _ ← requireAdmin env signed w
  pure { w with frozen := w.frozen.set agentId true }

def unfreezeAgent (agentId : Sym) (w : World Addr Sym) :
    Outcome Error (World Addr Sym) := do
  let _ ← requireAdmin env signed w
  pure { w with frozen := w.frozen.set agentId false }

def setMinBond (amountStroops : Int) (w : World Addr Sym) :
    Outcome Error (World Addr Sym) := do
  let _ ← requireAdmin env signed w
  pure { w with minBondSetting := some amountStroops }

def setDisputeResolver (resolver : Addr) (w : World Addr Sym) :
    Outcome Error (World Addr Sym) := do
  let _ ← requireAdmin env signed w
  pure { w with disputeResolver := some resolver }

def setStorageConfig (config : StorageConfig) (w : World Addr Sym) :
    Outcome Error (World Addr Sym) := do
  let _ ← requireAdmin env signed w
  pure { w with storageConfig := some config }

def setGasConfig (config : GasConfig) (w : World Addr Sym) :
    Outcome Error (World Addr Sym) := do
  let _ ← requireAdmin env signed w
  pure { w with gasConfig := some config }

/-- The entry points of this module and their arguments. -/
inductive ControlOp (Addr Sym : Type) where
  | initializeRegistry (admin : Addr)
  | setAdmin (newAdmin : Addr)
  | pause
  | unpause
  | freezeAgent (agentId : Sym)
  | unfreezeAgent (agentId : Sym)
  | setMinBond (amountStroops : Int)
  | setDisputeResolver (resolver : Addr)
  | setStorageConfig (config : StorageConfig)
  | setGasConfig (config : GasConfig)

def execControl : ControlOp Addr Sym → World Addr Sym → Outcome Error (World Addr Sym)
  | .initializeRegistry admin => initializeRegistry env signed admin
  | .setAdmin newAdmin => setAdmin env signed newAdmin
  | .pause => pause env signed
  | .unpause => unpause env signed
  | .freezeAgent agentId => freezeAgent env signed agentId
  | .unfreezeAgent agentId => unfreezeAgent env signed agentId
  | .setMinBond amountStroops => setMinBond env signed amountStroops
  | .setDisputeResolver resolver => setDisputeResolver env signed resolver
  | .setStorageConfig config => setStorageConfig env signed config
  | .setGasConfig config => setGasConfig env signed config

/-! ## What they let through, and what they write -/

section Spec

variable {env signed} {w w' : World Addr Sym}

variable {u : Unit}

omit [DecidableEq Sym] in
@[simp] theorem requireDisputeResolver_eq_ok {caller : Addr} :
    requireDisputeResolver env signed w caller = .ok u ↔
      (caller ≠ env.self ∧ signed caller = true) ∧ w.disputeResolver = some caller := by
  simp only [requireDisputeResolver, bind_eq_ok, okOr_eq_ok, requireAuth_eq_ok, failIf_eq_ok,
    exists_const, not_not]
  constructor
  · rintro ⟨hau, resolver, hrsr, rfl⟩
    exact ⟨hau, hrsr⟩
  · rintro ⟨hau, hrsr⟩
    exact ⟨hau, caller, hrsr, rfl⟩

omit [DecidableEq Addr] [DecidableEq Sym] in
@[simp] theorem requireNotPaused_eq_ok :
    requireNotPaused w = .ok u ↔ w.paused = false := by
  simp [requireNotPaused]

section

omit [DecidableEq Addr]

@[simp] theorem requireNotFrozen_eq_ok {agentId : Sym} :
    requireNotFrozen w agentId = .ok u ↔ isAgentFrozen w agentId = false := by
  simp [requireNotFrozen]

@[simp] theorem loadBond_eq_ok {agentId : Sym} {bond : BondRecord Addr} :
    loadBond w agentId = .ok bond ↔ w.bonds.get agentId = some bond :=
  okOr_eq_ok

end

/-- What a call of the administrator writes, once it is let through. -/
def ControlOp.effect (w : World Addr Sym) : ControlOp Addr Sym → World Addr Sym
  | .initializeRegistry admin => { w with admin := some admin, paused := false }
  | .setAdmin newAdmin => { w with admin := some newAdmin }
  | .pause => { w with paused := true }
  | .unpause => { w with paused := false }
  | .freezeAgent agentId => { w with frozen := w.frozen.set agentId true }
  | .unfreezeAgent agentId => { w with frozen := w.frozen.set agentId false }
  | .setMinBond amountStroops => { w with minBondSetting := some amountStroops }
  | .setDisputeResolver resolver => { w with disputeResolver := some resolver }
  | .setStorageConfig config => { w with storageConfig := some config }
  | .setGasConfig config => { w with gasConfig := some config }

theorem execControl_ok {op : ControlOp Addr Sym} (h : execControl env signed op w = .ok w') :
    w' = op.effect w := by
  cases op with
  | initializeRegistry | setAdmin =>
    simp only [execControl, initializeRegistry, setAdmin] at h
    repeat obtain ⟨_, _, h⟩ := bind_eq_ok.mp h
    obtain rfl := pure_eq_ok.mp h
    rfl
  | _ =>
    -- the others ask for the administrator and nothing else
    simp only [execControl, pause, unpause, freezeAgent, unfreezeAgent, setMinBond,
      setDisputeResolver, setStorageConfig, setGasConfig, bind_eq_ok, pure_eq_ok] at h
    obtain ⟨-, -, rfl⟩ := h
    rfl

theorem execControl_frame {op : ControlOp Addr Sym}
    (h : execControl env signed op w = .ok w') : w' = { w with toControl := w'.toControl } := by
  rw [execControl_ok h]
  cases op with
  | _ => rfl

end Spec

/-!
## Bonds

The entry points that move an agent's collateral. The balance is stored twice, in the
agent's record and in its bond record; the functions below write one of them, or the
other, or both, as the source does.

No function of the registry transfers tokens. What is announced as paid out, by the
`BondReturned` and `BondClaimed` events, is journalled in `payouts`.
-/

def internalSlashBond (agentId : Sym) (penaltyStroops : Int) (w : World Addr Sym) :
    Outcome Error (Int × World Addr Sym) := do
  failIf (penaltyStroops < 0) .invalidConfig
  let record ← okOr (w.agents.get agentId) .notFound
  let bondRecord := w.bonds.get agentId
  failIf (bondRecord.any (fun bond => bond.status = .cooldown) = true) .cooldownNotElapsed
  let remaining := remainingAfter record.bondAmount penaltyStroops
  let actualPenalty := record.bondAmount - remaining
  let slashedBond :=
    if 0 < actualPenalty ∧ remaining < minBond w then w.slashedBond.set agentId true
    else w.slashedBond
  let rewardPool ← okOr (checked128 (w.bondRewardPool + actualPenalty)) .invalidConfig
  pure (actualPenalty,
    { w with
      agents := w.agents.set agentId { record with bondAmount := remaining }
      bonds := w.bonds.adjust agentId fun bond =>
        { bond with
          amountStroops := remaining
          status := if remaining = 0 then .slashed else .active }
      slashedBond := slashedBond
      bondRewardPool := rewardPool })

def startCooldown (agentId : Sym) (expiryLedger : Nat) (w : World Addr Sym) :
    Outcome Error (World Addr Sym) := do
  let record ← loadBond w agentId
  pure { w with
    bonds := w.bonds.set agentId
      { record with status := .cooldown, cooldownUntil := some expiryLedger } }

/-- Not while a dispute holds the bond. -/
def requireNoDispute (w : World Addr Sym) (agentId : Sym) : Outcome Error Unit :=
  failIf (w.disputeBondLock.has agentId = true) .disputePending

def depositBond (agentId : Sym) (amountStroops : Int) (w : World Addr Sym) :
    Outcome Error (World Addr Sym) := do
  requireNotPaused w
  requireNoDispute w agentId
  failIf (amountStroops < minBond w) .insufficientBond
  let agent ← okOr (w.agents.get agentId) .notFound
  requireAuth env.toHost signed agent.owner
  let record ← loadBond w agentId
  failIf (record.status = .cooldown) .cooldownNotElapsed
  let newAmount ← okOr (checked128 (record.amountStroops + amountStroops)) .invalidConfig
  pure { w with
    agents := w.agents.set agentId { agent with bondAmount := newAmount }
    bonds := w.bonds.set agentId
      { record with amountStroops := newAmount, status := .active, cooldownUntil := none } }

def restoreSlashedBond (agentId : Sym) (amountStroops : Int) (w : World Addr Sym) :
    Outcome Error (Int × World Addr Sym) := do
  requireNotPaused w
  failIf (amountStroops ≤ 0 ∨ w.slashedBond.has agentId = false) .insufficientBond
  requireNoDispute w agentId
  let record ← loadBond w agentId
  requireAuth env.toHost signed record.owner
  failIf (record.status = .cooldown) .cooldownNotElapsed
  let newAmount ← okOr (checked128 (record.amountStroops + amountStroops)) .invalidConfig
  pure (newAmount,
    { w with
      bonds := w.bonds.set agentId
        { record with
          amountStroops := newAmount
          status := if minBond w ≤ newAmount then .active else .slashed
          cooldownUntil := none }
      agents := w.agents.adjust agentId fun agent => { agent with bondAmount := newAmount } })

def initiateBondReturn (agentId : Sym) (w : World Addr Sym) :
    Outcome Error (World Addr Sym) := do
  requireNotPaused w
  requireNoDispute w agentId
  let record ← loadBond w agentId
  requireAuth env.toHost signed record.owner
  failIf (record.status = .cooldown) .alreadyExists
  failIf (record.amountStroops ≤ 0) .insufficientBond
  let expiryLedger ← orTrap (checked32 (w.sequence + bondCooldownLedgers))
  startCooldown agentId expiryLedger w

/-- `claim_bond`: it works while the contract is paused. -/
def claimBond (agentId : Sym) (w : World Addr Sym) :
    Outcome Error (Int × World Addr Sym) := do
  requireNoDispute w agentId
  let record ← loadBond w agentId
  requireAuth env.toHost signed record.owner
  let expiryLedger ← okOr record.cooldownUntil .cooldownNotElapsed
  failIf (record.status ≠ .cooldown ∨ w.sequence < expiryLedger) .cooldownNotElapsed
  let returned := record.amountStroops
  pure (returned,
    { w with
      bonds := w.bonds.set agentId
        { record with amountStroops := 0, status := .returned, cooldownUntil := none }
      bondCooldown := w.bondCooldown.remove agentId
      agents := w.agents.adjust agentId fun agent => { agent with bondAmount := 0 }
      payouts := w.payouts ++ [(⟨agentId, record.owner, returned⟩ : Payout Addr Sym)] })

def rewardBond (agentId : Sym) (amountStroops : Int) (w : World Addr Sym) :
    Outcome Error (World Addr Sym) := do
  let _ ← requireAdmin env signed w
  requireNoDispute w agentId
  failIf (amountStroops ≤ 0) .invalidConfig
  let agent ← okOr (w.agents.get agentId) .notFound
  let record ← loadBond w agentId
  failIf (record.status = .cooldown) .cooldownNotElapsed
  let pool := w.bondRewardPool
  failIf (pool < amountStroops) .insufficientBond
  let newAmount ← okOr (checked128 (record.amountStroops + amountStroops)) .invalidConfig
  pure { w with
    agents := w.agents.set agentId { agent with bondAmount := newAmount }
    bonds := w.bonds.set agentId { record with amountStroops := newAmount, status := .active }
    bondRewardPool := pool - amountStroops }

def slashBondAmount (agentId : Sym) (penaltyStroops : Int) (w : World Addr Sym) :
    Outcome Error (World Addr Sym) := do
  let _ ← requireAdmin env signed w
  failIf (penaltyStroops < 0) .invalidConfig
  let (_, w) ← internalSlashBond agentId penaltyStroops w
  pure w

/-- The percentage of an amount, as both slashing entry points compute it. -/
def percentageOf (amount : Int) (percentage : Nat) : Outcome Error Int := do
  let scaled ← okOr (checked128 (amount * percentage)) .invalidConfig
  pure (scaled.tdiv 100)

def slashBond (agentId : Sym) (percentage : Nat) (reason : String) (w : World Addr Sym) :
    Outcome Error (World Addr Sym) := do
  let _ ← requireAdmin env signed w
  failIf (percentage = 0 ∨ 100 < percentage ∨ reason = "") .invalidConfig
  let record ← loadBond w agentId
  failIf (record.status ≠ .active) .cooldownNotElapsed
  let penaltyStroops ← percentageOf record.amountStroops percentage
  let (_, w) ← internalSlashBond agentId penaltyStroops w
  pure w

def slashBondFromDispute (caller : Addr) (agentId : Sym) (percentage : Nat) (reason : String)
    (w : World Addr Sym) : Outcome Error (Int × World Addr Sym) := do
  requireDisputeResolver env signed w caller
  failIf (percentage = 0 ∨ 100 < percentage ∨ reason = "") .invalidConfig
  failIf (w.disputeBondLock.has agentId = false) .notFound
  let record ← loadBond w agentId
  failIf (record.status = .cooldown) .cooldownNotElapsed
  let penaltyStroops ← percentageOf record.amountStroops percentage
  let (actualPenalty, w) ← internalSlashBond agentId penaltyStroops w
  pure (actualPenalty, { w with disputeBondLock := w.disputeBondLock.remove agentId })

def lockBondForDispute (caller : Addr) (agentId : Sym) (w : World Addr Sym) :
    Outcome Error (World Addr Sym) := do
  requireDisputeResolver env signed w caller
  failIf (w.disputeBondLock.has agentId = true) .disputePending
  failIf (w.agents.has agentId = false ∨ w.bondCooldown.has agentId = true) .insufficientBond
  let bondRecord ← loadBond w agentId
  failIf (bondRecord.status ≠ .active ∨ bondRecord.amountStroops ≤ 0) .insufficientBond
  pure { w with disputeBondLock := w.disputeBondLock.set agentId true }

def releaseBondAfterDispute (caller : Addr) (agentId : Sym) (w : World Addr Sym) :
    Outcome Error (World Addr Sym) := do
  requireDisputeResolver env signed w caller
  failIf (w.disputeBondLock.has agentId = false) .notFound
  pure { w with disputeBondLock := w.disputeBondLock.remove agentId }

/-- The entry points of this module and their arguments. -/
inductive BondOp (Addr Sym : Type) where
  | depositBond (agentId : Sym) (amountStroops : Int)
  | restoreSlashedBond (agentId : Sym) (amountStroops : Int)
  | initiateBondReturn (agentId : Sym)
  | claimBond (agentId : Sym)
  | rewardBond (agentId : Sym) (amountStroops : Int)
  | slashBondAmount (agentId : Sym) (penaltyStroops : Int)
  | slashBond (agentId : Sym) (percentage : Nat) (reason : String)
  | slashBondFromDispute (caller : Addr) (agentId : Sym) (percentage : Nat) (reason : String)
  | lockBondForDispute (caller : Addr) (agentId : Sym)
  | releaseBondAfterDispute (caller : Addr) (agentId : Sym)

def execBond : BondOp Addr Sym → World Addr Sym → Outcome Error (World Addr Sym)
  | .depositBond agentId amountStroops => depositBond env signed agentId amountStroops
  | .restoreSlashedBond agentId amountStroops => fun w => do
      let (_, w) ← restoreSlashedBond env signed agentId amountStroops w
      pure w
  | .initiateBondReturn agentId => initiateBondReturn env signed agentId
  | .claimBond agentId => fun w => do
      let (_, w) ← claimBond env signed agentId w
      pure w
  | .rewardBond agentId amountStroops => rewardBond env signed agentId amountStroops
  | .slashBondAmount agentId penaltyStroops => slashBondAmount env signed agentId penaltyStroops
  | .slashBond agentId percentage reason => slashBond env signed agentId percentage reason
  | .slashBondFromDispute caller agentId percentage reason => fun w => do
      let (_, w) ← slashBondFromDispute env signed caller agentId percentage reason w
      pure w
  | .lockBondForDispute caller agentId => lockBondForDispute env signed caller agentId
  | .releaseBondAfterDispute caller agentId => releaseBondAfterDispute env signed caller agentId

/-!
## Multi-signature administration

Proposals, their approval and their execution. The signers and the threshold are read
from the configuration in force at each call; the approvals are kept with the proposal.
-/

/-- The check both ways of storing a configuration make. -/
def requireThreshold (admins : List Addr) (threshold : Nat) : Outcome Error Unit :=
  failIf (threshold = 0 ∨ admins.length < threshold) .invalidThreshold

def setMultisigConfig (caller : Addr) (admins : List Addr) (threshold timelockDelay : Nat)
    (w : World Addr Sym) : Outcome Error (World Addr Sym) := do
  requireAuth env.toHost signed caller
  failIf (isAdmin w caller = false) .notAdmin
  requireThreshold admins threshold
  pure { w with multisigConfig := some ⟨admins, threshold, timelockDelay⟩ }

def clearMultisigConfig (caller : Addr) (w : World Addr Sym) :
    Outcome Error (World Addr Sym) := do
  requireAuth env.toHost signed caller
  failIf (isAdmin w caller = false) .notAdmin
  pure { w with multisigConfig := none }

/-- `propose_operation`: returns the id of the proposal, which the proposer has approved. -/
def proposeOperation (proposer : Addr) (action : AdminAction Addr Sym)
    (expirySeconds : Option Nat) (w : World Addr Sym) :
    Outcome Error (Nat × World Addr Sym) := do
  requireAuth env.toHost signed proposer
  failIf (isAdmin w proposer = false) .invalidSigner
  let config := w.multisigConfig.getD ⟨[proposer], 1, defaultTimelockDelay⟩
  let sequence ← orTrap (checked64 (w.proposalIdSequence + 1))
  let createdAt := w.now
  let eta ← orTrap (checked64 (createdAt + config.timelockDelay))
  let expiresAt ← orTrap (checked64 (createdAt + expirySeconds.getD defaultProposalExpiry))
  let proposal : Proposal Addr Sym :=
    { id := sequence
      proposer := proposer
      action := action
      createdAt := createdAt
      eta := eta
      expiresAt := expiresAt
      approvals := [proposer]
      executed := false
      cancelled := false }
  pure (sequence,
    { w with
      proposalIdSequence := sequence
      proposals := w.proposals.set sequence proposal })

def approveOperation (approver : Addr) (proposalId : Nat) (w : World Addr Sym) :
    Outcome Error (World Addr Sym) := do
  requireAuth env.toHost signed approver
  failIf (isAdmin w approver = false) .invalidSigner
  let proposal ← okOr (w.proposals.get proposalId) .proposalNotFound
  failIf (proposal.executed = true) .proposalAlreadyExecuted
  failIf (proposal.cancelled = true) .proposalAlreadyCancelled
  failIf (proposal.expiresAt < w.now) .proposalExpired
  failIf (approver ∈ proposal.approvals) .alreadyApproved
  pure { w with
    proposals := w.proposals.set proposalId
      { proposal with approvals := proposal.approvals ++ [approver] } }

/-- What an executed operation does. -/
def performAction (action : AdminAction Addr Sym) (w : World Addr Sym) :
    Outcome Error (World Addr Sym) :=
  match action with
  | .pause => pure { w with paused := true }
  | .unpause => pure { w with paused := false }
  | .setAdmin newAdmin => pure { w with admin := some newAdmin }
  | .slashBond agentId penaltyStroops => do
    let (_, w) ← internalSlashBond agentId penaltyStroops w
    pure w
  | .setMinBond minBond => pure { w with minBondSetting := some minBond }
  | .setGasConfig config => pure { w with gasConfig := some config }
  | .setMultisigConfig admins threshold timelockDelay => do
    requireThreshold admins threshold
    pure { w with multisigConfig := some ⟨admins, threshold, timelockDelay⟩ }

def executeOperation (executor : Addr) (proposalId : Nat) (w : World Addr Sym) :
    Outcome Error (World Addr Sym) := do
  requireAuth env.toHost signed executor
  failIf (isAdmin w executor = false) .invalidSigner
  let proposal ← okOr (w.proposals.get proposalId) .proposalNotFound
  failIf (proposal.executed = true) .proposalAlreadyExecuted
  failIf (proposal.cancelled = true) .proposalAlreadyCancelled
  failIf (proposal.expiresAt < w.now) .proposalExpired
  failIf (w.now < proposal.eta) .timelockNotElapsed
  let config := w.multisigConfig.getD ⟨[], 1, defaultTimelockDelay⟩
  failIf (proposal.approvals.length < config.threshold) .insufficientApprovals
  performAction proposal.action
    { w with proposals := w.proposals.set proposalId { proposal with executed := true } }

def cancelOperation (canceller : Addr) (proposalId : Nat) (w : World Addr Sym) :
    Outcome Error (World Addr Sym) := do
  requireAuth env.toHost signed canceller
  let proposal ← okOr (w.proposals.get proposalId) .proposalNotFound
  failIf (proposal.proposer ≠ canceller) .unauthorized
  failIf (proposal.executed = true) .proposalAlreadyExecuted
  failIf (proposal.cancelled = true) .proposalAlreadyCancelled
  pure { w with
    proposals := w.proposals.set proposalId { proposal with cancelled := true } }

/-- The entry points of this module and their arguments. -/
inductive MultisigOp (Addr Sym : Type) where
  | setMultisigConfig (caller : Addr) (admins : List Addr) (threshold timelockDelay : Nat)
  | clearMultisigConfig (caller : Addr)
  | proposeOperation (proposer : Addr) (action : AdminAction Addr Sym)
      (expirySeconds : Option Nat)
  | approveOperation (approver : Addr) (proposalId : Nat)
  | executeOperation (executor : Addr) (proposalId : Nat)
  | cancelOperation (canceller : Addr) (proposalId : Nat)

def execMultisig : MultisigOp Addr Sym → World Addr Sym → Outcome Error (World Addr Sym)
  | .setMultisigConfig caller admins threshold timelockDelay =>
    setMultisigConfig env signed caller admins threshold timelockDelay
  | .clearMultisigConfig caller => clearMultisigConfig env signed caller
  | .proposeOperation proposer action expirySeconds => fun w => do
      let (_, w) ← proposeOperation env signed proposer action expirySeconds w
      pure w
  | .approveOperation approver proposalId => approveOperation env signed approver proposalId
  | .executeOperation executor proposalId => executeOperation env signed executor proposalId
  | .cancelOperation canceller proposalId => cancelOperation env signed canceller proposalId

end AiNet.AgentRegistry
