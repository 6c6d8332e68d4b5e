import AiNet.Core.Host
import AiNet.Core.Machine
import AiNet.Core.Storage

/-!
# Registry types

The records of `agent_registry/src/types.rs`, `bond.rs` and `lib.rs`, the error codes of
`errors.rs`, and the contract's storage. The storage is cut into the parts that the
groups of entry points write, so that what a group leaves alone is a part, not a list of
fields.

Left out, because no modelled function reads them: the reported errors, the audit trail,
the bridge proofs, the analytics snapshots, rent extension, and all events but the two
that announce a payout.
-/

namespace AiNet.AgentRegistry

open Core

/-! ## Constants, with the source's values -/

def defaultTimelockDelay : Nat := 86400
def defaultProposalExpiry : Nat := 604800
def maxMetadataEntries : Nat := 5
def defaultMinBondStroops : Int := 100000000
def bondCooldownLedgers : Nat := 17280
def slaPenaltyPercent : Int := 10
def defaultPageSize : Nat := 20
def maxPageSize : Nat := 50
def reputationScale : Nat := 1000000
def maxReputationInput : Nat := 100
def defaultDecayPct : Nat := 5
def defaultEpochSecs : Nat := 604800
def maxDecayEpochs : Nat := 100
def reputationWSuccess : Nat := 40
def reputationWQuality : Nat := 30
def reputationWUptime : Nat := 20
def reputationWPrice : Nat := 10

/-- The error codes the modelled functions return. -/
inductive Error where
  | notFound | unauthorized | alreadyExists | contractPaused | agentFrozen | notAdmin
  | duplicateInBatch | invalidRecord | insufficientBond | cooldownNotElapsed | proposalNotFound
  | proposalExpired | proposalAlreadyExecuted | proposalAlreadyCancelled | alreadyApproved
  | insufficientApprovals | timelockNotElapsed | invalidThreshold | invalidSigner
  | storageLimitReached | capabilityLimitReached | slaAlreadyExists | slaNotFound | invalidSla
  | invalidConfig | invalidPrice | multisigAlreadyConfigured | disputePending | agentDeregistered
  | invalidVersion | noVersionsFound
  deriving DecidableEq

/-! ## Agents -/

/-- A metadata value. The registry asks of it only whether it is a `u32`. -/
inductive Val where
  | u32 (value : Nat)
  | other
  deriving DecidableEq

structure AgentRecord (Addr Sym : Type) where
  id : Sym
  capability : Sym
  priceStroops : Int
  endpoint : List UInt8
  owner : Addr
  metadata : Storage Sym Val
  bondAmount : Int

instance {Addr Sym : Type} [DecidableEq Addr] [DecidableEq Sym] :
    DecidableEq (AgentRecord Addr Sym) := fun r s =>
  decidable_of_iff
    (r.id = s.id ∧ r.capability = s.capability ∧ r.priceStroops = s.priceStroops ∧
      r.endpoint = s.endpoint ∧ r.owner = s.owner ∧ r.metadata.entries = s.metadata.entries ∧
      r.bondAmount = s.bondAmount)
    (by
      obtain ⟨i, c, p, e, o, m, b⟩ := r
      obtain ⟨i', c', p', e', o', m', b'⟩ := s
      rw [AgentRecord.mk.injEq, AList.ext_iff])

structure AgentPage (Addr Sym : Type) where
  agents : List (AgentRecord Addr Sym)
  nextCursor : Option Nat
  totalCount : Nat

inductive BatchResult (Sym : Type) where
  | ok (id : Sym)
  | err (code : Error)
  deriving DecidableEq

/-! ## Bonds -/

inductive BondStatus where
  | active
  | cooldown
  | slashed
  | returned
  deriving DecidableEq

structure BondRecord (Addr : Type) where
  owner : Addr
  amountStroops : Int
  status : BondStatus
  cooldownUntil : Option Nat
  deriving DecidableEq

structure CooldownRecord (Addr : Type) where
  expiryLedger : Nat
  owner : Addr
  bondAmount : Int
  deriving DecidableEq

/-- A `BondReturned` or `BondClaimed` event: the announcement that a bond is paid out. -/
structure Payout (Addr Sym : Type) where
  agentId : Sym
  owner : Addr
  amountStroops : Int
  deriving DecidableEq

/-! ## Administration -/

structure GasConfig where
  txOverhead : Nat
  registerAgent : Nat
  registerAgentMarginal : Nat
  resolveError : Nat
  resolveErrorMarginal : Nat
  slashBond : Nat
  deregisterWithBond : Nat
  cleanupError : Nat
  cleanupErrorMarginal : Nat
  deriving DecidableEq

/-- `StorageConfig`; zero is no limit. -/
structure StorageConfig where
  maxAgents : UInt32
  maxPerCapability : UInt32
  deriving DecidableEq

inductive AdminAction (Addr Sym : Type) where
  | pause
  | unpause
  | setAdmin (newAdmin : Addr)
  | slashBond (agentId : Sym) (penaltyStroops : Int)
  | setMinBond (minBond : Int)
  | setGasConfig (config : GasConfig)
  | setMultisigConfig (admins : List Addr) (threshold timelockDelay : Nat)
  deriving DecidableEq

structure MultisigConfig (Addr : Type) where
  admins : List Addr
  threshold : Nat
  timelockDelay : Nat
  deriving DecidableEq

structure Proposal (Addr Sym : Type) where
  id : Nat
  proposer : Addr
  action : AdminAction Addr Sym
  createdAt : Nat
  eta : Nat
  expiresAt : Nat
  approvals : List Addr
  executed : Bool
  cancelled : Bool
  deriving DecidableEq

/-! ## Metrics and reputation -/

structure AgentMetrics (Sym : Type) where
  agentId : Sym
  maxResponseTime : Nat
  minUptime : Nat
  minQualityScore : Nat
  slaCreatedAt : Nat
  totalChecks : Nat
  violations : Nat
  lastCheckAt : Nat
  totalTasks : Nat
  successfulTasks : Nat
  failedTasks : Nat
  totalEarnings : Int
  avgResponseTime : Nat
  lastUpdated : Nat
  deriving DecidableEq

structure SlaViolation (Sym : Type) where
  agentId : Sym
  violationType : Nat
  detectedAt : Nat
  penaltyApplied : Bool
  deriving DecidableEq

structure ReputationScore (Sym : Type) where
  agentId : Sym
  score : Nat
  lastUpdated : Nat
  deriving DecidableEq

structure ReputationConfig where
  decayPct : Nat
  epochSecs : Nat
  deriving DecidableEq

structure ReputationInput where
  successRate : Nat
  quality : Nat
  uptime : Nat
  priceFairness : Nat
  deriving DecidableEq

/-! ## Discovery and versions -/

structure DiscoveryQuery (Sym : Type) where
  requiredCapability : Sym
  maxPrice : Int
  minReputation : Nat
  maxLatency : Nat
  deriving DecidableEq

structure DiscoveryResult (Sym : Type) where
  agentId : Sym
  compositeScore : Nat
  priceStroops : Int
  reputation : Nat
  availability : Nat
  responseTime : Nat
  deriving DecidableEq

structure DiscoveryStats where
  totalQueries : Nat
  totalMatchesFound : Nat
  cacheHits : Nat
  deriving DecidableEq

structure AgentVersion where
  major : Nat
  minor : Nat
  patch : Nat
  deriving DecidableEq

structure VersionedAgentRecord (Addr Sym : Type) where
  record : AgentRecord Addr Sym
  version : AgentVersion
  superseded : Bool
  publishedAt : Nat

/-! ## Storage -/

/-- What a call sees of the ledger it is in. -/
structure Ledger where
  /-- `env.ledger().timestamp()`. -/
  now : Nat
  /-- `env.ledger().sequence()`. -/
  sequence : Nat

/-- Configuration, and the frozen agents. -/
structure Control (Addr Sym : Type) where
  admin : Option Addr
  paused : Bool
  minBondSetting : Option Int
  disputeResolver : Option Addr
  storageConfig : Option StorageConfig
  gasConfig : Option GasConfig
  frozen : Storage Sym Bool

/-- Multi-signature administration. -/
structure Multisig (Addr Sym : Type) where
  multisigConfig : Option (MultisigConfig Addr)
  proposals : Storage Nat (Proposal Addr Sym)
  proposalIdSequence : Nat

/-- The registered agents. -/
structure Agents (Addr Sym : Type) where
  agents : Storage Sym (AgentRecord Addr Sym)

/-- The structures kept beside the records for listing them. -/
structure Index (Sym : Type) where
  capabilityIndex : Storage Sym (List Sym)
  agentByIndex : Storage Nat Sym
  registrationSequence : Nat
  totalAgents : Nat

/-- Bonds, and the journal of the payouts announced. -/
structure Bonds (Addr Sym : Type) where
  bonds : Storage Sym (BondRecord Addr)
  bondCooldown : Storage Sym (CooldownRecord Addr)
  slashedBond : Storage Sym Bool
  disputeBondLock : Storage Sym Bool
  bondRewardPool : Int
  payouts : List (Payout Addr Sym)

/-- Service levels and task counts. -/
structure Metrics (Sym : Type) where
  agentMetrics : Storage Sym (AgentMetrics Sym)
  slaViolations : Storage (Sym × Nat) (SlaViolation Sym)
  slaViolationCount : Storage Sym Nat

/-- Reputation scores, and who may write them. -/
structure Reputation (Addr Sym : Type) where
  coordinator : Option Addr
  authorizedCallers : List Addr
  taskOutcome : Storage Sym Bool
  reputation : Storage Sym (ReputationScore Sym)
  reputationConfig : Option ReputationConfig

/-- Published versions. -/
structure Versions (Addr Sym : Type) where
  versionIndex : Storage Sym (List (Nat × Nat × Nat))
  versionRecords : Storage (Sym × Nat × Nat × Nat) (VersionedAgentRecord Addr Sym)

/-- The discovery oracle; the cache is in temporary storage. -/
structure Discovery (Sym : Type) where
  discoveryCache : Storage (DiscoveryQuery Sym) (List (DiscoveryResult Sym))
  discoveryStats : DiscoveryStats

/-- The contract's storage and the ledger. -/
structure World (Addr Sym : Type) extends Ledger, Control Addr Sym,
    Multisig Addr Sym, Agents Addr Sym, Index Sym, Bonds Addr Sym,
    Metrics Sym, Reputation Addr Sym, Versions Addr Sym, Discovery Sym

/-- The contract as deployed, before any call. -/
def World.init {Addr Sym : Type} (now sequence : Nat) : World Addr Sym where
  now := now
  sequence := sequence
  admin := none
  paused := false
  minBondSetting := none
  disputeResolver := none
  storageConfig := none
  gasConfig := none
  frozen := ∅
  multisigConfig := none
  proposals := ∅
  proposalIdSequence := 0
  agents := ∅
  capabilityIndex := ∅
  agentByIndex := ∅
  registrationSequence := 0
  totalAgents := 0
  bonds := ∅
  bondCooldown := ∅
  slashedBond := ∅
  disputeBondLock := ∅
  bondRewardPool := 0
  payouts := []
  agentMetrics := ∅
  slaViolations := ∅
  slaViolationCount := ∅
  coordinator := none
  authorizedCallers := []
  taskOutcome := ∅
  reputation := ∅
  reputationConfig := none
  versionIndex := ∅
  versionRecords := ∅
  discoveryCache := ∅
  discoveryStats := ⟨0, 0, 0⟩

/-- The metadata keys discovery looks under, a long and a short name each. -/
structure MetadataKeys (Sym : Type) where
  reputation : Sym
  rep : Sym
  responseTime : Sym
  latency : Sym
  availability : Sym
  avail : Sym

/-- What is fixed for a deployment. -/
structure Env (Addr Sym : Type) extends Host Addr Sym where
  keys : MetadataKeys Sym

end AiNet.AgentRegistry
