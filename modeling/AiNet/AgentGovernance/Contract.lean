import AiNet.Core.Checkpoint
import AiNet.Core.Host
import AiNet.Core.Machine
import AiNet.Core.Storage
import AiNet.Core.Transition

/-!
# Governance types

The records of `agent_governance/src/types.rs` and the error codes of `errors.rs`.
Events and rent extension are left out: nothing reads them back.

`World` is the contract's storage and the ledger's clock. `invocations` is ours: it
records every payload the contract hands to its target, which leaves no trace in the
contract's own storage. No function reads it.
-/

namespace AiNet.AgentGovernance

open Core

/-! ## Constants, with the source's values (seconds, basis points, stroops) -/

def defaultVotingPeriodSecs : Nat := 604800
def minVotingPeriodSecs : Nat := 3600
def maxVotingPeriodSecs : Nat := 2592000
def maxReputation : Nat := 100
def bpsDenominator : Int := 10000
def quorumBps : Int := 3000
def majorityBps : Int := 5000
def reputationPowerUnit : Int := 1000000
def maxCalldataLen : Nat := 4096
def maxCheckpoints : Nat := 32
def proposalTimelockSecs : Nat := 48 * 60 * 60

def votingPower (stake : Int) (reputation : Nat) : Int :=
  satAdd128 stake (satMul128 reputation reputationPowerUnit)

/-- The error codes the modelled functions return. -/
inductive Error where
  | notFound | alreadyInitialized | notInitialized | agentNotRegistered | agentAlreadyRegistered
  | invalidReputation | invalidStake | proposalNotActive | votingPeriodEnded | votingPeriodActive
  | alreadyVoted | invalidVotingPeriod | zeroVotingPower | proposalFinalized | emptyMetadata
  | agentNotFound | agentFrozen | insufficientBond | agentDeregistered | agentNotEligible
  | contractPaused | invalidTarget | calldataTooLarge | payloadHashMismatch | registryNotSet
  | noSnapshotPower
  deriving DecidableEq

/-! ## Records -/

structure AgentInfo (Addr : Type) where
  agent : Addr
  reputation : Nat
  stake : Int
  /-- The voting power of the stake and the reputation, cached. -/
  power : Int
  deriving DecidableEq

abbrev PowerCheckpoint := Checkpoint Int

inductive ProposalType where
  | parameterChange
  | agentDispute
  | protocolUpgrade
  deriving DecidableEq

/-- `ProposalStatus`. A cancelled proposal is `failed`. -/
inductive ProposalStatus where
  | active
  | executed
  | failed
  | queued
  deriving DecidableEq

inductive VoteChoice where
  | for_
  | against
  | abstain
  deriving DecidableEq

structure ExecutionPayload (Addr Sym : Type) where
  target : Option Addr
  function : Sym
  calldata : List UInt8
  expectedHash : Option (BytesN 32)
  deriving DecidableEq

structure QueuedProposal where
  proposalId : Nat
  passedAt : Nat
  canExecuteAt : Nat
  deriving DecidableEq

structure Proposal (Addr Sym : Type) where
  id : Nat
  proposer : Addr
  proposalType : ProposalType
  title : List UInt8
  description : List UInt8
  createdAt : Nat
  votingEndsAt : Nat
  status : ProposalStatus
  forPower : Int
  againstPower : Int
  abstainPower : Int
  totalPowerSnapshot : Int
  target : Option Addr
  function : Sym
  calldata : List UInt8
  expectedHash : Option (BytesN 32)
  deriving DecidableEq

structure VoteRecord (Addr : Type) where
  proposalId : Nat
  voter : Addr
  choice : VoteChoice
  weight : Int
  deriving DecidableEq

/-! ## The world a call runs in -/

/-- One call made on behalf of a proposal. -/
structure Invocation (Addr Sym : Type) where
  proposalId : Nat
  target : Addr
  function : Sym
  calldata : List UInt8
  deriving DecidableEq

/-- The contract's storage, the ledger's clock and the record of the payloads invoked. -/
structure World (Addr Sym : Type) where
  /-- `env.ledger().timestamp()`. -/
  now : Nat
  admin : Option Addr
  totalPower : Int
  proposalCount : Nat
  paused : Bool
  agentRegistry : Option Addr
  paramRegistry : Option Addr
  agents : Storage Addr (AgentInfo Addr)
  proposals : Storage Nat (Proposal Addr Sym)
  votes : Storage (Nat × Addr) (VoteRecord Addr)
  checkpoints : Storage Addr (List PowerCheckpoint)
  queued : Storage Nat QueuedProposal
  invocations : List (Invocation Addr Sym)

/-- The contract as deployed, before any call. -/
def World.init {Addr Sym : Type} (now : Nat) : World Addr Sym where
  now := now
  admin := none
  totalPower := 0
  proposalCount := 0
  paused := false
  agentRegistry := none
  paramRegistry := none
  agents := ∅
  proposals := ∅
  votes := ∅
  checkpoints := ∅
  queued := ∅
  invocations := []

/-!
## The entry points of `agent_governance`

Each function of `agent_governance/src/lib.rs` that reads or writes the contract's
state, in the source's order of checks. The agent registry and the target of a payload
are other contracts: what they answer comes with the call. The host forbids a callee to
call back into the contract, so an answer changes nothing here.
-/

variable {Addr Sym : Type} [DecidableEq Addr]

/-- What is fixed for a deployment: the host, the text form of addresses, and symbols by name. -/
structure Env (Addr Sym : Type) extends Host Addr Sym where
  /-- `Address::to_string`, as bytes. -/
  strkey : Addr → List UInt8
  /-- `Symbol::new`. -/
  symbolNew : String → Sym

/-- What differs from call to call: who signed, and what the other contracts would answer. -/
structure Call (Addr Sym : Type) where
  signed : Addr → Bool
  verifyAgentEligible : Addr → Sym → Invoked
  /-- Does the call of a function of a target, with this argument, return a value? -/
  invokeTarget : Addr → Sym → List UInt8 → Bool

variable (env : Env Addr Sym) (call : Call Addr Sym)

/-! ## Helpers -/

def requireInitialized (w : World Addr Sym) : Outcome Error Unit :=
  failIf (w.admin.isNone = true) .notInitialized

def requireAdmin (w : World Addr Sym) : Outcome Error Addr := do
  let admin ← okOr w.admin .notInitialized
  requireAuth env.toHost call.signed admin
  pure admin

def requireNotPaused (w : World Addr Sym) : Outcome Error Unit :=
  failIf (w.paused = true) .contractPaused

def writeCheckpoint (w : World Addr Sym) (agent : Addr) (power : Int) :
    World Addr Sym :=
  let cps := (w.checkpoints.get agent).getD []
  { w with
    checkpoints := w.checkpoints.set agent (Checkpoint.write maxCheckpoints w.now power cps) }

def powerAt (w : World Addr Sym) (agent : Addr) (time : Nat) : Int :=
  Checkpoint.valueAt 0 ((w.checkpoints.get agent).getD []) time

def validateTarget (target : Addr) : Outcome Error Unit := do
  failIf (target = env.self) .invalidTarget
  let strkey := env.strkey target
  failIf (strkey.length ≠ 56) .invalidTarget
  failIf (strkey.head? ≠ some 'C'.toUInt8) .invalidTarget

def calldataHash (calldata : List UInt8) : BytesN 32 := env.sha256 calldata

def loadAgent (w : World Addr Sym) (agent : Addr) : Outcome Error (AgentInfo Addr) :=
  okOr (w.agents.get agent) .agentNotRegistered

def verifyAgentEligibility (w : World Addr Sym) (agentId : Sym) : Outcome Error Unit :=
  match w.agentRegistry with
  | none => .ok ()
  | some registryAddr =>
    match call.verifyAgentEligible registryAddr agentId with
    | .returned => .ok ()
    | .contractError 1 => .error (.error .agentNotFound)
    | .contractError 5 => .error (.error .agentFrozen)
    | .contractError 10 => .error (.error .insufficientBond)
    | .contractError 36 => .error (.error .agentDeregistered)
    | .contractError _ => .error (.error .agentNotEligible)
    | .aborted => .error (.error .agentNotEligible)

/-! ## Administration -/

def initializeContract (admin : Addr) (w : World Addr Sym) :
    Outcome Error (World Addr Sym) := do
  failIf (w.admin.isSome = true) .alreadyInitialized
  requireAuth env.toHost call.signed admin
  pure { w with admin := some admin, totalPower := 0, proposalCount := 0, paused := false }

def setAdmin (newAdmin : Addr) (w : World Addr Sym) :
    Outcome Error (World Addr Sym) := do
  let _ ← requireAdmin env call w
  requireAuth env.toHost call.signed newAdmin
  pure { w with admin := some newAdmin }

def pause (w : World Addr Sym) : Outcome Error (World Addr Sym) := do
  let _ ← requireAdmin env call w
  pure { w with paused := true }

def unpause (w : World Addr Sym) : Outcome Error (World Addr Sym) := do
  let _ ← requireAdmin env call w
  pure { w with paused := false }

def setParamRegistry (registry : Addr) (w : World Addr Sym) :
    Outcome Error (World Addr Sym) := do
  let _ ← requireAdmin env call w
  validateTarget env registry
  pure { w with paramRegistry := some registry }

def setAgentRegistry (registry : Addr) (w : World Addr Sym) :
    Outcome Error (World Addr Sym) := do
  let _ ← requireAdmin env call w
  pure { w with agentRegistry := some registry }

/-! ## The electorate -/

def registerAgent (agent : Addr) (reputation : Nat) (stake : Int) (w : World Addr Sym) :
    Outcome Error (World Addr Sym) := do
  requireInitialized w
  requireAuth env.toHost call.signed agent
  -- the same symbol whoever registers
  verifyAgentEligibility call w (env.symbolNew "agent")
  failIf (maxReputation < reputation) .invalidReputation
  failIf (stake < 0) .invalidStake
  failIf (w.agents.has agent = true) .agentAlreadyRegistered
  let power := votingPower stake reputation
  failIf (power ≤ 0) .zeroVotingPower
  let info : AgentInfo Addr :=
    { agent := agent, reputation := reputation, stake := stake, power := power }
  let w := { w with agents := w.agents.set agent info }
  let w := writeCheckpoint w agent power
  pure { w with totalPower := satAdd128 w.totalPower power }

def updateAgent (agent : Addr) (reputation : Nat) (stake : Int) (w : World Addr Sym) :
    Outcome Error (World Addr Sym) := do
  requireInitialized w
  requireAuth env.toHost call.signed agent
  failIf (maxReputation < reputation) .invalidReputation
  failIf (stake < 0) .invalidStake
  let info ← loadAgent w agent
  let newPower := votingPower stake reputation
  failIf (newPower ≤ 0) .zeroVotingPower
  let delta ← orTrap (checked128 (newPower - info.power))
  let w := { w with
    agents := w.agents.set agent
      { info with reputation := reputation, stake := stake, power := newPower } }
  let w := writeCheckpoint w agent newPower
  pure { w with totalPower := max (satAdd128 w.totalPower delta) 0 }

def removeAgent (agent : Addr) (w : World Addr Sym) :
    Outcome Error (World Addr Sym) := do
  requireInitialized w
  requireAuth env.toHost call.signed agent
  let info ← loadAgent w agent
  let w := { w with agents := w.agents.remove agent }
  let w := writeCheckpoint w agent 0
  pure { w with totalPower := max (satSub128 w.totalPower info.power) 0 }

/-! ## Proposals -/

def resolveTarget (proposalType : ProposalType) (target : Option Addr)
    (w : World Addr Sym) : Outcome Error (Option Addr) :=
  match proposalType with
  | .parameterChange => do
    let registry ← okOr w.paramRegistry .registryNotSet
    failIf (target.any (fun t => decide (t ≠ registry)) = true) .invalidTarget
    pure (some registry)
  | .protocolUpgrade => do
    let t ← okOr target .invalidTarget
    validateTarget env t
    pure (some t)
  | .agentDispute => do
    let _ ← (target.elim (.ok ()) (validateTarget env) : Outcome Error Unit)
    pure target

def createProposal (proposer : Addr) (proposalType : ProposalType)
    (title description : List UInt8) (votingPeriodSecs : Nat)
    (payload : ExecutionPayload Addr Sym) (w : World Addr Sym) :
    Outcome Error (World Addr Sym) := do
  requireInitialized w
  requireNotPaused w
  requireAuth env.toHost call.signed proposer
  let _ ← loadAgent w proposer
  failIf (title = [] ∨ description = []) .emptyMetadata
  let period := if votingPeriodSecs = 0 then defaultVotingPeriodSecs else votingPeriodSecs
  failIf (¬ (minVotingPeriodSecs ≤ period ∧ period ≤ maxVotingPeriodSecs)) .invalidVotingPeriod
  failIf (maxCalldataLen < payload.calldata.length) .calldataTooLarge
  let hash := calldataHash env payload.calldata
  failIf (payload.expectedHash.any (fun expected => decide (expected ≠ hash)) = true)
    .payloadHashMismatch
  let target ← resolveTarget env proposalType payload.target w
  let snapshot := w.totalPower
  failIf (snapshot ≤ 0) .zeroVotingPower
  let id ← orTrap (checked64 (w.proposalCount + 1))
  let proposal : Proposal Addr Sym :=
    { id := id
      proposer := proposer
      proposalType := proposalType
      title := title
      description := description
      createdAt := w.now
      votingEndsAt := satAdd64 w.now period
      status := .active
      forPower := 0
      againstPower := 0
      abstainPower := 0
      totalPowerSnapshot := snapshot
      target := target
      function := payload.function
      calldata := payload.calldata
      expectedHash := some hash }
  pure { w with proposals := w.proposals.set id proposal, proposalCount := id }

def Proposal.tally (proposal : Proposal Addr Sym) (choice : VoteChoice) (weight : Int) :
    Proposal Addr Sym :=
  match choice with
  | .for_ => { proposal with forPower := satAdd128 proposal.forPower weight }
  | .against => { proposal with againstPower := satAdd128 proposal.againstPower weight }
  | .abstain => { proposal with abstainPower := satAdd128 proposal.abstainPower weight }

def voteOnProposal (proposalId : Nat) (voter : Addr) (choice : VoteChoice)
    (w : World Addr Sym) : Outcome Error (World Addr Sym) := do
  requireInitialized w
  requireNotPaused w
  requireAuth env.toHost call.signed voter
  let _ ← loadAgent w voter
  let proposal ← okOr (w.proposals.get proposalId) .notFound
  failIf (proposal.status ≠ .active) .proposalNotActive
  failIf (proposal.votingEndsAt ≤ w.now) .votingPeriodEnded
  failIf (w.votes.has (proposalId, voter) = true) .alreadyVoted
  let weight := powerAt w voter proposal.createdAt
  failIf (weight ≤ 0) .noSnapshotPower
  let record : VoteRecord Addr :=
    { proposalId := proposalId, voter := voter, choice := choice, weight := weight }
  pure { w with
    votes := w.votes.set (proposalId, voter) record
    proposals := w.proposals.set proposalId (proposal.tally choice weight) }

/-- The quorum check of `queue_proposal`. -/
def quorumMet (proposal : Proposal Addr Sym) : Bool :=
  let castPower := satAdd128 (satAdd128 proposal.forPower proposal.againstPower)
    proposal.abstainPower
  decide (0 < proposal.totalPowerSnapshot ∧
    satMul128 proposal.totalPowerSnapshot quorumBps ≤ satMul128 castPower bpsDenominator)

/-- The majority check of `queue_proposal`. -/
def majorityMet (proposal : Proposal Addr Sym) : Bool :=
  let decisivePower := satAdd128 proposal.forPower proposal.againstPower
  decide (0 < decisivePower ∧
    satMul128 decisivePower majorityBps < satMul128 proposal.forPower bpsDenominator)

def queueProposal (proposalId : Nat) (w : World Addr Sym) :
    Outcome Error (World Addr Sym) := do
  requireInitialized w
  let proposal ← okOr (w.proposals.get proposalId) .notFound
  failIf (proposal.status ≠ .active) .proposalFinalized
  failIf (w.now < proposal.votingEndsAt) .votingPeriodActive
  if (quorumMet proposal && majorityMet proposal) = true then
    let queued : QueuedProposal :=
      { proposalId := proposalId
        passedAt := w.now
        canExecuteAt := satAdd64 w.now proposalTimelockSecs }
    pure { w with
      queued := w.queued.set proposalId queued
      proposals := w.proposals.set proposalId { proposal with status := .queued } }
  else
    pure { w with proposals := w.proposals.set proposalId { proposal with status := .failed } }

/-- The call of a payload, if the proposal has a target: was it made, and did it succeed? -/
def invokePayload (proposal : Proposal Addr Sym) :
    Outcome Error (List (Invocation Addr Sym) × Bool) :=
  match proposal.target with
  | some target => do
    let hash := calldataHash env proposal.calldata
    failIf (proposal.expectedHash ≠ some hash) .payloadHashMismatch
    pure ([⟨proposal.id, target, proposal.function, proposal.calldata⟩],
      call.invokeTarget target proposal.function proposal.calldata)
  | none => pure ([], true)

def executeProposal (proposalId : Nat) (w : World Addr Sym) :
    Outcome Error (World Addr Sym) := do
  requireInitialized w
  let queued ← okOr (w.queued.get proposalId) .notFound
  failIf (w.now < queued.canExecuteAt) .votingPeriodActive
  let proposal ← okOr (w.proposals.get proposalId) .notFound
  failIf (proposal.status ≠ .queued) .proposalFinalized
  let (invoked, passed) ← invokePayload env call proposal
  let status := if passed = true then ProposalStatus.executed else ProposalStatus.failed
  pure { w with
    proposals := w.proposals.set proposalId { proposal with status := status }
    queued := w.queued.remove proposalId
    invocations := w.invocations ++ invoked }

def cancelProposal (proposalId : Nat) (w : World Addr Sym) :
    Outcome Error (World Addr Sym) := do
  let _ ← requireAdmin env call w
  failIf (w.queued.has proposalId = false) .notFound
  pure { w with
    queued := w.queued.remove proposalId
    proposals := w.proposals.adjust proposalId fun proposal => { proposal with status := .failed } }

/-! ## The contract as a transition system -/

/-- The state-changing entry points and their arguments. -/
inductive Op (Addr Sym : Type) where
  | initializeContract (admin : Addr)
  | setAdmin (newAdmin : Addr)
  | pause
  | unpause
  | setParamRegistry (registry : Addr)
  | setAgentRegistry (registry : Addr)
  | registerAgent (agent : Addr) (reputation : Nat) (stake : Int)
  | updateAgent (agent : Addr) (reputation : Nat) (stake : Int)
  | removeAgent (agent : Addr)
  | createProposal (proposer : Addr) (proposalType : ProposalType)
      (title description : List UInt8) (votingPeriodSecs : Nat)
      (payload : ExecutionPayload Addr Sym)
  | voteOnProposal (proposalId : Nat) (voter : Addr) (choice : VoteChoice)
  | queueProposal (proposalId : Nat)
  | executeProposal (proposalId : Nat)
  | cancelProposal (proposalId : Nat)

/-- One call of an entry point. -/
def exec : Op Addr Sym → World Addr Sym → Outcome Error (World Addr Sym)
  | .initializeContract admin => initializeContract env call admin
  | .setAdmin newAdmin => setAdmin env call newAdmin
  | .pause => pause env call
  | .unpause => unpause env call
  | .setParamRegistry registry => setParamRegistry env call registry
  | .setAgentRegistry registry => setAgentRegistry env call registry
  | .registerAgent agent reputation stake => registerAgent env call agent reputation stake
  | .updateAgent agent reputation stake => updateAgent env call agent reputation stake
  | .removeAgent agent => removeAgent env call agent
  | .createProposal proposer proposalType title description votingPeriodSecs payload =>
    createProposal env call proposer proposalType title description votingPeriodSecs payload
  | .voteOnProposal proposalId voter choice => voteOnProposal env call proposalId voter choice
  | .queueProposal proposalId => queueProposal proposalId
  | .executeProposal proposalId => executeProposal env call proposalId
  | .cancelProposal proposalId => cancelProposal env call proposalId

/-- What can happen in a run. -/
inductive Event (Addr Sym : Type) where
  /-- A ledger closes; calls from now on see this timestamp. -/
  | close (timestamp : Nat)
  /-- A call of the contract. -/
  | invoke (call : Call Addr Sym) (op : Op Addr Sym)

/-- The contract among its callers, as deployed at any time. -/
def system : System (World Addr Sym) (Event Addr Sym) where
  start w := ∃ now, w = World.init now
  step w
    | .close timestamp => some { w with now := timestamp }
    | .invoke call op => (exec env call op w).toOption

theorem start_init (env : Env Addr Sym) (now : Nat) :
    (system env).start (World.init now) := ⟨now, rfl⟩

theorem step_invoke {env : Env Addr Sym} {w w' : World Addr Sym}
    {call : Call Addr Sym} {op : Op Addr Sym} :
    (system env).step w (.invoke call op) = some w' ↔ exec env call op w = .ok w' :=
  toOption_eq_some

theorem step_close {env : Env Addr Sym} {w w' : World Addr Sym} {timestamp : Nat} :
    (system env).step w (.close timestamp) = some w' ↔ { w with now := timestamp } = w' := by
  unfold system
  exact Option.some_inj

/-- Ledgers close in order. -/
def ClockMonotone (w : World Addr Sym) : Event Addr Sym → Prop
  | .close timestamp => w.now ≤ timestamp
  | .invoke _ _ => True

instance (w : World Addr Sym) (e : Event Addr Sym) : Decidable (ClockMonotone w e) :=
  match e with
  | .close timestamp => inferInstanceAs (Decidable (w.now ≤ timestamp))
  | .invoke _ _ => .isTrue trivial

/-! ## A deployment to run

Addresses are numbers, the contract is `0`, the admin is `1`, and every other number is the address
of a contract. No registry is set, and every target returns. -/

namespace Sample

def deployment : Env Nat Nat where
  self := 0
  sha256 := BytesN.pad 32
  xdr :=
    { string := id
      address := fun _ => []
      symbol := fun _ => []
      i128 := fun _ => []
      bytes := id }
  strkey := fun _ => List.replicate 56 'C'.toUInt8
  symbolNew := String.length

def signed (signer : Nat) (op : Op Nat Nat) : Event Nat Nat :=
  .invoke ⟨fun a => a == signer, fun _ _ => .returned, fun _ _ _ => true⟩ op

/-- The admin sets the contract up. -/
def installed : List (Event Nat Nat) := [signed 1 (.initializeContract 1)]

/-- An agent without reputation declares its stake. -/
def enrol (agent : Nat) (stake : Int) : Event Nat Nat := signed agent (.registerAgent agent 0 stake)

/-- An agent proposes to call function `8` of contract `9`. -/
def propose (proposer : Nat) : Event Nat Nat :=
  signed proposer (.createProposal proposer .protocolUpgrade [1] [1] 3600 ⟨some 9, 8, [7], none⟩)

def vote (proposalId voter : Nat) (choice : VoteChoice) : Event Nat Nat :=
  signed voter (.voteOnProposal proposalId voter choice)

end Sample

end AiNet.AgentGovernance
