import AiNet.Core.Host
import AiNet.Core.Machine
import AiNet.Core.Storage
import AiNet.Core.Transition

/-!
# Dispute types

The records of `dispute_resolution/src/types.rs` and the error codes of `errors.rs`. A
dispute is named by the task it is about. Votes are stored per round: the first round
and the round after an appeal use different keys, and the arbiters' votes a third kind.

Events and rent extension are left out: nothing reads them back.
-/

namespace AiNet.DisputeResolution

open Core

/-! ## Constants, with the source's values (seconds, bytes) -/

def evidencePhase : Nat := 48 * 60 * 60
def votingPhase : Nat := 72 * 60 * 60
def appealPhase : Nat := 24 * 60 * 60
def maxVoters : Nat := 50
def maxEvidencePerDispute : Nat := 20
def minimumVotes : Nat := 3
def requiredArbiterVotes : Nat := 2
def arbiterPoolSize : Nat := 3
def maxReasonBytes : Nat := 512
def minimumReputation : Nat := 3
def slashPercentage : Nat := 50
def slashReason : String := "verified dispute upheld"

/-- The error codes the modelled functions return. -/
inductive Error where
  | notFound | unauthorized | alreadyExists | contractPaused | disputeAlreadyResolved
  | disputeExpired | alreadyVoted | notEligibleVoter | invalidPhase | noVotersAvailable
  | invalidReason | invalidReputation | invalidAmount | invalidVoterPool | evidenceLimitReached
  | appealExpired | appealAlreadyFiled | votingStillOpen | notResolved
  deriving DecidableEq

/-! ## Records -/

inductive DisputeStatus where
  | filed
  | evidencePhase
  | voting
  | resolved
  | appealPending
  deriving DecidableEq

inductive VoteSide where
  | supportFiler
  | supportAgent
  deriving DecidableEq

inductive DisputeOutcome where
  | supportFiler
  | supportAgent
  | tie
  deriving DecidableEq

structure Dispute (Addr Sym : Type) where
  taskId : Sym
  filer : Addr
  agentId : Addr
  registryAddress : Addr
  registryAgentId : Sym
  reason : List UInt8
  status : DisputeStatus
  filedAt : Nat
  evidenceDeadline : Nat
  votingDeadline : Nat
  voters : List Addr
  /-- Meant to be the code of the outcome, once there is one. -/
  resolution : Option Nat
  appealDeadline : Option Nat
  appealed : Bool
  filerVotes : Nat
  agentVotes : Nat
  bondSlashed : Int
  filerRefund : Int
  agentPayment : Int
  deriving DecidableEq

structure Evidence (Addr Sym : Type) where
  disputeId : Sym
  evidenceId : Nat
  submitter : Addr
  evidenceHash : BytesN 32
  submittedAt : Nat
  deriving DecidableEq

structure Vote (Addr Sym : Type) where
  disputeId : Sym
  voter : Addr
  ruling : VoteSide
  votedAt : Nat
  deriving DecidableEq

/-- The keys votes are stored under. -/
inductive VoteKey (Addr Sym : Type) where
  | vote (disputeId : Sym) (voter : Addr)
  | appealVote (disputeId : Sym) (voter : Addr)
  | arbiterVote (disputeId : Sym) (arbiter : Addr)
  deriving DecidableEq

/-- The contract's storage, the ledger's clock and the state of the agent registries. -/
structure World (Addr Sym ρ : Type) where
  /-- `env.ledger().timestamp()`. -/
  now : Nat
  admin : Option Addr
  paused : Bool
  activeVoters : List Addr
  agentRegistry : Option Addr
  arbiterPool : Option (List Addr)
  disputes : Storage Sym (Dispute Addr Sym)
  evidence : Storage (Sym × Nat) (Evidence Addr Sym)
  evidenceCount : Storage Sym Nat
  votes : Storage (VoteKey Addr Sym) (Vote Addr Sym)
  voteRound : Storage Sym Nat
  voterReputation : Storage Addr Nat
  agentReputation : Storage Addr Nat
  filerReputation : Storage Addr Nat
  agentBond : Storage Addr Int
  agentRegistryId : Storage Addr Sym
  taskEscrow : Storage Sym Int
  registry : ρ

/-- The contract as deployed, before any call. -/
def World.init {Addr Sym ρ : Type} (now : Nat) (registry : ρ) : World Addr Sym ρ where
  now := now
  admin := none
  paused := false
  activeVoters := []
  agentRegistry := none
  arbiterPool := none
  disputes := ∅
  evidence := ∅
  evidenceCount := ∅
  votes := ∅
  voteRound := ∅
  voterReputation := ∅
  agentReputation := ∅
  filerReputation := ∅
  agentBond := ∅
  agentRegistryId := ∅
  taskEscrow := ∅
  registry := registry

/-!
## The entry points of `dispute_resolution`

Each function of `dispute_resolution/src/lib.rs` that reads or writes the contract's
state, in the source's order of checks. The agent registry that holds the bonds is
another contract; the three calls made to it are the interface `Registry`.
-/

variable {Addr Sym ρ : Type} [DecidableEq Addr] [DecidableEq Sym]

/-- `AgentRegistryInterface`: calls of the registry at an address, by a caller; `none` for a trap. -/
structure Registry (Addr Sym ρ : Type) where
  lockBondForDispute : ρ → Addr → Addr → Sym → Option ρ
  releaseBondAfterDispute : ρ → Addr → Addr → Sym → Option ρ
  /-- Returns the amount slashed. -/
  slashBondFromDispute : ρ → Addr → Addr → Sym → Nat → String → Option (ρ × Int)

/-- What is fixed for a deployment: the host and the registry contracts. -/
structure Env (Addr Sym ρ : Type) extends Host Addr Sym where
  registry : Registry Addr Sym ρ

variable (env : Env Addr Sym ρ) (signed : Addr → Bool)

/-! ## Helpers -/

def requireAdmin (w : World Addr Sym ρ) : Outcome Error Addr := do
  let admin ← okOr w.admin .unauthorized
  requireAuth env.toHost signed admin
  pure admin

def requireNotPaused (w : World Addr Sym ρ) : Outcome Error Unit :=
  failIf (w.paused = true) .contractPaused

def loadDispute (w : World Addr Sym ρ) (disputeId : Sym) :
    Outcome Error (Dispute Addr Sym) :=
  okOr (w.disputes.get disputeId) .notFound

def saveDispute (w : World Addr Sym ρ) (dispute : Dispute Addr Sym) :
    World Addr Sym ρ :=
  { w with disputes := w.disputes.set dispute.taskId dispute }

def startVoting (w : World Addr Sym ρ) (dispute : Dispute Addr Sym) :
    World Addr Sym ρ × Dispute Addr Sym :=
  if dispute.status ≠ .voting then
    let dispute := { dispute with status := .voting }
    (saveDispute w dispute, dispute)
  else (w, dispute)

def currentVoteKey (w : World Addr Sym ρ) (disputeId : Sym) (voter : Addr) :
    VoteKey Addr Sym :=
  if (w.voteRound.get disputeId).getD 0 = 0 then .vote disputeId voter
  else .appealVote disputeId voter

/-- The loop that counts votes, for the filer and for the agent. -/
def tally (vote : Addr → Option (Vote Addr Sym)) (voters : List Addr) : Nat × Nat :=
  voters.foldl
    (fun votes voter =>
      match (vote voter).map Vote.ruling with
      | some .supportFiler => (votes.1 + 1, votes.2)
      | some .supportAgent => (votes.1, votes.2 + 1)
      | none => votes)
    (0, 0)

def applyFinalRuling (w : World Addr Sym ρ) (dispute : Dispute Addr Sym)
    (outcome : DisputeOutcome) : Outcome Error (World Addr Sym ρ) := do
  let (w, dispute) ←
    if outcome = .supportFiler then do
      let cachedBond := (w.agentBond.get dispute.agentId).getD 0
      let (registry, slashed) ← orTrap (env.registry.slashBondFromDispute w.registry
        dispute.registryAddress env.self dispute.registryAgentId slashPercentage slashReason)
      let reputation := (w.agentReputation.get dispute.agentId).getD 0
      pure
        ({ w with
            registry := registry
            agentBond := w.agentBond.set dispute.agentId (satSub128 cachedBond slashed)
            agentReputation := w.agentReputation.set dispute.agentId (reputation - 1)
            voterReputation := w.voterReputation.set dispute.agentId (reputation - 1) },
          { dispute with bondSlashed := slashed })
    else do
      let registry ← orTrap (env.registry.releaseBondAfterDispute w.registry
        dispute.registryAddress env.self dispute.registryAgentId)
      pure ({ w with registry := registry }, dispute)
  let w :=
    if outcome = .supportAgent then
      let reputation := (w.filerReputation.get dispute.filer).getD 0
      { w with
        filerReputation := w.filerReputation.set dispute.filer (reputation - 1)
        voterReputation := w.voterReputation.set dispute.filer (reputation - 1) }
    else w
  pure (saveDispute w { dispute with status := .resolved })

/-! ## Administration -/

def initializeContract (admin : Addr) (w : World Addr Sym ρ) :
    Outcome Error (World Addr Sym ρ) := do
  requireAuth env.toHost signed admin
  failIf (w.admin.isSome = true) .alreadyExists
  pure { w with admin := some admin, paused := false }

def setAdmin (newAdmin : Addr) (w : World Addr Sym ρ) :
    Outcome Error (World Addr Sym ρ) := do
  requireNotPaused w
  let _ ← requireAdmin env signed w
  requireAuth env.toHost signed newAdmin
  pure { w with admin := some newAdmin }

def pause (w : World Addr Sym ρ) : Outcome Error (World Addr Sym ρ) := do
  let _ ← requireAdmin env signed w
  pure { w with paused := true }

def unpause (w : World Addr Sym ρ) : Outcome Error (World Addr Sym ρ) := do
  let _ ← requireAdmin env signed w
  pure { w with paused := false }

def setVoters (voters : List Addr) (w : World Addr Sym ρ) :
    Outcome Error (World Addr Sym ρ) := do
  requireNotPaused w
  let _ ← requireAdmin env signed w
  failIf (voters = [] ∨ maxVoters < voters.length) .invalidVoterPool
  failIf (hasDuplicate voters = true) .invalidVoterPool
  pure { w with activeVoters := voters }

def setReputation (account : Addr) (reputation : Nat) (w : World Addr Sym ρ) :
    Outcome Error (World Addr Sym ρ) := do
  requireNotPaused w
  let _ ← requireAdmin env signed w
  failIf (100 < reputation) .invalidReputation
  pure { w with
    voterReputation := w.voterReputation.set account reputation
    agentReputation := w.agentReputation.set account reputation
    filerReputation := w.filerReputation.set account reputation }

def setAgentBond (agentId : Addr) (bondAmount : Int) (w : World Addr Sym ρ) :
    Outcome Error (World Addr Sym ρ) := do
  requireNotPaused w
  let _ ← requireAdmin env signed w
  failIf (bondAmount < 0) .invalidAmount
  pure { w with agentBond := w.agentBond.set agentId bondAmount }

def setAgentRegistry (registry : Addr) (w : World Addr Sym ρ) :
    Outcome Error (World Addr Sym ρ) := do
  requireNotPaused w
  let _ ← requireAdmin env signed w
  pure { w with agentRegistry := some registry }

def setArbiterPool (arbiters : List Addr) (w : World Addr Sym ρ) :
    Outcome Error (World Addr Sym ρ) := do
  requireNotPaused w
  let _ ← requireAdmin env signed w
  failIf (arbiters.length ≠ arbiterPoolSize) .invalidVoterPool
  failIf (hasDuplicate arbiters = true) .invalidVoterPool
  pure { w with arbiterPool := some arbiters }

def setAgentRegistryId (agent : Addr) (registryAgentId : Sym) (w : World Addr Sym ρ) :
    Outcome Error (World Addr Sym ρ) := do
  requireNotPaused w
  let _ ← requireAdmin env signed w
  pure { w with agentRegistryId := w.agentRegistryId.set agent registryAgentId }

def setTaskEscrow (taskId : Sym) (amount : Int) (w : World Addr Sym ρ) :
    Outcome Error (World Addr Sym ρ) := do
  requireNotPaused w
  let _ ← requireAdmin env signed w
  failIf (amount < 0) .invalidAmount
  failIf (w.disputes.has taskId = true) .alreadyExists
  pure { w with taskEscrow := w.taskEscrow.set taskId amount }

/-! ## The dispute -/

def fileDispute (taskId : Sym) (filer agentId : Addr) (reason : List UInt8)
    (w : World Addr Sym ρ) : Outcome Error (World Addr Sym ρ) := do
  requireNotPaused w
  requireAuth env.toHost signed filer
  failIf (reason = [] ∨ maxReasonBytes < reason.length) .invalidReason
  failIf (w.disputes.has taskId = true) .alreadyExists
  let voters := w.activeVoters
  failIf (voters.length < minimumVotes) .noVotersAvailable
  let registryAddress ← okOr w.agentRegistry .unauthorized
  let registryAgentId ← okOr (w.agentRegistryId.get agentId) .unauthorized
  let registry ← orTrap (env.registry.lockBondForDispute w.registry registryAddress env.self
    registryAgentId)
  let evidenceDeadline := satAdd64 w.now evidencePhase
  let dispute : Dispute Addr Sym :=
    { taskId := taskId
      filer := filer
      agentId := agentId
      registryAddress := registryAddress
      registryAgentId := registryAgentId
      reason := reason
      status := .evidencePhase
      filedAt := w.now
      evidenceDeadline := evidenceDeadline
      votingDeadline := satAdd64 evidenceDeadline votingPhase
      voters := voters
      resolution := none
      appealDeadline := none
      appealed := false
      filerVotes := 0
      agentVotes := 0
      bondSlashed := 0
      filerRefund := 0
      agentPayment := 0 }
  let w := saveDispute { w with registry := registry } dispute
  pure { w with evidenceCount := w.evidenceCount.set taskId 0 }

def submitEvidence (disputeId : Sym) (submitter : Addr) (evidenceHash : BytesN 32)
    (w : World Addr Sym ρ) : Outcome Error (World Addr Sym ρ) := do
  requireNotPaused w
  requireAuth env.toHost signed submitter
  let dispute ← loadDispute w disputeId
  failIf (dispute.evidenceDeadline ≤ w.now ∨ dispute.status = .resolved) .disputeExpired
  failIf (submitter ≠ dispute.filer ∧ submitter ≠ dispute.agentId) .unauthorized
  let evidenceId := (w.evidenceCount.get disputeId).getD 0
  failIf (maxEvidencePerDispute ≤ evidenceId) .evidenceLimitReached
  let evidence : Evidence Addr Sym :=
    { disputeId := disputeId
      evidenceId := evidenceId
      submitter := submitter
      evidenceHash := evidenceHash
      submittedAt := w.now }
  let w := { w with
    evidence := w.evidence.set (disputeId, evidenceId) evidence
    evidenceCount := w.evidenceCount.set disputeId (satAdd32 evidenceId 1) }
  if dispute.status = .filed then
    pure (saveDispute w { dispute with status := .evidencePhase })
  else
    pure w

/-- The checks both kinds of votes make before looking at the voter's earlier vote. -/
def requireVotingOpen (w : World Addr Sym ρ) (dispute : Dispute Addr Sym) :
    Outcome Error Unit := do
  failIf (dispute.status = .resolved) .disputeAlreadyResolved
  failIf (w.now < dispute.evidenceDeadline) .invalidPhase
  failIf (dispute.votingDeadline ≤ w.now) .disputeExpired

def vote (disputeId : Sym) (voter : Addr) (ruling : VoteSide) (w : World Addr Sym ρ) :
    Outcome Error (World Addr Sym ρ) := do
  requireNotPaused w
  requireAuth env.toHost signed voter
  let dispute ← loadDispute w disputeId
  requireVotingOpen w dispute
  failIf (voter ∉ dispute.voters ∨ (w.voterReputation.get voter).getD 0 < minimumReputation)
    .notEligibleVoter
  let voteKey := currentVoteKey w disputeId voter
  failIf (w.votes.has voteKey = true) .alreadyVoted
  let (w, _) := startVoting w dispute
  let vote : Vote Addr Sym :=
    { disputeId := disputeId
      voter := voter
      ruling := ruling
      votedAt := w.now }
  pure { w with votes := w.votes.set voteKey vote }

def voteAsArbiter (disputeId : Sym) (arbiter : Addr) (ruling : VoteSide)
    (w : World Addr Sym ρ) : Outcome Error (World Addr Sym ρ) := do
  requireNotPaused w
  requireAuth env.toHost signed arbiter
  let dispute ← loadDispute w disputeId
  let arbiterPool ← okOr w.arbiterPool .noVotersAvailable
  failIf (arbiter ∉ arbiterPool) .notEligibleVoter
  requireVotingOpen w dispute
  let voteKey := VoteKey.arbiterVote disputeId arbiter
  failIf (w.votes.has voteKey = true) .alreadyVoted
  let (w, dispute) := startVoting w dispute
  let vote : Vote Addr Sym :=
    { disputeId := disputeId
      voter := arbiter
      ruling := ruling
      votedAt := w.now }
  let w := { w with votes := w.votes.set voteKey vote }
  let (filerVotes, agentVotes) := tally (fun a => w.votes.get (.arbiterVote disputeId a)) arbiterPool
  if requiredArbiterVotes ≤ filerVotes ∨ requiredArbiterVotes ≤ agentVotes then
    let outcome : DisputeOutcome :=
      if requiredArbiterVotes ≤ filerVotes then .supportFiler else .supportAgent
    applyFinalRuling env w dispute outcome
  else
    pure w

/-- The outcome of a count, and the amounts it proposes. -/
def propose (w : World Addr Sym ρ) (dispute : Dispute Addr Sym)
    (filerVotes agentVotes : Nat) : DisputeOutcome × Dispute Addr Sym :=
  let escrow := (w.taskEscrow.get dispute.taskId).getD 0
  if filerVotes + agentVotes < minimumVotes ∨ filerVotes = agentVotes then
    (.tie,
      { dispute with
        filerRefund := escrow.tdiv 2
        agentPayment := escrow - escrow.tdiv 2 })
  else if agentVotes < filerVotes then
    let bond := (w.agentBond.get dispute.agentId).getD 0
    (.supportFiler,
      { dispute with
        filerRefund := escrow
        bondSlashed := bond.tdiv 2 })
  else
    (.supportAgent, { dispute with agentPayment := escrow })

/-- `resolve`: anybody may call it, and it works while the contract is paused. -/
def resolve (disputeId : Sym) (w : World Addr Sym ρ) :
    Outcome Error (DisputeOutcome × World Addr Sym ρ) := do
  let dispute ← loadDispute w disputeId
  failIf (dispute.status = .resolved) .disputeAlreadyResolved
  failIf (dispute.status = .appealPending) .invalidPhase
  failIf (w.now < dispute.votingDeadline) .votingStillOpen
  let (w, dispute) := startVoting w dispute
  let (filerVotes, agentVotes) :=
    tally (fun voter => w.votes.get (currentVoteKey w disputeId voter)) dispute.voters
  let (outcome, dispute) := propose w dispute filerVotes agentVotes
  if (w.voteRound.get disputeId).getD 0 = 0 then
    -- the outcome is returned and published, but no field of the dispute keeps it
    pure (outcome, saveDispute w
      { dispute with
        status := .appealPending
        appealDeadline := some (satAdd64 w.now appealPhase) })
  else do
    let w ← applyFinalRuling env w dispute outcome
    pure (outcome, w)

def appealDispute (disputeId : Sym) (appellant : Addr) (w : World Addr Sym ρ) :
    Outcome Error (World Addr Sym ρ) := do
  requireNotPaused w
  requireAuth env.toHost signed appellant
  let dispute ← loadDispute w disputeId
  failIf (dispute.status = .resolved) .disputeAlreadyResolved
  failIf (dispute.status ≠ .appealPending) .notResolved
  failIf (dispute.appealed = true) .appealAlreadyFiled
  let deadline ← okOr dispute.appealDeadline .appealExpired
  failIf (deadline ≤ w.now) .appealExpired
  let losingParty ← okOr
    (match dispute.resolution with
      | some 0 => some dispute.agentId
      | some 1 => some dispute.filer
      | _ => none) .unauthorized
  failIf (appellant ≠ losingParty) .unauthorized
  let w := { w with voteRound := w.voteRound.set disputeId 1 }
  pure (saveDispute w
    { dispute with
      status := .voting
      appealed := true
      evidenceDeadline := w.now
      votingDeadline := satAdd64 w.now votingPhase
      resolution := none
      filerVotes := 0
      agentVotes := 0
      bondSlashed := 0
      filerRefund := 0
      agentPayment := 0 })

def finalizeDispute (disputeId : Sym) (w : World Addr Sym ρ) :
    Outcome Error (World Addr Sym ρ) := do
  let dispute ← loadDispute w disputeId
  failIf (dispute.status ≠ .appealPending) .invalidPhase
  failIf (dispute.appealed = true) .invalidPhase
  let deadline ← okOr dispute.appealDeadline .appealExpired
  failIf (w.now < deadline) .invalidPhase
  let outcome ← okOr
    (match dispute.resolution with
      | some 0 => some DisputeOutcome.supportFiler
      | some 1 => some .supportAgent
      | some 2 => some .tie
      | _ => none) .invalidPhase
  applyFinalRuling env w dispute outcome

/-! ## The contract as a transition system -/

/-- The entry points and their arguments. -/
inductive Op (Addr Sym : Type) where
  | initializeContract (admin : Addr)
  | setAdmin (newAdmin : Addr)
  | pause
  | unpause
  | setVoters (voters : List Addr)
  | setReputation (account : Addr) (reputation : Nat)
  | setAgentBond (agentId : Addr) (bondAmount : Int)
  | setAgentRegistry (registry : Addr)
  | setArbiterPool (arbiters : List Addr)
  | setAgentRegistryId (agent : Addr) (registryAgentId : Sym)
  | setTaskEscrow (taskId : Sym) (amount : Int)
  | fileDispute (taskId : Sym) (filer agentId : Addr) (reason : List UInt8)
  | submitEvidence (disputeId : Sym) (submitter : Addr) (evidenceHash : BytesN 32)
  | vote (disputeId : Sym) (voter : Addr) (ruling : VoteSide)
  | voteAsArbiter (disputeId : Sym) (arbiter : Addr) (ruling : VoteSide)
  | resolve (disputeId : Sym)
  | appealDispute (disputeId : Sym) (appellant : Addr)
  | finalizeDispute (disputeId : Sym)

/-- One call of an entry point. -/
def exec : Op Addr Sym → World Addr Sym ρ → Outcome Error (World Addr Sym ρ)
  | .initializeContract admin => initializeContract env signed admin
  | .setAdmin newAdmin => setAdmin env signed newAdmin
  | .pause => pause env signed
  | .unpause => unpause env signed
  | .setVoters voters => setVoters env signed voters
  | .setReputation account reputation => setReputation env signed account reputation
  | .setAgentBond agentId bondAmount => setAgentBond env signed agentId bondAmount
  | .setAgentRegistry registry => setAgentRegistry env signed registry
  | .setArbiterPool arbiters => setArbiterPool env signed arbiters
  | .setAgentRegistryId agent registryAgentId => setAgentRegistryId env signed agent registryAgentId
  | .setTaskEscrow taskId amount => setTaskEscrow env signed taskId amount
  | .fileDispute taskId filer agentId reason => fileDispute env signed taskId filer agentId reason
  | .submitEvidence disputeId submitter evidenceHash =>
    submitEvidence env signed disputeId submitter evidenceHash
  | .vote disputeId voter ruling => vote env signed disputeId voter ruling
  | .voteAsArbiter disputeId arbiter ruling => voteAsArbiter env signed disputeId arbiter ruling
  | .resolve disputeId => fun w => do
      let (_, w) ← resolve env disputeId w
      pure w
  | .appealDispute disputeId appellant => appealDispute env signed disputeId appellant
  | .finalizeDispute disputeId => finalizeDispute env disputeId

/-- What can happen in a run. -/
inductive Event (Addr Sym ρ : Type) where
  /-- A ledger closes; calls from now on see this timestamp. -/
  | close (timestamp : Nat)
  /-- Anybody else uses the registries. -/
  | external (registry : ρ)
  /-- A call of the contract, with the accounts that signed it. -/
  | invoke (signed : Addr → Bool) (op : Op Addr Sym)

/-- The contract among its callers, as deployed at any time, next to any registries. -/
def system : System (World Addr Sym ρ) (Event Addr Sym ρ) where
  start w := ∃ now registry, w = World.init now registry
  step w
    | .close timestamp => some { w with now := timestamp }
    | .external registry => some { w with registry := registry }
    | .invoke signed op => (exec env signed op w).toOption

theorem start_init (env : Env Addr Sym ρ) (now : Nat) (registry : ρ) :
    (system env).start (World.init now registry) := ⟨now, registry, rfl⟩

theorem step_invoke {env : Env Addr Sym ρ} {w w' : World Addr Sym ρ}
    {signed : Addr → Bool} {op : Op Addr Sym} :
    (system env).step w (.invoke signed op) = some w' ↔ exec env signed op w = .ok w' :=
  toOption_eq_some

/-- The runs whose clock does not go back. -/
def ClockMonotone (w : World Addr Sym ρ) : Event Addr Sym ρ → Prop
  | .close timestamp => w.now ≤ timestamp
  | _ => True

instance (w : World Addr Sym ρ) (e : Event Addr Sym ρ) :
    Decidable (ClockMonotone w e) := by
  cases e <;> unfold ClockMonotone <;> infer_instance

/-! ## A deployment to run examples on -/

namespace Sample

/-- A registry of one bonded agent: its bond, and whether a dispute holds it. -/
structure BondBook where
  bond : Int
  locked : Bool
  deriving DecidableEq

/-- Its calls, as `agent_registry` answers them for an active bond. -/
def registry : Registry Nat Nat BondBook where
  lockBondForDispute book _ _ _ :=
    if book.locked = true ∨ book.bond ≤ 0 then none else some { book with locked := true }
  releaseBondAfterDispute book _ _ _ :=
    if book.locked = true then some { book with locked := false } else none
  slashBondFromDispute book _ _ _ percentage _ :=
    let penalty := (book.bond * percentage).tdiv 100
    if book.locked = true then some (⟨book.bond - penalty, false⟩, penalty) else none

def chain : Env Nat Nat BondBook where
  self := 0
  sha256 := fun _ => BytesN.zero 32
  xdr :=
    { string := id
      address := fun _ => []
      symbol := fun _ => []
      i128 := fun _ => []
      bytes := id }
  registry := registry

def call (signer : Nat) (op : Op Nat Nat) : Event Nat Nat BondBook :=
  .invoke (fun a => a == signer) op

/--
The admin `1` sets up the voters `5`, `6` and `8` and the registry `9`, where the agent `4` is
agent `44`; then `3` files a dispute about task `7` against the agent.
-/
def filed : List (Event Nat Nat BondBook) :=
  [ call 1 (.initializeContract 1), call 1 (.setVoters [5, 6, 8]), call 1 (.setReputation 5 3),
    call 1 (.setReputation 6 3),
    call 1 (.setReputation 8 3),
    call 1 (.setAgentRegistry 9),
    call 1 (.setAgentRegistryId 4 44),
    call 1 (.setAgentBond 4 100),
    call 1 (.setTaskEscrow 7 1000),
    call 3 (.fileDispute 7 3 4 [1]) ]

/-- The three voters rule for the filer, and the voting window closes. -/
def ruled : List (Event Nat Nat BondBook) :=
  filed ++
    [ .close (1000 + evidencePhase), call 5 (.vote 7 5 .supportFiler), call 6 (.vote 7 6 .supportFiler),
      call 8 (.vote 7 8 .supportFiler),
      .close (1000 + evidencePhase + votingPhase) ]

end Sample

end AiNet.DisputeResolution
