import AiNet.AgentRegistry.Administration

/-!
# Registration

Registering agents, one at a time or in a batch, deregistering them, changing a price,
and listing them. The batch path does not call the single one: it checks every record
against the storage as it was, with simulated counters, and writes afterwards.
-/

namespace AiNet.AgentRegistry

open Core

variable {Addr Sym : Type} [DecidableEq Addr] [DecidableEq Sym]
variable (env : Env Addr Sym) (signed : Addr → Bool)

def getCapabilityIndex (w : World Addr Sym) (capability : Sym) : List Sym :=
  (w.capabilityIndex.get capability).getD []

/-- `bond::initialize`. -/
def initializeBond (agent : AgentRecord Addr Sym) (w : World Addr Sym) :
    World Addr Sym :=
  { w with
    bonds := w.bonds.set agent.id
      { owner := agent.owner
        amountStroops := agent.bondAmount
        status := .active
        cooldownUntil := none } }

def registerAgent (record : AgentRecord Addr Sym) (w : World Addr Sym) :
    Outcome Error (World Addr Sym) := do
  requireNotPaused w
  requireNotFrozen w record.id
  requireAuth env.toHost signed record.owner
  validateRecord record
  let config := getStorageConfig w
  let currentTotal := w.totalAgents
  failIf (0 < config.maxAgents ∧ config.maxAgents.toNat ≤ currentTotal) .storageLimitReached
  let capIndex := getCapabilityIndex w record.capability
  failIf (0 < config.maxPerCapability ∧ config.maxPerCapability.toNat ≤ capIndex.length)
    .capabilityLimitReached
  validateRegistrationBond w record
  failIf (w.agents.has record.id = true) .alreadyExists
  let w := initializeBond record { w with
    capabilityIndex := w.capabilityIndex.set record.capability (capIndex ++ [record.id])
    agents := w.agents.set record.id record
    slashedBond := w.slashedBond.remove record.id }
  let seq := w.registrationSequence
  let nextSeq ← orTrap (checked32 (seq + 1))
  let nextTotal ← orTrap (checked32 (currentTotal + 1))
  pure { w with
    agentByIndex := w.agentByIndex.set seq record.id
    registrationSequence := nextSeq
    totalAgents := nextTotal }

/-! ## The batch -/

/-- `is_duplicate_in_batch`: has the id appeared twice up to this index? -/
def isDuplicateInBatch (agents : List (AgentRecord Addr Sym)) (index : Nat) (id : Sym) :
    Bool :=
  1 < ((agents.take (index + 1)).filter fun agent => agent.id = id).length

/-- The owners of a batch, each once, in order of appearance. -/
def uniqueOwners (agents : List (AgentRecord Addr Sym)) : List Addr :=
  agents.foldl
    (fun owners record => if record.owner ∈ owners then owners else owners ++ [record.owner]) []

/-- What the validation phase of a batch keeps beside the storage. -/
structure BatchCounts (Sym : Type) where
  index : Nat
  results : List (BatchResult Sym)
  allOk : Bool
  simTotal : Nat
  existingCapCounts : Storage Sym Nat
  batchCapCounts : Storage Sym Nat

/-- The length of a capability index before the batch, remembered once it is known. -/
def countExisting (w : World Addr Sym) (capability : Sym) (s : BatchCounts Sym) :
    Nat × BatchCounts Sym :=
  match s.existingCapCounts.get capability with
  | some count => (count, s)
  | none =>
    let count := (getCapabilityIndex w capability).length
    (count, { s with existingCapCounts := s.existingCapCounts.set capability count })

/-- The check of the limit per capability, which also counts the record in. -/
def countCapability (w : World Addr Sym) (config : StorageConfig) (capability : Sym)
    (s : BatchCounts Sym) : Outcome Error (Bool × BatchCounts Sym) :=
  if 0 < config.maxPerCapability then do
    let (existingCap, s) := countExisting w capability s
    let batchCapCount := (s.batchCapCounts.get capability).getD 0
    let both ← orTrap (checked32 (existingCap + batchCapCount))
    if config.maxPerCapability.toNat ≤ both then pure (false, s)
    else do
      let next ← orTrap (checked32 (batchCapCount + 1))
      pure (true, { s with batchCapCounts := s.batchCapCounts.set capability next })
  else pure (true, s)

/-- Note an error for the current record. -/
def BatchCounts.reject (s : BatchCounts Sym) (error : Error) : BatchCounts Sym :=
  { s with index := s.index + 1, results := s.results ++ [.err error], allOk := false }

/-- One record of the validation phase of `register_agents`. -/
def validateInBatch (w : World Addr Sym) (agents : List (AgentRecord Addr Sym))
    (s : BatchCounts Sym) (record : AgentRecord Addr Sym) :
    Outcome Error (BatchCounts Sym) :=
  match validateRecord record with
  | .error (.error error) => pure (s.reject error)
  | .error .trap => .error .trap
  | .ok _ =>
  match validateRegistrationBond w record with
  | .error (.error error) => pure (s.reject error)
  | .error .trap => .error .trap
  | .ok _ =>
  if isAgentFrozen w record.id = true then pure (s.reject .agentFrozen)
  else if isDuplicateInBatch agents s.index record.id = true then pure (s.reject .duplicateInBatch)
  else if w.agents.has record.id = true then pure (s.reject .alreadyExists)
  else
  let config := getStorageConfig w
  if 0 < config.maxAgents ∧ config.maxAgents.toNat ≤ s.simTotal then pure (s.reject .storageLimitReached)
  else do
    let (hasRoom, s) ← countCapability w config record.capability s
    if hasRoom = false then pure (s.reject .capabilityLimitReached)
    else do
      let simTotal ← orTrap (checked32 (s.simTotal + 1))
      pure { s with
        index := s.index + 1
        results := s.results ++ [.ok record.id]
        simTotal := simTotal }

/-- What the commit phase of a batch collects: the capability indexes are written at its end. -/
structure BatchWrites (Addr Sym : Type) where
  world : World Addr Sym
  seq : Nat
  uniqueCapabilities : List Sym
  updatedCapIndexes : Storage Sym (List Sym)

/-- One record of the commit phase of `register_agents`. -/
def commitInBatch (s : BatchWrites Addr Sym) (record : AgentRecord Addr Sym) :
    Outcome Error (BatchWrites Addr Sym) := do
  let (capIds, uniqueCapabilities) :=
    match s.updatedCapIndexes.get record.capability with
    | some ids => (ids, s.uniqueCapabilities)
    | none =>
      (getCapabilityIndex s.world record.capability, s.uniqueCapabilities ++ [record.capability])
  let seq ← orTrap (checked32 (s.seq + 1))
  pure
    { world := initializeBond record { s.world with
        agents := s.world.agents.set record.id record
        agentByIndex := s.world.agentByIndex.set s.seq record.id
        slashedBond := s.world.slashedBond.remove record.id }
      seq := seq
      uniqueCapabilities := uniqueCapabilities
      updatedCapIndexes := s.updatedCapIndexes.set record.capability (capIds ++ [record.id]) }

def writeCapabilityIndexes (s : BatchWrites Addr Sym) :
    Outcome Error (World Addr Sym) :=
  s.uniqueCapabilities.foldlM
    (fun w capability => do
      let ids ← orTrap (s.updatedCapIndexes.get capability)
      pure { w with capabilityIndex := w.capabilityIndex.set capability ids })
    s.world

/-- `register_agents`: errors are reported per record, and then nothing is written. -/
def registerAgents (agents : List (AgentRecord Addr Sym)) (w : World Addr Sym) :
    Outcome Error (List (BatchResult Sym) × World Addr Sym) :=
  if w.paused = true then pure (agents.map fun _ => .err .contractPaused, w)
  else do
    (uniqueOwners agents).forM (requireAuth env.toHost signed)
    let counts ← agents.foldlM (validateInBatch w agents) ⟨0, [], true, w.totalAgents, ∅, ∅⟩
    if counts.allOk = false ∨ agents = [] then pure (counts.results, w)
    else do
      let writes ← agents.foldlM commitInBatch ⟨w, w.registrationSequence, [], ∅⟩
      let w ← writeCapabilityIndexes writes
      let total ← orTrap (checked32 (w.totalAgents + agents.length))
      pure (counts.results, { w with registrationSequence := writes.seq, totalAgents := total })

/-! ## Leaving, and changing a price -/

/-- `deregister_agent`: a second call completes the return of the bond that the first began. -/
def deregisterAgent (agentId : Sym) (w : World Addr Sym) :
    Outcome Error (World Addr Sym) := do
  requireNotPaused w
  failIf (w.disputeBondLock.has agentId = true) .disputePending
  match w.bondCooldown.get agentId with
  | some cr => do
    requireAuth env.toHost signed cr.owner
    failIf (w.sequence < cr.expiryLedger) .cooldownNotElapsed
    let payouts :=
      if 0 < cr.bondAmount then
        w.payouts ++ [(⟨agentId, cr.owner, cr.bondAmount⟩ : Payout Addr Sym)]
      else w.payouts
    pure { w with
      bondCooldown := w.bondCooldown.remove agentId
      payouts := payouts
      bonds := w.bonds.adjust agentId fun bondRecord =>
        { bondRecord with amountStroops := 0, status := .returned, cooldownUntil := none } }
  | none => do
    let record ← okOr (w.agents.get agentId) .notFound
    requireAuth env.toHost signed record.owner
    let ids := getCapabilityIndex w record.capability
    let updated := ids.filter fun id => id ≠ agentId
    let expiryLedger ← orTrap (checked32 (w.sequence + bondCooldownLedgers))
    let bond ← loadBond w agentId
    pure { w with
      capabilityIndex := w.capabilityIndex.set record.capability updated
      agents := w.agents.remove agentId
      totalAgents := w.totalAgents - 1
      bondCooldown := w.bondCooldown.set agentId ⟨expiryLedger, record.owner, record.bondAmount⟩
      bonds := w.bonds.set agentId
        { bond with status := .cooldown, cooldownUntil := some expiryLedger } }

def updatePricing (agentId : Sym) (newPrice : Int) (w : World Addr Sym) :
    Outcome Error (World Addr Sym) := do
  requireNotPaused w
  requireNotFrozen w agentId
  failIf (newPrice ≤ 0) .invalidPrice
  let record ← okOr (w.agents.get agentId) .notFound
  requireAuth env.toHost signed record.owner
  pure { w with agents := w.agents.set agentId { record with priceStroops := newPrice } }

/-! ## Listing -/

/-- The loop of `get_agents`, for `fuel` more slots: the records found and where it stopped. -/
def collectAgents (w : World Addr Sym) (limit : Nat) :
    Nat → Nat → List (AgentRecord Addr Sym) → List (AgentRecord Addr Sym) × Nat
  | 0, idx, agents => (agents, idx)
  | fuel + 1, idx, agents =>
    if agents.length < limit then
      let found := (w.agentByIndex.get idx).bind fun agentId => w.agents.get agentId
      collectAgents w limit fuel (idx + 1) (agents ++ found.toList)
    else (agents, idx)

/-- The number of agents a page holds at most. -/
def effectiveLimit (limit : Option Nat) : Nat :=
  let requested := limit.getD defaultPageSize
  if requested = 0 then defaultPageSize
  else if maxPageSize < requested then maxPageSize
  else requested

def getAgents (w : World Addr Sym) (cursor limit : Option Nat) : AgentPage Addr Sym :=
  let total := w.registrationSequence
  let start := cursor.getD 0
  -- the loop runs while the index is below `total`, so at most that many times
  let (agents, idx) := collectAgents w (effectiveLimit limit) (total - start) start []
  { agents := agents
    nextCursor := if idx < total then some idx else none
    totalCount := w.totalAgents }

/-- The entry points of this module that write, and their arguments. -/
inductive RegistrationOp (Addr Sym : Type) where
  | registerAgent (record : AgentRecord Addr Sym)
  | registerAgents (agents : List (AgentRecord Addr Sym))
  | deregisterAgent (agentId : Sym)
  | updatePricing (agentId : Sym) (newPrice : Int)

def execRegistration : RegistrationOp Addr Sym → World Addr Sym → Outcome Error (World Addr Sym)
  | .registerAgent record => registerAgent env signed record
  | .registerAgents agents => fun w => do
      let (_, w) ← registerAgents env signed agents w
      pure w
  | .deregisterAgent agentId => deregisterAgent env signed agentId
  | .updatePricing agentId newPrice => updatePricing env signed agentId newPrice

end AiNet.AgentRegistry
