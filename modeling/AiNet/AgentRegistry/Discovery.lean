import AiNet.AgentRegistry.Registration
import AiNet.Core.Ranking

/-!
# Discovery and versions

The discovery oracle, which filters, scores and ranks the agents of a capability and
keeps the answer in temporary storage, and the history of an agent's published versions.
-/

namespace AiNet.AgentRegistry

open Core

variable {Addr Sym : Type} [DecidableEq Addr] [DecidableEq Sym]
variable (env : Env Addr Sym) (signed : Addr → Bool)

/-! ## Discovery -/

/-- A conversion `as u32`. -/
def asU32 (x : Int) : Nat := (x % 2 ^ 32).toNat

/-- `get_metadata_u32`: a value that is no `u32` counts as missing. -/
def getMetadataU32 (metadata : Storage Sym Val) (key1 key2 : Sym) (default : Nat) : Nat :=
  match metadata.get key1 with
  | some (.u32 v) => v
  | _ =>
    match metadata.get key2 with
    | some (.u32 v) => v
    | _ => default

/-- An agent that passed the filters, with the figures read from its metadata. -/
structure Candidate (Addr Sym : Type) where
  record : AgentRecord Addr Sym
  reputation : Nat
  availability : Nat
  responseTime : Nat

/-- The filters of `discover_agents`. -/
def candidateOf (w : World Addr Sym) (query : DiscoveryQuery Sym) (id : Sym) :
    Option (Candidate Addr Sym) :=
  if isAgentFrozen w id = true then none
  else
    match w.agents.get id with
    | none => none
    | some record =>
      if 0 < query.maxPrice ∧ query.maxPrice < record.priceStroops then none
      else
        let rep := getMetadataU32 record.metadata env.keys.reputation env.keys.rep 100
        if 0 < query.minReputation ∧ rep < query.minReputation then none
        else
          let respTime := getMetadataU32 record.metadata env.keys.responseTime env.keys.latency 100
          if 0 < query.maxLatency ∧ query.maxLatency < respTime then none
          else
            let avail := getMetadataU32 record.metadata env.keys.availability env.keys.avail 100
            some ⟨record, rep, avail, respTime⟩

def candidates (w : World Addr Sym) (query : DiscoveryQuery Sym) :
    List (Candidate Addr Sym) :=
  (getCapabilityIndex w query.requiredCapability).filterMap (candidateOf env w query)

/-- The score of a price: how far it is below the limit, or below the dearest candidate. -/
def priceScore (query : DiscoveryQuery Sym) (maxCandidatePrice price : Int) :
    Outcome Error Nat :=
  if 0 < query.maxPrice then
    if price ≤ query.maxPrice then do
      let scaled ← orTrap (checked128 (price * 100))
      pure (100 - asU32 (scaled.tdiv query.maxPrice))
    else pure 0
  else if 0 < maxCandidatePrice then do
    let scaled ← orTrap (checked128 (price * 100))
    pure (100 - asU32 (scaled.tdiv maxCandidatePrice))
  else pure 100

def responseScore (query : DiscoveryQuery Sym) (maxCandidateLatency respTime : Nat) : Nat :=
  if 0 < query.maxLatency then
    if respTime ≤ query.maxLatency then 100 - respTime * 100 / query.maxLatency % 2 ^ 32
    else 0
  else if 0 < maxCandidateLatency then 100 - respTime * 100 / maxCandidateLatency % 2 ^ 32
  else 100

def scoreCandidate (query : DiscoveryQuery Sym) (maxCandidatePrice : Int)
    (maxCandidateLatency : Nat) (c : Candidate Addr Sym) :
    Outcome Error (DiscoveryResult Sym) := do
  let repScore := min c.reputation 100
  let availScore := min c.availability 100
  let priceScore ← priceScore query maxCandidatePrice c.record.priceStroops
  let responseScore := responseScore query maxCandidateLatency c.responseTime
  pure
    { agentId := c.record.id
      compositeScore := 30 * repScore + 25 * priceScore + 25 * availScore + 20 * responseScore
      priceStroops := c.record.priceStroops
      reputation := c.reputation
      availability := c.availability
      responseTime := c.responseTime }

/-- The computation of `discover_agents`: filter, score, sort. -/
def computeDiscovery (w : World Addr Sym) (query : DiscoveryQuery Sym) :
    Outcome Error (List (DiscoveryResult Sym)) := do
  let candidates := candidates env w query
  let maxCandidatePrice := (candidates.map fun c => c.record.priceStroops).foldl max 0
  let maxCandidateLatency := (candidates.map Candidate.responseTime).foldl max 0
  let results ← candidates.mapM (scoreCandidate query maxCandidatePrice maxCandidateLatency)
  pure (selectionSort DiscoveryResult.compositeScore results)

/-- The statistics after one more query. -/
def countQuery (stats : DiscoveryStats) (matchesFound cacheHits : Nat) :
    Outcome Error DiscoveryStats := do
  let totalQueries ← orTrap (checked64 (stats.totalQueries + 1))
  let cacheHits ← orTrap (checked64 (stats.cacheHits + cacheHits))
  let totalMatchesFound ← orTrap (checked64 (stats.totalMatchesFound + matchesFound))
  pure ⟨totalQueries, totalMatchesFound, cacheHits⟩

/-- `discover_agents`: anybody may call it. -/
def discoverAgents (query : DiscoveryQuery Sym) (w : World Addr Sym) :
    Outcome Error (List (DiscoveryResult Sym) × World Addr Sym) :=
  match w.discoveryCache.get query with
  | some cachedResults => do
    let stats ← countQuery w.discoveryStats cachedResults.length 1
    pure (cachedResults, { w with discoveryStats := stats })
  | none => do
    let results ← computeDiscovery env w query
    let stats ← countQuery w.discoveryStats results.length 0
    pure (results,
      { w with
        discoveryCache := w.discoveryCache.set query results
        discoveryStats := stats })

/-! ## Versions -/

/-- The state of the parser of a version: the three parts, and where it is. -/
structure VersionParser where
  version : AgentVersion
  partIdx : Nat
  digitSeen : Bool

def VersionParser.digit (s : VersionParser) (digit : Nat) : Outcome Error VersionParser := do
  let append (part : Nat) : Outcome Error Nat := okOr (checked32 (part * 10 + digit)) .invalidVersion
  let version ←
    match s.partIdx with
    | 0 => do
      let major ← append s.version.major
      pure { s.version with major := major }
    | 1 => do
      let minor ← append s.version.minor
      pure { s.version with minor := minor }
    | _ => do
      let patch ← append s.version.patch
      pure { s.version with patch := patch }
  pure { s with version := version, digitSeen := true }

/-- One byte of the loop of `parse_version`. -/
def VersionParser.byte (s : VersionParser) (b : UInt8) : Outcome Error VersionParser :=
  if b = 46 then do
    failIf (s.digitSeen = false ∨ 2 ≤ s.partIdx) .invalidVersion
    pure { s with partIdx := s.partIdx + 1, digitSeen := false }
  else if 48 ≤ b ∧ b ≤ 57 then s.digit (b.toNat - 48)
  else .error (.error .invalidVersion)

/-- `parse_version`, of the bytes of the string. -/
def parseVersion (versionStr : List UInt8) : Outcome Error AgentVersion := do
  failIf (versionStr.length < 5 ∨ 32 < versionStr.length) .invalidVersion
  let s ← versionStr.foldlM VersionParser.byte ⟨⟨0, 0, 0⟩, 0, false⟩
  failIf (s.partIdx ≠ 2 ∨ s.digitSeen = false) .invalidVersion
  pure s.version

def versionLt (a b : AgentVersion) : Bool :=
  if a.major ≠ b.major then a.major < b.major
  else if a.minor ≠ b.minor then a.minor < b.minor
  else a.patch < b.patch

/-- A version as the index stores it. -/
def AgentVersion.triple (v : AgentVersion) : Nat × Nat × Nat := (v.major, v.minor, v.patch)

def versionOf (t : Nat × Nat × Nat) : AgentVersion := ⟨t.1, t.2.1, t.2.2⟩

/-- The versions published for an agent, oldest first. -/
def getVersionIndex (w : World Addr Sym) (agentId : Sym) : List (Nat × Nat × Nat) :=
  (w.versionIndex.get agentId).getD []

def supersedeLatest (w : World Addr Sym) (agentId : Sym) : World Addr Sym :=
  match (getVersionIndex w agentId).getLast? with
  | none => w
  | some latest =>
    match w.versionRecords.get (agentId, latest) with
    | none => w
    | some versioned =>
      { w with
        versionRecords := w.versionRecords.set (agentId, latest)
          { versioned with superseded := true } }

/-- `register_agent_version`: the owner who has to sign is the one in the record passed in. -/
def registerAgentVersion (record : AgentRecord Addr Sym) (versionStr : List UInt8)
    (w : World Addr Sym) : Outcome Error (World Addr Sym) := do
  requireNotPaused w
  requireNotFrozen w record.id
  requireAuth env.toHost signed record.owner
  validateRecord record
  failIf (w.agents.has record.id = false) .notFound
  let newVer ← parseVersion versionStr
  let index := getVersionIndex w record.id
  failIf (index.any (fun existing => versionLt (versionOf existing) newVer = false) = true)
    .alreadyExists
  let w := supersedeLatest w record.id
  let versioned : VersionedAgentRecord Addr Sym :=
    { record := record
      version := newVer
      superseded := false
      publishedAt := w.now }
  pure { w with
    versionRecords := w.versionRecords.set (record.id, newVer.triple) versioned
    versionIndex := w.versionIndex.set record.id (index ++ [newVer.triple]) }

def getAgentVersions (w : World Addr Sym) (agentId : Sym) :
    Outcome Error (List (VersionedAgentRecord Addr Sym)) := do
  let index := getVersionIndex w agentId
  failIf (index = []) .noVersionsFound
  pure (index.filterMap fun t => w.versionRecords.get (agentId, t))

/-- The backward scan of `lookup_agents_versioned`, over the index from its end. -/
def scanVersions (w : World Addr Sym) (agentId : Sym) (constraint : AgentVersion) :
    List (Nat × Nat × Nat) → Bool
  | [] => false
  | t :: older =>
    match w.versionRecords.get (agentId, t) with
    | none => scanVersions w agentId constraint older
    | some vr =>
      if vr.superseded = false then !versionLt vr.version constraint
      else scanVersions w agentId constraint older

def lookupAgentsVersioned (w : World Addr Sym) (capability : Sym)
    (versionConstraint : Option AgentVersion) : List (AgentRecord Addr Sym) :=
  (getCapabilityIndex w capability).filterMap fun id =>
    -- without a constraint every agent passes
    (w.agents.get id).filter fun _ => versionConstraint.all fun constraint =>
      scanVersions w id constraint (getVersionIndex w id).reverse

end AiNet.AgentRegistry
