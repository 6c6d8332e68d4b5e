import AiNet.AgentRegistry.Administration

/-!
# Metrics and reputation

What the registry learns of an agent's work: the task counts and the service level, which
may cost it a part of its bond, and the reputation score, which decays with time. The
decay is applied when the score is read.
-/

namespace AiNet.AgentRegistry

open Core

section

variable {Addr Sym : Type} [DecidableEq Addr] [DecidableEq Sym]
variable (env : Env Addr Sym) (signed : Addr → Bool)

/-! ## Metrics -/

/-- The metrics of an agent nothing is known of. -/
def emptyMetrics (agentId : Sym) (lastUpdated : Nat) : AgentMetrics Sym where
  agentId := agentId
  maxResponseTime := 0
  minUptime := 0
  minQualityScore := 0
  slaCreatedAt := 0
  totalChecks := 0
  violations := 0
  lastCheckAt := 0
  totalTasks := 0
  successfulTasks := 0
  failedTasks := 0
  totalEarnings := 0
  avgResponseTime := 0
  lastUpdated := lastUpdated

/-- `record_task_completion`: anybody may call it. -/
def recordTaskCompletion (agentId : Sym) (success : Bool) (responseTime : Nat) (earnings : Int)
    (w : World Addr Sym) : Outcome Error (World Addr Sym) := do
  let metrics := (w.agentMetrics.get agentId).getD (emptyMetrics agentId w.sequence)
  let oldTotal := metrics.totalTasks
  let totalTasks ← orTrap (checked64 (metrics.totalTasks + 1))
  let successfulTasks ← orTrap (checked64 (metrics.successfulTasks + if success then 1 else 0))
  let failedTasks ← orTrap (checked64 (metrics.failedTasks + if success then 0 else 1))
  let totalEarnings ← orTrap (checked128 (metrics.totalEarnings + earnings))
  let avgResponseTime ←
    if totalTasks = 1 then pure responseTime
    else do
      let sum ← orTrap (checked64 (metrics.avgResponseTime * oldTotal))
      let sum ← orTrap (checked64 (sum + responseTime))
      pure (sum / totalTasks % 2 ^ 32)
  pure { w with
    agentMetrics := w.agentMetrics.set agentId
      { metrics with
        totalTasks := totalTasks
        successfulTasks := successfulTasks
        failedTasks := failedTasks
        totalEarnings := totalEarnings
        avgResponseTime := avgResponseTime
        lastUpdated := w.sequence } }

def setSla (agentId : Sym) (maxResponseTime minUptime minQualityScore : Nat)
    (w : World Addr Sym) : Outcome Error (World Addr Sym) := do
  let record ← okOr (w.agents.get agentId) .notFound
  requireAuth env.toHost signed record.owner
  failIf (maxResponseTime = 0 ∨ 100 < minUptime ∨ 100 < minQualityScore) .invalidSla
  let metrics := (w.agentMetrics.get agentId).getD (emptyMetrics agentId 0)
  failIf (0 < metrics.maxResponseTime) .slaAlreadyExists
  pure { w with
    agentMetrics := w.agentMetrics.set agentId
      { metrics with
        maxResponseTime := maxResponseTime
        minUptime := minUptime
        minQualityScore := minQualityScore
        slaCreatedAt := w.sequence } }

/-- The first of the three terms that a report breaks: response time, uptime, quality. -/
def violationType (metrics : AgentMetrics Sym)
    (actualResponseTime actualUptime actualQuality : Nat) : Option Nat :=
  if metrics.maxResponseTime < actualResponseTime then some 0
  else if actualUptime < metrics.minUptime then some 1
  else if actualQuality < metrics.minQualityScore then some 2
  else none

/-- The penalty for a violation: a tenth of the bond written in the agent's record. -/
def slaPenalty (record : AgentRecord Addr Sym) : Outcome Error Int := do
  let scaled ← orTrap (checked128 (record.bondAmount * slaPenaltyPercent))
  pure (scaled.tdiv 100)

/-- `check_sla_compliance`: anybody may call it. The penalty is taken from the agent's record. -/
def checkSlaCompliance (agentId : Sym) (actualResponseTime actualUptime actualQuality : Nat)
    (w : World Addr Sym) : Outcome Error (Bool × World Addr Sym) := do
  let metrics ← okOr (w.agentMetrics.get agentId) .slaNotFound
  failIf (metrics.maxResponseTime = 0) .slaNotFound
  let totalChecks ← orTrap (checked64 (metrics.totalChecks + 1))
  let metrics := { metrics with totalChecks := totalChecks, lastCheckAt := w.sequence }
  match violationType metrics actualResponseTime actualUptime actualQuality with
  | none => pure (true, { w with agentMetrics := w.agentMetrics.set agentId metrics })
  | some kind => do
    let violations ← orTrap (checked64 (metrics.violations + 1))
    let metrics := { metrics with violations := violations }
    let vCount := (w.slaViolationCount.get agentId).getD 0
    let nextCount ← orTrap (checked64 (vCount + 1))
    let violation : SlaViolation Sym :=
      { agentId := agentId
        violationType := kind
        detectedAt := w.sequence
        penaltyApplied := true }
    let record ← okOr (w.agents.get agentId) .notFound
    let penalty ← slaPenalty record
    let remaining := remainingAfter record.bondAmount penalty
    let agents :=
      if 0 < penalty then w.agents.set agentId { record with bondAmount := remaining }
      else w.agents
    pure (false,
      { w with
        slaViolations := w.slaViolations.set (agentId, vCount) violation
        slaViolationCount := w.slaViolationCount.set agentId nextCount
        agents := agents
        agentMetrics := w.agentMetrics.set agentId metrics })

/-- The entry points above and their arguments. -/
inductive MetricsOp (Sym : Type) where
  | recordTaskCompletion (agentId : Sym) (success : Bool) (responseTime : Nat) (earnings : Int)
  | setSla (agentId : Sym) (maxResponseTime minUptime minQualityScore : Nat)
  | checkSlaCompliance (agentId : Sym) (actualResponseTime actualUptime actualQuality : Nat)

def execMetrics : MetricsOp Sym → World Addr Sym → Outcome Error (World Addr Sym)
  | .recordTaskCompletion agentId success responseTime earnings =>
    recordTaskCompletion agentId success responseTime earnings
  | .setSla agentId maxResponseTime minUptime minQualityScore =>
    setSla env signed agentId maxResponseTime minUptime minQualityScore
  | .checkSlaCompliance agentId actualResponseTime actualUptime actualQuality => fun w => do
      let (_, w) ← checkSlaCompliance agentId actualResponseTime actualUptime actualQuality w
      pure w

/-! ## Reputation -/

/-- `reputation_config`. -/
def reputationConfigOf (w : World Addr Sym) : ReputationConfig :=
  w.reputationConfig.getD ⟨defaultDecayPct, defaultEpochSecs⟩

def requireCoordinatorOrAdmin (w : World Addr Sym) (caller : Addr) : Outcome Error Unit := do
  requireAuth env.toHost signed caller
  failIf (w.coordinator ≠ some caller ∧ isAdmin w caller = false) .unauthorized

def clampReputationInput (value : Nat) : Nat := min value maxReputationInput

def reputationScoreFp (input : ReputationInput) : Nat :=
  let weighted :=
    reputationWSuccess * clampReputationInput input.successRate
      + reputationWQuality * clampReputationInput input.quality
      + reputationWUptime * clampReputationInput input.uptime
      + reputationWPrice * clampReputationInput input.priceFairness
  min (satMulU128 weighted reputationScale / 10000) u64Max

/-- The loop of `apply_reputation_decay`: keep `keep` percent, as often as epochs remain. -/
def decayEpochs (keep : Nat) : Nat → Nat → Nat
  | 0, current => current
  | remaining + 1, current =>
    let next := satMulU128 current keep / 100
    if next = 0 then next else decayEpochs keep remaining next

/-- `apply_reputation_decay`: the score, the time it is of, and the epochs that elapsed. -/
def applyReputationDecay (score lastUpdated now : Nat) (config : ReputationConfig) :
    Nat × Nat × Nat :=
  if config.epochSecs = 0 then (score, lastUpdated, 0)
  else
    let epochs := satSub64 now lastUpdated / config.epochSecs
    if epochs = 0 then (score, lastUpdated, 0)
    else
      let advanced := satAdd64 lastUpdated (satMul64 epochs config.epochSecs)
      if maxDecayEpochs < epochs then (0, advanced, epochs)
      else
        let keep := 100 - min config.decayPct 100
        (min (decayEpochs keep epochs score) u64Max, advanced, epochs)

def setCoordinator (coordinator : Addr) (w : World Addr Sym) :
    Outcome Error (World Addr Sym) := do
  let _ ← requireAdmin env signed w
  pure { w with coordinator := some coordinator }

def addAuthorizedCaller (caller : Addr) (w : World Addr Sym) :
    Outcome Error (World Addr Sym) := do
  let _ ← requireAdmin env signed w
  failIf (caller ∈ w.authorizedCallers) .alreadyExists
  failIf (16 ≤ w.authorizedCallers.length) .invalidRecord
  pure { w with authorizedCallers := w.authorizedCallers ++ [caller] }

def removeAuthorizedCaller (caller : Addr) (w : World Addr Sym) :
    Outcome Error (World Addr Sym) := do
  let _ ← requireAdmin env signed w
  failIf (caller ∉ w.authorizedCallers) .notFound
  pure { w with authorizedCallers := w.authorizedCallers.filter fun a => a ≠ caller }

/-- The score after an outcome; a failed task cannot raise it. -/
def scoreAfter (score : Nat) (success : Bool) (scoreDelta : Int) : Nat :=
  let delta := if success then scoreDelta else min scoreDelta 0
  if 0 ≤ delta then min (satAdd64 score delta.toNat) reputationScale
  else satSub64 score delta.natAbs

def recordTaskOutcome (caller : Addr) (agentId : Sym) (success : Bool) (scoreDelta : Int)
    (taskId : Sym) (w : World Addr Sym) : Outcome Error (World Addr Sym) := do
  requireNotPaused w
  requireAuth env.toHost signed caller
  failIf (caller ∉ w.authorizedCallers) .unauthorized
  failIf (w.taskOutcome.has taskId = true) .alreadyExists
  failIf (w.agents.has agentId = false) .notFound
  let reputation := (w.reputation.get agentId).getD ⟨agentId, 0, w.now⟩
  pure { w with
    reputation := w.reputation.set agentId
      { reputation with
        score := scoreAfter reputation.score success scoreDelta
        lastUpdated := w.now }
    taskOutcome := w.taskOutcome.set taskId true }

def setReputationConfig (decayPct epochSecs : Nat) (w : World Addr Sym) :
    Outcome Error (World Addr Sym) := do
  let _ ← requireAdmin env signed w
  failIf (epochSecs = 0 ∨ maxReputationInput < decayPct) .invalidConfig
  pure { w with reputationConfig := some ⟨decayPct, epochSecs⟩ }

def updateReputation (caller : Addr) (agentId : Sym) (input : ReputationInput)
    (w : World Addr Sym) : Outcome Error (Nat × World Addr Sym) := do
  requireNotPaused w
  requireCoordinatorOrAdmin env signed w caller
  failIf (w.agents.has agentId = false) .notFound
  let score := reputationScoreFp input
  pure (score,
    { w with reputation := w.reputation.set agentId ⟨agentId, score, w.now⟩ })

/-- `get_reputation`: anybody may call it, and it stores the decayed score. -/
def getReputation (agentId : Sym) (w : World Addr Sym) :
    Outcome Error (ReputationScore Sym × World Addr Sym) := do
  failIf (w.agents.has agentId = false) .notFound
  let record := (w.reputation.get agentId).getD ⟨agentId, 0, w.now⟩
  let (decayed, advanced, epochs) :=
    applyReputationDecay record.score record.lastUpdated w.now (reputationConfigOf w)
  if 0 < epochs then
    let record := { record with score := decayed, lastUpdated := advanced }
    pure (record, { w with reputation := w.reputation.set agentId record })
  else pure (record, w)

/-- `batch_update_reputation`: errors are reported per item, and then nothing is written. -/
def batchUpdateReputation (caller : Addr) (updates : List (Sym × ReputationInput))
    (w : World Addr Sym) : Outcome Error (List (BatchResult Sym) × World Addr Sym) :=
  if w.paused = true then pure (updates.map fun _ => .err .contractPaused, w)
  else
    match requireCoordinatorOrAdmin env signed w caller with
    | .error .trap => .error .trap
    | .error (.error _) => pure (updates.map fun _ => .err .unauthorized, w)
    | .ok _ =>
      let results := updates.map fun update =>
        if w.agents.has update.1 = true then BatchResult.ok update.1 else .err .notFound
      if updates.all (fun update => w.agents.has update.1) = false ∨ updates = [] then
        pure (results, w)
      else
        pure (results, updates.foldl
          (fun w update => { w with
            reputation := w.reputation.set update.1
              ⟨update.1, reputationScoreFp update.2, w.now⟩ }) w)

/-- The entry points above and their arguments. -/
inductive ReputationOp (Addr Sym : Type) where
  | setCoordinator (coordinator : Addr)
  | addAuthorizedCaller (caller : Addr)
  | removeAuthorizedCaller (caller : Addr)
  | recordTaskOutcome (caller : Addr) (agentId : Sym) (success : Bool) (scoreDelta : Int)
      (taskId : Sym)
  | setReputationConfig (decayPct epochSecs : Nat)
  | updateReputation (caller : Addr) (agentId : Sym) (input : ReputationInput)
  | getReputation (agentId : Sym)
  | batchUpdateReputation (caller : Addr) (updates : List (Sym × ReputationInput))

def execReputation : ReputationOp Addr Sym → World Addr Sym → Outcome Error (World Addr Sym)
  | .setCoordinator coordinator => setCoordinator env signed coordinator
  | .addAuthorizedCaller caller => addAuthorizedCaller env signed caller
  | .removeAuthorizedCaller caller => removeAuthorizedCaller env signed caller
  | .recordTaskOutcome caller agentId success scoreDelta taskId =>
    recordTaskOutcome env signed caller agentId success scoreDelta taskId
  | .setReputationConfig decayPct epochSecs => setReputationConfig env signed decayPct epochSecs
  | .updateReputation caller agentId input => fun w => do
      let (_, w) ← updateReputation env signed caller agentId input w
      pure w
  | .getReputation agentId => fun w => do
      let (_, w) ← getReputation agentId w
      pure w
  | .batchUpdateReputation caller updates => fun w => do
      let (_, w) ← batchUpdateReputation env signed caller updates w
      pure w

end

/-!
## The eligibility check

What the registry answers when another contract asks about an agent. The question is an
agent id; who asks, and for whom, is not part of it.
-/

variable {Addr Sym : Type} [DecidableEq Sym]

def verifyAgentEligible (w : World Addr Sym) (agentId : Sym) : Outcome Error Unit :=
  match w.agents.get agentId with
  | some record => do
    failIf (isAgentFrozen w agentId = true) .agentFrozen
    failIf (record.bondAmount < minBond w) .insufficientBond
  | none =>
    if w.bondCooldown.has agentId = true then .error (.error .agentDeregistered)
    else .error (.error .notFound)

/-- The codes of `errors.rs`. -/
def Error.code : Error → Nat
  | .notFound => 1
  | .unauthorized => 2
  | .alreadyExists => 3
  | .contractPaused => 4
  | .agentFrozen => 5
  | .notAdmin => 6
  | .duplicateInBatch => 8
  | .invalidRecord => 9
  | .insufficientBond => 10
  | .cooldownNotElapsed => 11
  | .proposalNotFound => 12
  | .proposalExpired => 13
  | .proposalAlreadyExecuted => 14
  | .proposalAlreadyCancelled => 15
  | .alreadyApproved => 16
  | .insufficientApprovals => 17
  | .timelockNotElapsed => 18
  | .invalidThreshold => 19
  | .invalidSigner => 20
  | .storageLimitReached => 21
  | .capabilityLimitReached => 22
  | .slaAlreadyExists => 23
  | .slaNotFound => 24
  | .invalidSla => 26
  | .invalidConfig => 34
  | .invalidPrice => 35
  | .multisigAlreadyConfigured => 36
  | .disputePending => 37
  | .agentDeregistered => 39
  | .invalidVersion => 40
  | .noVersionsFound => 41

/-- A registered agent that is not frozen, and bonded with the minimum at least. -/
structure Eligible (w : World Addr Sym) (agentId : Sym) (record : AgentRecord Addr Sym) :
    Prop where
  registered : w.agents.get agentId = some record
  unfrozen : isAgentFrozen w agentId = false
  bonded : minBond w ≤ record.bondAmount

theorem verifyAgentEligible_eq_ok {w : World Addr Sym} {agentId : Sym} {u : Unit} :
    verifyAgentEligible w agentId = .ok u ↔ ∃ record, Eligible w agentId record := by
  unfold verifyAgentEligible
  cases hrec : w.agents.get agentId with
  | none =>
    refine ⟨fun h => ?_, fun h => ?_⟩
    · dsimp only at h
      split at h
      · cases h
      · cases h
    · obtain ⟨record, h⟩ := h
      rw [h.registered] at hrec
      cases hrec
  | some record =>
    simp only [bind_eq_ok, failIf_eq_ok, Bool.not_eq_true, not_lt]
    refine ⟨fun h => ?_, fun h => ?_⟩
    · obtain ⟨_, hun, hbo⟩ := h
      exact ⟨record, hrec, hun, hbo⟩
    · obtain ⟨record', h⟩ := h
      cases hrec.symm.trans h.registered
      exact ⟨(), h.unfrozen, h.bonded⟩

def OwnsEligible (w : World Addr Sym) (a : Addr) : Prop :=
  ∃ agentId record, Eligible w agentId record ∧ record.owner = a

end AiNet.AgentRegistry
