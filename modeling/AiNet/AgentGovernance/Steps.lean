import AiNet.AgentGovernance.Contract

/-!
# What each call does

One lemma for each entry point that touches the electorate or a proposal: what it has
checked when it succeeds, and the state it leaves. The calls of the administration are
taken together, since all they write is configuration.
-/

namespace AiNet.AgentGovernance

open Core Option

variable {Addr Sym : Type} [DecidableEq Addr] {env : Env Addr Sym}
  {call : Call Addr Sym} {w w' : World Addr Sym}

/-! ## What an event is about -/

def Event.reweighs : Event Addr Sym → Option (Addr × Int)
  | .invoke _ (.registerAgent agent reputation stake) => some (agent, votingPower stake reputation)
  | .invoke _ (.updateAgent agent reputation stake) => some (agent, votingPower stake reputation)
  | .invoke _ (.removeAgent agent) => some (agent, 0)
  | _ => none

def Event.actsOn (w : World Addr Sym) : Event Addr Sym → Option Nat
  | .invoke _ (.createProposal ..) => some (w.proposalCount + 1)
  | .invoke _ (.voteOnProposal id _ _) => some id
  | .invoke _ (.queueProposal id) => some id
  | .invoke _ (.executeProposal id) => some id
  | .invoke _ (.cancelProposal id) => some id
  | _ => none

/-! ## Guards -/

omit [DecidableEq Addr] in
theorem requireInitialized_eq_ok {u : Unit} :
    requireInitialized w = .ok u ↔ w.admin ≠ none := by
  unfold requireInitialized
  rw [failIf_eq_ok, isNone_iff_eq_none]

variable {admin : Addr}

theorem requireAdmin_ok (h : requireAdmin env call w = .ok admin) :
    w.admin = some admin := by
  unfold requireAdmin at h
  simp only [bind_eq_ok, okOr_eq_ok, pure_eq_ok] at h
  obtain ⟨a, ha, _, _, rfl⟩ := h
  exact ha

/-! ## The electorate -/

variable {agent : Addr}

theorem registerAgent_ok {reputation : Nat} {stake : Int}
    (h : registerAgent env call agent reputation stake w = .ok w') :
    w.admin ≠ none ∧ verifyAgentEligibility call w (env.symbolNew "agent") = .ok () ∧
      w.agents.get agent = none ∧ 0 < votingPower stake reputation ∧
      w' = { writeCheckpoint
              { w with
                agents := w.agents.set agent
                  ⟨agent, reputation, stake, votingPower stake reputation⟩ }
              agent (votingPower stake reputation) with
            totalPower := satAdd128 w.totalPower (votingPower stake reputation) } := by
  unfold registerAgent at h
  simp only [bind_eq_ok, failIf_eq_ok, requireInitialized_eq_ok, pure_eq_ok,
    Bool.not_eq_true, Storage.has_eq_false, not_le] at h
  obtain ⟨_, hin, _, _, _, hel, _, _, _, _, _, hnew, _, hpos, rfl⟩ := h
  exact ⟨hin, hel, hnew, hpos, rfl⟩

theorem updateAgent_ok {reputation : Nat} {stake : Int}
    (h : updateAgent env call agent reputation stake w = .ok w') :
    ∃ info, w.admin ≠ none ∧ w.agents.get agent = some info ∧ 0 < votingPower stake reputation ∧
      w' = { writeCheckpoint
              { w with
                agents := w.agents.set agent
                  { info with
                    reputation := reputation
                    stake := stake
                    power := votingPower stake reputation } }
              agent (votingPower stake reputation) with
            totalPower :=
              max (satAdd128 w.totalPower (votingPower stake reputation - info.power)) 0 } := by
  unfold updateAgent at h
  simp only [bind_eq_ok, failIf_eq_ok, requireInitialized_eq_ok, pure_eq_ok, orTrap_eq_ok,
    checked128_eq_some, loadAgent, okOr_eq_ok, not_le] at h
  obtain ⟨_, hin, _, _, _, _, _, _, info, hio, _, hpos, _, ⟨_, rfl⟩, rfl⟩ := h
  exact ⟨info, hin, hio, hpos, rfl⟩

theorem removeAgent_ok (h : removeAgent env call agent w = .ok w') :
    ∃ info, w.admin ≠ none ∧ w.agents.get agent = some info ∧
      w' = { writeCheckpoint { w with agents := w.agents.remove agent } agent 0 with
            totalPower := max (satSub128 w.totalPower info.power) 0 } := by
  unfold removeAgent at h
  simp only [bind_eq_ok, requireInitialized_eq_ok, pure_eq_ok, loadAgent, okOr_eq_ok] at h
  obtain ⟨_, hin, _, _, info, hio, rfl⟩ := h
  exact ⟨info, hin, hio, rfl⟩

/-! ## Proposals -/

/-- The record `create_proposal` stores. -/
def Proposal.opened (env : Env Addr Sym) (w : World Addr Sym) (proposer : Addr)
    (proposalType : ProposalType) (title description : List UInt8) (period : Nat)
    (payload : ExecutionPayload Addr Sym) (target : Option Addr) :
    Proposal Addr Sym :=
  { id := w.proposalCount + 1
    proposer := proposer
    proposalType := proposalType
    title := title
    description := description
    createdAt := w.now
    votingEndsAt := satAdd64 w.now period
    status := .active
    forPower := 0
    againstPower := 0
    abstainPower := 0
    totalPowerSnapshot := w.totalPower
    target := target
    function := payload.function
    calldata := payload.calldata
    expectedHash := some (calldataHash env payload.calldata) }

theorem createProposal_ok {proposer : Addr} {proposalType : ProposalType}
    {title description : List UInt8} {votingPeriodSecs : Nat}
    {payload : ExecutionPayload Addr Sym}
    (h : createProposal env call proposer proposalType title description votingPeriodSecs payload w
      = .ok w') :
    ∃ period target, w.admin ≠ none ∧
      resolveTarget env proposalType payload.target w = .ok target ∧ 0 < w.totalPower ∧
      w' = { w with
        proposals := w.proposals.set (w.proposalCount + 1)
          (.opened env w proposer proposalType title description period payload target)
        proposalCount := w.proposalCount + 1 } := by
  unfold createProposal at h
  simp only [bind_eq_ok, failIf_eq_ok, requireInitialized_eq_ok, pure_eq_ok, orTrap_eq_ok,
    checked64_eq_some, not_le] at h
  obtain ⟨_, hin, _, _, _, _, _, _, _, _, _, _, _, _, _, _, target, htgt, _, hpos, _, ⟨_, rfl⟩, rfl⟩ := h
  exact ⟨_, target, hin, htgt, hpos, rfl⟩

variable {proposalId : Nat}

theorem voteOnProposal_ok {voter : Addr} {choice : VoteChoice}
    (h : voteOnProposal env call proposalId voter choice w = .ok w') :
    ∃ proposal, w.admin ≠ none ∧ w.proposals.get proposalId = some proposal ∧
      proposal.status = .active ∧ w.now < proposal.votingEndsAt ∧
      w.votes.has (proposalId, voter) = false ∧ 0 < powerAt w voter proposal.createdAt ∧
      w' = { w with
        votes := w.votes.set (proposalId, voter)
          ⟨proposalId, voter, choice, powerAt w voter proposal.createdAt⟩
        proposals := w.proposals.set proposalId
          (proposal.tally choice (powerAt w voter proposal.createdAt)) } := by
  unfold voteOnProposal at h
  simp only [bind_eq_ok, failIf_eq_ok, requireInitialized_eq_ok, pure_eq_ok, okOr_eq_ok, not_le,
    ne_eq, not_not, Bool.not_eq_true] at h
  obtain ⟨_, hin, _, _, _, _, _, _, proposal, hp, _, hact, _, hon, _, hfst, _, hpos, rfl⟩ := h
  exact ⟨proposal, hin, hp, hact, hon, hfst, hpos, rfl⟩

section

omit [DecidableEq Addr]

theorem queueProposal_ok (h : queueProposal proposalId w = .ok w') :
    ∃ proposal, w.admin ≠ none ∧ w.proposals.get proposalId = some proposal ∧
      proposal.status = .active ∧ proposal.votingEndsAt ≤ w.now ∧
      ((quorumMet proposal = true ∧ majorityMet proposal = true ∧ w' = { w with
            queued := w.queued.set proposalId
              ⟨proposalId, w.now, satAdd64 w.now proposalTimelockSecs⟩
            proposals := w.proposals.set proposalId { proposal with status := .queued } }) ∨
        w' = { w with
          proposals := w.proposals.set proposalId { proposal with status := .failed } }) := by
  unfold queueProposal at h
  simp only [bind_eq_ok, failIf_eq_ok, requireInitialized_eq_ok, okOr_eq_ok, not_lt, ne_eq, not_not] at h
  obtain ⟨_, hin, proposal, hp, _, hact, _, hedd, h⟩ := h
  refine ⟨proposal, hin, hp, hact, hedd, ?_⟩
  split at h
  · rename_i hpa
    rw [Bool.and_eq_true] at hpa
    exact .inl ⟨hpa.1, hpa.2, (pure_eq_ok.mp h).symm⟩
  · exact .inr (pure_eq_ok.mp h).symm

theorem invokePayload_ok {proposal : Proposal Addr Sym}
    {invoked : List (Invocation Addr Sym)} {passed : Bool}
    (h : invokePayload env call proposal = .ok (invoked, passed)) :
    (proposal.target = none ∧ invoked = []) ∨ ∃ target, proposal.target = some target ∧
        invoked = [⟨proposal.id, target, proposal.function, proposal.calldata⟩] := by
  unfold invokePayload at h
  cases htgt : proposal.target with
  | none =>
    rw [htgt] at h
    rw [pure_eq_ok] at h
    cases h
    exact .inl ⟨rfl, rfl⟩
  | some target =>
    rw [htgt] at h
    simp only [bind_eq_ok, pure_eq_ok] at h
    obtain ⟨_, _, h⟩ := h
    cases h
    exact .inr ⟨target, rfl, rfl⟩

theorem executeProposal_ok (h : executeProposal env call proposalId w = .ok w') :
    ∃ queued proposal invoked passed, w.admin ≠ none ∧ w.queued.get proposalId = some queued ∧
      queued.canExecuteAt ≤ w.now ∧ w.proposals.get proposalId = some proposal ∧
      proposal.status = .queued ∧ invokePayload env call proposal = .ok (invoked, passed) ∧
      w' = { w with
        proposals := w.proposals.set proposalId
          { proposal with status := if passed = true then .executed else .failed }
        queued := w.queued.remove proposalId
        invocations := w.invocations ++ invoked } := by
  unfold executeProposal at h
  simp only [bind_eq_ok, failIf_eq_ok, requireInitialized_eq_ok, okOr_eq_ok, not_lt,
    ne_eq, not_not, pure_eq_ok] at h
  obtain ⟨_, hin, queued, hq, _, hdue, proposal, hp, _, hst, ⟨invoked, passed⟩, hinv, rfl⟩ := h
  exact ⟨queued, proposal, invoked, passed, hin, hq, hdue, hp, hst, hinv, rfl⟩

end

theorem cancelProposal_ok (h : cancelProposal env call proposalId w = .ok w') :
    w.admin ≠ none ∧ w.queued.has proposalId = true ∧ w' = { w with
        queued := w.queued.remove proposalId
        proposals := w.proposals.adjust proposalId
          fun proposal => { proposal with status := .failed } } := by
  unfold cancelProposal at h
  simp only [bind_eq_ok, failIf_eq_ok, pure_eq_ok, Bool.not_eq_false] at h
  obtain ⟨admin, hadm, _, hq, rfl⟩ := h
  refine ⟨?_, hq, rfl⟩
  rw [requireAdmin_ok hadm]
  exact some_ne_none admin

/-! ## Administration -/

/-- The calls that only write configuration. -/
def Op.administers : Op Addr Sym → Bool
  | .setAdmin _ | .pause | .unpause | .setParamRegistry _ | .setAgentRegistry _ => true
  | _ => false

theorem administration_ok {op : Op Addr Sym} (hop : op.administers = true)
    (h : exec env call op w = .ok w') :
    w.admin ≠ none ∧ w'.admin ≠ none ∧ w' = { w with
      admin := w'.admin
      paused := w'.paused
      paramRegistry := w'.paramRegistry
      agentRegistry := w'.agentRegistry } := by
  cases op with
  | setAdmin =>
    simp only [exec, setAdmin, bind_eq_ok, pure_eq_ok] at h
    obtain ⟨admin, hadm, _, _, rfl⟩ := h
    exact ⟨by simp [requireAdmin_ok hadm], some_ne_none _, rfl⟩
  | pause =>
    simp only [exec, pause, bind_eq_ok, pure_eq_ok] at h
    obtain ⟨admin, hadm, rfl⟩ := h
    exact ⟨by simp [requireAdmin_ok hadm], by simp [requireAdmin_ok hadm], rfl⟩
  | unpause =>
    simp only [exec, unpause, bind_eq_ok, pure_eq_ok] at h
    obtain ⟨admin, hadm, rfl⟩ := h
    exact ⟨by simp [requireAdmin_ok hadm], by simp [requireAdmin_ok hadm], rfl⟩
  | setParamRegistry =>
    simp only [exec, setParamRegistry, bind_eq_ok, pure_eq_ok] at h
    obtain ⟨admin, hadm, _, _, rfl⟩ := h
    exact ⟨by simp [requireAdmin_ok hadm], by simp [requireAdmin_ok hadm], rfl⟩
  | setAgentRegistry =>
    simp only [exec, setAgentRegistry, bind_eq_ok, pure_eq_ok] at h
    obtain ⟨admin, hadm, rfl⟩ := h
    exact ⟨by simp [requireAdmin_ok hadm], by simp [requireAdmin_ok hadm], rfl⟩
  | _ => exact absurd hop Bool.false_ne_true

theorem initializeContract_ok (h : initializeContract env call admin w = .ok w') :
    w.admin = none ∧
      w' = { w with admin := some admin, totalPower := 0, proposalCount := 0, paused := false } := by
  unfold initializeContract at h
  simp only [bind_eq_ok, failIf_eq_ok, pure_eq_ok, not_isSome_iff_eq_none] at h
  obtain ⟨_, hnew, _, _, rfl⟩ := h
  exact ⟨hnew, rfl⟩

theorem exec_admin {op : Op Addr Sym} (h : exec env call op w = .ok w')
    (hop : ∀ admin, op ≠ .initializeContract admin) : w.admin ≠ none ∧ w'.admin ≠ none := by
  cases op with
  | initializeContract admin => exact absurd rfl (hop admin)
  | setAdmin | pause | unpause | setParamRegistry | setAgentRegistry =>
    exact (administration_ok rfl h).imp_right And.left
  | registerAgent =>
    obtain ⟨hin, _, _, _, rfl⟩ := registerAgent_ok h
    exact ⟨hin, hin⟩
  | updateAgent =>
    obtain ⟨_, hin, _, _, rfl⟩ := updateAgent_ok h
    exact ⟨hin, hin⟩
  | removeAgent =>
    obtain ⟨_, hin, _, rfl⟩ := removeAgent_ok h
    exact ⟨hin, hin⟩
  | createProposal =>
    obtain ⟨_, _, hin, _, _, rfl⟩ := createProposal_ok h
    exact ⟨hin, hin⟩
  | voteOnProposal =>
    obtain ⟨_, hin, _, _, _, _, _, rfl⟩ := voteOnProposal_ok h
    exact ⟨hin, hin⟩
  | queueProposal =>
    obtain ⟨_, hin, _, _, _, h⟩ := queueProposal_ok h
    rcases h with ⟨_, _, rfl⟩ | rfl
    · exact ⟨hin, hin⟩
    · exact ⟨hin, hin⟩
  | executeProposal =>
    obtain ⟨_, _, _, _, hin, _, _, _, _, _, rfl⟩ := executeProposal_ok h
    exact ⟨hin, hin⟩
  | cancelProposal =>
    obtain ⟨hin, _, rfl⟩ := cancelProposal_ok h
    exact ⟨hin, hin⟩

theorem init_of_uninitialized {guard : World Addr Sym → Event Addr Sym → Prop}
    (h : (system env).Reachable guard w) : w.admin = none → w = World.init w.now := by
  refine System.Reachable.invariant (I := fun w => w.admin = none → w = World.init w.now)
    ?_ ?_ h
  · intro w h0 _
    obtain ⟨now, rfl⟩ := h0
    rfl
  · intro w e w' _ _ ih hs hno
    cases e with
    | close =>
      rw [step_close] at hs
      subst hs
      rw [ih hno]
      rfl
    | invoke call op =>
      rw [step_invoke] at hs
      by_cases hop : ∀ admin, op ≠ .initializeContract admin
      · exact absurd hno (exec_admin hs hop).2
      · simp only [ne_eq, not_forall, not_not] at hop
        obtain ⟨admin, rfl⟩ := hop
        obtain ⟨_, rfl⟩ := initializeContract_ok hs
        cases hno

theorem initializeContract_reachable {guard : World Addr Sym → Event Addr Sym → Prop}
    (hr : (system env).Reachable guard w) (h : initializeContract env call admin w = .ok w') :
    w' = { w with admin := some admin, paused := false } := by
  obtain ⟨hno, rfl⟩ := initializeContract_ok h
  rw [init_of_uninitialized hr hno]
  rfl

end AiNet.AgentGovernance
