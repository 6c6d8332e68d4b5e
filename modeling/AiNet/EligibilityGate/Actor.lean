import AiNet.AgentGovernance.Steps
import AiNet.AgentRegistry.Contract
import AiNet.Bidding.Step

/-!
# Who the eligibility gate lets through

`submit_bid` and `register_agent` ask a configured registry before they go on. What they
ask about is not the caller: `submit_bid` passes the id of the task, `register_agent`
the same symbol for everybody. So a call goes through, if it is otherwise in order,
exactly when the registry has an eligible agent under that id, whoever owns it.
-/

namespace AiNet.EligibilityGate

open Core Storage

variable {Addr Sym τ : Type} [DecidableEq Addr] [DecidableEq Sym]
  {registry : AgentRegistry.World Addr Sym}

/-- What a call of the registry comes back with. -/
def answer (registry : AgentRegistry.World Addr Sym) (agentId : Sym) : Invoked :=
  invoked AgentRegistry.Error.code (AgentRegistry.verifyAgentEligible registry agentId)

/-- A registry is configured, and answers the calls from the state it is in. -/
def Asks (registry : AgentRegistry.World Addr Sym) (agentRegistry : Option Addr)
    (verifyAgentEligible : Addr → Sym → Invoked) : Prop :=
  ∃ address, agentRegistry = some address ∧
    ∀ agentId, verifyAgentEligible address agentId = answer registry agentId

variable {agentId : Sym}

omit [DecidableEq Addr] in
theorem answer_returned :
    answer registry agentId = .returned ↔ ∃ record, AgentRegistry.Eligible registry agentId record := by
  unfold answer
  rw [invoked_eq_returned]
  refine ⟨fun h => ?_, fun h => ?_⟩
  · obtain ⟨u, h⟩ := h
    exact AgentRegistry.verifyAgentEligible_eq_ok.mp h
  · exact ⟨(), AgentRegistry.verifyAgentEligible_eq_ok.mpr h⟩

/-! ## Bids -/

section Bidding

variable {env : Bidding.Env Addr Sym τ} {call : Bidding.Call Addr Sym}
  {w : Bidding.World Addr Sym τ}

/-- Everything `submit_bid` checks but the eligibility. -/
structure BidInOrder (env : Bidding.Env Addr Sym τ) (call : Bidding.Call Addr Sym)
    (taskId : Sym) (bidder : Addr) (commitment : BytesN 32) (bond : Int) (reputation : Nat)
    (w : Bidding.World Addr Sym τ) : Prop where
  unpaused : w.paused = false
  signed : bidder ≠ env.self ∧ call.signed bidder = true
  auction : ∃ auction, w.auctions.get taskId = some auction ∧ auction.phase = .bidding ∧
    w.now < auction.deadline ∧ bond = auction.config.bond ∧ auction.bidCount < Bidding.maxBidders
  reputable : reputation ≤ Bidding.maxReputation
  commitment : commitment ≠ BytesN.zero 32
  first : w.bids.has (taskId, bidder) = false
  room : Bidding.biddersLen w taskId < Bidding.maxBiddersPerAuction
  paid : ∃ w', Bidding.pullFunds env w (.bond taskId bidder) bidder bond = .ok w'

section

omit [DecidableEq Addr]

theorem bidding_gate_iff (hask : Asks registry w.agentRegistry call.verifyAgentEligible)
    {u : Unit} : Bidding.verifyAgentEligibility call w agentId = .ok u ↔
      ∃ record, AgentRegistry.Eligible registry agentId record := by
  obtain ⟨address, hadr, hans⟩ := hask
  unfold Bidding.verifyAgentEligibility
  rw [hadr]
  dsimp only
  rw [hans, ← answer_returned]
  split
  · rename_i hret
    exact ⟨fun _ => hret, fun _ => rfl⟩
  all_goals
    rename_i hfai
    refine ⟨nofun, fun h => ?_⟩
    rw [hfai] at h
    cases h

theorem biddersLen_eq (w : Bidding.World Addr Sym τ) (taskId : Sym) :
    Bidding.biddersLen w taskId = ((w.bidders.get taskId).getD []).length := by
  unfold Bidding.biddersLen
  cases w.bidders.get taskId with
  | none | some => rfl

end

theorem submitBid_ok_iff {taskId : Sym} {bidder : Addr} {commitment : BytesN 32} {bond : Int}
    {reputation : Nat} :
    (∃ w', Bidding.submitBid env call taskId bidder commitment bond reputation w = .ok w') ↔
      BidInOrder env call taskId bidder commitment bond reputation w ∧
        Bidding.verifyAgentEligibility call w taskId = .ok () := by
  refine ⟨fun h => ?_, fun h => ?_⟩
  · obtain ⟨w', h⟩ := h
    simp only [Bidding.submitBid, Bidding.requireNotPaused, Bidding.loadAuction,
      bind_eq_ok, failIf_eq_ok, okOr_eq_ok, requireAuth_eq_ok, exists_and_left, exists_const,
      pure_eq_ok, ne_eq, not_not, not_lt, not_le, Bool.not_eq_true] at h
    obtain ⟨hpsd, hsgn, u, hga, auction, hauc, _, _, hph, hon, hbo, hrep,
      hcnt, hco, hfst, hro, w₁, hpu, _⟩ := h
    exact ⟨⟨hpsd, hsgn, ⟨auction, hauc, hph, hon, hbo, hcnt⟩, hrep, hco, hfst, hro, ⟨w₁, hpu⟩⟩, hga⟩
  · obtain ⟨h, hga⟩ := h
    obtain ⟨auction, hauc, hph, hon, hbo, hcnt⟩ := h.auction
    obtain ⟨w₁, hpu⟩ := h.paid
    -- the transfer leaves the bidders alone, so there is still room after it
    obtain ⟨_, _, _, _, _, hbi, _, _⟩ := Bidding.moveFunds_ok hpu
    have hro : ((w₁.bidders.get taskId).getD []).length < Bidding.maxBiddersPerAuction := by
      rw [hbi, ← biddersLen_eq]
      exact h.room
    have hlv : ¬ (auction.phase = .awarded ∨ auction.phase = .cancelled) := by
      rw [hph]
      decide
    simp only [Bidding.submitBid, Bidding.requireNotPaused, Bidding.loadAuction, Bidding.requireLive,
      bind_eq_ok, failIf_eq_ok, okOr_eq_ok, requireAuth_eq_ok, exists_and_left, exists_const,
      pure_eq_ok, ne_eq, not_not, not_lt, not_le, Bool.not_eq_true]
    exact ⟨h.unpaused, h.signed, _, (), hga, auction, hauc, hlv, hph, hon, hbo,
      h.reputable, hcnt, h.commitment, h.first, h.room, w₁, hpu, hro, rfl⟩

end Bidding

/-! ## Registrations -/

section Governance

variable {env : AgentGovernance.Env Addr Sym} {call : AgentGovernance.Call Addr Sym}
  {w : AgentGovernance.World Addr Sym}

/-- Everything `register_agent` checks but the eligibility. -/
structure RegistrationInOrder (env : AgentGovernance.Env Addr Sym)
    (call : AgentGovernance.Call Addr Sym) (agent : Addr) (reputation : Nat) (stake : Int)
    (w : AgentGovernance.World Addr Sym) : Prop where
  initialized : w.admin ≠ none
  signed : agent ≠ env.self ∧ call.signed agent = true
  reputable : reputation ≤ AgentGovernance.maxReputation
  nonneg : 0 ≤ stake
  first : w.agents.get agent = none
  power : 0 < AgentGovernance.votingPower stake reputation

omit [DecidableEq Addr] in
theorem governance_gate_iff (hask : Asks registry w.agentRegistry call.verifyAgentEligible)
    {u : Unit} : AgentGovernance.verifyAgentEligibility call w agentId = .ok u ↔
      ∃ record, AgentRegistry.Eligible registry agentId record := by
  obtain ⟨address, hadr, hans⟩ := hask
  unfold AgentGovernance.verifyAgentEligibility
  rw [hadr]
  dsimp only
  rw [hans, ← answer_returned]
  split
  · rename_i hret
    exact ⟨fun _ => hret, fun _ => rfl⟩
  all_goals
    rename_i hfai
    refine ⟨nofun, fun h => ?_⟩
    rw [hfai] at h
    cases h

omit [DecidableEq Sym] in
theorem registerAgent_ok_iff {agent : Addr} {reputation : Nat} {stake : Int} :
    (∃ w', AgentGovernance.registerAgent env call agent reputation stake w = .ok w') ↔
      RegistrationInOrder env call agent reputation stake w ∧
        AgentGovernance.verifyAgentEligibility call w (env.symbolNew "agent") = .ok () := by
  simp only [AgentGovernance.registerAgent, AgentGovernance.requireInitialized_eq_ok, bind_eq_ok,
    failIf_eq_ok, requireAuth_eq_ok, exists_and_left, exists_const, pure_eq_ok, not_lt, not_le,
    Bool.not_eq_true, has_eq_false]
  refine ⟨fun h => ?_, fun h => ?_⟩
  · obtain ⟨hin, hsgn, _, u, hga, hrep, hsta, hfst, hpow, _⟩ := h
    exact ⟨⟨hin, hsgn, hrep, hsta, hfst, hpow⟩, hga⟩
  · obtain ⟨h, hga⟩ := h
    exact ⟨h.initialized, h.signed, _, (), hga, h.reputable, h.nonneg, h.first, h.power, rfl⟩

end Governance

/-! ## Who gets through -/

/--
**The gate checks the actor.** With a registry configured, only owners of eligible agents get
through, except where a call that is otherwise in order finds an eligible agent of somebody else:
for a bid under the id of the task, for a registration under the one symbol they all ask about.
-/
theorem gate_checks_actor_iff (registry : AgentRegistry.World Addr Sym) :
    (∀ (env : Bidding.Env Addr Sym τ) (call : Bidding.Call Addr Sym)
        (w : Bidding.World Addr Sym τ) (taskId : Sym) (bidder : Addr)
        (commitment : BytesN 32) (bond : Int) (reputation : Nat),
      Asks registry w.agentRegistry call.verifyAgentEligible →
        (((∃ w', Bidding.submitBid env call taskId bidder commitment bond reputation w = .ok w') →
            AgentRegistry.OwnsEligible registry bidder) ↔
          (BidInOrder env call taskId bidder commitment bond reputation w →
            (∃ record, AgentRegistry.Eligible registry taskId record) →
              AgentRegistry.OwnsEligible registry bidder))) ∧
    (∀ (env : AgentGovernance.Env Addr Sym) (call : AgentGovernance.Call Addr Sym)
        (w : AgentGovernance.World Addr Sym) (agent : Addr) (reputation : Nat)
        (stake : Int),
      Asks registry w.agentRegistry call.verifyAgentEligible →
        (((∃ w', AgentGovernance.registerAgent env call agent reputation stake w = .ok w') →
            AgentRegistry.OwnsEligible registry agent) ↔
          (RegistrationInOrder env call agent reputation stake w →
            (∃ record, AgentRegistry.Eligible registry (env.symbolNew "agent") record) →
              AgentRegistry.OwnsEligible registry agent))) := by
  refine ⟨?_, ?_⟩
  · intro env call w taskId bidder commitment bond reputation hask
    rw [submitBid_ok_iff, bidding_gate_iff hask, and_imp]
  · intro env call w agent reputation stake hask
    rw [registerAgent_ok_iff, governance_gate_iff hask, and_imp]

namespace Sample

/-- Owner `2` has registered agent `7`, owner `4` agent `5`, with bonds of the minimum. -/
def enrolled : AgentRegistry.World Nat Nat :=
  (AgentRegistry.system AgentRegistry.Sample.deployment).attempts
    (AgentRegistry.Sample.installed ++
      [ AgentRegistry.Sample.call 2 (.registration (.registerAgent (AgentRegistry.Sample.agent 7 2 100))),
        AgentRegistry.Sample.call 4 (.registration (.registerAgent (AgentRegistry.Sample.agent 5 4 100))) ])
    (AgentRegistry.World.init 0 0)

/-- Task `7` is open for bids, with the registry `50` configured. -/
def auctioned : Bidding.World Nat Nat (Token.Ledger Nat) :=
  (Bidding.system (Bidding.Sample.env 7)).attempts
    (Bidding.Sample.opened 7 10 100 5 ++ [Bidding.Sample.signed 1 (.setAgentRegistry 50)])
    (Bidding.World.init 1000 Bidding.Sample.wallets)

/-- The governance contract, with the registry `50` configured. -/
def governed : AgentGovernance.World Nat Nat :=
  (AgentGovernance.system AgentGovernance.Sample.deployment).attempts
    (AgentGovernance.Sample.installed ++ [AgentGovernance.Sample.signed 1 (.setAgentRegistry 50)])
    (AgentGovernance.World.init 1000)

/-- A call of a bidder, answered by the registry. -/
def bidding (bidder : Nat) : Bidding.Call Nat Nat := ⟨fun a => a == bidder, fun _ id => answer enrolled id⟩

/-- A call of an agent, answered by the registry. -/
def governing (agent : Nat) : AgentGovernance.Call Nat Nat :=
  ⟨fun a => a == agent, fun _ id => answer enrolled id, fun _ _ _ => true⟩

theorem enrolled_reachable :
    (AgentRegistry.system AgentRegistry.Sample.deployment).Reachable (fun _ _ => True) enrolled :=
  (System.Reachable.init (AgentRegistry.start_init _ 0 0)).attempts

theorem owner_eligible : AgentRegistry.OwnsEligible enrolled 2 := by
  refine ⟨7, AgentRegistry.Sample.agent 7 2 100, ⟨?_, ?_, ?_⟩, rfl⟩
  all_goals decide

theorem stranger_not_eligible : ¬ AgentRegistry.OwnsEligible enrolled 3 := by
  intro h
  obtain ⟨agentId, record, hel, hown⟩ := h
  have hows : ∀ e ∈ enrolled.agents.entries, e.2.owner ≠ 3 := by decide
  exact hows _ (mem_entries.mpr hel.registered) hown

theorem bidding_asks (bidder : Nat) :
    Asks enrolled auctioned.agentRegistry (bidding bidder).verifyAgentEligible :=
  ⟨50, (by decide), fun _ => rfl⟩

theorem governing_asks (agent : Nat) :
    Asks enrolled governed.agentRegistry (governing agent).verifyAgentEligible :=
  ⟨50, (by decide), fun _ => rfl⟩

end Sample

/-- Owner `2` of an eligible agent bids and registers, and the gate lets both through. -/
theorem gate_checks_actor_owner :
    ((∃ w', Bidding.submitBid (Bidding.Sample.env 7) (Sample.bidding 2) 7 2
        (Bidding.Sample.digest [1]) 5 50 Sample.auctioned = .ok w') ∧
      AgentRegistry.OwnsEligible Sample.enrolled 2) ∧
    (∃ w', AgentGovernance.registerAgent AgentGovernance.Sample.deployment (Sample.governing 2) 2 0
        100 Sample.governed = .ok w') ∧
      AgentRegistry.OwnsEligible Sample.enrolled 2 := by
  have hbid : ∃ w', Bidding.submitBid (Bidding.Sample.env 7) (Sample.bidding 2) 7 2
      (Bidding.Sample.digest [1]) 5 50 Sample.auctioned = .ok w' :=
    exists_ok_of_toOption (by decide)
  have hre : ∃ w', AgentGovernance.registerAgent AgentGovernance.Sample.deployment
      (Sample.governing 2) 2 0 100 Sample.governed = .ok w' :=
    exists_ok_of_toOption (by decide)
  have hga := gate_checks_actor_iff (τ := Token.Ledger Nat) Sample.enrolled
  refine ⟨⟨hbid, ?_⟩, ⟨hre, ?_⟩⟩
  · exact (hga.1 _ _ _ _ _ _ _ _ (Sample.bidding_asks 2)).mpr
      (fun _ _ => Sample.owner_eligible) hbid
  · exact (hga.2 _ _ _ _ _ _ (Sample.governing_asks 2)).mpr
      (fun _ _ => Sample.owner_eligible) hre

/-- Account `3` owns no agent; its bid and its registration are let through all the same. -/
theorem stranger_let_through :
    (AgentRegistry.system AgentRegistry.Sample.deployment).Reachable (fun _ _ => True)
        Sample.enrolled ∧
      ¬ AgentRegistry.OwnsEligible Sample.enrolled 3 ∧
      (Asks Sample.enrolled Sample.auctioned.agentRegistry (Sample.bidding 3).verifyAgentEligible ∧
        ∃ w', Bidding.submitBid (Bidding.Sample.env 7) (Sample.bidding 3) 7 3
          (Bidding.Sample.digest [1]) 5 50 Sample.auctioned = .ok w') ∧
      Asks Sample.enrolled Sample.governed.agentRegistry (Sample.governing 3).verifyAgentEligible ∧
        ∃ w', AgentGovernance.registerAgent AgentGovernance.Sample.deployment (Sample.governing 3) 3
          0 100 Sample.governed = .ok w' := by
  refine ⟨Sample.enrolled_reachable, Sample.stranger_not_eligible, ⟨Sample.bidding_asks 3, ?_⟩,
    Sample.governing_asks 3, ?_⟩
  · exact exists_ok_of_toOption (by decide)
  · exact exists_ok_of_toOption (by decide)

end AiNet.EligibilityGate
