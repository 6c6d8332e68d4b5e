import AiNet.AgentRegistry.BatchRefinement
import AiNet.AgentRegistry.Moves

/-!
# What a call does

Every call of the registry is a list of moves on the accounts, and leaves alone the parts
of the storage its group does not write. The invariants are all proved from the lemmas of
this file; none of them unfolds an entry point again.
-/

namespace AiNet.AgentRegistry

open Core List Option Storage

variable {Addr Sym : Type} [DecidableEq Addr] [DecidableEq Sym]

/-! ## The moves a call makes -/

/-- A registration as a move on the account of its id. -/
def registerMove (r : AgentRecord Addr Sym) : Sym × Move Addr Sym :=
  (r.id, .register r)

/-- The moves of a batch: its registrations, if they could be made one at a time. -/
def batchMoves (env : Env Addr Sym) (signed : Addr → Bool) (w : World Addr Sym)
    (agents : List (AgentRecord Addr Sym)) : List (Sym × Move Addr Sym) :=
  if (registerEach env signed agents w).toOption.isSome = true then agents.map registerMove else []

def RegistrationOp.moves (env : Env Addr Sym) (signed : Addr → Bool)
    (w : World Addr Sym) :
    RegistrationOp Addr Sym → List (Sym × Move Addr Sym)
  | .registerAgent record => [registerMove record]
  | .registerAgents agents => batchMoves env signed w agents
  | .deregisterAgent agentId => [(agentId, .deregister)]
  | .updatePricing agentId newPrice => [(agentId, .reprice newPrice)]

def BondOp.moves : BondOp Addr Sym → List (Sym × Move Addr Sym)
  | .depositBond agentId amountStroops => [(agentId, .deposit amountStroops)]
  | .restoreSlashedBond agentId amountStroops => [(agentId, .restore amountStroops)]
  | .initiateBondReturn agentId => [(agentId, .initiateReturn)]
  | .claimBond agentId => [(agentId, .claim)]
  | .rewardBond agentId amountStroops => [(agentId, .reward amountStroops)]
  | .slashBondAmount agentId _ => [(agentId, .slash)]
  | .slashBond agentId _ _ => [(agentId, .slash)]
  | .slashBondFromDispute _ agentId _ _ => [(agentId, .slashForDispute)]
  | .lockBondForDispute _ agentId => [(agentId, .lock)]
  | .releaseBondAfterDispute _ agentId => [(agentId, .release)]

/-- An administrative action slashes a bond or touches no account. -/
def AdminAction.moves : AdminAction Addr Sym → List (Sym × Move Addr Sym)
  | .slashBond agentId _ => [(agentId, .slash)]
  | _ => []

def MultisigOp.moves (w : World Addr Sym) :
    MultisigOp Addr Sym → List (Sym × Move Addr Sym)
  | .executeOperation _ proposalId =>
    ((w.proposals.get proposalId).map fun proposal => proposal.action.moves).getD []
  | _ => []

/-- A report of the service is a move, compliant or not. -/
def MetricsOp.moves (w : World Addr Sym) :
    MetricsOp Sym → List (Sym × Move Addr Sym)
  | .checkSlaCompliance agentId responseTime uptime quality =>
    [(agentId, .checkSla ((w.agentMetrics.get agentId).all fun metrics =>
      violationType metrics responseTime uptime quality = none))]
  | _ => []

def Op.moves (env : Env Addr Sym) (signed : Addr → Bool) (w : World Addr Sym) :
    Op Addr Sym → List (Sym × Move Addr Sym)
  | .registration op => op.moves env signed w
  | .bond op => op.moves
  | .multisig op => op.moves w
  | .metrics op => op.moves w
  | _ => []

variable {env : Env Addr Sym} {signed : Addr → Bool} {w w' : World Addr Sym}

/-! ## Bonds -/

theorem execBond_moves {op : BondOp Addr Sym} (h : execBond env signed op w = .ok w') :
    Moved signed op.moves w w' ∧ BondsOnly w w' := by
  cases op with
  | depositBond => exact depositBond_moves h
  | restoreSlashedBond =>
    obtain ⟨total, hok⟩ := bind_snd_eq_ok.mp h
    exact restoreSlashedBond_moves hok
  | initiateBondReturn => exact initiateBondReturn_moves h
  | claimBond =>
    obtain ⟨returned, hok⟩ := bind_snd_eq_ok.mp h
    exact claimBond_moves hok
  | rewardBond => exact rewardBond_moves h
  | slashBondAmount => exact slashBondAmount_moves h
  | slashBond => exact slashBond_moves h
  | slashBondFromDispute =>
    obtain ⟨actual, hok⟩ := bind_snd_eq_ok.mp h
    exact slashBondFromDispute_moves hok
  | lockBondForDispute => exact lockBondForDispute_moves h
  | releaseBondAfterDispute => exact releaseBondAfterDispute_moves h

/-! ## Multi-signature administration -/

/-- What the multi-signature group may write: configuration, proposals, and a slashed bond. -/
structure AdminOnly (w w' : World Addr Sym) : Prop where
  frame : w' = { w with
    toControl := w'.toControl
    toMultisig := w'.toMultisig
    toAgents := w'.toAgents
    toBonds := w'.toBonds }
  faces : SameFaces w.agents w'.agents
  frozen : w'.frozen = w.frozen
  resolver : w'.disputeResolver = w.disputeResolver

omit [DecidableEq Addr] in
/-- **What an action does**, in a world where its proposal is already marked as executed. -/
theorem performAction_moves {action : AdminAction Addr Sym} {M : Multisig Addr Sym}
    (h : performAction action { w with toMultisig := M } = .ok w') :
    Moved signed action.moves w w' ∧ AdminOnly w w' := by
  cases action with
  | slashBond =>
    obtain ⟨actual, hsls⟩ := bind_snd_eq_ok.mp h
    obtain ⟨r, hr, hpen, hst, -, hs⟩ := internalSlashBond_ok hsls
    have hfrm := hs.bondsOnly.frame
    refine ⟨.one ?_ hs.others hs.pool hs.payouts, ⟨?_, hs.bondsOnly.faces, ?_, ?_⟩⟩
    · rw [hs.account]
      exact .slash hr hpen hst
    all_goals rw [hfrm]
  | setMultisigConfig =>
    obtain ⟨-, -, hw⟩ := bind_eq_ok.mp h
    obtain rfl := pure_eq_ok.mp hw
    exact ⟨.none rfl rfl, ⟨rfl, .refl _, rfl, rfl⟩⟩
  | _ =>
    obtain rfl := pure_eq_ok.mp h
    exact ⟨.none rfl rfl, ⟨rfl, .refl _, rfl, rfl⟩⟩

theorem execMultisig_moves {op : MultisigOp Addr Sym}
    (h : execMultisig env signed op w = .ok w') : Moved signed (op.moves w) w w' ∧ AdminOnly w w' := by
  cases op with
  | executeOperation executor proposalId =>
    simp only [execMultisig, executeOperation, bind_eq_ok, okOr_eq_ok] at h
    obtain ⟨-, -, -, -, proposal, hpr, -, -, -, -, -, -, -, -, -, -, h⟩ := h
    have hmvs : MultisigOp.moves w (.executeOperation executor proposalId)
        = proposal.action.moves := by
      rw [MultisigOp.moves, hpr, map_some, getD_some]
    rw [hmvs]
    exact performAction_moves h
  | proposeOperation =>
    simp only [execMultisig, proposeOperation, bind_eq_ok, pure_eq_ok, Prod.exists, Prod.mk.injEq] at h
    obtain ⟨id, w₁, ⟨-, -, -, -, -, -, -, -, -, -, -, rfl⟩, rfl⟩ := h
    exact ⟨.none rfl rfl, ⟨rfl, .refl _, rfl, rfl⟩⟩
  | setMultisigConfig | clearMultisigConfig | approveOperation | cancelOperation =>
    simp only [execMultisig, setMultisigConfig, clearMultisigConfig, approveOperation, cancelOperation] at h
    repeat obtain ⟨_, _, h⟩ := bind_eq_ok.mp h
    obtain rfl := pure_eq_ok.mp h
    exact ⟨.none rfl rfl, ⟨rfl, .refl _, rfl, rfl⟩⟩

/-! ## Metrics -/

/-- What the metrics group may write. -/
structure MetricsOnly (w w' : World Addr Sym) : Prop where
  frame : w' = { w with toMetrics := w'.toMetrics, toAgents := w'.toAgents }
  faces : SameFaces w.agents w'.agents

omit [DecidableEq Addr] in
/-- **A report of the service**: the penalty for a violation is taken from the agent's record. -/
theorem checkSlaCompliance_moves {id : Sym} {responseTime uptime quality : Nat}
    {compliant : Bool}
    (h : checkSlaCompliance id responseTime uptime quality w = .ok (compliant, w')) :
    Moved signed (MetricsOp.moves w (.checkSlaCompliance id responseTime uptime quality)) w w' ∧
      MetricsOnly w w' := by
  simp only [checkSlaCompliance, bind_eq_ok, okOr_eq_ok, orTrap_eq_ok] at h
  obtain ⟨metrics, hme, -, -, checks, -, h⟩ := h
  have hmvs : MetricsOp.moves w (.checkSlaCompliance id responseTime uptime quality)
      = [(id, .checkSla (violationType metrics responseTime uptime quality = none))] := by
    rw [MetricsOp.moves, hme, all_some]
  rw [hmvs]
  have htrm : violationType { metrics with totalChecks := checks, lastCheckAt := w.sequence }
      responseTime uptime quality = violationType metrics responseTime uptime quality := rfl
  rw [htrm] at h
  cases hkd : violationType metrics responseTime uptime quality with
  | none =>
    rw [hkd] at h
    obtain ⟨-, rfl⟩ := Prod.mk.inj (pure_eq_ok.mp h)
    refine ⟨.one .comply (fun _ _ => rfl) (Int.add_zero _).symm rfl, rfl, .refl _⟩
  | some =>
    rw [hkd] at h
    simp only [slaPenalty, bind_eq_ok, okOr_eq_ok, orTrap_eq_ok, checked128_eq_some, pure_eq_ok,
      Prod.mk.injEq] at h
    obtain ⟨-, -, -, -, r, hr, penalty, ⟨scaled, ⟨-, rfl⟩, rfl⟩, -, rfl⟩ := h
    by_cases hpos : 0 < (r.bondAmount * slaPenaltyPercent).tdiv 100
    · refine ⟨.one (.of_account ?_ (.penalise hr rfl hpos)) ?_ (Int.add_zero _).symm rfl, rfl, ?_⟩
      · simp [World.account, hpos]
      · intro x hx
        simp [World.account, hpos, get_set_ne _ _ hx]
      · rw [if_pos hpos]
        exact .set hr rfl
    · rw [if_neg hpos]
      exact ⟨.one (.spare hr (not_lt.mp hpos)) (fun _ _ => rfl) (Int.add_zero _).symm rfl, rfl, .refl _⟩

theorem execMetrics_moves {op : MetricsOp Sym} (h : execMetrics env signed op w = .ok w') :
    Moved signed (op.moves w) w w' ∧ MetricsOnly w w' := by
  cases op with
  | checkSlaCompliance =>
    obtain ⟨compliant, hok⟩ := bind_snd_eq_ok.mp h
    exact checkSlaCompliance_moves hok
  | recordTaskCompletion =>
    simp only [execMetrics, recordTaskCompletion, bind_eq_ok] at h
    obtain ⟨total, -, successful, -, failed, -, earned, -, h⟩ := h
    -- the average of the first task is computed in another way
    split at h
    · simp only [bind_eq_ok, pure_eq_ok] at h
      obtain ⟨-, -, rfl⟩ := h
      exact ⟨.none rfl rfl, rfl, .refl _⟩
    · simp only [bind_eq_ok, pure_eq_ok] at h
      obtain ⟨-, -, -, -, -, -, rfl⟩ := h
      exact ⟨.none rfl rfl, rfl, .refl _⟩
  | setSla =>
    simp only [execMetrics, setSla, bind_eq_ok, pure_eq_ok] at h
    obtain ⟨-, -, -, -, -, -, -, -, rfl⟩ := h
    exact ⟨.none rfl rfl, rfl, .refl _⟩

/-! ## Reputation, versions and discovery -/

omit [DecidableEq Addr] in
theorem batchScores_frame (updates : List (Sym × ReputationInput)) :
    ∀ w : World Addr Sym, ∃ s, updates.foldl
      (fun w update => { w with
        reputation := w.reputation.set update.1 ⟨update.1, reputationScoreFp update.2, w.now⟩ }) w
      = { w with reputation := s } := by
  induction updates with
  | nil => exact fun w => ⟨w.reputation, rfl⟩
  | cons update updates ih =>
    intro w
    rw [foldl_cons]
    obtain ⟨s, hs⟩ := ih _
    exact ⟨s, hs⟩

theorem execReputation_frame {op : ReputationOp Addr Sym}
    (h : execReputation env signed op w = .ok w') :
    w' = { w with toReputation := w'.toReputation } := by
  cases op with
  | setCoordinator | addAuthorizedCaller | removeAuthorizedCaller | recordTaskOutcome
  | setReputationConfig =>
    simp only [execReputation, setCoordinator, addAuthorizedCaller, removeAuthorizedCaller,
      recordTaskOutcome, setReputationConfig] at h
    repeat obtain ⟨_, _, h⟩ := bind_eq_ok.mp h
    obtain rfl := pure_eq_ok.mp h
    rfl
  | updateReputation =>
    simp only [execReputation, updateReputation, bind_eq_ok, pure_eq_ok, Prod.exists, Prod.mk.injEq] at h
    obtain ⟨-, -, ⟨-, -, -, -, -, -, -, rfl⟩, rfl⟩ := h
    rfl
  | getReputation =>
    simp only [execReputation, bind_eq_ok, pure_eq_ok, Prod.exists] at h
    obtain ⟨score, w₁, h, rfl⟩ := h
    simp only [getReputation, bind_eq_ok] at h
    obtain ⟨-, -, h⟩ := h
    split at h
    · obtain ⟨-, rfl⟩ := Prod.mk.inj (pure_eq_ok.mp h)
      rfl
    · obtain ⟨-, rfl⟩ := Prod.mk.inj (pure_eq_ok.mp h)
      rfl
  | batchUpdateReputation caller updates =>
    simp only [execReputation, bind_eq_ok, pure_eq_ok, Prod.exists] at h
    obtain ⟨results, w₁, h, rfl⟩ := h
    unfold batchUpdateReputation at h
    split at h
    · obtain ⟨-, rfl⟩ := Prod.mk.inj (pure_eq_ok.mp h)
      rfl
    · split at h
      · cases h
      · obtain ⟨-, rfl⟩ := Prod.mk.inj (pure_eq_ok.mp h)
        rfl
      · dsimp only at h
        split at h
        · obtain ⟨-, rfl⟩ := Prod.mk.inj (pure_eq_ok.mp h)
          rfl
        · obtain ⟨-, rfl⟩ := Prod.mk.inj (pure_eq_ok.mp h)
          obtain ⟨s, hs⟩ := batchScores_frame updates w
          rw [hs]

omit [DecidableEq Addr] in
theorem supersedeLatest_frame (w : World Addr Sym) (id : Sym) :
    supersedeLatest w id = { w with versionRecords := (supersedeLatest w id).versionRecords } := by
  unfold supersedeLatest
  split
  · rfl
  · split
    · rfl
    · rfl

theorem registerAgentVersion_frame {record : AgentRecord Addr Sym} {versionStr : List UInt8}
    (h : registerAgentVersion env signed record versionStr w = .ok w') :
    w' = { w with toVersions := w'.toVersions } := by
  simp only [registerAgentVersion, bind_eq_ok, pure_eq_ok] at h
  obtain ⟨-, -, -, -, -, -, -, -, -, -, -, -, -, -, rfl⟩ := h
  rw [supersedeLatest_frame]

omit [DecidableEq Addr] in
theorem discoverAgents_frame {query : DiscoveryQuery Sym} {results : List (DiscoveryResult Sym)}
    (h : discoverAgents env query w = .ok (results, w')) :
    w' = { w with toDiscovery := w'.toDiscovery } := by
  unfold discoverAgents at h
  split at h
  · simp only [bind_eq_ok, pure_eq_ok, Prod.mk.injEq] at h
    obtain ⟨-, -, -, rfl⟩ := h
    rfl
  · simp only [bind_eq_ok, pure_eq_ok, Prod.mk.injEq] at h
    obtain ⟨-, -, -, -, -, rfl⟩ := h
    rfl

theorem execDiscover_frame {query : DiscoveryQuery Sym}
    (h : exec env signed (.discoverAgents query) w = .ok w') :
    w' = { w with toDiscovery := w'.toDiscovery } := by
  obtain ⟨results, hok⟩ := bind_snd_eq_ok.mp h
  exact discoverAgents_frame hok

/-! ## Registration -/

omit [DecidableEq Addr] in
theorem Moved.congr {moves : List (Sym × Move Addr Sym)} {w₁ : World Addr Sym}
    (h : Moved signed moves w w₁) (hacc : ∀ id, w'.account id = w₁.account id)
    (hpo : w'.bondRewardPool = w₁.bondRewardPool) (hpd : w'.payouts = w₁.payouts) :
    Moved signed moves w w' := by
  refine ⟨?_, ?_, ?_⟩
  · intro id m hm
    obtain ⟨pool, paid, hc, hp, hq⟩ := h.moved id m hm
    exact ⟨pool, paid, .of_account (hacc id) hc, hpo.trans hp, by rw [hpd]; exact hq⟩
  · intro id hid
    obtain ⟨ha, hq⟩ := h.others id hid
    exact ⟨(hacc id).trans ha, by rw [hpd]; exact hq⟩
  · intro hnil
    exact hpo.trans (h.pool hnil)

theorem deregisterAgent_ok {id : Sym} (h : deregisterAgent env signed id w = .ok w') :
    Moved signed [(id, .deregister)] w w' ∧
      ((w.bondCooldown.get id).isSome = true ∧ w' = { w with toBonds := w'.toBonds } ∨
        ∃ r, w.bondCooldown.get id = none ∧ w.agents.get id = some r ∧
          w' = strikeOff w id r w'.toBonds) := by
  simp only [deregisterAgent, bind_eq_ok, requireNotPaused_eq_ok, failIf_eq_ok, exists_const,
    Bool.not_eq_true] at h
  obtain ⟨-, hfr, h⟩ := h
  cases hcd : w.bondCooldown.get id with
  | some cr =>
    rw [hcd] at h
    simp only [bind_eq_ok, requireAuth_eq_ok, failIf_eq_ok, exists_const, not_lt, pure_eq_ok] at h
    obtain ⟨-, hel, rfl⟩ := h
    refine ⟨?_, .inl ⟨rfl, rfl⟩⟩
    have hchg : Account.Change signed w .deregister (w.account id)
        { w.account id with
          cooldown := none
          bond := (w.account id).bond.map fun b =>
            { b with amountStroops := 0, status := .returned, cooldownUntil := none } }
        0 (max cr.bondAmount 0) := .complete hfr hcd hel
    by_cases hpos : 0 < cr.bondAmount
    · rw [max_eq_left (le_of_lt hpos)] at hchg
      rw [if_pos hpos]
      refine .pay rfl (.of_account ?_ hchg) ?_ rfl rfl
      · simp [World.account]
      · intro x hx
        simp [World.account, get_adjust_ne _ _ hx, get_remove_ne _ hx]
    · rw [max_eq_right (not_lt.mp hpos)] at hchg
      rw [if_neg hpos]
      refine .one (.of_account ?_ hchg) ?_ (Int.add_zero _).symm rfl
      · simp [World.account]
      · intro x hx
        simp [World.account, get_adjust_ne _ _ hx, get_remove_ne _ hx]
  | none =>
    rw [hcd] at h
    simp only [bind_eq_ok, okOr_eq_ok, requireAuth_eq_ok, exists_and_left, exists_const,
      orTrap_eq_ok, checked32_eq_some, loadBond_eq_ok, pure_eq_ok] at h
    obtain ⟨r, hr, -, expiry, ⟨-, rfl⟩, b, hb, rfl⟩ := h
    have hchg : Account.Change signed w .deregister (w.account id) { w.account id with
        record := none
        cooldown := some ⟨w.sequence + bondCooldownLedgers, r.owner, r.bondAmount⟩
        bond := some { b with
          status := .cooldown
          cooldownUntil := some (w.sequence + bondCooldownLedgers) } } 0 0 :=
      .leave hfr hcd hr hb
    refine ⟨.one (.of_account ?_ hchg) ?_ (Int.add_zero _).symm rfl, .inr ⟨r, rfl, hr, rfl⟩⟩
    · simp [World.account]
    · intro x hx
      simp [World.account, get_set_ne _ _ hx, get_remove_ne _ hx]

theorem updatePricing_ok {id : Sym} {price : Int}
    (h : updatePricing env signed id price w = .ok w') :
    Moved signed [(id, .reprice price)] w w' ∧ ∃ r, w.agents.get id = some r ∧ 0 < price ∧
      w' = { w with agents := w.agents.set id { r with priceStroops := price } } := by
  simp only [updatePricing, bind_eq_ok, requireNotPaused_eq_ok, requireNotFrozen_eq_ok,
    failIf_eq_ok, okOr_eq_ok, requireAuth_eq_ok, exists_const, not_le, pure_eq_ok] at h
  obtain ⟨-, -, hprc, r, hr, -, rfl⟩ := h
  refine ⟨.one (.of_account ?_ (.reprice hr)) ?_ (Int.add_zero _).symm rfl, r, hr, hprc, rfl⟩
  · simp [World.account]
  · intro x hx
    simp [World.account, get_set_ne _ _ hx]

/-! ## A batch -/

variable {agents before rest : List (AgentRecord Addr Sym)} {r : AgentRecord Addr Sym}

section

omit [DecidableEq Addr]

theorem AllAcceptable.once (h : AllAcceptable w before rest) {r' : AgentRecord Addr Sym}
    (hr' : r' ∈ before) (hr : r ∈ rest) : r'.id ≠ r.id := by
  induction rest generalizing before with
  | nil => cases hr
  | cons r₀ rest ih =>
    rcases mem_cons.mp hr with rfl | hmem
    · exact h.1.once r' hr'
    · exact ih h.2 (mem_append_left _ hr') hmem

/-- **What a batch does to the account of one of its records.** -/
theorem AllAcceptable.enrolled (h : AllAcceptable w before rest) (hr : r ∈ rest) :
    w.account r.id = (enrolAll w before).account r.id ∧ w.agents.get r.id = none ∧
      minBond w ≤ r.bondAmount ∧
      (enrolAll w (before ++ rest)).account r.id
        = { w.account r.id with
            record := some r
            bond := some ⟨r.owner, r.bondAmount, .active, none⟩
            slashed := false } := by
  induction rest generalizing before with
  | nil => cases hr
  | cons r₀ rest ih =>
    rcases mem_cons.mp hr with rfl | hmem
    · have hsm := enrolAll_account (w := w) h.1.once
      have hltr : ∀ r' ∈ rest, r'.id ≠ r.id := fun r' hr' =>
        (h.2.once (mem_append_right _ mem_cons_self) hr').symm
      refine ⟨hsm.symm, has_eq_false.mp h.1.new, h.1.bond.enough, ?_⟩
      have hspl : enrolAll w (before ++ r :: rest)
          = enrolAll (enrol (enrolAll w before) r) rest := by
        unfold enrolAll
        rw [foldl_append, foldl_cons]
      rw [hspl, enrolAll_account hltr, account_enrol_self, hsm]
    · obtain ⟨-, hnew, heno, hacc⟩ := ih h.2 hmem
      rw [append_assoc] at hacc
      have hear : ∀ r' ∈ before, r'.id ≠ r.id := fun r' hr' => h.once hr' hr
      exact ⟨(enrolAll_account hear).symm, hnew, heno, hacc⟩

theorem enrolAll_money (agents : List (AgentRecord Addr Sym)) :
    (enrolAll w agents).bondRewardPool = w.bondRewardPool ∧ (enrolAll w agents).payouts = w.payouts := by
  induction agents generalizing w with
  | nil => exact ⟨rfl, rfl⟩
  | cons r agents ih => exact ih (w := enrol w r)

theorem World.Same.account (h : World.Same w w') (id : Sym) : w'.account id = w.account id := by
  rw [h.rest]
  rfl

theorem enrolAll_moves (h : AllAcceptable w [] agents) :
    Moved signed (agents.map registerMove) w (enrolAll w agents) := by
  obtain ⟨hpo, hpd⟩ := enrolAll_money (w := w) agents
  refine ⟨?_, ?_, fun _ => hpo⟩
  · intro id m hm
    obtain ⟨r, hr, he⟩ := List.mem_map.mp hm
    cases he
    obtain ⟨-, hnew, heno, hacc⟩ := h.enrolled hr
    refine ⟨0, 0, .of_account hacc (.register hnew heno), ?_, ?_⟩
    · rw [hpo, Int.add_zero]
    · rw [hpd, Int.add_zero]
  · intro id hid
    refine ⟨enrolAll_account fun r hr he => ?_, by rw [hpd]⟩
    exact hid (.register r) (List.mem_map.mpr ⟨r, hr, he ▸ rfl⟩)

end

section

omit [DecidableEq Sym]

theorem uniqueOwners_complete (hr : r ∈ agents) : r.owner ∈ uniqueOwners agents := by
  induction agents using List.reverseRecOn with
  | nil => cases hr
  | append_singleton agents r' ih =>
    unfold uniqueOwners at ih ⊢
    rw [foldl_append]
    dsimp only [foldl_cons, foldl_nil]
    rcases mem_append.mp hr with hold | hla
    · split
      · exact ih hold
      · exact mem_append_left _ (ih hold)
    · obtain rfl := mem_singleton.mp hla
      split
      · rename_i hmem
        exact hmem
      · exact mem_append_right _ mem_cons_self

theorem owners_signed
    (h : (uniqueOwners agents).forM (requireAuth (ε := Error) env.toHost signed) = .ok ()) :
    ∀ r ∈ agents, r.owner ≠ env.self ∧ signed r.owner = true := by
  have hall : ∀ owner ∈ uniqueOwners agents, owner ≠ env.self ∧ signed owner = true := by
    revert h
    generalize uniqueOwners agents = owners
    intro h
    induction owners with
    | nil => exact fun _ ho => absurd ho not_mem_nil
    | cons owner owners ih =>
      obtain ⟨u, hfst, hrst⟩ := bind_eq_ok.mp h
      rw [forall_mem_cons]
      exact ⟨requireAuth_eq_ok.mp hfst, ih hrst⟩
  exact fun r hr => hall r.owner (uniqueOwners_complete hr)

end

theorem registerEach_paused (hpsd : w.paused = true) (hne : agents ≠ []) :
    (registerEach env signed agents w).toOption.isSome = false := by
  cases agents with
  | nil => exact absurd rfl hne
  | cons =>
    rw [← Bool.not_eq_true, isSome_iff_exists]
    rintro ⟨w', hw'⟩
    obtain ⟨w₁, hr, -⟩ := bind_eq_ok.mp (foldlM_cons.symm.trans (toOption_eq_some.mp hw'))
    have hun := (registerAgent_eq_ok.mp hr).1.unpaused
    rw [hpsd] at hun
    cases hun

/-- **What a batch does**: its registrations, if they could be made one at a time, or nothing. -/
theorem registerAgents_moves {results : List (BatchResult Sym)}
    (h : registerAgents env signed agents w = .ok (results, w')) :
    (batchMoves env signed w agents = [] ∧ w' = w) ∨
      (batchMoves env signed w agents = agents.map registerMove ∧
        AllAcceptable w [] agents ∧ World.Same (enrolAll w agents) w') := by
  unfold batchMoves
  by_cases hpsd : w.paused = true
  · unfold registerAgents at h
    rw [if_pos hpsd] at h
    obtain ⟨-, rfl⟩ := Prod.mk.inj (pure_eq_ok.mp h)
    refine .inl ⟨?_, rfl⟩
    by_cases hne : agents = []
    · rw [hne, map_nil, ite_self]
    · rw [registerEach_paused hpsd hne, if_neg Bool.false_ne_true]
  · have hun := Bool.eq_false_iff.mpr hpsd
    have hau : ∀ r ∈ agents, r.owner ≠ env.self ∧ signed r.owner = true := by
      unfold registerAgents at h
      rw [if_neg hpsd] at h
      obtain ⟨u, hsgn, -⟩ := bind_eq_ok.mp h
      exact owners_signed hsgn
    rcases registerAgents_ok hun h with ⟨-, -, hbat, hsm⟩ | ⟨-, hbad, rfl⟩
    · refine .inr ⟨?_, hbat.acceptable, hsm⟩
      rw [(registerEach_eq_ok hun hau).mpr ⟨hbat, rfl⟩]
      rfl
    · refine .inl ⟨?_, rfl⟩
      rcases hbad with rfl | hno
      · rw [map_nil, ite_self]
      · rw [if_neg]
        intro hso
        obtain ⟨w₁, hw₁⟩ := isSome_iff_exists.mp hso
        exact hno ((registerEach_eq_ok hun hau).mp (toOption_eq_some.mp hw₁)).1.acceptable

/-! ## Any call -/

theorem execRegistration_moves {op : RegistrationOp Addr Sym}
    (h : execRegistration env signed op w = .ok w') : Moved signed (op.moves env signed w) w w' := by
  cases op with
  | registerAgent =>
    obtain ⟨hai, rfl⟩ := registerAgent_eq_ok.mp h
    exact hai.moves
  | registerAgents =>
    obtain ⟨results, hok⟩ := bind_snd_eq_ok.mp h
    rcases registerAgents_moves hok with ⟨hno, rfl⟩ | ⟨hso, hall, hsm⟩
    · rw [RegistrationOp.moves, hno]
      exact .none rfl rfl
    · rw [RegistrationOp.moves, hso]
      have hrst := hsm.rest
      refine (enrolAll_moves hall).congr hsm.account ?_ ?_
      all_goals rw [hrst]
  | deregisterAgent => exact (deregisterAgent_ok h).1
  | updatePricing => exact (updatePricing_ok h).1

theorem execRegistration_frame {op : RegistrationOp Addr Sym}
    (h : execRegistration env signed op w = .ok w') :
    w' = { w with toAgents := w'.toAgents, toIndex := w'.toIndex, toBonds := w'.toBonds } := by
  cases op with
  | registerAgent =>
    obtain ⟨-, rfl⟩ := registerAgent_eq_ok.mp h
    rfl
  | registerAgents =>
    obtain ⟨results, hok⟩ := bind_snd_eq_ok.mp h
    rcases registerAgents_moves hok with ⟨-, rfl⟩ | ⟨-, -, hsm⟩
    · rfl
    · have hrst := hsm.rest
      rw [enrolAll_frame] at hrst
      rw [hrst]
  | deregisterAgent =>
    rcases (deregisterAgent_ok h).2 with ⟨-, hcmp⟩ | ⟨r, -, -, hlf⟩
    · rw [hcmp]
    · rw [hlf]
      rfl
  | updatePricing =>
    obtain ⟨-, r, -, -, rfl⟩ := updatePricing_ok h
    rfl

variable {op : Op Addr Sym}

/-- **Every call is a list of moves.** -/
theorem exec_moves (h : exec env signed op w = .ok w') :
    Moved signed (op.moves env signed w) w w' := by
  cases op with
  | control =>
    have hfrm := execControl_frame h
    refine .none ?_ ?_
    all_goals rw [hfrm]
  | multisig => exact (execMultisig_moves h).1
  | registration => exact execRegistration_moves h
  | bond => exact (execBond_moves h).1
  | metrics => exact (execMetrics_moves h).1
  | reputation =>
    have hfrm := execReputation_frame h
    refine .none ?_ ?_
    all_goals rw [hfrm]
  | registerAgentVersion =>
    have hfrm := registerAgentVersion_frame h
    refine .none ?_ ?_
    all_goals rw [hfrm]
  | discoverAgents =>
    have hfrm := execDiscover_frame h
    refine .none ?_ ?_
    all_goals rw [hfrm]

theorem exec_control (h : exec env signed op w = .ok w') :
    (∃ c, op = .control c ∧ w' = c.effect w) ∨
      (w'.frozen = w.frozen ∧ w'.disputeResolver = w.disputeResolver) := by
  cases op with
  | control c => exact .inl ⟨c, rfl, execControl_ok h⟩
  | multisig => exact .inr ⟨(execMultisig_moves h).2.frozen, (execMultisig_moves h).2.resolver⟩
  | registration =>
    rw [execRegistration_frame h]
    exact .inr ⟨rfl, rfl⟩
  | bond =>
    rw [(execBond_moves h).2.frame]
    exact .inr ⟨rfl, rfl⟩
  | metrics =>
    rw [(execMetrics_moves h).2.frame]
    exact .inr ⟨rfl, rfl⟩
  | reputation =>
    rw [execReputation_frame h]
    exact .inr ⟨rfl, rfl⟩
  | registerAgentVersion =>
    rw [registerAgentVersion_frame h]
    exact .inr ⟨rfl, rfl⟩
  | discoverAgents =>
    rw [execDiscover_frame h]
    exact .inr ⟨rfl, rfl⟩

/-! ## The roster of agents -/

/-- What a call with these moves does to the records and the indexes of the agents. -/
inductive RosterStep (moves : List (Sym × Move Addr Sym)) (w w' : World Addr Sym) :
    Prop where
  | kept : w'.toIndex = w.toIndex → SameFaces w.agents w'.agents →
      (∀ id record, (id, .register record) ∉ moves) → RosterStep moves w w'
  | enrolled (agents : List (AgentRecord Addr Sym)) : moves = agents.map registerMove →
      AllAcceptable w [] agents → World.Same (enrolAll w agents) w' → RosterStep moves w w'
  | left {id : Sym} {r : AgentRecord Addr Sym} : w.agents.get id = some r → moves = [(id, .deregister)] →
      w' = strikeOff w id r w'.toBonds → RosterStep moves w w'
  | repriced {id : Sym} {r : AgentRecord Addr Sym} {price : Int} :
      w.agents.get id = some r → moves = [(id, .reprice price)] → 0 < price →
      w' = { w with agents := w.agents.set id { r with priceStroops := price } } →
      RosterStep moves w w'

section

omit [DecidableEq Addr]

theorem Admissible.acceptable {r : AgentRecord Addr Sym} (h : Admissible env signed w r) :
    AllAcceptable w [] [r] :=
  have hno : Admissible env signed (enrolAll w []) r := h
  ⟨((admissible_enrolAll h.unpaused h.auth).mp hno).1, trivial⟩

theorem World.Same.refl (w : World Addr Sym) : World.Same w w := ⟨rfl, fun _ => rfl⟩

end

theorem execRegistration_roster {op : RegistrationOp Addr Sym}
    (h : execRegistration env signed op w = .ok w') : RosterStep (op.moves env signed w) w w' := by
  cases op with
  | registerAgent record =>
    obtain ⟨hai, rfl⟩ := registerAgent_eq_ok.mp h
    exact .enrolled [record] rfl hai.acceptable (.refl _)
  | registerAgents agents =>
    obtain ⟨results, hok⟩ := bind_snd_eq_ok.mp h
    rcases registerAgents_moves hok with ⟨hno, rfl⟩ | ⟨hso, hall, hsm⟩
    · refine .kept rfl (.refl _) ?_
      rw [RegistrationOp.moves, hno]
      exact fun _ _ => not_mem_nil
    · exact .enrolled agents hso hall hsm
  | deregisterAgent =>
    rcases (deregisterAgent_ok h).2 with ⟨-, hcmp⟩ | ⟨r, -, hr, hlf⟩
    · refine .kept ?_ ?_ ?_
      · rw [hcmp]
      · rw [hcmp]
        exact .refl _
      · intro x record hm
        cases mem_singleton.mp hm
    · exact .left hr rfl hlf
  | updatePricing =>
    obtain ⟨-, r, hr, hprc, hw⟩ := updatePricing_ok h
    exact .repriced hr rfl hprc hw

/-- **What a call does to the roster.** -/
theorem exec_roster (h : exec env signed op w = .ok w') :
    RosterStep (op.moves env signed w) w w' := by
  cases op with
  | registration => exact execRegistration_roster h
  | control =>
    have hfrm := execControl_frame h
    rw [hfrm]
    exact .kept rfl (.refl _) fun _ _ => not_mem_nil
  | multisig op =>
    obtain ⟨-, hadm⟩ := execMultisig_moves h
    have hfrm := hadm.frame
    refine .kept ?_ hadm.faces ?_
    · rw [hfrm]
    · intro id record hm
      cases op with
      | executeOperation executor proposalId =>
        cases hp : w.proposals.get proposalId with
        | none =>
          simp only [Op.moves, MultisigOp.moves, hp] at hm
          cases hm
        | some proposal =>
          simp only [Op.moves, MultisigOp.moves, hp, map_some, getD_some] at hm
          cases hac : proposal.action with
          | slashBond =>
            rw [hac] at hm
            cases mem_singleton.mp hm
          | _ =>
            rw [hac] at hm
            cases hm
      | _ => cases hm
  | bond op =>
    obtain ⟨-, hbds⟩ := execBond_moves h
    have hfrm := hbds.frame
    refine .kept ?_ hbds.faces ?_
    · rw [hfrm]
    · intro id record hm
      cases op <;> cases mem_singleton.mp hm
  | metrics op =>
    obtain ⟨-, hme⟩ := execMetrics_moves h
    have hfrm := hme.frame
    refine .kept ?_ hme.faces ?_
    · rw [hfrm]
    · intro id record hm
      cases op with
      | checkSlaCompliance => cases mem_singleton.mp hm
      | _ => cases hm
  | reputation =>
    have hfrm := execReputation_frame h
    rw [hfrm]
    exact .kept rfl (.refl _) fun _ _ => not_mem_nil
  | registerAgentVersion =>
    have hfrm := registerAgentVersion_frame h
    rw [hfrm]
    exact .kept rfl (.refl _) fun _ _ => not_mem_nil
  | discoverAgents =>
    have hfrm := execDiscover_frame h
    rw [hfrm]
    exact .kept rfl (.refl _) fun _ _ => not_mem_nil

/-! ## Any event -/

def Event.moves (env : Env Addr Sym) (w : World Addr Sym) :
    Event Addr Sym → List (Sym × Move Addr Sym)
  | .invoke signed op => op.moves env signed w
  | _ => []

theorem step_moves {e : Event Addr Sym} (hs : (system env).step w e = some w') :
    ∃ signed, Moved signed (e.moves env w) w w' := by
  cases e with
  | invoke signed => exact ⟨signed, exec_moves (step_invoke.mp hs)⟩
  | close | lapse =>
    cases hs
    exact ⟨fun _ => false, .none rfl rfl⟩

theorem step_roster {e : Event Addr Sym} (hs : (system env).step w e = some w') :
    RosterStep (e.moves env w) w w' := by
  cases e with
  | invoke => exact exec_roster (step_invoke.mp hs)
  | close | lapse =>
    cases hs
    exact .kept rfl (.refl _) fun _ _ => not_mem_nil

end AiNet.AgentRegistry
