import AiNet.AgentRegistry.Oracle

/-!
# When the discovery cache tells the truth

A cached answer is kept in temporary storage until its time to live lapses, and none of
the calls that change the agents looks at it. It stays right as long as none of them
changes the answer to a query that is cached: `KeepsAnswers`. Together with the numbers
that have to fit, that is exactly when the oracle answers from the registry as it is.
-/

namespace AiNet.AgentRegistry

open Core List Option Storage

variable {Addr Sym : Type} [DecidableEq Addr] [DecidableEq Sym]
variable {env : Env Addr Sym} {w w' : World Addr Sym} {query : DiscoveryQuery Sym}

/-! ## What disturbs an answer -/

/-- The move brings the agent into the answer, takes it out of it, or changes its price there. -/
def Move.Disturbs (env : Env Addr Sym) (w : World Addr Sym)
    (query : DiscoveryQuery Sym) (id : Sym) : Move Addr Sym → Prop
  | .register record => Offered env w query id record
  | .deregister => w.bondCooldown.get id = none ∧ ∃ r, Matches env w query id r
  | .reprice price => ∃ r, w.agents.get id = some r ∧ price ≠ r.priceStroops ∧
      (Offered env w query id r ∨ Offered env w query id { r with priceStroops := price })
  | _ => False

/-- The event changes the answer to a query: by a move, or by freezing or unfreezing an agent. -/
inductive Disturbs (env : Env Addr Sym) (w : World Addr Sym)
    (query : DiscoveryQuery Sym) (e : Event Addr Sym) : Prop where
  | moved {id : Sym} {m : Move Addr Sym} : (id, m) ∈ e.moves env w →
      m.Disturbs env w query id → Disturbs env w query e
  | frozen {signed : Addr → Bool} {id : Sym} {r : AgentRecord Addr Sym} :
      e = .invoke signed (.control (.freezeAgent id)) → Matches env w query id r →
      Disturbs env w query e
  | thawed {signed : Addr → Bool} {id : Sym} {r : AgentRecord Addr Sym} :
      e = .invoke signed (.control (.unfreezeAgent id)) → isAgentFrozen w id = true →
      w.agents.get id = some r → Fits env r query → Disturbs env w query e

def KeepsAnswers (env : Env Addr Sym) (w : World Addr Sym) (e : Event Addr Sym) :
    Prop :=
  ∀ query, w.discoveryCache.has query = true → ¬ Disturbs env w query e

/-- Every cached answer is what would be computed. -/
def Fresh (env : Env Addr Sym) (w : World Addr Sym) : Prop :=
  ∀ query results, w.discoveryCache.get query = some results → computeDiscovery env w query = .ok results

/-! ## What the calls do to freezing and to the cache -/

variable {signed : Addr → Bool}

theorem exec_frozen {op : Op Addr Sym} (h : exec env signed op w = .ok w') :
    (∃ id, op = .control (.freezeAgent id) ∧ w' = { w with frozen := w.frozen.set id true }) ∨
      (∃ id, op = .control (.unfreezeAgent id) ∧ w' = { w with frozen := w.frozen.set id false }) ∨
      w'.frozen = w.frozen := by
  rcases exec_control h with ⟨c, rfl, rfl⟩ | ⟨hfrz, -⟩
  · cases c with
    | freezeAgent id => exact .inl ⟨id, rfl, rfl⟩
    | unfreezeAgent id => exact .inr (.inl ⟨id, rfl, rfl⟩)
    | _ => exact .inr (.inr rfl)
  · exact .inr (.inr hfrz)

theorem exec_cache {op : Op Addr Sym} (h : exec env signed op w = .ok w')
    (hop : ∀ query, op ≠ .discoverAgents query) :
    w'.toDiscovery = w.toDiscovery := by
  cases op with
  | discoverAgents query => exact absurd rfl (hop query)
  | control => rw [execControl_frame h]
  | multisig => rw [(execMultisig_moves h).2.frame]
  | registration => rw [execRegistration_frame h]
  | bond => rw [(execBond_moves h).2.frame]
  | metrics => rw [(execMetrics_moves h).2.frame]
  | reputation => rw [execReputation_frame h]
  | registerAgentVersion => rw [registerAgentVersion_frame h]

theorem countQuery_eq_ok {stats stats' : DiscoveryStats} {found hits : Nat} :
    countQuery stats found hits = .ok stats' ↔
      (stats.totalQueries + 1 ≤ u64Max ∧ stats.cacheHits + hits ≤ u64Max ∧
        stats.totalMatchesFound + found ≤ u64Max) ∧
      stats' = ⟨stats.totalQueries + 1, stats.totalMatchesFound + found, stats.cacheHits + hits⟩ := by
  simp only [countQuery, bind_eq_ok, orTrap_eq_ok, checked64_eq_some, pure_eq_ok]
  constructor
  · rintro ⟨-, ⟨hqu, rfl⟩, -, ⟨hhi, rfl⟩, -, ⟨hfnd, rfl⟩, rfl⟩
    exact ⟨⟨hqu, hhi, hfnd⟩, rfl⟩
  · rintro ⟨⟨hqu, hhi, hfnd⟩, rfl⟩
    exact ⟨_, ⟨hqu, rfl⟩, _, ⟨hhi, rfl⟩, _, ⟨hfnd, rfl⟩, rfl⟩

variable {results : List (DiscoveryResult Sym)}

omit [DecidableEq Addr] in
/-- **A query**: a cached answer is returned as it is, and another one is computed and cached. -/
theorem discoverAgents_eq_ok :
    discoverAgents env query w = .ok (results, w') ↔ (w.discoveryCache.get query = some results ∧ ∃ stats,
        countQuery w.discoveryStats results.length 1 = .ok stats ∧
          w' = { w with discoveryStats := stats }) ∨
      (w.discoveryCache.get query = none ∧ computeDiscovery env w query = .ok results ∧ ∃ stats,
        countQuery w.discoveryStats results.length 0 = .ok stats ∧ w' = { w with
            discoveryCache := w.discoveryCache.set query results
            discoveryStats := stats }) := by
  unfold discoverAgents
  cases hcac : w.discoveryCache.get query with
  | some =>
    simp only [bind_eq_ok, pure_eq_ok, Prod.mk.injEq, Option.some.injEq, reduceCtorEq, false_and, or_false]
    constructor
    · rintro ⟨stats, hsts, rfl, rfl⟩
      exact ⟨rfl, stats, hsts, rfl⟩
    · rintro ⟨rfl, stats, hsts, rfl⟩
      exact ⟨stats, hsts, rfl, rfl⟩
  | none =>
    simp only [bind_eq_ok, pure_eq_ok, Prod.mk.injEq, reduceCtorEq, false_and, false_or, true_and]
    constructor
    · rintro ⟨computed, hcpd, stats, hsts, rfl, rfl⟩
      exact ⟨hcpd, stats, hsts, rfl⟩
    · rintro ⟨hcpd, stats, hsts, rfl⟩
      exact ⟨results, hcpd, stats, hsts, rfl, rfl⟩

/-! ## Undisturbed, the answer stays -/

section

omit [DecidableEq Addr]

theorem seen_unmatched (hi : Indexed w) {id : Sym}
    (hid : id ∈ getCapabilityIndex w query.requiredCapability)
    (h : ∀ r, ¬ Matches env w query id r) : seen env w query id = none := by
  refine seen_none ?_
  rintro r hr ⟨hfrz, hpss⟩
  obtain ⟨r', hr', hcap⟩ := (hi.listed _ id).mp hid
  cases hr.symm.trans hr'
  exact h r ⟨hr, hfrz, hcap, hpss⟩

theorem isAgentFrozen_set (id x : Sym) (b : Bool) :
    isAgentFrozen { w with frozen := w.frozen.set id b } x
      = if x = id then b else isAgentFrozen w x := by
  unfold isAgentFrozen
  dsimp only
  rw [get_set]
  split
  · rfl
  · rfl

theorem computeDiscovery_freeze (hi : Indexed w) {id : Sym} (h : ∀ r, ¬ Matches env w query id r) :
    computeDiscovery env { w with frozen := w.frozen.set id true } query
      = computeDiscovery env w query := by
  refine computeDiscovery_congr (filterMap_congr ?_)
  intro x hx
  have hfrz := isAgentFrozen_set (w := w) id x true
  by_cases hid : x = id
  · rw [if_pos hid] at hfrz
    rw [seen_unmatched hi hx (hid ▸ h)]
    refine seen_none ?_
    rintro r - ⟨hnot, -⟩
    rw [hfrz] at hnot
    cases hnot
  · rw [if_neg hid] at hfrz
    exact seen_congr hfrz rfl

theorem computeDiscovery_thaw (hi : Indexed w) {id : Sym}
    (h : isAgentFrozen w id = true → ∀ r, w.agents.get id = some r → ¬ Fits env r query) :
    computeDiscovery env { w with frozen := w.frozen.set id false } query
      = computeDiscovery env w query := by
  refine computeDiscovery_congr (filterMap_congr ?_)
  intro x hx
  have hfrz := isAgentFrozen_set (w := w) id x false
  by_cases hid : x = id ∧ isAgentFrozen w id = true
  · obtain ⟨rfl, hwas⟩ := hid
    obtain ⟨r, hr, hcap⟩ := (hi.listed _ x).mp hx
    have hnot : ¬ PassesFilters env r query := fun hpss => h hwas r hr ⟨hcap, hpss⟩
    have hsn : ∀ s : World Addr Sym, s.agents = w.agents → seen env s query x = none := by
      intro s hs
      refine seen_none ?_
      rintro r' hr' ⟨-, hpss⟩
      rw [hs, hr] at hr'
      exact hnot (some.inj hr' ▸ hpss)
    exact (hsn { w with frozen := w.frozen.set x false } rfl).trans (hsn w rfl).symm
  · refine seen_congr ?_ rfl
    rw [hfrz]
    split
    · rename_i he
      rw [he, eq_comm, ← Bool.not_eq_true]
      exact fun hwas => hid ⟨he, hwas⟩
    · rfl

theorem filterMap_filter_ne {β : Type} {f g : Sym → Option β} {l : List Sym} {id : Sym}
    (hid : f id = none) (h : ∀ x ∈ l, x ≠ id → g x = f x) :
    (l.filter fun x => x ≠ id).filterMap g = l.filterMap f := by
  induction l with
  | nil => rfl
  | cons x l ih =>
    have hrst := ih fun y hy => h y (mem_cons_of_mem x hy)
    by_cases hx : x = id
    · rw [filter_cons_of_neg (by simp [hx]), hrst, filterMap_cons_none (hx ▸ hid)]
    · rw [filter_cons_of_pos (by simp [hx]), filterMap_cons, filterMap_cons, hrst, h x mem_cons_self hx]

theorem computeDiscovery_enrolled (hi : Indexed w) {agents : List (AgentRecord Addr Sym)}
    (hall : AllAcceptable w [] agents) (hsm : World.Same (enrolAll w agents) w')
    (hfrz : ∀ x, isAgentFrozen w' x = isAgentFrozen w x)
    (hqt : ∀ r ∈ agents, ¬ Offered env w query r.id r) :
    computeDiscovery env w' query = computeDiscovery env w query := by
  refine computeDiscovery_congr ?_
  have hidx : getCapabilityIndex w' query.requiredCapability
      = getCapabilityIndex w query.requiredCapability
        ++ idsOf query.requiredCapability agents := by
    rw [← enrolAll_capabilityIndex]
    unfold getCapabilityIndex
    rw [hsm.index]
  -- the new agents are at the end of the index, and none of them is offered
  have hnew : (idsOf query.requiredCapability agents).filterMap (seen env w' query) = [] := by
    rw [filterMap_eq_nil_iff]
    intro x hx
    obtain ⟨r, hr, rfl⟩ := List.mem_map.mp hx
    obtain ⟨hmem, hcap⟩ := mem_filter.mp hr
    refine seen_none ?_
    rintro r' hr' ⟨hun, hpss⟩
    have hrec : w'.agents.get r.id = some r := by
      have hacc := (hsm.account r.id).trans (hall.enrolled hmem).2.2.2
      exact congrArg Account.record hacc
    cases hrec.symm.trans hr'
    rw [hfrz] at hun
    exact hqt r hmem ⟨hun, of_decide_eq_true hcap, hpss⟩
  rw [hidx, filterMap_append, hnew, append_nil]
  refine filterMap_congr ?_
  intro x hx
  obtain ⟨r, hr, -⟩ := (hi.listed _ x).mp hx
  rcases hall.get_after hsm x with ⟨r', hr', hid, -⟩ | ⟨-, hget⟩
  · have hno := (hall.enrolled hr').2.1
    rw [hid, hr] at hno
    cases hno
  · exact seen_congr (hfrz x) (by rw [hget])

end

variable {r : AgentRecord Addr Sym}

section

omit [DecidableEq Addr]

theorem computeDiscovery_left (hi : Indexed w) {id : Sym} (hr : w.agents.get id = some r)
    (hw : w' = strikeOff w id r w'.toBonds) (hfrz : ∀ x, isAgentFrozen w' x = isAgentFrozen w x)
    (hnot : ∀ r, ¬ Matches env w query id r) :
    computeDiscovery env w' query = computeDiscovery env w query := by
  refine computeDiscovery_congr ?_
  have hsn : ∀ x, x ≠ id → seen env w' query x = seen env w query x := by
    intro x hx
    refine seen_congr (hfrz x) ?_
    have hget : w'.agents.get x = w.agents.get x := by
      rw [hw]
      exact get_remove_ne _ hx
    rw [hget]
  have hidx : getCapabilityIndex w' query.requiredCapability
      = if query.requiredCapability = r.capability then
          (getCapabilityIndex w query.requiredCapability).filter fun x => x ≠ id
        else getCapabilityIndex w query.requiredCapability := by
    rw [hw, strikeOff_capabilityIndex]
  rw [hidx]
  by_cases hcap : query.requiredCapability = r.capability
  · rw [if_pos hcap]
    refine filterMap_filter_ne ?_ fun x _ hx => hsn x hx
    exact seen_unmatched hi ((hi.listed _ id).mpr ⟨r, hr, hcap.symm⟩) hnot
  · rw [if_neg hcap]
    refine filterMap_congr ?_
    intro x hx
    refine hsn x ?_
    rintro rfl
    obtain ⟨r', hr', hc⟩ := (hi.listed _ x).mp hx
    cases hr.symm.trans hr'
    exact hcap hc.symm

theorem computeDiscovery_repriced (hi : Indexed w) {id : Sym} {price : Int} (hr : w.agents.get id = some r)
    (hw : w' = { w with agents := w.agents.set id { r with priceStroops := price } })
    (hnot : ¬ (Move.reprice price).Disturbs env w query id) :
    computeDiscovery env w' query = computeDiscovery env w query := by
  have hget : ∀ x, w'.agents.get x
      = if x = id then some { r with priceStroops := price } else w.agents.get x := by
    intro x
    rw [hw]
    exact get_set _ _ _ _
  have hfrz : ∀ x, isAgentFrozen w' x = isAgentFrozen w x := by
    intro x
    rw [hw]
    rfl
  have hidx : getCapabilityIndex w' query.requiredCapability
      = getCapabilityIndex w query.requiredCapability := by rw [hw]; rfl
  refine computeDiscovery_congr ?_
  rw [hidx]
  refine filterMap_congr ?_
  intro x hx
  by_cases hid : x = id
  · obtain rfl := hid
    by_cases hprc : price = r.priceStroops
    · refine seen_congr (hfrz x) ?_
      rw [hget, if_pos rfl, hr, hprc]
    · obtain ⟨r', hr', hcap⟩ := (hi.listed _ x).mp hx
      cases hr.symm.trans hr'
      have hbf : seen env w query x = none := by
        refine seen_unmatched hi hx ?_
        rintro r' ⟨hr'', hof⟩
        cases hr.symm.trans hr''
        exact hnot ⟨r, hr, hprc, .inl hof⟩
      rw [hbf]
      refine seen_none ?_
      rintro r' hr'' ⟨hun, hpss⟩
      rw [hget, if_pos rfl] at hr''
      cases hr''
      exact hnot ⟨r, hr, hprc, .inr ⟨hfrz x ▸ hun, hcap, hpss⟩⟩
  · exact seen_congr (hfrz x) (by rw [hget, if_neg hid])

end

omit [DecidableEq Addr] [DecidableEq Sym] in
theorem Account.Change.cooldown_of_gone {A A' : Account Addr Sym} {pool paid : Int}
    (hc : Account.Change signed w .deregister A A' pool paid) (hr : A.record = some r)
    (hgn : A'.record = none) : A.cooldown = none := by
  cases hc with
  | leave _ hcd => exact hcd
  | complete => cases hr.symm.trans hgn

omit [DecidableEq Addr] in
/-- **A call that makes no disturbing move** leaves the answer, if it freezes nothing. -/
theorem computeDiscovery_roster {moves : List (Sym × Move Addr Sym)} (hi : Indexed w)
    (hs : RosterStep moves w w') (hmv : Moved signed moves w w') (hfrz : w'.frozen = w.frozen)
    (hqt : ∀ id m, (id, m) ∈ moves → ¬ m.Disturbs env w query id) :
    computeDiscovery env w' query = computeDiscovery env w query := by
  have hfre : ∀ x, isAgentFrozen w' x = isAgentFrozen w x := by
    intro x
    unfold isAgentFrozen
    rw [hfrz]
  cases hs with
  | kept hidx hfac =>
    have hsm : getCapabilityIndex w' query.requiredCapability
        = getCapabilityIndex w query.requiredCapability := by
      unfold getCapabilityIndex
      rw [hidx]
    refine computeDiscovery_congr ?_
    rw [hsm]
    exact filterMap_congr fun x _ => seen_congr (hfre x) (hfac x)
  | enrolled agents hmvs hall hsm =>
    refine computeDiscovery_enrolled hi hall hsm hfre ?_
    intro r hr
    refine hqt r.id (.register r) ?_
    rw [hmvs]
    exact List.mem_map_of_mem hr
  | @left id r hr hmvs hw =>
    have hmem : (id, Move.deregister) ∈ moves := by
      rw [hmvs]
      exact mem_cons_self
    obtain ⟨pool, paid, hc, -, -⟩ := hmv.moved id .deregister hmem
    have hgn : w'.agents.get id = none := by
      rw [hw]
      exact get_remove_self _ _
    have hcd : w.bondCooldown.get id = none := hc.cooldown_of_gone hr hgn
    exact computeDiscovery_left hi hr hw hfre
      fun r hmat => hqt id .deregister hmem ⟨hcd, r, hmat⟩
  | @repriced id r price hr hmvs _ hw =>
    refine computeDiscovery_repriced hi hr hw (hqt id (.reprice price) ?_)
    rw [hmvs]
    exact mem_cons_self

/-! ## The cache through a run -/

variable {e : Event Addr Sym}

theorem not_disturbs_of_noMoves (hmvs : e.moves env w = [])
    (he : ∀ signed op, e ≠ .invoke signed (.control op)) : ¬ Disturbs env w query e := by
  intro h
  cases h with
  | moved hm =>
    rw [hmvs] at hm
    cases hm
  | frozen hfrz => exact he _ _ hfrz
  | thawed hth => exact he _ _ hth

/-- **An event that does not disturb the answer** leaves it. -/
theorem computeDiscovery_step (hi : Indexed w) (hs : (system env).step w e = some w')
    (h : ¬ Disturbs env w query e) :
    computeDiscovery env w' query = computeDiscovery env w query := by
  have hqt : w'.frozen = w.frozen → computeDiscovery env w' query = computeDiscovery env w query := by
    intro hfrz
    obtain ⟨signed, hmv⟩ := step_moves hs
    exact computeDiscovery_roster hi (step_roster hs) hmv hfrz fun id m hm hd => h (.moved hm hd)
  cases e with
  | close | lapse =>
    cases hs
    exact hqt rfl
  | invoke =>
    rcases exec_frozen (step_invoke.mp hs) with ⟨id, rfl, rfl⟩ | ⟨id, rfl, rfl⟩ | hfrz
    · exact computeDiscovery_freeze hi fun r hmat => h (.frozen rfl hmat)
    · exact computeDiscovery_thaw hi fun hwas r hr hft => h (.thawed rfl hwas hr hft)
    · exact hqt hfrz

omit [DecidableEq Addr] in
theorem Answers.agree (h : Answers env w query results) (h' : Answers env w' query results) {id : Sym}
    (hmat : Matches env w query id r) :
    ∃ r', Matches env w' query id r' ∧ r'.priceStroops = r.priceStroops := by
  have hmem := (h.exactly id).mpr ⟨r, hmat⟩
  obtain ⟨r', hmat'⟩ := (h'.exactly id).mp hmem
  obtain ⟨res, hres, rfl⟩ := List.mem_map.mp hmem
  obtain ⟨r₁, hr₁, hprc₁, -⟩ := h.current res hres
  obtain ⟨r₂, hr₂, hprc₂, -⟩ := h'.current res hres
  cases hmat.1.symm.trans hr₁
  cases hmat'.1.symm.trans hr₂
  exact ⟨r', hmat', hprc₂.symm.trans hprc₁⟩

theorem frozen_of_move (hs : (system env).step w e = some w') {id : Sym} {m : Move Addr Sym}
    (hm : (id, m) ∈ e.moves env w) :
    w'.frozen = w.frozen := by
  cases e with
  | close | lapse => cases hm
  | invoke =>
    rcases exec_frozen (step_invoke.mp hs) with ⟨x, rfl, -⟩ | ⟨x, rfl, -⟩ | hfrz
    · cases hm
    · cases hm
    · exact hfrz

omit [DecidableEq Addr] in
theorem Account.Change.not_disturbs {m : Move Addr Sym} {id : Sym} {pool paid : Int}
    (hc : Account.Change signed w m (w.account id) (w'.account id) pool paid) (hfrz : w'.frozen = w.frozen)
    (hgn : ∀ r, Matches env w query id r → ∃ r', Matches env w' query id r' ∧ r'.priceStroops = r.priceStroops)
    (hco : ∀ r, Matches env w' query id r → ∃ r', Matches env w query id r' ∧ r'.priceStroops = r.priceStroops) :
    ¬ m.Disturbs env w query id := by
  intro hd
  have hof : ∀ r, Offered env w query id r → Offered env w' query id r := by
    rintro r ⟨hun, hft⟩
    refine ⟨?_, hft⟩
    unfold isAgentFrozen at hun ⊢
    rw [hfrz]
    exact hun
  have hrec : (w.account id).record = w.agents.get id := rfl
  have hrec' : (w'.account id).record = w'.agents.get id := rfl
  have hcd : (w.account id).cooldown = w.bondCooldown.get id := rfl
  generalize w.account id = A at hc hrec hcd
  generalize w'.account id = A' at hc hrec'
  cases hc with
  | @register _ record hno =>
    obtain ⟨r', hmat, -⟩ := hco record ⟨hrec'.symm, hof record hd⟩
    cases (hno.symm.trans hrec).trans hmat.1
  | @reprice _ r price hr =>
    obtain ⟨r₀, hr₀, hprc, hso⟩ := hd
    obtain rfl : r = r₀ := some.inj ((hr.symm.trans hrec).trans hr₀)
    rcases hso with hbf | haf
    · obtain ⟨r', hmat, he⟩ := hgn r ⟨hr₀, hbf⟩
      cases hrec'.trans hmat.1
      exact hprc he
    · obtain ⟨r', hmat, he⟩ := hco _ ⟨hrec'.symm, hof _ haf⟩
      cases hr₀.symm.trans hmat.1
      exact hprc he.symm
  | leave =>
    obtain ⟨-, r, hmat⟩ := hd
    obtain ⟨r', hmat', -⟩ := hgn r hmat
    cases hrec'.trans hmat'.1
  | complete _ hpnd =>
    cases (hpnd.symm.trans hcd).trans hd.1
  | _ => exact hd

/-- **An event that disturbs the answer** changes it. -/
theorem not_disturbs_of_answers (h : Answers env w query results) (h' : Answers env w' query results)
    (hs : (system env).step w e = some w') : ¬ Disturbs env w query e := by
  intro hd
  cases hd with
  | @frozen signed id r he hmat =>
    subst he
    obtain ⟨r', hmat', -⟩ := h.agree h' hmat
    have hec : execControl env signed (.freezeAgent id) w = .ok w' := step_invoke.mp hs
    obtain rfl := execControl_ok hec
    have hfrz : isAgentFrozen { w with frozen := w.frozen.set id true } id = false :=
      hmat'.2.1
    rw [isAgentFrozen_set, if_pos rfl] at hfrz
    cases hfrz
  | @thawed signed id r he hwas hr hft =>
    subst he
    have hec : execControl env signed (.unfreezeAgent id) w = .ok w' := step_invoke.mp hs
    obtain rfl := execControl_ok hec
    have hun : isAgentFrozen { w with frozen := w.frozen.set id false } id = false := by
      rw [isAgentFrozen_set, if_pos rfl]
    obtain ⟨r', hmat, -⟩ := h'.agree h ⟨hr, hun, hft⟩
    cases hwas.symm.trans hmat.2.1
  | @moved id m hm hd =>
    obtain ⟨signed, hmv⟩ := step_moves hs
    obtain ⟨pool, paid, hc, -, -⟩ := hmv.moved id m hm
    exact hc.not_disturbs (frozen_of_move hs hm) (fun r => h.agree h') (fun r => h'.agree h) hd

theorem step_cache (hs : (system env).step w e = some w') :
    w'.discoveryCache = w.discoveryCache ∨
      (e.moves env w = [] ∧ (∀ signed op, e ≠ .invoke signed (.control op)) ∧
        ∀ query results, w'.discoveryCache.get query = some results →
          w.discoveryCache.get query = some results ∨ computeDiscovery env w query = .ok results) := by
  cases e with
  | close =>
    cases hs
    exact .inl rfl
  | lapse query =>
    cases hs
    refine .inr ⟨rfl, nofun, ?_⟩
    intro q results hq
    exact .inl (get_of_remove (s := w.discoveryCache) (k := query) hq)
  | invoke signed op =>
    have hec := step_invoke.mp hs
    by_cases hop : ∃ query, op = .discoverAgents query
    · obtain ⟨query, rfl⟩ := hop
      refine .inr ⟨rfl, nofun, ?_⟩
      obtain ⟨results, hok⟩ := bind_snd_eq_ok.mp hec
      intro q cached hq
      rcases discoverAgents_eq_ok.mp hok with ⟨-, stats, -, rfl⟩ | ⟨-, hcpd, stats, -, rfl⟩
      · exact .inl hq
      · dsimp only at hq
        rw [get_set] at hq
        split at hq
        · rename_i hqry
          rw [hqry, ← some.inj hq]
          exact .inr hcpd
        · exact .inl hq
    · exact .inl (congrArg Discovery.discoveryCache (exec_cache hec fun q hq => hop ⟨q, hq⟩))

/-- **The step**: cached answers that are right stay right exactly when none of them is disturbed. -/
theorem fresh_step (hi : Indexed w) (hi' : Indexed w') (hs : (system env).step w e = some w')
    (h : Fresh env w) : Fresh env w' ↔ KeepsAnswers env w e := by
  constructor
  · intro h' query hlv hd
    rcases step_cache hs with hcac | ⟨hmvs, hco, -⟩
    · obtain ⟨results, hre⟩ := isSome_iff_exists.mp hlv
      have han := computeDiscovery_answers hi (h query results hre)
      have han' := computeDiscovery_answers hi' (h' query results (hcac ▸ hre))
      exact not_disturbs_of_answers han han' hs hd
    · exact not_disturbs_of_noMoves hmvs hco hd
  · intro hkps query results hq
    rcases step_cache hs with hcac | ⟨hmvs, hco, hold⟩
    · rw [hcac] at hq
      rw [computeDiscovery_step hi hs (hkps query (isSome_iff_exists.mpr ⟨results, hq⟩))]
      exact h query results hq
    · rw [computeDiscovery_step hi hs (not_disturbs_of_noMoves hmvs hco)]
      rcases hold query results hq with hca | hcpd
      · exact h query results hca
      · exact hcpd

theorem cacheHits_reachable {guard : World Addr Sym → Event Addr Sym → Prop}
    (h : (system env).Reachable guard w) : w.discoveryStats.cacheHits ≤ u64Max := by
  refine System.Reachable.invariant (I := fun w => w.discoveryStats.cacheHits ≤ u64Max) ?_ ?_ h
  · rintro w₀ ⟨now, sequence, rfl⟩
    exact Nat.zero_le _
  · intro w e w' _ _ hI hs
    cases e with
    | close | lapse =>
      cases hs
      exact hI
    | invoke signed op =>
      have hec := step_invoke.mp hs
      by_cases hop : ∃ query, op = .discoverAgents query
      · obtain ⟨query, rfl⟩ := hop
        obtain ⟨results, hok⟩ := bind_snd_eq_ok.mp hec
        rcases discoverAgents_eq_ok.mp hok with ⟨-, stats, hsts, rfl⟩ | ⟨-, -, stats, hsts, rfl⟩
        · obtain ⟨⟨-, hhi, -⟩, rfl⟩ := countQuery_eq_ok.mp hsts
          exact hhi
        · obtain ⟨⟨-, hhi, -⟩, rfl⟩ := countQuery_eq_ok.mp hsts
          exact hhi
      · have hkpt := exec_cache hec fun q hq => hop ⟨q, hq⟩
        rw [congrArg Discovery.discoveryStats hkpt]
        exact hI

/-! ## The oracle and the registry -/

/-- Every query is answered, with the answer that the registry asks for and a fresh computation gives. -/
def Reflects (env : Env Addr Sym) (w : World Addr Sym) : Prop :=
  ∀ query, ∃ results w', discoverAgents env query w = .ok (results, w') ∧
    Answers env w query results ∧ computeDiscovery env w query = .ok results

def unfrozenCount (w : World Addr Sym) (capability : Sym) : Nat :=
  (getCapabilityIndex w capability).countP fun id => !isAgentFrozen w id

/-- The numbers fit: a hundred times each price on offer, and the statistics after one more query. -/
structure Countable (w : World Addr Sym) : Prop where
  prices : ∀ id r, w.agents.get id = some r → isAgentFrozen w id = false → r.priceStroops * 100 ≤ i128Max
  queries : w.discoveryStats.totalQueries + 1 ≤ u64Max
  found : ∀ capability, w.discoveryStats.totalMatchesFound + unfrozenCount w capability ≤ u64Max
  hits : ∀ query, w.discoveryCache.has query = true → w.discoveryStats.cacheHits + 1 ≤ u64Max

/-- The query for a capability without any limits. -/
def unlimited (capability : Sym) : DiscoveryQuery Sym := ⟨capability, 0, 0, 0⟩

section

omit [DecidableEq Addr]

theorem fits_unlimited (r : AgentRecord Addr Sym) : Fits env r (unlimited r.capability) :=
  ⟨rfl, fun h => absurd h (lt_irrefl 0), fun h => absurd h (Nat.lt_irrefl 0),
    fun h => absurd h (Nat.lt_irrefl 0)⟩

theorem length_candidates_le : (candidates env w query).length
    ≤ unfrozenCount w query.requiredCapability := by
  unfold candidates unfrozenCount
  rw [length_filterMap_eq_countP]
  refine countP_mono_left ?_
  intro id _ hso
  obtain ⟨c, hc⟩ := isSome_iff_exists.mp hso
  obtain ⟨r, -, hfrz, -⟩ := candidateOf_eq_some.mp hc
  rw [hfrz]
  rfl

theorem length_candidates_unlimited (hi : Indexed w) (capability : Sym) :
    (candidates env w (unlimited capability)).length = unfrozenCount w capability := by
  refine le_antisymm length_candidates_le ?_
  unfold candidates unfrozenCount
  rw [length_filterMap_eq_countP]
  refine countP_mono_left ?_
  intro id hid hfrz
  obtain ⟨r, hr, rfl⟩ := (hi.listed _ id).mp hid
  rw [Bool.not_eq_true'] at hfrz
  exact isSome_iff_exists.mpr
    ⟨_, candidateOf_eq_some.mpr ⟨r, hr, hfrz, (fits_unlimited r).passes, rfl⟩⟩

theorem length_computeDiscovery (h : computeDiscovery env w query = .ok results) :
    results.length = (candidates env w query).length := rank_length h

/-- **When the oracle reflects the registry**: the cached answers are right, and the numbers fit. -/
theorem reflects_iff (hi : Indexed w) (hp : Priced w) (hhi0 : w.discoveryStats.cacheHits ≤ u64Max) :
    Reflects env w ↔ Fresh env w ∧ Countable w := by
  constructor
  · intro h
    -- what a successful query says of the counters, whether it hits the cache or not
    have hcts : ∀ query, ∃ results, computeDiscovery env w query = .ok results ∧
        w.discoveryStats.totalQueries + 1 ≤ u64Max ∧
        w.discoveryStats.totalMatchesFound + results.length ≤ u64Max ∧
        ((w.discoveryCache.get query = some results ∧ w.discoveryStats.cacheHits + 1 ≤ u64Max) ∨
          w.discoveryCache.get query = none) := by
      intro query
      obtain ⟨results, w', hok, -, hcpd⟩ := h query
      refine ⟨results, hcpd, ?_⟩
      rcases discoverAgents_eq_ok.mp hok with ⟨hca, stats, hsts, -⟩ | ⟨hno, -, stats, hsts, -⟩
      · obtain ⟨⟨hqu, hhi, hfnd⟩, -⟩ := countQuery_eq_ok.mp hsts
        exact ⟨hqu, hfnd, .inl ⟨hca, hhi⟩⟩
      · obtain ⟨⟨hqu, -, hfnd⟩, -⟩ := countQuery_eq_ok.mp hsts
        exact ⟨hqu, hfnd, .inr hno⟩
    refine ⟨?_, ?_, ?_, ?_, ?_⟩
    · intro query cached hca
      obtain ⟨results, hcpd, -, -, ⟨hsm, -⟩ | hno⟩ := hcts query
      · cases hca.symm.trans hsm
        exact hcpd
      · cases hca.symm.trans hno
    · -- the unlimited query for its capability matches the agent
      intro id r hr hfrz
      obtain ⟨results, hcpd, -⟩ := hcts (unlimited r.capability)
      exact (exists_computeDiscovery hi hp).mp ⟨results, hcpd⟩ id r
        ⟨hr, hfrz, fits_unlimited r⟩
    · obtain ⟨-, -, hqu, -⟩ := hcts (unlimited env.keys.rep)
      exact hqu
    · intro capability
      obtain ⟨results, hcpd, -, hfnd, -⟩ := hcts (unlimited capability)
      rwa [length_computeDiscovery hcpd, length_candidates_unlimited hi] at hfnd
    · intro query hlv
      obtain ⟨results, -, -, -, ⟨-, hhi⟩ | hno⟩ := hcts query
      · exact hhi
      · rw [has, hno] at hlv
        cases hlv
  · rintro ⟨hfr, hco⟩ query
    obtain ⟨results, hcpd⟩ : ∃ results, computeDiscovery env w query = .ok results :=
      (exists_computeDiscovery hi hp).mpr fun id r hmat =>
        hco.prices id r hmat.1 hmat.2.1
    have hlen : w.discoveryStats.totalMatchesFound + results.length ≤ u64Max := by
      have := hco.found query.requiredCapability
      have : (candidates env w query).length ≤ _ := length_candidates_le
      rw [length_computeDiscovery hcpd]
      omega
    have hok : ∃ w', discoverAgents env query w = .ok (results, w') := by
      cases hcac : w.discoveryCache.get query with
      | some cached =>
        obtain rfl : cached = results := by
          have := (hfr query cached hcac).symm.trans hcpd
          cases this
          rfl
        have hhi := hco.hits query (isSome_iff_exists.mpr ⟨cached, hcac⟩)
        exact ⟨_, discoverAgents_eq_ok.mpr (.inl ⟨hcac, _,
          countQuery_eq_ok.mpr ⟨⟨hco.queries, hhi, hlen⟩, rfl⟩, rfl⟩)⟩
      | none =>
        exact ⟨_, discoverAgents_eq_ok.mpr (.inr ⟨hcac, hcpd, _,
          countQuery_eq_ok.mpr ⟨⟨hco.queries, hhi0, hlen⟩, rfl⟩, rfl⟩)⟩
    obtain ⟨w', hok⟩ := hok
    exact ⟨results, w', hok, computeDiscovery_answers hi hcpd, hcpd⟩

end

/--
**When discovery reflects the registry.** In a run, every query is answered from the records as they are,
in every state passed, if and only if no event changes the answer to a query that is cached at that time,
and the numbers fit in every state passed.
-/
theorem discovery_reflects_iff {guard : World Addr Sym → Event Addr Sym → Prop}
    {log : List (World Addr Sym × Event Addr Sym)}
    (h : (system env).Logged guard w log) :
    (∀ s ∈ log.map Prod.fst ++ [w], Reflects env s) ↔ (∀ entry ∈ log, KeepsAnswers env entry.1 entry.2) ∧
        ∀ s ∈ log.map Prod.fst ++ [w], Countable s := by
  have hfr : (∀ s ∈ log.map Prod.fst ++ [w], Fresh env s) ↔
      ∀ entry ∈ log, KeepsAnswers env entry.1 entry.2 := by
    refine h.forall_passed_iff ?_ ?_
    · rintro w₀ ⟨now, sequence, rfl⟩ query results hca
      cases hca
    · intro s e s' hs hg hst hfr
      exact fresh_step (indexed_reachable hs) (indexed_reachable (hs.tail hg hst)) hst hfr
  have hre : ∀ s ∈ log.map Prod.fst ++ [w], (Reflects env s ↔ Fresh env s ∧ Countable s) := by
    intro s hs
    have hrch := h.passed hs
    exact reflects_iff (indexed_reachable hrch) (priced_reachable hrch)
      (cacheHits_reachable hrch)
  rw [← hfr]
  constructor
  · intro hall
    exact ⟨fun s hs => ((hre s hs).mp (hall s hs)).1, fun s hs => ((hre s hs).mp (hall s hs)).2⟩
  · rintro ⟨hall, hcnt⟩ s hs
    exact (hre s hs).mpr ⟨hall s hs, hcnt s hs⟩

/-! ## Runs of it -/

namespace Sample

/-- A query for the capability of the agents, and the agent `44` at a price of 50. -/
def asked : List (Event Nat Nat) :=
  installed ++
    [ call 4 (.registration (.registerAgent (agent 44 4 100))), call 9 (.discoverAgents (unlimited 7)) ]

/-- The price goes up after the answer was cached. -/
def repriced : List (Event Nat Nat) :=
  asked ++ [call 4 (.registration (.updatePricing 44 80))]

theorem exists_repriced : ∃ w, (system deployment).Logged ClockMonotone w
      ((system deployment).record repriced (World.init 0 0)) ∧
    w.discoveryCache.get (unlimited 7) = some [⟨44, 5500, 50, 100, 100, 100⟩] ∧
    (w.agents.get 44).map AgentRecord.priceStroops = some 80 := by
  have hpl : ((system deployment).play ClockMonotone repriced (World.init 0 0)).any (fun w =>
      w.discoveryCache.get (unlimited 7) = some [⟨44, 5500, 50, 100, 100, 100⟩] ∧
        (w.agents.get 44).map AgentRecord.priceStroops = some 80) = true := by
    decide
  exact System.exists_logged (start_init _ 0 0) hpl

end Sample

/-- The run with the new price: right throughout if and only if no cached answer was disturbed. -/
theorem discovery_reflects_iff_repriced : ∃ (w : World Nat Nat)
    (log : List (World Nat Nat × Event Nat Nat)),
    (system Sample.deployment).Logged ClockMonotone w log ∧
      ((∀ s ∈ log.map Prod.fst ++ [w], Reflects Sample.deployment s) ↔
        (∀ entry ∈ log, KeepsAnswers Sample.deployment entry.1 entry.2) ∧
          ∀ s ∈ log.map Prod.fst ++ [w], Countable s) := by
  obtain ⟨w, hlog, -⟩ := Sample.exists_repriced
  exact ⟨w, _, hlog, discovery_reflects_iff hlog⟩

/-- The old price, from the cache: the agent asks for 80, and the answer says 50. -/
theorem stale_answer : ∃ w : World Nat Nat, (system Sample.deployment).Reachable ClockMonotone w ∧
    ¬ Reflects Sample.deployment w := by
  obtain ⟨w, hlog, hca, hprc⟩ := Sample.exists_repriced
  refine ⟨w, hlog.reachable, ?_⟩
  intro h
  obtain ⟨results, w', hok, han, -⟩ := h (unlimited 7)
  rcases discoverAgents_eq_ok.mp hok with ⟨hsm, -⟩ | ⟨hno, -⟩
  · cases hca.symm.trans hsm
    obtain ⟨r, hr, hold, -⟩ := han.current _ mem_cons_self
    obtain ⟨r', hr', hnew⟩ := map_eq_some_iff.mp hprc
    cases hr.symm.trans hr'
    rw [hnew] at hold
    exact absurd hold (by decide)
  · cases hca.symm.trans hno

end AiNet.AgentRegistry
