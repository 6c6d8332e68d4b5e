import AiNet.AgentRegistry.Index

/-!
# What the discovery oracle computes

The answer to a query, from the records as they are: `Answers` says which agents are in
it, with which figures and in which order, and `computeDiscovery_answers` that the filter,
the scores and the sort produce it. They fail only when a hundredfold price does not fit.
-/

namespace AiNet.AgentRegistry

open Core List Option DiscoveryResult Storage

variable {Addr Sym : Type} [DecidableEq Addr] [DecidableEq Sym]
variable {env : Env Addr Sym} {w w' : World Addr Sym} {query : DiscoveryQuery Sym}

/-! ## What a query asks for -/

section Figures

variable (env : Env Addr Sym) (r : AgentRecord Addr Sym)

def reputationOf : Nat := getMetadataU32 r.metadata env.keys.reputation env.keys.rep 100

def responseTimeOf : Nat := getMetadataU32 r.metadata env.keys.responseTime env.keys.latency 100

def availabilityOf : Nat := getMetadataU32 r.metadata env.keys.availability env.keys.avail 100

/-- The record passes the filters of a query; a limit of zero is no limit. -/
structure PassesFilters (query : DiscoveryQuery Sym) : Prop where
  price : 0 < query.maxPrice → r.priceStroops ≤ query.maxPrice
  reputation : 0 < query.minReputation → query.minReputation ≤ reputationOf env r
  latency : 0 < query.maxLatency → responseTimeOf env r ≤ query.maxLatency

/-- The record has the capability that is asked for, and passes. -/
structure Fits (query : DiscoveryQuery Sym) : Prop where
  capability : r.capability = query.requiredCapability
  passes : PassesFilters env r query

end Figures

/-- The agent would be offered with this record: it is not frozen, and the record passes the filters. -/
def Offered (env : Env Addr Sym) (w : World Addr Sym) (query : DiscoveryQuery Sym)
    (id : Sym) (r : AgentRecord Addr Sym) : Prop :=
  isAgentFrozen w id = false ∧ Fits env r query

/-- The agent is registered, and offered with its current record. -/
def Matches (env : Env Addr Sym) (w : World Addr Sym) (query : DiscoveryQuery Sym)
    (id : Sym) (r : AgentRecord Addr Sym) : Prop :=
  w.agents.get id = some r ∧ Offered env w query id r

/-- The answer to a query that the registry asks for as it is. -/
structure Answers (env : Env Addr Sym) (w : World Addr Sym)
    (query : DiscoveryQuery Sym) (results : List (DiscoveryResult Sym)) : Prop where
  exactly : ∀ id, id ∈ results.map agentId ↔ ∃ r, Matches env w query id r
  current : ∀ res ∈ results, ∃ r, w.agents.get res.agentId = some r ∧
    res.priceStroops = r.priceStroops ∧ res.reputation = reputationOf env r ∧
    res.availability = availabilityOf env r ∧ res.responseTime = responseTimeOf env r
  once : (results.map agentId).Nodup
  ranked : results.Pairwise fun a b => b.compositeScore ≤ a.compositeScore
  inRange : ∀ res ∈ results, res.compositeScore ≤ 10000

/-! ## The filter -/

/-- What the oracle keeps of an agent it offers. -/
def candidate (env : Env Addr Sym) (r : AgentRecord Addr Sym) : Candidate Addr Sym :=
  ⟨r, reputationOf env r, availabilityOf env r, responseTimeOf env r⟩

variable {c : Candidate Addr Sym}

section

omit [DecidableEq Addr]

/-- **The filter.** The capability is left to the index. -/
theorem candidateOf_eq_some {id : Sym} :
    candidateOf env w query id = some c ↔ ∃ r, w.agents.get id = some r ∧
      isAgentFrozen w id = false ∧ PassesFilters env r query ∧ c = candidate env r := by
  unfold candidateOf
  by_cases hfrz : isAgentFrozen w id = true
  · rw [if_pos hfrz]
    refine iff_of_false (fun h => Option.noConfusion rfl (heq_of_eq h)) ?_
    rintro ⟨r, -, hnot, -⟩
    rw [hfrz] at hnot
    cases hnot
  · rw [if_neg hfrz]
    cases hr : w.agents.get id with
    | none => exact iff_of_false (by simp) (by simp)
    | some r =>
      dsimp only
      constructor
      · intro h
        by_cases hprc : 0 < query.maxPrice ∧ query.maxPrice < r.priceStroops
        · rw [if_pos hprc] at h
          cases h
        · rw [if_neg hprc] at h
          split at h
          · cases h
          · rename_i hrep
            split at h
            · cases h
            · rename_i hlat
              refine ⟨r, rfl, Bool.eq_false_iff.mpr hfrz, ⟨?_, ?_, ?_⟩, (some.inj h).symm⟩
              · intro hpos
                omega
              · intro hpos
                exact Nat.le_of_not_lt fun hlt => hrep ⟨hpos, hlt⟩
              · intro hpos
                exact Nat.le_of_not_lt fun hlt => hlat ⟨hpos, hlt⟩
      · rintro ⟨r', hr', -, hpss, rfl⟩
        cases hr'
        rw [if_neg, if_neg, if_neg]
        · rfl
        · rintro ⟨hpos, hlt⟩
          exact absurd (hpss.latency hpos) (Nat.not_le.mpr hlt)
        · rintro ⟨hpos, hlt⟩
          exact absurd (hpss.reputation hpos) (Nat.not_le.mpr hlt)
        · rintro ⟨hpos, hlt⟩
          have := hpss.price hpos
          omega

theorem mem_candidates (hi : Indexed w) :
    c ∈ candidates env w query ↔ ∃ id r, Matches env w query id r ∧ c = candidate env r := by
  unfold candidates
  rw [mem_filterMap]
  constructor
  · rintro ⟨id, hid, hc⟩
    obtain ⟨r, hr, hfrz, hpss, rfl⟩ := candidateOf_eq_some.mp hc
    obtain ⟨r', hr', hcap⟩ := (hi.listed _ id).mp hid
    cases hr.symm.trans hr'
    exact ⟨id, r, ⟨hr, hfrz, hcap, hpss⟩, rfl⟩
  · rintro ⟨id, r, ⟨hr, hfrz, hft⟩, rfl⟩
    exact ⟨id, (hi.listed _ id).mpr ⟨r, hr, hft.capability⟩,
      candidateOf_eq_some.mpr ⟨r, hr, hfrz, hft.passes, rfl⟩⟩

theorem nodup_candidates (hi : Indexed w) :
    ((candidates env w query).map fun c => c.record.id).Nodup := by
  unfold candidates
  rw [map_filterMap]
  refine (hi.nodup _).filterMap ?_
  have hid : ∀ id x, x ∈ (candidateOf env w query id).map (fun c => c.record.id) → x = id := by
    intro id x hx
    obtain ⟨c, hc, rfl⟩ := map_eq_some_iff.mp hx
    obtain ⟨r, hr, -, -, rfl⟩ := candidateOf_eq_some.mp hc
    exact hi.ids id r hr
  intro a b x ha hb
  rw [← hid a x ha, ← hid b x hb]

end

/-! ## The scores -/

section

omit [DecidableEq Sym]

theorem priceScore_le {maxCandidatePrice price : Int} {score : Nat}
    (h : priceScore query maxCandidatePrice price = .ok score) : score ≤ 100 := by
  unfold priceScore at h
  split at h
  · split at h
    · obtain ⟨scaled, -, hsc⟩ := bind_eq_ok.mp h
      rw [← pure_eq_ok.mp hsc]
      omega
    · rw [← pure_eq_ok.mp h]
      omega
  · split at h
    · obtain ⟨scaled, -, hsc⟩ := bind_eq_ok.mp h
      rw [← pure_eq_ok.mp hsc]
      omega
    · rw [← pure_eq_ok.mp h]

theorem responseScore_le (query : DiscoveryQuery Sym) (maxCandidateLatency respTime : Nat) :
    responseScore query maxCandidateLatency respTime ≤ 100 := by
  unfold responseScore
  split
  · split
    · exact Nat.sub_le _ _
    · exact Nat.zero_le _
  · split
    · exact Nat.sub_le _ _
    · exact le_refl _

end

omit [DecidableEq Addr] [DecidableEq Sym] in
theorem scoreCandidate_ok {maxCandidatePrice : Int} {maxCandidateLatency : Nat} {res : DiscoveryResult Sym}
    (h : scoreCandidate query maxCandidatePrice maxCandidateLatency c = .ok res) :
    (res.agentId = c.record.id ∧ res.priceStroops = c.record.priceStroops ∧
      res.reputation = c.reputation ∧ res.availability = c.availability ∧
      res.responseTime = c.responseTime) ∧ res.compositeScore ≤ 10000 := by
  obtain ⟨score, hsc, hres⟩ := bind_eq_ok.mp h
  obtain rfl := pure_eq_ok.mp hres
  refine ⟨⟨rfl, rfl, rfl, rfl, rfl⟩, ?_⟩
  have hprc := priceScore_le hsc
  have hrsp := responseScore_le query maxCandidateLatency c.responseTime
  dsimp only
  omega

/-! ## The whole computation -/

/-- Score the candidates against each other, and sort. -/
def rank (query : DiscoveryQuery Sym) (cs : List (Candidate Addr Sym)) :
    Outcome Error (List (DiscoveryResult Sym)) := do
  let results ← cs.mapM (scoreCandidate query ((cs.map fun c => c.record.priceStroops).foldl max 0)
    ((cs.map Candidate.responseTime).foldl max 0))
  pure (selectionSort compositeScore results)

omit [DecidableEq Addr] in
theorem computeDiscovery_eq : computeDiscovery env w query = rank query (candidates env w query) := rfl

variable {results : List (DiscoveryResult Sym)}

section

omit [DecidableEq Addr] [DecidableEq Sym]

theorem rank_ok {cs : List (Candidate Addr Sym)} (h : rank query cs = .ok results) :
    ∃ scored : List (DiscoveryResult Sym), results.Perm scored ∧
      List.Forall₂ (fun c res => (res.agentId = c.record.id ∧
        res.priceStroops = c.record.priceStroops ∧ res.reputation = c.reputation ∧
        res.availability = c.availability ∧ res.responseTime = c.responseTime) ∧
        res.compositeScore ≤ 10000) cs scored ∧
      results.Pairwise fun a b => b.compositeScore ≤ a.compositeScore := by
  obtain ⟨scored, hsc, hre⟩ := bind_eq_ok.mp h
  obtain rfl := pure_eq_ok.mp hre
  exact ⟨scored, selectionSort_perm scored, (mapM_eq_ok.mp hsc).imp fun _ _ => scoreCandidate_ok,
    selectionSort_pairwise scored⟩

theorem rank_length {cs : List (Candidate Addr Sym)}
    (h : rank query cs = .ok results) : results.length = cs.length := by
  obtain ⟨scored, hpe, hsc, -⟩ := rank_ok h
  rw [hpe.length_eq, hsc.length_eq]

end

omit [DecidableEq Addr] in
/-- **The computation answers the query.** -/
theorem computeDiscovery_answers (hi : Indexed w)
    (h : computeDiscovery env w query = .ok results) : Answers env w query results := by
  obtain ⟨scored, hpe, hsr, hra⟩ := rank_ok h
  have hids : scored.map agentId
      = (candidates env w query).map fun c => c.record.id := by
    refine (forall₂_eq_eq_eq (α := Sym) ▸ forall₂_map_left_iff.mpr (forall₂_map_right_iff.mpr ?_))
    exact hsr.flip.imp fun _ _ hc => hc.1.1
  have hmem : ∀ res ∈ results, ∃ c ∈ candidates env w query, (res.agentId = c.record.id ∧
      res.priceStroops = c.record.priceStroops ∧ res.reputation = c.reputation ∧
      res.availability = c.availability ∧ res.responseTime = c.responseTime) ∧
      res.compositeScore ≤ 10000 := by
    intro res hres
    obtain ⟨i, hi, rfl⟩ := mem_iff_getElem.mp (hpe.mem_iff.mp hres)
    obtain ⟨hlen, hget⟩ := forall₂_iff_get.mp hsr
    exact ⟨_, List.get_mem _ _, hget i (by omega) hi⟩
  refine ⟨?_, ?_, ?_, hra, ?_⟩
  · intro id
    rw [(hpe.map _).mem_iff, hids, List.mem_map]
    constructor
    · rintro ⟨c, hc, rfl⟩
      obtain ⟨id, r, hmat, rfl⟩ := (mem_candidates hi).mp hc
      have hid : r.id = id := hi.ids id r hmat.1
      exact ⟨r, hid.symm ▸ hmat⟩
    · rintro ⟨r, hmat⟩
      exact ⟨candidate env r, (mem_candidates hi).mpr ⟨id, r, hmat, rfl⟩, hi.ids id r hmat.1⟩
  · intro res hres
    obtain ⟨c, hc, ⟨hid, hfi⟩, -⟩ := hmem res hres
    obtain ⟨id, r, hmat, rfl⟩ := (mem_candidates hi).mp hc
    refine ⟨r, ?_, hfi⟩
    rw [hid]
    exact (hi.ids id r hmat.1).symm ▸ hmat.1
  · rw [(hpe.map _).nodup_iff, hids]
    exact nodup_candidates hi
  · intro res hres
    obtain ⟨-, -, -, hsc⟩ := hmem res hres
    exact hsc

/-! ## When it succeeds -/

/-- Every registered price is positive. -/
def Priced (w : World Addr Sym) : Prop := ∀ id r, w.agents.get id = some r → 0 < r.priceStroops

theorem le_foldl_max {α : Type} [LinearOrder α] {l : List α} :
    ∀ {b x : α}, x = b ∨ x ∈ l → x ≤ l.foldl max b := by
  induction l with
  | nil =>
    rintro b x (rfl | hx)
    · exact le_refl x
    · cases hx
  | cons a l ih =>
    intro b x hx
    rw [foldl_cons]
    -- the largest so far is itself bounded by the final one
    have hfst := ih (b := max b a) (.inl rfl)
    rcases hx with rfl | hx
    · exact (le_max_left _ _).trans hfst
    · rcases mem_cons.mp hx with rfl | hx
      · exact (le_max_right _ _).trans hfst
      · exact ih (.inr hx)

omit [DecidableEq Sym] in
theorem exists_priceScore {maxCandidatePrice price : Int} (hprc : 0 < price)
    (hlim : 0 < query.maxPrice → price ≤ query.maxPrice) (hmax : price ≤ maxCandidatePrice) :
    (∃ score, priceScore query maxCandidatePrice price = .ok score) ↔ price * 100 ≤ i128Max := by
  have hsc : ∀ divisor : Int, (∃ score, (do
      let scaled ← orTrap (checked128 (price * 100))
      pure (100 - asU32 (scaled.tdiv divisor)) : Outcome Error Nat) = .ok score) ↔
        price * 100 ≤ i128Max := by
    intro divisor
    rw [exists_bind_pure]
    simp only [orTrap_eq_ok, checked128_eq_some]
    constructor
    · rintro ⟨scaled, ⟨-, hft⟩, -⟩
      exact hft
    · intro hft
      refine ⟨_, ⟨?_, hft⟩, rfl⟩
      unfold i128Min
      omega
  unfold priceScore
  by_cases hqry : 0 < query.maxPrice
  · rw [if_pos hqry, if_pos (hlim hqry)]
    exact hsc _
  · rw [if_neg hqry, if_pos (hprc.trans_le hmax)]
    exact hsc _

omit [DecidableEq Addr] [DecidableEq Sym] in
theorem exists_scoreCandidate {maxCandidatePrice : Int} {maxCandidateLatency : Nat} :
    (∃ res, scoreCandidate query maxCandidatePrice maxCandidateLatency c = .ok res) ↔
      ∃ score, priceScore query maxCandidatePrice c.record.priceStroops = .ok score :=
  exists_bind_pure

section

omit [DecidableEq Addr]

/-- **When the computation succeeds**: a hundred times the price of every match fits. -/
theorem exists_computeDiscovery (hi : Indexed w) (hp : Priced w) :
    (∃ results, computeDiscovery env w query = .ok results) ↔
      ∀ id r, Matches env w query id r → r.priceStroops * 100 ≤ i128Max := by
  rw [computeDiscovery_eq]
  unfold rank
  rw [exists_bind_pure, exists_mapM_ok]
  have hsc : ∀ id r, Matches env w query id r → ((∃ res, scoreCandidate query
          (((candidates env w query).map fun c => c.record.priceStroops).foldl max 0)
          (((candidates env w query).map Candidate.responseTime).foldl max 0) (candidate env r)
          = .ok res) ↔ r.priceStroops * 100 ≤ i128Max) := by
    intro id r hmat
    rw [exists_scoreCandidate]
    refine exists_priceScore (hp id r hmat.1) hmat.2.2.passes.price ?_
    exact le_foldl_max (.inr (List.mem_map.mpr
      ⟨candidate env r, (mem_candidates hi).mpr ⟨id, r, hmat, rfl⟩, rfl⟩))
  constructor
  · intro h id r hmat
    exact (hsc id r hmat).mp (h _ ((mem_candidates hi).mpr ⟨id, r, hmat, rfl⟩))
  · intro h c hc
    obtain ⟨id, r, hmat, rfl⟩ := (mem_candidates hi).mp hc
    exact (hsc id r hmat).mpr (h id r hmat)

theorem AllAcceptable.valid {before rest : List (AgentRecord Addr Sym)}
    {r : AgentRecord Addr Sym} (h : AllAcceptable w before rest) (hr : r ∈ rest) : r.Valid := by
  induction rest generalizing before with
  | nil => cases hr
  | cons r₀ rest ih =>
    rcases mem_cons.mp hr with rfl | hmem
    · exact h.1.valid
    · exact ih h.2 hmem

theorem AllAcceptable.get_after {agents : List (AgentRecord Addr Sym)}
    (h : AllAcceptable w [] agents) (hsm : World.Same (enrolAll w agents) w') (id : Sym) :
    (∃ r ∈ agents, r.id = id ∧ w'.agents.get id = some r) ∨
      ((∀ r ∈ agents, r.id ≠ id) ∧ w'.agents.get id = w.agents.get id) := by
  have hags : w'.agents = (enrolAll w agents).agents := by rw [hsm.rest]
  rw [hags]
  by_cases hid : ∃ r ∈ agents, r.id = id
  · obtain ⟨r, hr, rfl⟩ := hid
    obtain ⟨-, -, -, hacc⟩ := h.enrolled hr
    exact .inl ⟨r, hr, rfl, congrArg Account.record hacc⟩
  · have hnot : ∀ r ∈ agents, r.id ≠ id := fun r hr he => hid ⟨r, hr, he⟩
    exact .inr ⟨hnot, congrArg Account.record (enrolAll_account hnot)⟩

theorem RosterStep.priced {moves : List (Sym × Move Addr Sym)} (hs : RosterStep moves w w')
    (h : Priced w) : Priced w' := by
  intro id r' hr'
  cases hs with
  | kept _ hfac =>
    have hfa := hfac id
    rw [hr', map_some, eq_comm, map_eq_some_iff] at hfa
    obtain ⟨r, hr, he⟩ := hfa
    have hprc : r.face.priceStroops = r'.face.priceStroops := by rw [he]
    change r.priceStroops = r'.priceStroops at hprc
    exact hprc ▸ h id r hr
  | enrolled agents _ hall hsm =>
    rcases hall.get_after hsm id with ⟨r, hr, -, hget⟩ | ⟨-, hget⟩
    · rw [hget] at hr'
      cases hr'
      exact (hall.valid hr).1
    · exact h id r' (hget ▸ hr')
  | @left x r hr _ hw =>
    rw [hw] at hr'
    exact h id r' (get_of_remove (s := w.agents) (k := x) hr')
  | @repriced x r price hr _ hpos hw =>
    rw [hw] at hr'
    dsimp only at hr'
    rw [get_set] at hr'
    split at hr'
    · rw [← some.inj hr']
      exact hpos
    · exact h id r' hr'

end

theorem priced_reachable {guard : World Addr Sym → Event Addr Sym → Prop}
    (h : (system env).Reachable guard w) : Priced w := by
  refine System.Reachable.invariant (I := Priced) ?_ ?_ h
  · rintro w₀ ⟨now, sequence, rfl⟩ id r hr
    cases hr
  · intro w e w' _ _ hI hs
    exact (step_roster hs).priced hI

/-! ## What it depends on -/

/-- A candidate without its balance, which the scores do not look at. -/
def Candidate.bare (c : Candidate Addr Sym) : Candidate Addr Sym :=
  { c with record := c.record.face }

/-- What the oracle sees of an agent. -/
def seen (env : Env Addr Sym) (w : World Addr Sym) (query : DiscoveryQuery Sym)
    (id : Sym) : Option (Candidate Addr Sym) :=
  (candidateOf env w query id).map Candidate.bare

omit [DecidableEq Addr] [DecidableEq Sym] in
theorem rank_map_bare (cs : List (Candidate Addr Sym)) :
    rank query (cs.map Candidate.bare) = rank query cs := by
  unfold rank
  rw [List.map_map, List.map_map, mapM_map]
  rfl

section

omit [DecidableEq Addr]

/-- **Where the oracle sees the same agents it computes the same answer.** -/
theorem computeDiscovery_congr
    (h : (getCapabilityIndex w' query.requiredCapability).filterMap (seen env w' query)
      = (getCapabilityIndex w query.requiredCapability).filterMap (seen env w query)) :
    computeDiscovery env w' query = computeDiscovery env w query := by
  have hba : ∀ s : World Addr Sym, (candidates env s query).map Candidate.bare
      = (getCapabilityIndex s query.requiredCapability).filterMap (seen env s query) :=
    fun _ => map_filterMap
  rw [computeDiscovery_eq, computeDiscovery_eq, ← rank_map_bare, ← rank_map_bare (candidates env w query),
    hba, hba, h]

theorem seen_congr {id : Sym} (hfrz : isAgentFrozen w' id = isAgentFrozen w id)
    (hfa : (w'.agents.get id).map AgentRecord.face = (w.agents.get id).map AgentRecord.face) :
    seen env w' query id = seen env w query id := by
  unfold seen candidateOf
  rw [hfrz]
  by_cases hf : isAgentFrozen w id = true
  · rw [if_pos hf, if_pos hf]
  · rw [if_neg hf, if_neg hf]
    cases hr : w.agents.get id with
    | none =>
      rw [hr, map_none, map_eq_none_iff] at hfa
      rw [hfa]
    | some r =>
      rw [hr, map_some, map_eq_some_iff] at hfa
      obtain ⟨r', hr', he⟩ := hfa
      have hprc : r'.face.priceStroops = r.face.priceStroops := by rw [he]
      have hme : r'.face.metadata = r.face.metadata := by rw [he]
      change r'.priceStroops = r.priceStroops at hprc
      change r'.metadata = r.metadata at hme
      rw [hr']
      dsimp only
      rw [hprc, hme]
      split
      · rfl
      · split
        · rfl
        · split
          · rfl
          · unfold Candidate.bare
            rw [map_some, map_some, he]

theorem seen_none {id : Sym} (h : ∀ r, w.agents.get id = some r →
    ¬ (isAgentFrozen w id = false ∧ PassesFilters env r query)) : seen env w query id = none := by
  unfold seen
  rw [map_eq_none_iff, eq_none_iff_forall_ne_some]
  intro c hc
  obtain ⟨r, hr, hfrz, hpss, -⟩ := candidateOf_eq_some.mp hc
  exact h r hr ⟨hfrz, hpss⟩

end

end AiNet.AgentRegistry
