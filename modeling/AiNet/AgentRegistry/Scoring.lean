import AiNet.AgentRegistry.Oracle

/-!
# The arithmetic of discovery

The scores of `discover_agents`, with every operation checked. All of them are exact but one: prices are
bounded below only, and a hundred times a price may not fit.
-/

namespace AiNet.AgentRegistry

open Core System

variable {Addr Sym : Type} {query : DiscoveryQuery Sym}

/-- How far a hundredfold over a limit is below 100; the division and the conversion are checked. -/
def percentBelow (hundredfold : Option Int) (limit : Int) : Outcome Error Nat := do
  let hundredfold ← orTrap hundredfold
  trapUnless (limit ≠ 0)
  let ratio := hundredfold.tdiv limit
  trapUnless (0 ≤ ratio ∧ ratio ≤ u32Max)
  pure (100 - ratio.toNat)

def exactPriceScore (query : DiscoveryQuery Sym) (maxCandidatePrice price : Int) : Outcome Error Nat :=
  if 0 < query.maxPrice then
    if price ≤ query.maxPrice then percentBelow (checked128 (price * 100)) query.maxPrice else pure 0
  else if 0 < maxCandidatePrice then percentBelow (checked128 (price * 100)) maxCandidatePrice
  else pure 100

def exactResponseScore (query : DiscoveryQuery Sym) (maxCandidateLatency respTime : Nat) :
    Outcome Error Nat :=
  if 0 < query.maxLatency then
    if respTime ≤ query.maxLatency then
      percentBelow ((checked64 (respTime * 100)).map Int.ofNat) query.maxLatency
    else pure 0
  else if 0 < maxCandidateLatency then
    percentBelow ((checked64 (respTime * 100)).map Int.ofNat) maxCandidateLatency
  else pure 100

def exactScore (query : DiscoveryQuery Sym) (maxCandidatePrice : Int) (maxCandidateLatency : Nat)
    (c : Candidate Addr Sym) : Outcome Error Nat := do
  let priceScore ← exactPriceScore query maxCandidatePrice c.record.priceStroops
  let responseScore ← exactResponseScore query maxCandidateLatency c.responseTime
  let reputation ← orTrap (checked32 (30 * min c.reputation 100))
  let price ← orTrap (checked32 (25 * priceScore))
  let availability ← orTrap (checked32 (25 * min c.availability 100))
  let response ← orTrap (checked32 (20 * responseScore))
  let sum ← orTrap (checked32 (reputation + price))
  let sum ← orTrap (checked32 (sum + availability))
  orTrap (checked32 (sum + response))

/-- Every candidate gets its score, and no operation on the way overflows, divides by 0 or narrows. -/
def ScoresExactly (env : Env Addr Sym) (w : World Addr Sym) [DecidableEq Sym]
    (query : DiscoveryQuery Sym) : Prop :=
  let maxCandidatePrice := ((candidates env w query).map fun c => c.record.priceStroops).foldl max 0
  let maxCandidateLatency := ((candidates env w query).map Candidate.responseTime).foldl max 0
  ∀ c ∈ candidates env w query, ∃ res,
    scoreCandidate query maxCandidatePrice maxCandidateLatency c = .ok res ∧
      exactScore query maxCandidatePrice maxCandidateLatency c = .ok res.compositeScore

theorem percentBelow_eq {x limit : Int} (hx : 0 ≤ x) (hlim : 0 < limit) (hle : x ≤ 100 * limit) :
    percentBelow (some x) limit = .ok (100 - asU32 (x.tdiv limit)) := by
  have hlow : 0 ≤ x.tdiv limit := Int.tdiv_nonneg hx hlim.le
  have hhi : x.tdiv limit ≤ 100 := by
    rw [Int.tdiv_eq_ediv_of_nonneg hx]
    exact Int.ediv_le_of_le_mul hlim hle
  have hca : asU32 (x.tdiv limit) = (x.tdiv limit).toNat := by
    unfold asU32
    rw [Int.emod_eq_of_lt hlow (by omega)]
  unfold percentBelow
  simp only [bind_eq_ok, orTrap_eq_ok, trapUnless_eq_ok, pure_eq_ok]
  refine ⟨x, rfl, (), hlim.ne', (), ⟨hlow, hhi.trans (by decide)⟩, ?_⟩
  rw [hca]

theorem exactPriceScore_of_ok {maxCandidatePrice price : Int} {score : Nat} (hprc : 0 < price)
    (hmax : price ≤ maxCandidatePrice) (h : priceScore query maxCandidatePrice price = .ok score) :
    exactPriceScore query maxCandidatePrice price = .ok score := by
  have hpa : ∀ limit, 0 < limit → price ≤ limit → (do
      let scaled ← orTrap (checked128 (price * 100))
      pure (100 - asU32 (scaled.tdiv limit)) : Outcome Error Nat) = .ok score →
        percentBelow (checked128 (price * 100)) limit = .ok score := by
    intro limit hlim hle h
    obtain ⟨scaled, hsl, hsc⟩ := bind_eq_ok.mp h
    obtain ⟨-, rfl⟩ := checked128_eq_some.mp (orTrap_eq_ok.mp hsl)
    rw [orTrap_eq_ok.mp hsl, percentBelow_eq (by omega) hlim (by omega)]
    exact hsc
  unfold priceScore at h
  unfold exactPriceScore
  split at h
  · rename_i hqry
    split at h
    · rename_i hle
      rw [if_pos hqry, if_pos hle]
      exact hpa _ hqry hle h
    · rename_i hgt
      rw [if_pos hqry, if_neg hgt]
      exact h
  · rename_i hqry
    rw [if_pos (hprc.trans_le hmax)] at h
    rw [if_neg hqry, if_pos (hprc.trans_le hmax)]
    exact hpa _ (hprc.trans_le hmax) hmax h

theorem exactResponseScore_eq {maxCandidateLatency respTime : Nat} (hft : respTime ≤ u32Max)
    (hmax : respTime ≤ maxCandidateLatency) :
    exactResponseScore query maxCandidateLatency respTime =
      .ok (responseScore query maxCandidateLatency respTime) := by
  have hpa : ∀ limit : Nat, 0 < limit → respTime ≤ limit →
      percentBelow ((checked64 (respTime * 100)).map Int.ofNat) limit =
        .ok (100 - respTime * 100 / limit % 2 ^ 32) := by
    intro limit hlim hle
    have hwi : respTime * 100 ≤ u64Max := (Nat.mul_le_mul_right 100 hft).trans (by decide)
    rw [checked64_eq_some.mpr ⟨hwi, rfl⟩]
    exact percentBelow_eq (x := (respTime * 100 : Nat)) (by omega) (by omega) (by omega)
  unfold exactResponseScore responseScore
  split
  · rename_i hqry
    split
    · rename_i hle
      exact hpa _ hqry hle
    · rfl
  · split
    · rename_i hpos
      exact hpa _ hpos hmax
    · rfl

theorem exactScore_of_ok {maxCandidatePrice : Int} {maxCandidateLatency : Nat}
    {c : Candidate Addr Sym} {res : DiscoveryResult Sym} (hprc : 0 < c.record.priceStroops)
    (hmax : c.record.priceStroops ≤ maxCandidatePrice) (hft : c.responseTime ≤ u32Max)
    (hla : c.responseTime ≤ maxCandidateLatency)
    (h : scoreCandidate query maxCandidatePrice maxCandidateLatency c = .ok res) :
    exactScore query maxCandidatePrice maxCandidateLatency c = .ok res.compositeScore := by
  obtain ⟨score, hsc, hres⟩ := bind_eq_ok.mp h
  obtain rfl := pure_eq_ok.mp hres
  have hle := priceScore_le hsc
  have hrsp := responseScore_le query maxCandidateLatency c.responseTime
  unfold exactScore
  rw [exactPriceScore_of_ok hprc hmax hsc, exactResponseScore_eq hft hla]
  simp only [bind_eq_ok, orTrap_eq_ok, checked32_eq_some]
  unfold u32Max
  refine ⟨_, rfl, _, rfl, _, ⟨?_, rfl⟩, _, ⟨?_, rfl⟩, _, ⟨?_, rfl⟩, _, ⟨?_, rfl⟩, _, ⟨?_, rfl⟩,
    _, ⟨?_, rfl⟩, ?_, rfl⟩
  all_goals omega

variable [DecidableEq Addr] [DecidableEq Sym] {env : Env Addr Sym} {w : World Addr Sym}

/-- The response times that are read are `u32`s, as their type says. -/
def FiguresFit (env : Env Addr Sym) (w : World Addr Sym) (query : DiscoveryQuery Sym) : Prop :=
  ∀ c ∈ candidates env w query, c.responseTime ≤ u32Max

/--
**When discovery scores without a trap.** In every state a run reaches, the scoring of a query completes, and
every operation on the way is exact, if and only if a hundred times the price of each match fits.
-/
theorem scoresExactly_iff {guard : World Addr Sym → Event Addr Sym → Prop}
    (h : (system env).Reachable guard w) (hfits : FiguresFit env w query) :
    ScoresExactly env w query ↔ ∀ id r, Matches env w query id r → r.priceStroops * 100 ≤ i128Max := by
  rw [← exists_computeDiscovery (indexed_reachable h) (priced_reachable h), computeDiscovery_eq]
  unfold rank
  rw [exists_bind_pure, exists_mapM_ok]
  constructor
  · intro hall c hc
    obtain ⟨res, hres, -⟩ := hall c hc
    exact ⟨res, hres⟩
  · intro hall c hc
    obtain ⟨res, hres⟩ := hall c hc
    have hprc : 0 < c.record.priceStroops := by
      obtain ⟨id, r, hmat, rfl⟩ := (mem_candidates (indexed_reachable h)).mp hc
      exact priced_reachable h id r hmat.1
    have hde := le_foldl_max (b := 0) (.inr (List.mem_map_of_mem
      (f := fun c : Candidate Addr Sym => c.record.priceStroops) hc))
    have hsl := le_foldl_max (b := 0) (.inr (List.mem_map_of_mem (f := Candidate.responseTime) hc))
    exact ⟨res, hres, exactScore_of_ok hprc hde (hfits c hc) hsl hres⟩

namespace Sample

/-- Two agents of a capability; the second asks for the given price. -/
def priced (price : Int) : List (Event Nat Nat) :=
  installed ++ [call 4 (.registration (.registerAgent (agent 44 4 100))),
    call 5 (.registration (.registerAgent { agent 55 5 100 with priceStroops := price }))]

end Sample

open Sample

/-- Two agents at 50 and at 80: their scoring is exact. -/
theorem scoresExactly_two : ∃ w : World Nat Nat, (system deployment).Reachable ClockMonotone w ∧
    getCapabilityIndex w 7 = [44, 55] ∧ (ScoresExactly deployment w ⟨7, 0, 0, 0⟩ ↔
      ∀ id r, Matches deployment w ⟨7, 0, 0, 0⟩ id r → r.priceStroops * 100 ≤ i128Max) := by
  have hpl : ((system deployment).play ClockMonotone (Sample.priced 80) (World.init 0 0)).any
      (fun w => decide (getCapabilityIndex w 7 = [44, 55] ∧
        ∀ c ∈ candidates deployment w ⟨7, 0, 0, 0⟩, c.responseTime ≤ u32Max)) = true := by
    decide
  obtain ⟨w, hw, hlst, hft⟩ := exists_reachable (start_init _ 0 0) hpl
  exact ⟨w, hw, hlst, scoresExactly_iff hw hft⟩

/-- An agent asks for the largest price there is, and nobody of its capability is found any more. -/
theorem discovery_blocked : ∃ w : World Nat Nat, (system deployment).Reachable ClockMonotone w ∧
    getCapabilityIndex w 7 = [44, 55] ∧ ¬ ScoresExactly deployment w ⟨7, 0, 0, 0⟩ := by
  have hpl : ((system deployment).play ClockMonotone (Sample.priced i128Max)
      (World.init 0 0)).any (fun w => decide (getCapabilityIndex w 7 = [44, 55]) &&
        !(computeDiscovery deployment w ⟨7, 0, 0, 0⟩).toOption.isSome) = true := by
    decide
  obtain ⟨w, hw, hp⟩ := exists_reachable_of_play (start_init _ 0 0) hpl
  obtain ⟨hlst, hblk⟩ := Bool.and_eq_true_iff.mp hp
  refine ⟨w, hw, of_decide_eq_true hlst, fun hall => ?_⟩
  obtain ⟨results, hre⟩ : ∃ results, computeDiscovery deployment w ⟨7, 0, 0, 0⟩ = .ok results := by
    rw [computeDiscovery_eq]
    unfold rank
    rw [exists_bind_pure, exists_mapM_ok]
    exact fun c hc => (hall c hc).imp fun _ => And.left
  rw [hre] at hblk
  cases hblk

end AiNet.AgentRegistry
