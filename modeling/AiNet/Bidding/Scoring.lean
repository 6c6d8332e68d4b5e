import AiNet.Bidding.Invariant
import Mathlib.Data.List.Induction
import Mathlib.Order.Bounds.Basic

/-!
# Scoring never fails

With prices between zero and the global ceiling and reputations of at most a hundred no
step of the score overflows: both ratios, and so the score, lie between zero and
`scoreScale`. Hence some bid beats the initial score of minus one, and the loop keeps
the first of the best.
-/

namespace AiNet.Bidding

open Core List Option SealedBid

variable {Addr Sym τ : Type}

/-! ## One score -/

/-- A share of a range on the scale; all of the scale, if there is no range. -/
def normalised (numerator denominator : Int) : Int :=
  if denominator = 0 then scoreScale else scoreScale * numerator / denominator

theorem scaledRatio_eq {numerator denominator : Int} (h0 : 0 ≤ numerator)
    (hle : numerator ≤ denominator) (hbd : denominator ≤ maxBidPrice) :
    scaledRatio numerator denominator = .ok (normalised numerator denominator) ∧
      0 ≤ normalised numerator denominator ∧ normalised numerator denominator ≤ scoreScale := by
  unfold scaledRatio normalised scoreScale
  by_cases hz : denominator = 0
  · rw [if_pos hz, if_pos hz]
    exact ⟨rfl, by decide, Int.le_refl _⟩
  · rw [if_neg hz, if_neg hz]
    have hpos : 0 < denominator := by omega
    have hmax : maxBidPrice = 100000000000000000 := rfl
    have hlim : i128Max = 170141183460469231731687303715884105727 := rfl
    have hmin : i128Min = -170141183460469231731687303715884105728 := rfl
    have hqu : (1000 * numerator).tdiv denominator = 1000 * numerator / denominator :=
      Int.tdiv_eq_ediv_of_nonneg (by omega)
    have hlo : 0 ≤ 1000 * numerator / denominator := Int.ediv_nonneg (by omega) (by omega)
    have hhi : 1000 * numerator / denominator ≤ 1000 := Int.ediv_le_of_le_mul hpos (by omega)
    refine ⟨?_, hlo, hhi⟩
    rw [okOr_eq_ok, checked128_of_mem (by omega), bind_some, hqu, checked128_of_mem (by omega)]

theorem normalised_mono {a b denominator : Int} (h0 : 0 ≤ denominator) (h : a ≤ b) :
    normalised a denominator ≤ normalised b denominator := by
  unfold normalised scoreScale
  split
  · exact Int.le_refl _
  · exact Int.ediv_le_ediv (by omega) (by omega)

theorem normalised_lt {a b denominator : Int} (h : a < b) (hb : b ≤ denominator) (hle : denominator ≤ 100)
    (h0 : 0 ≤ a) : normalised a denominator + 10 ≤ normalised b denominator := by
  unfold normalised scoreScale
  rw [if_neg (by omega), if_neg (by omega), Int.le_ediv_iff_mul_le (by omega), Int.add_mul]
  have hflo := Int.ediv_mul_le (1000 * a) (show denominator ≠ 0 by omega)
  omega

/-- A bid the scoring can handle. -/
def Scorable (bid : SealedBid Addr) : Prop :=
  0 ≤ bid.priceStroops ∧ bid.priceStroops ≤ maxBidPrice ∧ bid.reputation ≤ maxReputation

/-- The ranges are those of the gathered bids. -/
structure Field.Spans (g : Field Addr) : Prop where
  scorable : ∀ bid ∈ g.revealed, Scorable bid
  minPrice : IsLeast {p | p ∈ g.revealed.map priceStroops} g.minPrice
  maxPrice : IsGreatest {p | p ∈ g.revealed.map priceStroops} g.maxPrice
  minRep : IsLeast {r | r ∈ g.revealed.map reputation} g.minRep
  maxRep : IsGreatest {r | r ∈ g.revealed.map reputation} g.maxRep

variable {g : Field Addr} {bid : SealedBid Addr}

theorem Field.Spans.price (hg : g.Spans) (hb : bid ∈ g.revealed) :
    g.minPrice ≤ bid.priceStroops ∧ bid.priceStroops ≤ g.maxPrice :=
  ⟨hg.minPrice.2 (List.mem_map_of_mem hb), hg.maxPrice.2 (List.mem_map_of_mem hb)⟩

theorem Field.Spans.reputation (hg : g.Spans) (hb : bid ∈ g.revealed) :
    g.minRep ≤ bid.reputation ∧ bid.reputation ≤ g.maxRep :=
  ⟨hg.minRep.2 (List.mem_map_of_mem hb), hg.maxRep.2 (List.mem_map_of_mem hb)⟩

theorem Field.Spans.bounds (hg : g.Spans) :
    0 ≤ g.minPrice ∧ g.maxPrice ≤ maxBidPrice ∧ g.maxRep ≤ maxReputation := by
  obtain ⟨cheapest, hch, hlow⟩ := List.mem_map.mp hg.minPrice.1
  obtain ⟨dearest, hde, hhi⟩ := List.mem_map.mp hg.maxPrice.1
  obtain ⟨best, hbe, hrep⟩ := List.mem_map.mp hg.maxRep.1
  rw [← hlow, ← hhi, ← hrep]
  exact ⟨(hg.scorable _ hch).1, (hg.scorable _ hde).2.1, (hg.scorable _ hbe).2.2⟩

/-- The composite score of a bid among the gathered ones. -/
def Field.score (g : Field Addr) (bid : SealedBid Addr) : Int :=
  (60 * normalised (g.maxPrice - bid.priceStroops) (g.maxPrice - g.minPrice) +
    40 * normalised (bid.reputation - g.minRep : Nat) (g.maxRep - g.minRep : Nat)) / 100

theorem scoreBid_eq (hg : g.Spans) (hb : bid ∈ g.revealed) :
    scoreBid g (g.maxPrice - g.minPrice) (g.maxRep - g.minRep : Nat) bid = .ok (g.score bid) ∧
      0 ≤ g.score bid ∧ g.score bid ≤ scoreScale := by
  obtain ⟨hpm, hpx⟩ := hg.price hb
  obtain ⟨hrm, hrx⟩ := hg.reputation hb
  obtain ⟨hlow, hhi, hrep⟩ := hg.bounds
  have hsca : (scoreScale : Int) = 1000 := rfl
  have hmax : maxBidPrice = 100000000000000000 := rfl
  have hme : maxReputation = 100 := rfl
  have hlim : i128Max = 170141183460469231731687303715884105727 := rfl
  have hmin : i128Min = -170141183460469231731687303715884105728 := rfl
  obtain ⟨hps, hps0, hps1⟩ := scaledRatio_eq
    (show 0 ≤ g.maxPrice - bid.priceStroops by omega)
    (show g.maxPrice - bid.priceStroops ≤ g.maxPrice - g.minPrice by omega) (by omega)
  obtain ⟨hrs, hrs0, hrs1⟩ := scaledRatio_eq
    (show (0 : Int) ≤ (bid.reputation - g.minRep : Nat) by omega)
    (show ((bid.reputation - g.minRep : Nat) : Int) ≤ (g.maxRep - g.minRep : Nat) by omega)
    (by omega)
  unfold Field.score
  revert hps hps0 hps1 hrs hrs0 hrs1
  generalize normalised (g.maxPrice - bid.priceStroops) (g.maxPrice - g.minPrice) = ps
  generalize normalised (bid.reputation - g.minRep : Nat) (g.maxRep - g.minRep : Nat) = rs
  intro hps hps0 hps1 hrs hrs0 hrs1
  have htot : (60 * ps + 40 * rs).tdiv 100 = (60 * ps + 40 * rs) / 100 :=
    Int.tdiv_eq_ediv_of_nonneg (by omega)
  refine ⟨?_, by omega, by omega⟩
  simp only [scoreBid, priceWeight, reputationWeight, bind_eq_ok, okOr_eq_ok, trapUnless_eq_ok, exists_and_left, exists_const]
  refine ⟨g.maxPrice - bid.priceStroops, checked128_of_mem (by omega), ps, hps, hrm, rs, hrs, ?_⟩
  rw [checked128_of_mem (by omega), checked128_of_mem (by omega), bind_some,
    bind_some, checked128_of_mem (by omega), bind_some, htot,
    checked128_of_mem (by omega)]

/-! ## Gathering -/

theorem least_snoc {α : Type} [LinearOrder α] {seen : List α} {m x start : α}
    (h : seen = [] ∧ m = start ∨ IsLeast {y | y ∈ seen} m) (hx : x ≤ start) :
    IsLeast {y | y ∈ seen ++ [x]} (if x < m then x else m) := by
  have hla : x ∈ seen ++ [x] := mem_append_right _ (mem_singleton.mpr rfl)
  rcases h with ⟨rfl, rfl⟩ | ⟨hmem, hlea⟩
  · rw [ite_eq_left_iff.mpr fun hge => (not_lt.mp hge).antisymm hx]
    exact ⟨hla, fun y hy => (mem_singleton.mp hy).ge⟩
  · split
    · rename_i hlt
      refine ⟨hla, fun y hy => ?_⟩
      rcases mem_append.mp hy with hy | hy
      · exact hlt.le.trans (hlea hy)
      · exact (mem_singleton.mp hy).ge
    · rename_i hge
      refine ⟨mem_append_left _ hmem, fun y hy => ?_⟩
      rcases mem_append.mp hy with hy | hy
      · exact hlea hy
      · exact (not_lt.mp hge).trans (mem_singleton.mp hy).ge

variable [DecidableEq Addr] [DecidableEq Sym]

variable {w : World Addr Sym τ} {t : Sym}

/-- **The gathered ranges are right**, as soon as there is a bid. -/
theorem spans_gather (hb : ∀ b bid, w.bids.get (t, b) = some bid → bid.revealed = true → Scorable bid)
    {bidders : List Addr} (hso : (gather w t bidders).revealed ≠ []) : (gather w t bidders).Spans := by
  let start : Field Addr := ⟨[], i128Max, 0, u32Max, 0⟩
  have hrun : ∀ g, g = start ∨ g.Spans → bidders.foldl (gatherBid w t) g = start ∨
      (bidders.foldl (gatherBid w t) g).Spans := by
    clear hso
    induction bidders with
    | nil => exact fun _ => id
    | cons b l ih =>
      intro g hsta
      refine ih _ ?_
      unfold gatherBid
      cases hbid : w.bids.get (t, b) with
      | none => exact hsta
      | some bid =>
        dsimp only
        split
        · rename_i hrev
          obtain ⟨h0, hmax, hrep⟩ := hb b bid hbid hrev
          have hlim : maxBidPrice ≤ i128Max := by decide
          have hlim32 : maxReputation ≤ u32Max := by decide
          have hma : g.revealed.map priceStroops = [] ∧ g.minPrice = i128Max ∧ g.maxPrice = 0 ∧
              g.revealed.map reputation = [] ∧ g.minRep = u32Max ∧ g.maxRep = 0 ∨ g.Spans :=
            hsta.imp_left (by rintro rfl; exact ⟨rfl, rfl, rfl, rfl, rfl, rfl⟩)
          refine .inr ⟨?_, ?_, ?_, ?_, ?_⟩
          · intro x hx
            rcases mem_append.mp hx with hx | hx
            · rcases hsta with rfl | hg
              · cases hx
              · exact hg.scorable x hx
            · rw [mem_singleton.mp hx]
              exact ⟨h0, hmax, hrep⟩
          all_goals rw [map_append]
          · exact least_snoc (hma.imp (fun h => ⟨h.1, h.2.1⟩) Field.Spans.minPrice) (hmax.trans hlim)
          · exact least_snoc (α := Intᵒᵈ) (hma.imp (fun h => ⟨h.1, h.2.2.1⟩) Field.Spans.maxPrice) h0
          · exact least_snoc (hma.imp (fun h => ⟨h.2.2.2.1, h.2.2.2.2.1⟩) Field.Spans.minRep)
              (hrep.trans hlim32)
          · exact least_snoc (α := Natᵒᵈ) (hma.imp (fun h => ⟨h.2.2.2.1, h.2.2.2.2.2⟩) Field.Spans.maxRep)
              (Nat.zero_le _)
        · exact hsta
  exact (hrun start (.inl rfl)).resolve_left fun hno => hso (congrArg Field.revealed hno)

/-! ## The whole loop -/

section

omit [DecidableEq Addr]

variable (score : SealedBid Addr → Int)

/-- A higher score, or the same score at a lower price. -/
def Beats (x y : SealedBid Addr) : Prop :=
  score y < score x ∨ score x = score y ∧ x.priceStroops < y.priceStroops

def FirstBest (bids : List (SealedBid Addr)) (bid : SealedBid Addr) : Prop :=
  ∃ before after, bids = before ++ bid :: after ∧ (∀ x ∈ before, Beats score bid x) ∧
    ∀ x ∈ after, ¬ Beats score x bid

variable {score} {bids : List (SealedBid Addr)}

theorem FirstBest.mem (h : FirstBest score bids bid) : bid ∈ bids := by
  obtain ⟨before, after, rfl, -⟩ := h
  exact mem_append_right _ mem_cons_self

theorem FirstBest.not_beats {bid x : SealedBid Addr}
    (h : FirstBest score bids bid) (hx : x ∈ bids) : ¬ Beats score x bid := by
  obtain ⟨before, after, rfl, hbf, haf⟩ := h
  rcases mem_append.mp hx with hx | hx
  · have hle := hbf x hx
    unfold Beats at hle ⊢
    omega
  · rcases mem_cons.mp hx with rfl | hx
    · unfold Beats
      omega
    · exact haf x hx

/-- **Keeping the best finds the first best.** -/
theorem best_of_fold (hpos : ∀ bid ∈ bids, 0 ≤ score bid) (hso : bids ≠ []) :
    ∃ bid, FirstBest score bids bid ∧ bids.foldl
      (fun (best : Best Addr) bid => best.update bid (score bid)) ⟨-1, i128Max, none⟩ = ⟨score bid, bid.priceStroops, some bid.bidder⟩ := by
  induction bids using List.reverseRecOn with
  | nil => exact absurd rfl hso
  | append_singleton l x ih =>
    rw [foldl_append, foldl_cons, foldl_nil]
    by_cases hl : l = []
    · subst hl
      have hx := hpos x (mem_singleton.mpr rfl)
      exact ⟨x, ⟨[], [], rfl, nofun, nofun⟩, if_pos (show (-1 : Int) < score x by omega)⟩
    · obtain ⟨bid, hbe, hfo⟩ := ih (fun y hy => hpos y (mem_append_left _ hy)) hl
      rw [hfo]
      unfold Best.update
      by_cases hbea : Beats score x bid
      · refine ⟨x, ⟨l, [], rfl, ?_, nofun⟩, ?_⟩
        · intro y hy
          have hle := hbe.not_beats hy
          unfold Beats at hbea hle ⊢
          omega
        · rcases hbea with hlt | ⟨heq, hch⟩
          · exact if_pos hlt
          · rw [if_neg (by simp [heq]), if_pos ⟨heq, hch⟩, heq]
      · obtain ⟨before, after, rfl, hbf, haf⟩ := hbe
        refine ⟨bid, ⟨before, after ++ [x], by simp, hbf, ?_⟩, ?_⟩
        · intro y hy
          rcases mem_append.mp hy with hy | hy
          · exact haf y hy
          · rw [mem_singleton.mp hy]
            exact hbea
        · rw [if_neg (fun hlt => hbea (.inl hlt)), if_neg (fun htie => hbea (.inr htie))]

end

/-- **The scoring loop succeeds.** Every bid gets its score, and the best so far is kept. -/
theorem scoreLoop_eq (hg : g.Spans) {w : World Addr Sym τ} {rest : List (SealedBid Addr)} {b : Best Addr}
    (hrst : rest ⊆ g.revealed) (hsto : ∀ bid ∈ g.revealed, ∃ score,
      w.bids.get (t, bid.bidder) = some { bid with score := score })
    (hsm : ∀ x ∈ g.revealed, ∀ y ∈ g.revealed, x.bidder = y.bidder → x = y) :
    ∃ w', rest.foldlM (scoreStep t g (g.maxPrice - g.minPrice) (g.maxRep - g.minRep : Nat)) (w, b) =
        .ok (w', rest.foldl (fun best bid => best.update bid (g.score bid)) b) ∧
      ∀ bid ∈ g.revealed, bid ∈ rest ∨ w.bids.get (t, bid.bidder) = some { bid with score := g.score bid } →
        w'.bids.get (t, bid.bidder) = some { bid with score := g.score bid } := by
  induction rest generalizing w b with
  | nil => exact ⟨w, rfl, fun bid _ hbid => hbid.resolve_left not_mem_nil⟩
  | cons head rest ih =>
    obtain ⟨hhe, hrst⟩ := cons_subset.mp hrst
    obtain ⟨old, hold⟩ := hsto head hhe
    have hst : scoreStep t g (g.maxPrice - g.minPrice) (g.maxRep - g.minRep : Nat) (w, b) head =
        .ok ({ w with bids := w.bids.set (t, head.bidder) { head with score := g.score head } },
          b.update head (g.score head)) := by
      simp only [scoreStep, bind_eq_ok, okOr_eq_ok, pure_eq_ok]
      exact ⟨_, (scoreBid_eq hg hhe).1, _, hold, rfl⟩
    have hget : ∀ bid ∈ g.revealed, (w.bids.set (t, head.bidder) { head with score := g.score head }).get
        (t, bid.bidder) = if bid = head then some { bid with score := g.score bid }
          else w.bids.get (t, bid.bidder) := by
      intro bid hbid
      rw [Storage.get_set]
      by_cases his : bid = head
      · rw [if_pos his, his, if_pos rfl]
      · rw [if_neg his, if_neg]
        intro hkey
        exact his (hsm bid hbid head hhe (Prod.ext_iff.mp hkey).2)
    obtain ⟨w', hlo, hsc⟩ := ih (w := { w with bids := _ }) hrst fun bid hbid => by
      rw [hget bid hbid]
      split
      · exact ⟨_, rfl⟩
      · exact hsto bid hbid
    refine ⟨w', ?_, fun bid hbid hwh => hsc bid hbid ?_⟩
    · rw [foldlM_cons, hst]
      exact hlo
    · rw [hget bid hbid]
      rcases hwh with hmem | hdn
      · rcases mem_cons.mp hmem with his | hmem
        · exact .inr (if_pos his)
        · exact .inl hmem
      · right
        split
        · rfl
        · exact hdn

end AiNet.Bidding
