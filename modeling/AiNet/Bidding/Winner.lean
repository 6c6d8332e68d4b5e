import AiNet.Bidding.Refine
import AiNet.Bidding.Scoring

/-!
# The winner is the best bid

`reveal_bids` picks the first revealed bid that no other beats, by score and then by price.
Truncation may give two bids one score, but a point of reputation is worth more than
truncation takes: bids of one score have the same reputation or are not comparable. So no
revealed bid dominates the winner.
-/

namespace AiNet.Bidding

open Core System

variable {Addr Sym τ : Type} {g : Field Addr}

/-- At most the price, at least the reputation, and not both the same. -/
def Dominates (x y : SealedBid Addr) : Prop :=
  x.priceStroops ≤ y.priceStroops ∧ y.reputation ≤ x.reputation ∧
    (x.priceStroops < y.priceStroops ∨ y.reputation < x.reputation)

theorem Dominates.beats {x y : SealedBid Addr} (h : Dominates x y) (hg : g.Spans)
    (hx : x ∈ g.revealed) (hy : y ∈ g.revealed) : Beats g.score x y := by
  obtain ⟨hprc, hrep, hsct⟩ := h
  obtain ⟨hlow, hhi, hce⟩ := hg.bounds
  have hsp := hg.price hx
  have hre := hg.reputation hx
  have hlea := hg.reputation hy
  have hme : maxReputation = 100 := rfl
  have hpr : normalised (g.maxPrice - y.priceStroops) (g.maxPrice - g.minPrice) ≤
      normalised (g.maxPrice - x.priceStroops) (g.maxPrice - g.minPrice) :=
    normalised_mono (by omega) (by omega)
  unfold Beats Field.score
  rcases Nat.eq_or_lt_of_le hrep with heq | hlt
  · rw [heq]
    omega
  · have hapa : normalised (y.reputation - g.minRep : Nat) (g.maxRep - g.minRep : Nat) + 10 ≤
        normalised (x.reputation - g.minRep : Nat) (g.maxRep - g.minRep : Nat) :=
      normalised_lt (by omega) (by omega) (by omega) (by omega)
    omega

variable [DecidableEq Addr] [DecidableEq Sym] {env : Env Addr Sym τ} {call : Call Addr Sym}
  {w : World Addr Sym τ} {t : Sym} {a : Auction Addr Sym} {caller : Addr}

/-- The field of an auction: its revealed bids, and their ranges. -/
def World.field (w : World Addr Sym τ) (t : Sym) : Field Addr :=
  gather w t ((w.bidders.get t).getD [])

/-- The bids of a task are those of their bidders, and the revealed ones can be scored. -/
def Biddable (t : Sym) (w : World Addr Sym τ) : Prop :=
  ∀ b bid, w.bids.get (t, b) = some bid → bid.bidder = b ∧ (bid.revealed = true → Scorable bid)

theorem World.Inv.biddable (hi : w.Inv env.self) (ha : w.auctions.get t = some a) : Biddable t w := by
  intro b bid hb
  have hl := (hi t).live ha
  have hw := hl.roster.well b bid hb
  refine ⟨hw.bidder, fun hrev => ?_⟩
  obtain ⟨hmin, hmax⟩ := hw.price hrev
  have hre := hl.config.reserve
  have hce := hl.config.max_le
  exact ⟨by omega, by omega, hw.reputation⟩

/-- **What `reveal_bids` does** once its timing checks pass, if somebody revealed. -/
theorem revealBids_eq (hb : Biddable t w) (ha : w.auctions.get t = some a) (hpsd : w.paused = false)
    (hph : a.phase = .bidding) (hdd : a.deadline ≤ w.now)
    (htm : a.revealDeadline ≤ w.now ∨ a.bidCount ≤ a.revealedCount) (hsf : caller ≠ env.self)
    (hsgn : call.signed caller = true) (hso : (w.field t).revealed ≠ []) :
    ∃ w' bid, revealBids env call caller t w = .ok w' ∧ FirstBest (w.field t).score (w.field t).revealed bid ∧
      w'.winners.get t = some bid.bidder ∧ ∀ x ∈ (w.field t).revealed,
        w'.bids.get (t, x.bidder) = some { x with score := (w.field t).score x } := by
  have hspn : (w.field t).Spans := spans_gather (fun b bid hget => (hb b bid hget).2) hso
  have hkey : ∀ x ∈ (w.field t).revealed, w.bids.get (t, x.bidder) = some x := by
    intro x hx
    obtain ⟨b, -, hget, -⟩ := mem_gather.mp hx
    rw [(hb b x hget).1]
    exact hget
  obtain ⟨bid, hbe, hfo⟩ := best_of_fold (fun x hx => (scoreBid_eq hspn hx).2.1) hso
  obtain ⟨w₁, hlo, hsc⟩ := scoreLoop_eq (b := ⟨-1, i128Max, none⟩) hspn (fun _ => id)
    (fun x hx => ⟨x.score, hkey x hx⟩) fun x hx y hy he => by
      have hsm := hkey x hx
      rw [he, hkey y hy] at hsm
      exact (Option.some.inj hsm).symm
  rw [hfo] at hlo
  have hpr : checked128 ((w.field t).maxPrice - (w.field t).minPrice) =
      some ((w.field t).maxPrice - (w.field t).minPrice) := by
    obtain ⟨hlow, hhi, -⟩ := hspn.bounds
    have hsp := hspn.price hbe.mem
    have hce : maxBidPrice = 100000000000000000 := rfl
    have hlim : i128Max = 170141183460469231731687303715884105727 := rfl
    have hmin : i128Min = -170141183460469231731687303715884105728 := rfl
    exact checked128_of_mem (by omega)
  let w₂ := { w₁ with winners := w₁.winners.set t bid.bidder }
  refine ⟨saveAuction w₂ { a with phase := .reveal }, bid, ?_, hbe, Storage.get_set_self .., ?_⟩
  · simp only [revealBids, requireNotPaused, loadAuction, requireLive, bind_eq_ok, failIf_eq_ok,
      okOr_eq_ok, requireAuth_eq_ok, exists_and_left, exists_const, ne_eq, not_not, not_lt,
      not_and, Bool.not_eq_true, pure_eq_ok, trapUnless_eq_ok, Prod.exists]
    have hre := hspn.reputation hbe.mem
    refine ⟨hpsd, ⟨hsf, hsgn⟩, a, ha, ?_, hph, hdd, ?_, hso, _, hpr,
      hre.1.trans hre.2, w₁, _, hlo, bid.bidder, rfl, rfl⟩
    · rw [hph]
      decide
    · exact fun hlt => htm.resolve_left hlt.not_ge
  · exact fun x hx => hsc x hx (.inl hx)

/--
**Winner selection is correct.** The call returns; it stores the score of every revealed bid, in `[0, 1000]`
and computed from the extremes among them; the winner is the first bid that is best by score and then by
price; and no revealed bid dominates it.
-/
theorem winner_undominated (hb : Biddable t w) (ha : w.auctions.get t = some a) (hpaused : w.paused = false)
    (hphase : a.phase = .bidding) (hdead : a.deadline ≤ w.now)
    (htime : a.revealDeadline ≤ w.now ∨ a.bidCount ≤ a.revealedCount) (hself : caller ≠ env.self)
    (hsigned : call.signed caller = true) (hsome : (w.field t).revealed ≠ []) :
    (w.field t).revealed = ((w.bidders.get t).getD []).filterMap (w.revealedBid t) ∧ (w.field t).Spans ∧
      ∃ w', revealBids env call caller t w = .ok w' ∧
        (∀ x ∈ (w.field t).revealed, 0 ≤ (w.field t).score x ∧ (w.field t).score x ≤ scoreScale ∧
          w'.bids.get (t, x.bidder) = some { x with score := (w.field t).score x }) ∧
        ∃ bid, FirstBest (w.field t).score (w.field t).revealed bid ∧
          w'.winners.get t = some bid.bidder ∧ ∀ x ∈ (w.field t).revealed, ¬ Dominates x bid := by
  have hspn : (w.field t).Spans := spans_gather (fun b bid hget => (hb b bid hget).2) hsome
  obtain ⟨w', bid, hok, hbe, hwi, hsc⟩ :=
    revealBids_eq hb ha hpaused hphase hdead htime hself hsigned hsome
  refine ⟨gather_revealed _, hspn, w', hok, fun x hx => ?_, bid, hbe, hwi, fun x hx hdom => ?_⟩
  · obtain ⟨-, hlow, hhi⟩ := scoreBid_eq hspn hx
    exact ⟨hlow, hhi, hsc x hx⟩
  · exact hbe.not_beats hx (hdom.beats hspn hx hbe.mem)

/-- The bids of `3` at `20` and of `4` at `30`, both revealed: a winner is selected. -/
theorem winner_undominated_two : ∃ w : World Nat Nat (Token.Ledger Nat),
    (system (Sample.env 7)).Reachable ClockMonotone w ∧ ((w.field 7).revealed.map SealedBid.bidder = [3, 4]) ∧
      ∃ w' bid, revealBids (Sample.env 7) (Sample.call 5) 5 7 w = .ok w' ∧ w'.winners.get 7 = some bid.bidder ∧
        ∀ x ∈ (w.field 7).revealed, ¬ Dominates x bid := by
  have hpl : ((system (Sample.env 7)).play ClockMonotone ((Sample.selected 7).dropLast)
      (World.init 1000 Sample.wallets)).any (fun w => decide (w.paused = false ∧
        (w.field 7).revealed.map SealedBid.bidder = [3, 4]) && (w.auctions.get 7).any fun a => decide
          (a.phase = .bidding ∧ a.deadline ≤ w.now ∧ a.bidCount ≤ a.revealedCount)) = true := by
    decide +kernel
  obtain ⟨w, hr, hw⟩ := exists_reachable_of_play (start_init _ _ _) hpl
  obtain ⟨hfst, hauc⟩ := Bool.and_eq_true_iff.mp hw
  obtain ⟨hpsd, hrvl⟩ := of_decide_eq_true hfst
  obtain ⟨a, ha, hrdy⟩ := (Option.any_eq_true _ _).mp hauc
  obtain ⟨hph, hdd, hcnt⟩ := of_decide_eq_true hrdy
  have hso : (w.field 7).revealed ≠ [] := fun hno => by
    rw [hno] at hrvl
    cases hrvl
  obtain ⟨-, -, w', hok, -, bid, -, hwi, hun⟩ := @winner_undominated _ _ _ _ _ (Sample.env 7) (Sample.call 5)
    _ _ _ 5 ((inv_reachable hr).biddable ha) ha hpsd hph hdd (.inr hcnt) (by decide) (by decide) hso
  exact ⟨w, hr, hrvl, w', bid, hok, hwi, hun⟩

/-- The score as documented: a range of nothing counts as one. -/
def documentedScore (g : Field Addr) (bid : SealedBid Addr) : Int :=
  (60 * (scoreScale * (g.maxPrice - bid.priceStroops) / max (g.maxPrice - g.minPrice) 1) +
    40 * (scoreScale * (bid.reputation - g.minRep : Nat) / max (g.maxRep - g.minRep : Nat) 1)) / 100

/-- One revealed bid: it is stored with the full score, and the documented score is `0`. -/
theorem lone_bid_full_score : ∃ w : World Nat Nat (Token.Ledger Nat),
    (system (Sample.env 7)).Reachable ClockMonotone w ∧ w.winners.get 7 = some 3 ∧
      ∃ bid ∈ (w.field 7).revealed, bid.score = 1000 ∧ documentedScore (w.field 7) bid = 0 := by
  have hpl : ((system (Sample.env 7)).play ClockMonotone (Sample.opened 7 10 100 5 ++
      [ Sample.bid 3 20 5, .close 1400, Sample.reveal 3 20, Sample.signed 5 (.revealBids 5 7) ])
      (World.init 1000 Sample.wallets)).any (fun w => decide (w.winners.get 7 = some 3 ∧
        ∃ bid ∈ (w.field 7).revealed, bid.score = 1000 ∧ documentedScore (w.field 7) bid = 0)) = true := by
    decide +kernel
  exact exists_reachable (start_init _ _ _) hpl

end AiNet.Bidding
