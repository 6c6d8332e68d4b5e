import AiNet.Bidding.Invariant

/-!
# The right to reveal

Between `deadline` and `reveal_deadline` a bidder who holds the opening of a stored
commitment can reveal, whatever anybody else has called before. The auction would be
closed to that bidder only by leaving the `bidding` phase, and it leaves it early in
one case alone: when `revealed_count` has caught up with `bid_count`. Since the
counters count stored bids, an unrevealed bid excludes that case.

The clock matters here: it must not go back behind a `reveal_deadline` once seen.
-/

namespace AiNet.Bidding

open Core Function List System

variable {Addr Sym τ : Type}

/-! ## Full counters -/

theorem revealedOne_le (bid : SealedBid Addr) : revealedOne bid ≤ 1 := by
  unfold revealedOne
  split <;> omega

theorem sum_revealed_le (bidders : List Addr) (bids : Addr → Option (SealedBid Addr)) :
    sumBids bidders bids revealedOne ≤ bidders.length := by
  unfold sumBids
  induction bidders with
  | nil => exact Nat.le_refl 0
  | cons b =>
    rw [map_cons, sum_cons, length_cons]
    have hone : (bids b).elim 0 revealedOne ≤ 1 := by
      cases bids b with
      | none => exact Nat.zero_le 1
      | some bid => exact revealedOne_le bid
    omega

variable {self : Addr} {b : Addr} {bid : SealedBid Addr}

/-- **With an unrevealed bid in store, the reveals have not caught up.** -/
theorem Roster.revealed_lt [DecidableEq Addr] {a : Auction Addr Sym} {bidders : List Addr}
    {bids : Addr → Option (SealedBid Addr)} (h : Roster self a bidders bids) (hb : bids b = some bid)
    (hsld : bid.revealed = false) :
    a.revealedCount < a.bidCount := by
  -- opening the one bid would add one to the sum, and the sum is bounded by the length
  let opened : SealedBid Addr := { bid with revealed := true }
  have hmem : b ∈ bidders := (h.mem b).mpr ⟨bid, hb⟩
  have hsum : sumBids bidders (update bids b (some opened)) revealedOne
      + revealedOne bid = sumBids bidders bids revealedOne + revealedOne opened :=
    sumBids_update h.nodup hmem hb
  have h0 : revealedOne bid = 0 := if_neg (by simp [hsld])
  have h1 : revealedOne opened = 1 := rfl
  have hle := sum_revealed_le bidders (update bids b (some opened))
  rw [h.bidCount, h.revealedCount]
  omega

/-! ## No early close -/

/-- An auction out of `bidding` is past its reveal deadline, or everybody has revealed. -/
def Lot.NotEarly (now : Nat) (L : Lot Addr Sym) : Prop :=
  ∀ a, L.auction = some a → a.phase ≠ .bidding → a.revealDeadline ≤ now ∨ a.bidCount ≤ a.revealedCount

theorem Lot.NotEarly.mono {now now' : Nat} {L : Lot Addr Sym} (h : L.NotEarly now)
    (hle : now ≤ now') : L.NotEarly now' := by
  intro a ha hph
  rcases h a ha hph with hd | hc
  · exact .inl (Nat.le_trans hd hle)
  · exact .inr hc

variable [DecidableEq Addr]

variable {t : Sym}

theorem Lot.Change.notEarly {now : Nat} {act : Action Addr}
    {L L' : Lot Addr Sym} {ps : List (Payment Addr Sym)}
    (h : Lot.Change self now t act L L' ps) (hn : L.NotEarly now) : L'.NotEarly now := by
  intro a' ha' hph'
  cases h with
  | create hno hfr =>
    cases ha'
    exact absurd hfr.phase hph'
  | submit ha hph hon hfl hno hfr hpd =>
    rename_i a bid
    cases ha'
    obtain ⟨-, -, -, -, -, -, hp, -⟩ := antiSnipe_fields now { a with bidCount := a.bidCount + 1 }
    exact absurd (hp.trans hph) hph'
  | reveal ha hph =>
    cases ha'
    exact absurd hph hph'
  | select ha hph hdd hrdy =>
    cases ha'
    exact hrdy
  | claimRefund | claimBidRefund | releaseEscrow | refundEscrow => exact hn a' ha' hph'
  | award ha hph hfg hwin hb hset hpd =>
    rename_i a winner bid bids' ps qs
    cases ha'
    have hne : a.phase ≠ .bidding := by
      rw [hph]
      decide
    exact hn a ha hne
  | abort ha hph hdd =>
    cases ha'
    exact .inl hdd

/-! ## A sealed bid stays sealed -/

theorem Lot.Change.keepsFace {now : Nat} {act : Action Addr} {L L' : Lot Addr Sym}
    {ps : List (Payment Addr Sym)} (h : Lot.Change self now t act L L' ps) (hact : act ≠ .reveal b)
    (hb : L.bids b = some bid) :
    ∃ bid', L'.bids b = some bid' ∧ bid.face = bid'.face := by
  have hfac : SameFaces L.bids L'.bids → ∃ bid', L'.bids b = some bid' ∧ bid.face = bid'.face :=
    fun hf => hf.symm.find hb
  cases h with
  | create | releaseEscrow | refundEscrow => exact ⟨bid, hb, rfl⟩
  | submit ha hph hon hfl hno hfr hpd =>
    rename_i a new
    have hne : b ≠ new.bidder := by
      intro he
      rw [he, hno] at hb
      cases hb
    exact ⟨bid, (update_of_ne hne _ _).trans hb, rfl⟩
  | reveal ha hph hdd hon hb' hrvl hmin hmax =>
    rename_i a b' bid' price terms
    have hne : b ≠ b' := fun he => hact (he ▸ rfl)
    exact ⟨bid, (update_of_ne hne _ _).trans hb, rfl⟩
  | select => exact hfac (sameFaces_scored _ _)
  | claimRefund ha hdd hwi hb | claimBidRefund ha hph hwin hne hb => exact hfac (.update hb rfl)
  | award ha hph hfg hwin hb hset => exact hfac (hset.sameFaces (awardVerdict_face _))
  | abort ha hph hdd hno hset => exact hfac (hset.sameFaces abortVerdict_face)

/-! ## Runs -/

variable [DecidableEq Sym]

variable {env : Env Addr Sym τ}

/-- **No auction is closed early** while the clock runs forward. -/
theorem notEarly_reachable {w : World Addr Sym τ} (h : (system env).Reachable ClockMonotone w)
    (t : Sym) : (w.lot t).NotEarly w.now := by
  have hfr : ∀ (w : World Addr Sym τ) e, ClockMonotone w e →
      OnActions t (fun _ _ _ => True) w e := fun w e _ => onActions_of_all (fun _ => trivial) e
  refine lot_invariant hfr ?_ ?_ ?_ h
  · intro now a ha
    cases ha
  · intro w e w' hi hg hs L hn
    exact hn.mono (now_le_of_step hi.wellKeyed hg hs)
  · intro now act L L' ps hc _ _ hn
    exact hc.notEarly hn

/-- Time passes and anybody calls anything, but bidder `b` does not reveal on task `t`. -/
def OthersAct (t : Sym) (b : Addr) (w : World Addr Sym τ) (e : Event Addr Sym τ) :
    Prop :=
  ClockMonotone w e ∧ OnActions t (fun _ _ act => act ≠ .reveal b) w e

instance (t : Sym) (b : Addr) (w : World Addr Sym τ) (e : Event Addr Sym τ) :
    Decidable (OthersAct t b w e) :=
  inferInstanceAs (Decidable (_ ∧ _))

/-- The bid of `b` for `t`, as sealed as `bid`. -/
def StillSealed (t : Sym) (b : Addr) (bid : SealedBid Addr)
    (w : World Addr Sym τ) : Prop :=
  ∃ bid', w.bids.get (t, b) = some bid' ∧ bid.face = bid'.face

theorem stillSealed_step {w w' : World Addr Sym τ}
    {e : Event Addr Sym τ}
    (hi : w.Inv env.self) (hg : OthersAct t b w e) (h : (system env).step w e = some w')
    (hs : StillSealed t b bid w) : StillSealed t b bid w' := by
  obtain ⟨bid', hb, hfa⟩ := hs
  rcases step_lot hi.wellKeyed h t with ⟨call, op, act, ps, he, hop, hatd⟩ | hsm
  · subst he
    have hact : act ≠ .reveal b := hg.2.of_invoke hop
    obtain ⟨bid'', hb'', hfa'⟩ := hatd.change.keepsFace hact hb
    exact ⟨bid'', hb'', hfa.trans hfa'⟩
  · have hbi : (w'.lot t).bids b = (w.lot t).bids b := by rw [hsm]
    exact ⟨bid', hbi.trans hb, hfa⟩

theorem stillSealed_run {w w' : World Addr Sym τ} (hi : w.Inv env.self)
    (hrun : (system env).Run (OthersAct t b) w w') (hs : StillSealed t b bid w) :
    StillSealed t b bid w' := by
  have hone : ∀ w e w', OthersAct t b w e → w.Inv env.self ∧ StillSealed t b bid w →
      (system env).step w e = some w' → w'.Inv env.self ∧ StillSealed t b bid w' := by
    intro w e w' hg ⟨hi, hs⟩ hst
    exact ⟨inv_step hi hst, stillSealed_step hi hg hst hs⟩
  exact (System.Run.preserves hrun hone ⟨hi, hs⟩).2

theorem revealBid_succeeds {call : Call Addr Sym} {w : World Addr Sym τ}
    {a : Auction Addr Sym} {price : Int} {terms : List UInt8} {salt : BytesN 32}
    (hpsd : w.paused = false) (hsf : b ≠ env.self) (hsgn : call.signed b = true)
    (ha : w.auctions.get t = some a) (hph : a.phase = .bidding) (hdd : a.deadline ≤ w.now)
    (hon : w.now < a.revealDeadline) (hb : w.bids.get (t, b) = some bid) (hsld : bid.revealed = false)
    (htrm : terms.length ≤ maxTermsLen)
    (hops : computeCommitment env t b price terms salt = bid.commitment)
    (hmin : a.config.reservePrice ≤ price) (hmax : price ≤ a.config.maxPrice) :
    ∃ w', revealBid env call t b price terms salt w = .ok w' := by
  let opened : SealedBid Addr :=
    { bid with revealed := true, priceStroops := price, terms := terms }
  refine ⟨saveAuction { w with bids := w.bids.set (t, b) opened }
    { a with revealedCount := a.revealedCount + 1 }, ?_⟩
  simp only [revealBid, requireNotPaused, loadAuction, requireLive, bind_eq_ok, failIf_eq_ok,
    okOr_eq_ok, requireAuth_eq_ok, exists_and_left, exists_const, pure_eq_ok, ne_eq, not_not,
    not_lt, not_le, not_or, Bool.not_eq_true]
  refine ⟨hpsd, ⟨hsf, hsgn⟩, a, ha, ?_, hph, hdd, hon, bid, hb, hsld, htrm, hops, ⟨hmin, hmax⟩, rfl⟩
  rw [hph]
  exact ⟨by decide, by decide⟩

/--
**The reveal right.** Take a bid sealed in a reachable state and any further run in which its
bidder does not reveal it. Whenever that run is in the reveal window of the auction, and the
contract is not paused, the bidder can reveal the opening of the commitment.
-/
theorem reveal_right {env : Env Addr Sym τ} {call : Call Addr Sym}
    {w w' : World Addr Sym τ} {t : Sym} {b : Addr} {a : Auction Addr Sym}
    {bid : SealedBid Addr} {price : Int} {terms : List UInt8} {salt : BytesN 32}
    (hr : (system env).Reachable ClockMonotone w) (hb : w.bids.get (t, b) = some bid)
    (hsealed : bid.revealed = false)
    (hopens : computeCommitment env t b price terms salt = bid.commitment)
    (hterms : terms.length ≤ maxTermsLen) (hrun : (system env).Run (OthersAct t b) w w')
    (hpaused : w'.paused = false) (ha : w'.auctions.get t = some a)
    (hdead : a.deadline ≤ w'.now) (hopen : w'.now < a.revealDeadline)
    (hmin : a.config.reservePrice ≤ price) (hmax : price ≤ a.config.maxPrice)
    (hsigned : call.signed b = true) :
    ∃ w'', revealBid env call t b price terms salt w' = .ok w'' := by
  have hclk : (system env).Run ClockMonotone w w' := hrun.weaken fun _ _ hg => hg.1
  have hr' := hr.run hclk
  have hlv := (inv_reachable hr' t).live ha
  obtain ⟨bid', hb', hfa⟩ := stillSealed_run (inv_reachable hr) hrun ⟨bid, hb, rfl⟩
  have hsld' : bid'.revealed = false := by
    rw [← SealedBid.revealed_of_face hfa]
    exact hsealed
  have hlt := hlv.roster.revealed_lt hb' hsld'
  have hph : a.phase = .bidding := by
    by_contra hne
    rcases notEarly_reachable hr' t a ha hne with hd | hc
    · omega
    · omega
  have hco : bid.face.commitment = bid'.face.commitment := by rw [hfa]
  exact revealBid_succeeds hpaused (hlv.roster.well b bid' hb').ne_self hsigned ha hph hdead
    hopen hb' hsld' hterms (hopens.trans hco) hmin hmax

/-- Bidder `3` opens its bid late in the window, after `4` has revealed and taken its bond back. -/
theorem reveal_right_late : ∃ w' w'' : World Nat Nat (Token.Ledger Nat), w'.now = 1419 ∧
    revealBid (Sample.env 7) (Sample.call 3) 7 3 20 [] Sample.salt w' = .ok w'' := by
  have hpl : ((system (Sample.env 7)).play ClockMonotone
      (Sample.opened 7 10 100 5 ++ [Sample.bid 3 20 5, Sample.bid 4 30 5])
      (World.init 1000 Sample.wallets)).any (fun w =>
        ((w.bids.get (7, 3)).any fun bid => bid.revealed = false ∧
          computeCommitment (Sample.env 7) 7 3 20 [] Sample.salt = bid.commitment) &&
        ((system (Sample.env 7)).play (OthersAct 7 3)
          [.close 1400, Sample.reveal 4 30, Sample.signed 4 (.claimRefund 7 4), .close 1419] w).any
            fun w' => w'.now = 1419 ∧ w'.paused = false ∧ (w'.auctions.get 7).any fun a =>
              a.deadline ≤ w'.now ∧ w'.now < a.revealDeadline ∧ a.config.reservePrice ≤ 20 ∧
                20 ≤ a.config.maxPrice) = true := by
    decide +kernel
  obtain ⟨w, hr, hw⟩ := exists_reachable_of_play (start_init _ _ _) hpl
  rw [Bool.and_eq_true] at hw
  obtain ⟨bid, hb, hbid⟩ := (Option.any_eq_true _ _).mp hw.1
  obtain ⟨hsld, hops⟩ := of_decide_eq_true hbid
  obtain ⟨w', hrun, hw'⟩ := (Option.any_eq_true _ _).mp hw.2
  obtain ⟨hnow, hpsd, ha⟩ := of_decide_eq_true hw'
  obtain ⟨a, ha, hwin⟩ := (Option.any_eq_true _ _).mp ha
  obtain ⟨hdd, hon, hmin, hmax⟩ := of_decide_eq_true hwin
  have hsgn : (Sample.call 3).signed 3 = true := rfl
  obtain ⟨w'', hok⟩ := reveal_right hr hb hsld hops (by decide) (run_of_play hrun)
    hpsd ha hdd hon hmin hmax hsgn
  exact ⟨w', w'', hnow, hok⟩

end AiNet.Bidding
