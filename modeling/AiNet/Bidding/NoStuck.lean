import AiNet.Bidding.Solvency
import AiNet.Bidding.Winner

/-!
# No stuck auction

An auction past its reveal deadline should be able to move on: to a winner if anybody
revealed, to an abort if nobody did, and from the winner to the award. The checks on
that path are all shown unreachable here but one: the conversion of an amount to units
of the payment asset. In an asset of fewer than seven decimals nothing rounds a price
to whole units, so a winner's price can make `max_price - price` unpayable, and with
it the award. `Settleable` is the exact condition.
-/

namespace AiNet.Bidding

open Core List Option System

variable {Addr Sym τ : Type}

/-! ## Two more invariants -/

/-- The reveal deadline is never before the bidding deadline. -/
def Lot.Ordered (L : Lot Addr Sym) : Prop :=
  ∀ a, L.auction = some a → a.deadline ≤ a.revealDeadline

theorem le_satAdd64 {a b : Nat} (h : a ≤ u64Max) : a ≤ satAdd64 a b :=
  Nat.le_min.mpr ⟨Nat.le_add_right a b, h⟩

theorem satAdd64_mono {a a' b : Nat} (h : a ≤ a') : satAdd64 a b ≤ satAdd64 a' b :=
  min_le_min (Nat.add_le_add_right h b) (Nat.le_refl _)

variable {self : Addr} {now : Nat} {t : Sym} {L L' : Lot Addr Sym} {ps : List (Payment Addr Sym)}

theorem Lot.Change.ordered [DecidableEq Addr] {act : Action Addr}
    (h : Lot.Change self now t act L L' ps) (ho : L.Ordered) : L'.Ordered := by
  intro a' ha'
  cases h with
  | create hno hfr =>
    cases ha'
    rw [hfr.revealDeadline]
    refine le_satAdd64 ?_
    rw [hfr.deadline]
    exact Nat.min_le_right _ _
  | submit ha =>
    cases ha'
    have hle := ho _ ha
    unfold antiSnipe
    split
    · exact satAdd64_mono hle
    · exact hle
  | reveal ha | select ha | award ha | abort ha =>
    cases ha'
    have hle := ho _ ha
    exact hle
  | claimRefund | claimBidRefund | releaseEscrow | refundEscrow => exact ho a' ha'

theorem Lot.Change.pays_of_new [DecidableEq Addr] {act : Action Addr}
    (h : Lot.Change self now t act L L' ps) (hi : L.Inv self t) (hno : L.auction = none) :
    ∃ p, p ∈ ps := by
  have hso : ∀ a, L.auction ≠ some a := by
    intro a ha
    rw [hno] at ha
    cases ha
  cases h with
  | create _ hfr hpd =>
    have hre := hfr.config.reserve
    have hle := hfr.config.reserve_le
    rcases hpd with ⟨hz, -⟩ | ⟨-, asset, units, rfl⟩
    · omega
    · exact ⟨_, mem_singleton_self _⟩
  | submit ha | reveal ha | select ha | claimRefund ha | claimBidRefund ha | award ha | abort ha =>
    exact absurd ha (hso _)
  | releaseEscrow he | refundEscrow he =>
    obtain ⟨a, ha⟩ := hi.auction_of_escrow he
    exact absurd ha (hso a)

variable [DecidableEq Addr] [DecidableEq Sym]
variable {env : Env Addr Sym τ} {w : World Addr Sym τ}

/-- A configured asset comes with its decimals, and without one there are no auctions. -/
structure World.AssetKnown (env : Env Addr Sym τ) (w : World Addr Sym τ) : Prop where
  decimals : ∀ asset, w.paymentAsset = some asset → Configured env asset w
  unset : w.paymentAsset = none → ∀ t, w.auctions.get t = none

variable {call : Call Addr Sym}

theorem setPaymentAsset_configures {w' : World Addr Sym τ} {op : Op Addr Sym}
    (hset : op.setsAsset = true) (h : exec env call op w = .ok w') :
    ∃ asset, Configured env asset w' := by
  cases op with
  | setPaymentAsset asset =>
    simp only [exec, setPaymentAsset, bind_eq_ok, failIf_eq_ok, exists_and_left, exists_const,
      pure_eq_ok, ne_eq, not_not] at h
    obtain ⟨-, -, hdec, rfl⟩ := h
    exact ⟨asset, rfl, by rw [hdec]⟩
  | _ => cases hset

theorem assetKnown_step {w' : World Addr Sym τ} {e : Event Addr Sym τ}
    (hi : w.Inv env.self) (hk : w.AssetKnown env) (h : (system env).step w e = some w') :
    w'.AssetKnown env := by
  -- with the configuration kept, only a new auction could break the second half
  have hkp : w'.paymentAsset = w.paymentAsset → w'.assetDecimals = w.assetDecimals →
      (w.paymentAsset = none → ∀ t, w'.auctions.get t = none) → w'.AssetKnown env := by
    intro hast hdec hno
    refine ⟨?_, fun hn => hno (hast ▸ hn)⟩
    intro asset ha
    have hc := hk.decimals asset (hast ▸ ha)
    exact ⟨ha, hdec.trans hc.assetDecimals⟩
  cases e with
  | close | external => cases h; exact hkp rfl rfl hk.unset
  | invoke call op =>
    have hec := step_invoke.mp h
    cases hact : op.action with
    | none =>
      have hadm := exec_admin hact hec
      rcases hadm.asset with hset | ⟨hast, hdec⟩
      · obtain ⟨asset, hc⟩ := setPaymentAsset_configures hset hec
        refine ⟨?_, ?_⟩
        · intro asset' ha
          rw [hc.paymentAsset] at ha
          injection ha with ha
          exact ha ▸ hc
        · intro hn
          rw [hc.paymentAsset] at hn
          cases hn
      · refine hkp hast hdec ?_
        rw [hadm.records.1]
        exact hk.unset
    | some ta =>
      obtain ⟨t, act⟩ := ta
      obtain ⟨ps, hatd⟩ := exec_refines hact hi.wellKeyed hec
      refine hkp hatd.booked.asset hatd.booked.decimals ?_
      intro hn t'
      have hold := hk.unset hn
      by_cases ht : t' = t
      · obtain ⟨p, hp⟩ := hatd.change.pays_of_new (hi t) (hold t)
        have hq := (hatd.booked.quoted p hp).asset
        rw [hn] at hq
        cases hq
      · have hauc := congrArg Lot.auction (hatd.others t' ht)
        exact hauc.trans (hold t')

theorem assetKnown_reachable {guard : World Addr Sym τ → Event Addr Sym τ → Prop}
    (h : (system env).Reachable guard w) : w.AssetKnown env := by
  refine System.Reachable.invariant ?_ ?_ h
  · intro w ⟨now, tokens, hw⟩
    subst hw
    refine ⟨?_, fun _ _ => rfl⟩
    intro asset ha
    cases ha
  · intro w e w' hr _ hk hs
    exact assetKnown_step (inv_reachable hr) hk hs

theorem ordered_reachable {guard : World Addr Sym τ → Event Addr Sym τ → Prop}
    (h : (system env).Reachable guard w) (t : Sym) : (w.lot t).Ordered :=
  lot_invariant_always nofun (fun _ _ _ _ _ hc _ ho => hc.ordered ho) h

/-! ## Selecting a winner -/

def Revealed (t : Sym) (w : World Addr Sym τ) : Prop :=
  ∃ b bid, w.bids.get (t, b) = some bid ∧ bid.revealed = true

omit [DecidableEq Sym] in
theorem Lot.Change.revealed_of_select (h : Lot.Change self now t .select L L' ps) :
    ∃ b bid, L.bids b = some bid ∧ bid.revealed = true := by
  cases h with
  | select ha hph hdd hrdy hmem hb hrvl => exact ⟨_, _, hb, hrvl⟩

variable {a : Auction Addr Sym} {caller : Addr}

/-- **After the reveal deadline a winner can be selected exactly if somebody revealed.** -/
theorem revealBids_ok_iff (hi : w.Inv env.self) (ha : w.auctions.get t = some a) (hpsd : w.paused = false)
    (hph : a.phase = .bidding) (hdd : a.deadline ≤ w.now) (hov : a.revealDeadline ≤ w.now)
    (hsf : caller ≠ env.self) (hsgn : call.signed caller = true) :
    (∃ w', revealBids env call caller t w = .ok w') ↔ Revealed t w := by
  have hl := (hi t).live ha
  constructor
  · rintro ⟨w', h⟩
    obtain ⟨ps, hatd⟩ := revealBids_acts hi.wellKeyed h
    exact hatd.change.revealed_of_select
  · rintro ⟨b, bid, hb, hrev⟩
    have hmem : bid ∈ (w.field t).revealed := mem_gather.mpr ⟨b, (hl.roster.mem b).mpr ⟨bid, hb⟩, hb, hrev⟩
    obtain ⟨w', -, hok, -⟩ := revealBids_eq (hi.biddable ha) ha hpsd hph hdd (.inl hov) hsf
      hsgn (ne_nil_of_mem hmem)
    exact ⟨w', hok⟩

/-! ## Settling -/

/-- Every bond a settlement still has to pay, and the other amount, are payable. -/
def SettlesAll (env : Env Addr Sym τ) (asset : Addr) (t : Sym) (other : Int)
    (w : World Addr Sym τ) : Prop :=
  (∀ b, BondPayable (env.token.decimals asset) (w.bids.get (t, b))) ∧
    Payable other (env.token.decimals asset)

variable {asset : Addr}

theorem settle_ok_iff (hT : env.token.Exact) (hP : env.token.Pays) (w : World Addr Sym τ)
    (hros : Roster env.self a (w.lot t).bidders (w.lot t).bids)
    (hbo : ∀ b bid, w.bids.get (t, b) = some bid → 0 ≤ bid.bond) (hc : Configured env asset w)
    {verdict : Verdict Addr}
    {f : World Addr Sym τ → Addr → Outcome Error (World Addr Sym τ)}
    (hf : ∀ w w' b, f w b = .ok w' → SettlesOne env t verdict b w w') (hpa : PaysBond env t f)
    (hdst : ∀ b bid, w.bids.get (t, b) = some bid → (verdict b bid).2 ≠ env.self) {other : Int}
    (hoth : 0 ≤ other)
    (hcvr : Covers env asset (sumBids (w.lot t).bidders (w.lot t).bids SealedBid.bondHeld + other) w)
    (finish : World Addr Sym τ → World Addr Sym τ)
    (hfi : ∀ w₁, Configured env asset w₁ → Covers env asset other w₁ → Configured env asset (finish w₁) ∧ Covers env asset other (finish w₁))
    (why : Purpose Addr Sym) (dst : Addr) :
    (∃ w', ((w.bidders.get t).getD []).foldlM f w = .ok w' ∧
        ∃ w'', pushFunds env (finish w') why dst other = .ok w'') ↔
      SettlesAll env asset t other w := by
  have hrdy : Ready env t asset (w.lot t).bids other (w.lot t).bidders w :=
    ⟨hc, hros.nodup, fun _ _ => rfl, hcvr⟩
  obtain ⟨hlo, haf⟩ := settleLoop_ok_iff hT hf hpa hdst hbo hoth hrdy
  have hla : ∀ w', (w.lot t).bidders.foldlM f w = .ok w' →
      ((∃ w'', pushFunds env (finish w') why dst other = .ok w'') ↔
        Payable other (env.token.decimals asset)) := by
    intro w' hrun
    have hend := haf w' hrun
    have hcov : Covers env asset other w' := hend.covers.mono (by simp [sumBids])
    obtain ⟨hc', hcov'⟩ := hfi w' hend.configured hcov
    exact pushFunds_ok_iff hP hc' hoth hcov'
  constructor
  · rintro ⟨w', hrun, hpu⟩
    refine ⟨?_, (hla w' hrun).mp hpu⟩
    intro b bid hb hon
    have hmem : b ∈ (w.lot t).bidders := (hros.mem b).mpr ⟨bid, hb⟩
    exact hlo.mp ⟨w', hrun⟩ b hmem bid hb hon
  · rintro ⟨hbds, hpay⟩
    obtain ⟨w', hrun⟩ := hlo.mpr fun b _ => hbds b
    exact ⟨w', hrun, (hla w' hrun).mpr hpay⟩

theorem settlesAll_of_config {other : Int} (hl : (w.lot t).Live env.self t a)
    (hbo : Payable a.config.bond (env.token.decimals asset))
    (hoth : Payable other (env.token.decimals asset)) : SettlesAll env asset t other w := by
  refine ⟨?_, hoth⟩
  intro b bid hb _
  rw [(hl.roster.well b bid hb).bond]
  exact hbo

theorem Covers.lot (hi : w.Inv env.self) (t : Sym)
    (h : Covers env asset w.owed w) : Covers env asset (w.lot t).owed w := by
  refine h.mono ?_
  have hspl := owed_eq hi t
  have hel := owedElse_nonneg hi t
  omega

theorem Lot.Live.revealedCount_pos_iff (hl : (w.lot t).Live env.self t a) : 0 < a.revealedCount ↔ Revealed t w := by
  rw [hl.roster.revealedCount, sumBids, List.sum_pos_iff_exists_pos_nat]
  constructor
  · rintro ⟨n, hn, hpos⟩
    obtain ⟨b, -, rfl⟩ := List.mem_map.mp hn
    cases hb : (w.lot t).bids b with
    | none =>
      rw [hb] at hpos
      cases hpos
    | some bid =>
      rw [hb] at hpos
      by_cases hrev : bid.revealed = true
      · exact ⟨b, bid, hb, hrev⟩
      · rw [elim_some, revealedOne, if_neg hrev] at hpos
        cases hpos
  · rintro ⟨b, bid, hb, hrev⟩
    refine ⟨_, List.mem_map.mpr ⟨b, (hl.roster.mem b).mpr ⟨bid, hb⟩, rfl⟩, ?_⟩
    have hone : ((w.lot t).bids b).elim 0 revealedOne = 1 := by
      rw [show (w.lot t).bids b = some bid from hb, elim_some]
      exact if_pos hrev
    omega

/-- **When an auction past its reveal deadline can be aborted.** -/
theorem abortAuction_ok_iff (hT : env.token.Exact) (hP : env.token.Pays) (hi : w.Inv env.self)
    (ha : w.auctions.get t = some a) (hpsd : w.paused = false) (hph : a.phase = .bidding)
    (hov : a.revealDeadline ≤ w.now) (hc : Configured env asset w) (hcvr : Covers env asset w.owed w)
    (hsf : caller ≠ env.self) (hsgn : call.signed caller = true) :
    (∃ w', abortAuction env call caller t w = .ok w') ↔
      ¬ Revealed t w ∧ SettlesAll env asset t a.config.maxPrice w := by
  have hl := (hi t).live ha
  have hre := hl.config.reserve
  have hle := hl.config.reserve_le
  have hhd : Covers env asset
      (sumBids (w.lot t).bidders (w.lot t).bids SealedBid.bondHeld + a.config.maxPrice) w := by
    refine (hcvr.lot hi t).mono ?_
    rw [hl.owed_open ha (.inl hph)]
    omega
  have hstt := settle_ok_iff hT hP w hl.roster (fun _ _ hb => hl.bond_nonneg hb) hc
    (fun _ _ _ => releaseBond_settles) (releaseBond_pays hP t)
    (fun b bid hb => by
      have hw := hl.roster.well b bid hb
      exact hw.bidder ▸ hw.ne_self)
    (by omega) hhd (fun w₁ => saveAuction w₁ { a with phase := .cancelled })
    (fun _ hc hcov => ⟨⟨hc.paymentAsset, hc.assetDecimals⟩, hcov⟩) (.budget t) a.creator
  rw [← hl.revealedCount_pos_iff, ← hstt]
  constructor
  · rintro ⟨w', h⟩
    simp only [abortAuction, requireNotPaused, loadAuction, requireLive, bind_eq_ok, failIf_eq_ok,
      okOr_eq_ok, requireAuth_eq_ok, exists_and_left, exists_const] at h
    obtain ⟨-, -, a', ha', -, -, -, hno, w₁, hlo, hpu⟩ := h
    rw [ha] at ha'
    injection ha' with ha'
    subst ha'
    exact ⟨hno, w₁, hlo, w', hpu⟩
  · rintro ⟨hno, w₁, hlo, w', hpu⟩
    refine ⟨w', ?_⟩
    simp only [abortAuction, requireNotPaused, loadAuction, requireLive, bind_eq_ok, failIf_eq_ok,
      okOr_eq_ok, requireAuth_eq_ok, exists_and_left, exists_const, ne_eq, not_not, not_lt,
      Bool.not_eq_true]
    refine ⟨hpsd, ⟨hsf, hsgn⟩, a, ha, ?_, hph, hov, Nat.not_lt.mp hno, w₁, hlo, hpu⟩
    rw [hph]
    decide

/-- **When a selected auction can be awarded.** -/
theorem awardContract_ok_iff (hT : env.token.Exact) (hP : env.token.Pays) (hi : w.Inv env.self)
    (ha : w.auctions.get t = some a) (hpsd : w.paused = false) (hph : a.phase = .reveal) {v : Addr}
    (hv : w.winners.get t = some v) {bid : SealedBid Addr} (hbid : w.bids.get (t, v) = some bid)
    (hc : Configured env asset w) (hcvr : Covers env asset w.owed w)
    (hpar : caller = a.creator ∨ caller = v) (hsgn : call.signed caller = true) :
    (∃ w', awardContract env call caller t w = .ok w') ↔
      SettlesAll env asset t (a.config.maxPrice - bid.priceStroops) w := by
  have hl := (hi t).live ha
  have hwe := hl.roster.well v bid hbid
  have hsf : caller ≠ env.self := by
    rcases hpar with rfl | rfl
    · exact hl.creator
    · exact hwe.ne_self
  have hrvl : bid.revealed = true := by
    obtain ⟨bid', hb', hrev⟩ := hl.staged.revealed v hv
    rw [show (w.lot t).bids v = some bid from hbid] at hb'
    injection hb' with hb'
    exact hb' ▸ hrev
  obtain ⟨hmin, hmax⟩ := hwe.price hrvl
  have hre := hl.config.reserve
  have hce := hl.config.max_le
  have hfl : a.escrowCreated = false := by
    rw [← Bool.not_eq_true, hl.staged.escrowCreated, hph]
    simp
  have hhd : Covers env asset (sumBids (w.lot t).bidders (w.lot t).bids SealedBid.bondHeld
      + (a.config.maxPrice - bid.priceStroops)) w := by
    refine (hcvr.lot hi t).mono ?_
    rw [hl.owed_open ha (.inr hph)]
    omega
  have hft : checked128 (a.config.maxPrice - bid.priceStroops)
      = some (a.config.maxPrice - bid.priceStroops) := by
    have hli : maxBidPrice = 100000000000000000 := rfl
    have hlim : i128Max = 170141183460469231731687303715884105727 := rfl
    have hlow : i128Min = -170141183460469231731687303715884105728 := rfl
    exact checked128_of_mem (by omega)
  let escrow : Escrow Addr Sym :=
    { taskId := t
      agent := v
      amount := bid.priceStroops
      creator := a.creator
      released := false
      refunded := false }
  -- the loop runs with the escrow already stored, which no transfer looks at
  let w₀ : World Addr Sym τ := { w with escrows := w.escrows.set t escrow }
  have hc₀ : Configured env asset w₀ := ⟨hc.paymentAsset, hc.assetDecimals⟩
  have hros : Roster env.self a (w₀.lot t).bidders (w₀.lot t).bids := hl.roster
  have hstt := settle_ok_iff hT hP w₀ hros (fun _ _ hb => hl.bond_nonneg hb) hc₀
    (fun _ _ _ => settleBond_settles) (settleBond_pays hP t a.creator)
    (fun b bid hb => by
      unfold awardVerdict
      split
      · exact (hl.roster.well b bid hb).ne_self
      · exact hl.creator)
    (by omega) hhd (fun w₁ => saveAuction w₁ { a with phase := .awarded, escrowCreated := true })
    (fun _ hc hcov => ⟨⟨hc.paymentAsset, hc.assetDecimals⟩, hcov⟩) (.budget t) a.creator
  have hsm : SettlesAll env asset t (a.config.maxPrice - bid.priceStroops) w₀ ↔
      SettlesAll env asset t (a.config.maxPrice - bid.priceStroops) w := Iff.rfl
  rw [← hsm, ← hstt]
  constructor
  · rintro ⟨w', h⟩
    simp only [awardContract, requireNotPaused, loadAuction, bind_eq_ok, failIf_eq_ok,
      okOr_eq_ok, requireAuth_eq_ok, exists_and_left, exists_const, ha, Option.some.injEq,
      exists_eq_left', hv, hbid, hft] at h
    obtain ⟨-, -, -, -, -, -, w₁, hlo, hpu⟩ := h
    exact ⟨w₁, hlo, w', hpu⟩
  · rintro ⟨w₁, hlo, w', hpu⟩
    refine ⟨w', ?_⟩
    simp only [awardContract, requireNotPaused, loadAuction, bind_eq_ok, failIf_eq_ok,
      okOr_eq_ok, requireAuth_eq_ok, exists_and_left, exists_const, ha, Option.some.injEq,
      exists_eq_left', hv, hbid, hft, ne_eq, not_not, Bool.not_eq_true]
    refine ⟨hpsd, ⟨hsf, hsgn⟩, ?_, hph, hfl, ?_, w₁, hlo, hpu⟩
    · rw [hph]
      decide
    · rintro ⟨hne, hne'⟩
      rcases hpar with h | h
      · exact hne h
      · exact hne' h

/-! ## No stuck auction -/

/--
**An auction that is over can be moved on**: past its reveal deadline by whoever signs, either to
a winner or to an abort, whichever the reveals call for; and with a winner selected to the award,
by the creator or by the winner.
-/
structure NoStuck (env : Env Addr Sym τ) (t : Sym) (w : World Addr Sym τ) : Prop where
  closed : ∀ a, w.auctions.get t = some a → a.phase = .bidding → a.revealDeadline ≤ w.now →
    ∀ (call : Call Addr Sym) (caller : Addr), caller ≠ env.self → call.signed caller = true →
      ((∃ w', revealBids env call caller t w = .ok w') ↔ Revealed t w) ∧
        ((∃ w', abortAuction env call caller t w = .ok w') ↔ ¬ Revealed t w)
  selected : ∀ a, w.auctions.get t = some a → a.phase = .reveal → ∀ (call : Call Addr Sym) (caller : Addr),
      caller = a.creator ∨ w.winners.get t = some caller → call.signed caller = true →
        ∃ w', awardContract env call caller t w = .ok w'

/--
What an auction that is over still has to pay is payable in the configured asset: the bonds not
yet settled, and the budget, or what the winner leaves of it.
-/
structure Settleable (env : Env Addr Sym τ) (t : Sym) (w : World Addr Sym τ) :
    Prop where
  budget : ∀ a asset, w.auctions.get t = some a → w.paymentAsset = some asset →
    a.phase = .bidding → a.revealDeadline ≤ w.now → ¬ Revealed t w →
      SettlesAll env asset t a.config.maxPrice w
  rest : ∀ a asset v bid, w.auctions.get t = some a → w.paymentAsset = some asset →
    a.phase = .reveal → w.winners.get t = some v → w.bids.get (t, v) = some bid →
      SettlesAll env asset t (a.config.maxPrice - bid.priceStroops) w

/-- The contract's balance covers everything it owes. -/
def World.Covered (env : Env Addr Sym τ) (w : World Addr Sym τ) : Prop :=
  ∀ asset, w.paymentAsset = some asset → Covers env asset w.owed w

/--
**No auction is stuck exactly if what it still has to pay is payable** in the payment asset.
Scoring never overflows, the counters agree with the stored bids, and the budget that the winner
leaves is never negative: only the conversion to units can fail.
-/
theorem no_stuck_iff (hT : env.token.Exact) (hP : env.token.Pays)
    {guard : World Addr Sym τ → Event Addr Sym τ → Prop}
    (h : (system env).Reachable guard w) (hpaused : w.paused = false) (hcovered : w.Covered env)
    (t : Sym) : NoStuck env t w ↔ Settleable env t w := by
  have hi := inv_reachable h
  have hknw := assetKnown_reachable h
  have hord := ordered_reachable h t
  have everybody : ∃ call : Call Addr Sym, ∀ x, call.signed x = true :=
    ⟨⟨fun _ => true, fun _ _ => .returned⟩, fun _ => rfl⟩
  obtain ⟨call, hall⟩ := everybody
  constructor
  · intro hns
    refine ⟨?_, ?_⟩
    · intro a asset ha hast hph hov hno
      have hsf := ((hi t).live ha).creator
      have hab := (hns.closed a ha hph hov call a.creator hsf (hall _)).2.mpr hno
      exact ((abortAuction_ok_iff hT hP hi ha hpaused hph hov (hknw.decimals asset hast)
        (hcovered asset hast) hsf (hall _)).mp hab).2
    · intro a asset v bid ha hast hph hv hbid
      have hawa := hns.selected a ha hph call a.creator (.inl rfl) (hall _)
      exact (awardContract_ok_iff hT hP hi ha hpaused hph hv hbid (hknw.decimals asset hast)
        (hcovered asset hast) (.inl rfl) (hall _)).mp hawa
  · intro hset
    -- an auction exists, so an asset is configured
    have hast : ∀ a, w.auctions.get t = some a → ∃ asset, w.paymentAsset = some asset := by
      intro a ha
      rw [← isSome_iff_exists, isSome_iff_ne_none]
      intro hn
      rw [hknw.unset hn t] at ha
      cases ha
    refine ⟨?_, ?_⟩
    · intro a ha hph hov call caller hsf hsgn
      obtain ⟨asset, hast⟩ := hast a ha
      have hdd := Nat.le_trans (hord a ha) hov
      refine ⟨revealBids_ok_iff hi ha hpaused hph hdd hov hsf hsgn, ?_⟩
      rw [abortAuction_ok_iff hT hP hi ha hpaused hph hov (hknw.decimals asset hast)
        (hcovered asset hast) hsf hsgn, and_iff_left_iff_imp]
      exact hset.budget a asset ha hast hph hov
    · intro a ha hph call caller hpar hsgn
      obtain ⟨asset, hast⟩ := hast a ha
      have hl := (hi t).live ha
      obtain ⟨v, hv⟩ := isSome_iff_exists.mp (hl.staged.winner_iff.mpr (.inl hph))
      obtain ⟨bid, hbid, -⟩ := hl.staged.revealed v hv
      refine (awardContract_ok_iff hT hP hi ha hpaused hph hv hbid
        (hknw.decimals asset hast) (hcovered asset hast) ?_ hsgn).mpr
        (hset.rest a asset v bid ha hast hph hv hbid)
      rcases hpar with hc | hw
      · exact .inl hc
      · have hso : (w.lot t).winner = some caller := hw
        rw [hv] at hso
        injection hso with hso
        exact .inr hso.symm

/-- In an asset of seven decimals nothing is rounded, and the two bidders' auction is awarded. -/
theorem no_stuck_selected : ∃ w : World Nat Nat (Token.Ledger Nat),
    (system (Sample.env 7)).Reachable (Undisturbed (Sample.env 7)) w ∧
      (∃ a, w.auctions.get 7 = some a ∧ a.phase = .reveal) ∧ NoStuck (Sample.env 7) 7 w := by
  have hpl : ((system (Sample.env 7)).play (Undisturbed (Sample.env 7)) (Sample.selected 7)
      (World.init 1000 Sample.wallets)).any (fun w => w.paused = false ∧ w.paymentAsset = some 9 ∧
        w.owed * 10 ^ 7 ≤ (Sample.env 7).token.balance w.tokens 9 0 * 10 ^ 7 ∧
        (w.auctions.get 7).any (fun a => a.phase = .reveal ∧ a.config.bond = 5)) = true := by
    decide +kernel
  obtain ⟨w, hr, hpsd, hast, hcvr, hauc⟩ := exists_reachable (start_init _ _ _) hpl
  obtain ⟨a, ha, hcfg⟩ := (Option.any_eq_true _ _).mp hauc
  obtain ⟨hph, hbo⟩ := of_decide_eq_true hcfg
  have hcvd : w.Covered (Sample.env 7) := by
    intro asset hset
    rw [hast] at hset
    injection hset with hset
    exact hset ▸ hcvr
  refine ⟨w, hr, ⟨a, ha, hph⟩,
    (no_stuck_iff (Token.ledger_exact _) (Token.ledger_pays _) hr hpsd hcvd 7).mpr ?_⟩
  have hi := inv_reachable hr
  have hpay : ∀ (asset : Nat) (amount : Int), amount ≤ maxBidPrice →
      Payable amount ((Sample.env 7).token.decimals asset) := by
    intro asset amount hle
    show Payable amount 7
    have hli : maxBidPrice = 100000000000000000 := rfl
    have hlim : i128Max = 170141183460469231731687303715884105727 := rfl
    refine (if_pos (Nat.le_refl 7)).mpr ⟨by decide, ?_⟩
    show amount * 1 ≤ i128Max
    omega
  refine ⟨?_, ?_⟩
  · intro a' asset ha' _ hph'
    rw [ha] at ha'
    injection ha' with ha'
    rw [← ha', hph] at hph'
    cases hph'
  · intro a' asset v bid ha' _ _ hv hbid
    rw [ha] at ha'
    injection ha' with ha'
    subst ha'
    have hl := (hi 7).live ha
    obtain ⟨bid', hb', hrev⟩ := hl.staged.revealed v hv
    rw [show (w.lot 7).bids v = some bid from hbid] at hb'
    injection hb' with hb'
    have hprc := (hl.roster.well v bid hbid).price (hb' ▸ hrev)
    have hre := hl.config.reserve
    have hmax := hl.config.max_le
    exact settlesAll_of_config hl (hpay _ _ (by rw [hbo]; decide)) (hpay _ _ (by omega))

/--
The stuck auction: in an asset of six decimals the winner asks for `25` of a budget of `100`
stroops. The remaining `75` are not a whole number of units, so neither the creator nor the winner
can award the contract.
-/
theorem fractional_rest_sticks : ∃ w : World Nat Nat (Token.Ledger Nat), (system (Sample.env 6)).Reachable
        (fun w e => ClockMonotone w e ∧ Undisturbed (Sample.env 6) w e) w ∧
      w.paused = false ∧ w.Covered (Sample.env 6) ∧ ¬ NoStuck (Sample.env 6) 7 w ∧
      (awardContract (Sample.env 6) (Sample.call 2) 2 7 w).toOption = none ∧
      (awardContract (Sample.env 6) (Sample.call 3) 3 7 w).toOption = none := by
  have hpl : ((system (Sample.env 6)).play
      (fun w e => ClockMonotone w e ∧ Undisturbed (Sample.env 6) w e)
      (Sample.opened 6 10 100 50 ++
        [ Sample.bid 3 25 50, Sample.bid 4 30 50, .close 1400, Sample.reveal 3 25,
          Sample.reveal 4 30, Sample.signed 5 (.revealBids 5 7) ])
      (World.init 1000 Sample.wallets)).any (fun w => w.paused = false ∧ w.paymentAsset = some 9 ∧
        w.owed * 10 ^ 6 ≤ (Sample.env 6).token.balance w.tokens 9 0 * 10 ^ 7 ∧
        (w.auctions.get 7).any (fun a => a.phase = .reveal ∧ a.creator = 2) ∧
        (awardContract (Sample.env 6) (Sample.call 2) 2 7 w).toOption.isNone ∧
        (awardContract (Sample.env 6) (Sample.call 3) 3 7 w).toOption.isNone) = true := by
    decide +kernel
  obtain ⟨w, hr, hpsd, hast, hcvr, hauc, hcre, hwi⟩ := exists_reachable (start_init _ _ _) hpl
  obtain ⟨a, ha, hph⟩ := (Option.any_eq_true _ _).mp hauc
  obtain ⟨hph, hwho⟩ := of_decide_eq_true hph
  have hfai := isNone_iff_eq_none.mp hcre
  refine ⟨w, hr, hpsd, ?_, ?_, hfai, isNone_iff_eq_none.mp hwi⟩
  · intro asset hset
    rw [hast] at hset
    injection hset with hset
    exact hset ▸ hcvr
  · intro hns
    obtain ⟨w', hok⟩ := hns.selected a ha hph (Sample.call 2) 2 (.inl hwho.symm) rfl
    rw [hok] at hfai
    cases hfai

end AiNet.Bidding
