import AiNet.Bidding.Step

/-!
# The entry points with loops, as changes of a lot

`award_contract` and `abort_auction` walk the bidders list and settle bonds;
`reveal_bids` walks it to gather the revealed bids and then walks those to score
them. Each loop gets one lemma, by induction on its list, and the entry point is
assembled from it.
-/

namespace AiNet.Bidding

open Core List Option Storage

section

variable {Addr Sym τ : Type} [DecidableEq Addr] [DecidableEq Sym]
variable {env : Env Addr Sym τ} {call : Call Addr Sym} {w w' : World Addr Sym τ}

/-! ## The settlement loops -/

/-- Only bids of task `t` were written. -/
structure World.BidsOnly (t : Sym) (w w' : World Addr Sym τ) : Prop where
  auctions : w'.auctions = w.auctions
  bids : ∀ t', t' ≠ t → ∀ b, w'.bids.get (t', b) = w.bids.get (t', b)
  bidders : w'.bidders = w.bidders
  winners : w'.winners = w.winners
  escrows : w'.escrows = w.escrows

theorem World.BidsOnly.refl (t : Sym) (w : World Addr Sym τ) : w.BidsOnly t w :=
  ⟨rfl, fun _ _ _ => rfl, rfl, rfl, rfl⟩

variable {t : Sym}

theorem World.BidsOnly.trans {w w₁ w' : World Addr Sym τ}
    (h : w.BidsOnly t w₁) (h' : w₁.BidsOnly t w') : w.BidsOnly t w' where
  auctions := h'.auctions.trans h.auctions
  bids t' ht b := (h'.bids t' ht b).trans (h.bids t' ht b)
  bidders := h'.bidders.trans h.bidders
  winners := h'.winners.trans h.winners
  escrows := h'.escrows.trans h.escrows

variable {b : Addr} {bid : SealedBid Addr}

theorem World.SameRecords.bidsOnly {w w₁ w' : World Addr Sym τ} (h : w.SameRecords w₁)
    (hw : w' = { w₁ with bids := w₁.bids.set (t, b) bid }) :
    w.BidsOnly t w' ∧ w'.bids = w.bids.set (t, b) bid := by
  obtain ⟨ha, hb, hl, hw', he⟩ := h
  subst hw
  refine ⟨⟨ha, ?_, hl, hw', he⟩, by rw [← hb]⟩
  intro t' ht x
  rw [← hb]
  exact bids_set_other _ ht _ _ _

/-- One iteration of a settlement loop, under the verdict it applies. -/
inductive SettlesOne (env : Env Addr Sym τ) (t : Sym) (verdict : Verdict Addr)
    (b : Addr) (w w' : World Addr Sym τ) : Prop where
  | skip : (∀ bid, w.bids.get (t, b) = some bid → bid.refunded = true ∨ bid.forfeited = true) →
      w' = w → SettlesOne env t verdict b w w'
  | pay {bid : SealedBid Addr} {ps : List (Payment Addr Sym)} :
      w.bids.get (t, b) = some bid → bid.refunded = false → bid.forfeited = false →
      Paid ps (.bond t b) env.self (verdict b bid).2 bid.bond → Booked env w w' ps →
      w.BidsOnly t w' → w'.bids = w.bids.set (t, b) (verdict b bid).1 →
      SettlesOne env t verdict b w w'

variable {verdict : Verdict Addr}

theorem SettlesOne.absent (hbid : w.bids.get (t, b) = none) (hw : w' = w) : SettlesOne env t verdict b w w' := by
  refine .skip ?_ hw
  intro bid hb
  cases hbid.symm.trans hb

theorem SettlesOne.done (hbid : w.bids.get (t, b) = some bid)
    (hstl : bid.refunded = true ∨ bid.forfeited = true) (hw : w' = w) :
    SettlesOne env t verdict b w w' := by
  refine .skip ?_ hw
  intro bid' hb
  cases hbid.symm.trans hb
  exact hstl

theorem settleBond_settles {creator b : Addr} (h : settleBond env t creator w b = .ok w') :
    SettlesOne env t (awardVerdict creator) b w w' := by
  unfold settleBond at h
  cases hbid : w.bids.get (t, b) with
  | none =>
    rw [hbid] at h
    exact .absent hbid (pure_eq_ok.mp h).symm
  | some bid =>
    rw [hbid] at h
    dsimp only at h
    split at h
    · rename_i hstl
      exact .done hbid hstl (pure_eq_ok.mp h).symm
    · rename_i hon
      rw [not_or, Bool.not_eq_true, Bool.not_eq_true] at hon
      -- revealed: the bidder is paid; unrevealed: the creator is
      split at h
      · rename_i hrev
        simp only [bind_eq_ok, pure_eq_ok] at h
        obtain ⟨w₁, hpu, rfl⟩ := h
        obtain ⟨ps, hpd, hbo, hrec⟩ := moveFunds_ok hpu
        obtain ⟨hoy, hbi⟩ := hrec.bidsOnly rfl
        have hv : awardVerdict creator b bid = ({ bid with refunded := true }, b) := if_pos hrev
        exact .pay hbid hon.1 hon.2 (by rw [hv]; exact hpd)
          (hbo.before rfl rfl rfl rfl rfl) hoy (by rw [hv]; exact hbi)
      · rename_i hrev
        simp only [bind_eq_ok, pure_eq_ok] at h
        obtain ⟨w₁, hpu, rfl⟩ := h
        obtain ⟨ps, hpd, hbo, hrec⟩ := moveFunds_ok hpu
        obtain ⟨hoy, hbi⟩ := hrec.bidsOnly rfl
        have hv : awardVerdict creator b bid = ({ bid with forfeited := true }, creator) :=
          if_neg hrev
        exact .pay hbid hon.1 hon.2 (by rw [hv]; exact hpd)
          (hbo.before rfl rfl rfl rfl rfl) hoy (by rw [hv]; exact hbi)

theorem releaseBond_settles (h : releaseBond env t w b = .ok w') :
    SettlesOne env t abortVerdict b w w' := by
  unfold releaseBond at h
  cases hbid : w.bids.get (t, b) with
  | none =>
    rw [hbid] at h
    exact .absent hbid (pure_eq_ok.mp h).symm
  | some bid =>
    rw [hbid] at h
    dsimp only at h
    split at h
    · rename_i hstl
      exact .done hbid hstl (pure_eq_ok.mp h).symm
    · rename_i hon
      rw [not_or, Bool.not_eq_true, Bool.not_eq_true] at hon
      -- the mark is written before the transfer, so the records stay as the mark left them
      obtain ⟨ps, hpd, hbo, ha, hb, hl, hw, he⟩ := moveFunds_ok h
      refine .pay hbid hon.1 hon.2 hpd (hbo.after rfl rfl rfl rfl rfl)
        ⟨ha, ?_, hl, hw, he⟩ hb
      intro t' ht x
      rw [hb]
      exact bids_set_other _ ht _ _ _

/-- **A settlement loop**, by induction on the bidders list: what it stores, pays and leaves. -/
theorem settleLoop {f : World Addr Sym τ → Addr → Outcome Error (World Addr Sym τ)}
    (hf : ∀ w w' b, f w b = .ok w' → SettlesOne env t verdict b w w') :
    ∀ {l : List Addr} {w w' : World Addr Sym τ}, l.foldlM f w = .ok w' →
      ∃ ps, Settled env.self t verdict l (fun b => w.bids.get (t, b))
          (fun b => w'.bids.get (t, b)) ps ∧
        Booked env w w' ps ∧ OnTask t ps ∧ w.BidsOnly t w' := by
  intro l
  induction l with
  | nil =>
    intro w w' h
    rw [foldlM_nil, pure_eq_ok] at h
    subst h
    exact ⟨[], .nil, .refl w, .nil t, .refl t w⟩
  | cons b l ih =>
    intro w w' h
    rw [foldlM_cons, bind_eq_ok] at h
    obtain ⟨w₁, hone, hrst⟩ := h
    obtain ⟨qs, hset, hbo, hon, hoy⟩ := ih hrst
    cases hf w w₁ b hone with
    | skip hstl heq =>
      subst heq
      exact ⟨qs, .skip hstl hset, hbo, hon, hoy⟩
    | @pay bid ps hbid hr hfo hpd hb₁ ho₁ hw₁ =>
      rw [hw₁, bids_set_lot] at hset
      exact ⟨ps ++ qs, .pay hbid hr hfo hpd hset, hb₁.trans hbo,
        (onTask_of_paid hpd rfl).append hon, ho₁.trans hoy⟩

variable {caller : Addr}

theorem awardContract_acts (hkey : w.WellKeyed) (h : awardContract env call caller t w = .ok w') :
    ∃ ps, Acted env t .award w w' ps := by
  simp only [awardContract, requireNotPaused, loadAuction, bind_eq_ok, failIf_eq_ok,
    okOr_eq_ok, requireAuth_eq_ok, exists_and_left, exists_const, ne_eq, not_not,
    Bool.not_eq_true, checked128_eq_some] at h
  obtain ⟨-, -, a, ha, -, hph, hesc, winner, hwin, -, bid, hbid, w₁, hlo, unused, ⟨-, rfl⟩, hpu⟩ := h
  have ht : a.taskId = t := hkey.auction t a ha
  subst ht
  obtain ⟨ps, hset, hbo₁, hon, hoy⟩ := settleLoop (fun _ _ _ => settleBond_settles) hlo
  obtain ⟨qs, hpd, hbo₂, hra, hrb, hrl, hrw, hre⟩ := moveFunds_ok hpu
  have hbo : Booked env w w' (ps ++ qs) :=
    (hbo₁.trans (hbo₂.after rfl rfl rfl rfl rfl)).after rfl rfl rfl rfl rfl
  refine ⟨ps ++ qs, Acted.of_change hbo (hon.append (onTask_of_paid hpd rfl)) ?_ ?_⟩
  · refine .of_writes (.inr ⟨_, by rw [hra, ← hoy.auctions]; rfl⟩) ?_
      (.inl (hrl.trans hoy.bidders)) (.inl (hrw.trans hoy.winners))
      (.inr ⟨_, hre.trans hoy.escrows⟩)
    intro t' ht' x
    rw [hrb]
    exact hoy.bids t' ht' x
  · have hbi : (fun b => w'.bids.get (a.taskId, b)) = fun b => w₁.bids.get (a.taskId, b) := by
      rw [hrb]; rfl
    rw [← hbi] at hset
    simp only [hra, hrl, hrw, hre, saveAuction, hoy.bidders, hoy.winners, hoy.escrows, get_set_self]
    have hbid : (w.lot a.taskId).bids winner = some bid := hbid
    exact .award ha hph hesc hwin hbid hset hpd

theorem abortAuction_acts (hkey : w.WellKeyed) (h : abortAuction env call caller t w = .ok w') :
    ∃ ps, Acted env t .abort w w' ps := by
  simp only [abortAuction, requireNotPaused, loadAuction, requireLive, bind_eq_ok, failIf_eq_ok,
    okOr_eq_ok, requireAuth_eq_ok, exists_and_left, exists_const, ne_eq, not_not, not_lt,
    Nat.le_zero, Bool.not_eq_true] at h
  obtain ⟨-, -, a, ha, -, hph, hdd, hno, w₁, hlo, hpu⟩ := h
  have ht : a.taskId = t := hkey.auction t a ha
  subst ht
  obtain ⟨ps, hset, hbo₁, hon, hoy⟩ := settleLoop (fun _ _ _ => releaseBond_settles) hlo
  obtain ⟨qs, hpd, hbo₂, hra, hrb, hrl, hrw, hre⟩ := moveFunds_ok hpu
  have hbo : Booked env w w' (ps ++ qs) := hbo₁.trans (hbo₂.after rfl rfl rfl rfl rfl)
  refine ⟨ps ++ qs, Acted.of_change hbo (hon.append (onTask_of_paid hpd rfl)) ?_ ?_⟩
  · refine .of_writes (.inr ⟨_, by rw [hra, ← hoy.auctions]; rfl⟩) ?_
      (.inl (hrl.trans hoy.bidders)) (.inl (hrw.trans hoy.winners))
      (.inl (hre.trans hoy.escrows))
    intro t' ht' x
    rw [hrb]
    exact hoy.bids t' ht' x
  · have hbi : (fun b => w'.bids.get (a.taskId, b)) = fun b => w₁.bids.get (a.taskId, b) := by
      rw [hrb]; rfl
    rw [← hbi] at hset
    simp only [hra, hrl, hrw, hre, saveAuction, hoy.bidders, hoy.winners, hoy.escrows, get_set_self]
    exact .abort ha hph hdd hno hset hpd

/-! ## The scoring loop -/

def World.revealedBid (w : World Addr Sym τ) (t : Sym) (b : Addr) : Option (SealedBid Addr) :=
  (w.bids.get (t, b)).filter fun bid => bid.revealed

theorem gather_revealed (l : List Addr) : (gather w t l).revealed = l.filterMap (w.revealedBid t) := by
  suffices key : ∀ (l : List Addr) (g : Field Addr), (l.foldl (gatherBid w t) g).revealed =
      g.revealed ++ l.filterMap (w.revealedBid t) from key l _
  intro l
  induction l with
  | nil => exact fun g => (append_nil _).symm
  | cons b l ih =>
    intro g
    have hone : (gatherBid w t g b).revealed = g.revealed ++ (w.revealedBid t b).toList := by
      unfold gatherBid World.revealedBid
      cases w.bids.get (t, b) with
      | none => exact (append_nil _).symm
      | some bid => by_cases hrev : bid.revealed = true <;> simp [hrev, filter_some]
    rw [foldl_cons, ih, hone, filterMap_cons, append_assoc]
    cases w.revealedBid t b <;> rfl

theorem mem_gather {l : List Addr} :
    bid ∈ (gather w t l).revealed ↔ ∃ b ∈ l, w.bids.get (t, b) = some bid ∧ bid.revealed = true := by
  rw [gather_revealed, mem_filterMap]
  simp only [World.revealedBid, filter_eq_some_iff]

def Scored (t : Sym) (w w' : World Addr Sym τ) : Prop :=
  ∃ score : Addr → SealedBid Addr → Int,
    ∀ b, w'.bids.get (t, b) = (w.bids.get (t, b)).map fun y => { y with score := score b y }

omit [DecidableEq Addr] in
theorem best_update_winner {best : Best Addr} {score : Int}
    {l : List (SealedBid Addr)} (hb : ∀ v, best.winner = some v → ∃ x ∈ l, x.bidder = v)
    (hl : bid ∈ l) : ∀ v, (best.update bid score).winner = some v → ∃ x ∈ l, x.bidder = v := by
  intro v hv
  unfold Best.update at hv
  split at hv
  · cases hv; exact ⟨bid, hl, rfl⟩
  · split at hv
    · cases hv; exact ⟨bid, hl, rfl⟩
    · exact hb v hv

/-- **The scoring loop** writes scores and nothing else, and picks one of the scored bids. -/
theorem scoreLoop (env : Env Addr Sym τ) {g : Field Addr} {priceRange repRange : Int}
    {best best' : Best Addr}
    (h : g.revealed.foldlM (scoreStep t g priceRange repRange) (w, best) = .ok (w', best'))
    (hbe : best.winner = none) :
    Booked env w w' [] ∧ w.BidsOnly t w' ∧ Scored t w w' ∧
      ∀ v, best'.winner = some v → ∃ bid ∈ g.revealed, bid.bidder = v := by
  refine foldlM_preserves (fun acc : World Addr Sym τ × Best Addr =>
    Booked env w acc.1 [] ∧ w.BidsOnly t acc.1 ∧ Scored t w acc.1 ∧
      ∀ v, acc.2.winner = some v → ∃ bid ∈ g.revealed, bid.bidder = v) h ?_ ?_
  · refine ⟨.refl w, .refl t w, ⟨fun _ y => y.score, ?_⟩, ?_⟩
    · intro b
      cases w.bids.get (t, b) <;> rfl
    · intro v hv
      rw [hbe] at hv
      cases hv
  · rintro bid ⟨w₁, b₁⟩ acc' hmem ⟨hbo, hon, ⟨score, hsc⟩, hwin⟩ hst
    simp only [scoreStep, bind_eq_ok, okOr_eq_ok, pure_eq_ok] at hst
    obtain ⟨s, -, stored, hsto, rfl⟩ := hst
    refine ⟨hbo.before rfl rfl rfl rfl rfl, hon.trans ⟨rfl, ?_, rfl, rfl, rfl⟩, ?_,
      best_update_winner hwin hmem⟩
    · intro t' ht x
      exact bids_set_other _ ht _ _ _
    · refine ⟨fun b y => if b = bid.bidder then s else score b y, ?_⟩
      intro b
      show (w₁.bids.set (t, bid.bidder) _).get (t, b) = _
      rw [get_set]
      by_cases hb : b = bid.bidder
      · subst hb
        have hold := hsc bid.bidder
        rw [hsto] at hold
        rw [if_pos rfl]
        obtain ⟨y, hy, rfl⟩ := map_eq_some_iff.mp hold.symm
        rw [hy]
        simp
      · rw [if_neg (fun he => hb (congrArg Prod.snd he)), hsc b]
        simp [hb]

theorem revealBids_acts (hkey : w.WellKeyed)
    (h : revealBids env call caller t w = .ok w') : ∃ ps, Acted env t .select w w' ps := by
  simp only [revealBids, requireNotPaused, loadAuction, requireLive, bind_eq_ok, failIf_eq_ok,
    okOr_eq_ok, requireAuth_eq_ok, exists_and_left, exists_const, ne_eq, not_not, not_lt,
    not_and, Bool.not_eq_true, pure_eq_ok, trapUnless_eq_ok, Prod.exists] at h
  obtain ⟨-, -, a, ha, -, hph, hdd, hrdy, -, range, -, -, w₁, best, hlo, v, hv, rfl⟩ := h
  have ht : a.taskId = t := hkey.auction t a ha
  subst ht
  obtain ⟨hbo, hon, ⟨score, hsc⟩, hwin⟩ := scoreLoop env hlo rfl
  obtain ⟨bid, hmem, rfl⟩ := hwin v hv
  obtain ⟨b, hb, hbid, hrev⟩ := mem_gather.mp hmem
  refine ⟨[], Acted.of_change (hbo.before rfl rfl rfl rfl rfl) (.nil _) ?_ ?_⟩
  · exact .of_writes (.inr ⟨_, by rw [← hon.auctions]; rfl⟩) hon.bids (.inl hon.bidders)
      (.inr ⟨bid.bidder, by rw [← hon.winners]; rfl⟩) (.inl hon.escrows)
  · have hrdy' : a.revealDeadline ≤ w.now ∨ a.bidCount ≤ a.revealedCount := by
      rcases Nat.lt_or_ge w.now a.revealDeadline with hlt | hge
      · exact .inr (hrdy hlt)
      · exact .inl hge
    have hbid : (w.lot a.taskId).bids b = some bid := hbid
    simp only [saveAuction, get_set_self, hon.bidders, hon.escrows, hsc, append_nil]
    exact .select ha hph hdd hrdy' hb hbid hrev

end

/-!
## Every call is a change of one lot

`exec_refines` is the only statement about the entry points that the safety results
use: a successful call of an auction function on task `t` is a `Lot.Change` of the lot
of `t`, leaves every other lot alone, and its payments are exactly the ones the change
names. `exec_admin` is its counterpart for the administrative entry points, which
change no lot and move no money.
-/

variable {Addr Sym τ : Type} [DecidableEq Addr] [DecidableEq Sym]
variable {env : Env Addr Sym τ} {call : Call Addr Sym} {w w' : World Addr Sym τ}

variable {op : Op Addr Sym}

/-- **A successful auction call is a change of its lot**, and of no other. -/
theorem exec_refines {t : Sym} {act : Action Addr} (hact : op.action = some (t, act))
    (hkey : w.WellKeyed) (h : exec env call op w = .ok w') :
    ∃ ps, Acted env t act w w' ps := by
  cases op with
  | createAuction => cases hact; exact createAuction_acts h
  | submitBid => cases hact; exact submitBid_acts hkey h
  | revealBid => cases hact; exact revealBid_acts hkey h
  | revealBids => cases hact; exact revealBids_acts hkey h
  | claimBidRefund => cases hact; exact claimBidRefund_acts h
  | awardContract => cases hact; exact awardContract_acts hkey h
  | abortAuction => cases hact; exact abortAuction_acts hkey h
  | releaseEscrow => cases hact; exact releaseEscrow_acts h
  | refundEscrow => cases hact; exact refundEscrow_acts h
  | claimRefund => cases hact; exact claimRefund_acts h
  | initializeContract | pause | unpause | setPauseAdmin | pauseByPauseAdmin | setPaymentAsset
  | setPaused | setAgentRegistry | slashAgentBond | setAgentBond => cases hact

/-- Does the entry point configure the payment asset? -/
def Op.setsAsset : Op Addr Sym → Bool
  | .setPaymentAsset _ _ => true
  | _ => false

/-- What an administrative call leaves as it was. -/
structure Administered (op : Op Addr Sym) (w w' : World Addr Sym τ) : Prop where
  now : w'.now = w.now
  journal : w'.journal = w.journal
  tokens : w'.tokens = w.tokens
  records : w.SameRecords w'
  asset : op.setsAsset = true ∨ (w'.paymentAsset = w.paymentAsset ∧ w'.assetDecimals = w.assetDecimals)

theorem exec_admin (hact : op.action = none) (h : exec env call op w = .ok w') : Administered op w w' := by
  cases op with
  | initializeContract | pause | unpause | setPauseAdmin | pauseByPauseAdmin | setPaused
  | setAgentRegistry =>
    simp only [exec, initializeContract, pause, unpause, setPauseAdmin, pauseByPauseAdmin,
      setPaused, setAgentRegistry] at h
    repeat obtain ⟨_, _, h⟩ := bind_eq_ok.mp h
    obtain rfl := pure_eq_ok.mp h
    exact ⟨rfl, rfl, rfl, ⟨rfl, rfl, rfl, rfl, rfl⟩, .inr ⟨rfl, rfl⟩⟩
  | setPaymentAsset =>
    simp only [exec, setPaymentAsset, bind_eq_ok, pure_eq_ok] at h
    obtain ⟨-, -, -, -, rfl⟩ := h
    exact ⟨rfl, rfl, rfl, ⟨rfl, rfl, rfl, rfl, rfl⟩, .inl rfl⟩
  | slashAgentBond =>
    simp only [exec, slashAgentBond, bind_eq_ok] at h
    obtain ⟨-, -, -, -, h⟩ := h
    split at h
    · cases h; exact ⟨rfl, rfl, rfl, ⟨rfl, rfl, rfl, rfl, rfl⟩, .inr ⟨rfl, rfl⟩⟩
    · split at h <;> cases h <;> exact ⟨rfl, rfl, rfl, ⟨rfl, rfl, rfl, rfl, rfl⟩, .inr ⟨rfl, rfl⟩⟩
  | setAgentBond =>
    simp only [exec, setAgentBond, bind_eq_ok] at h
    obtain ⟨-, -, -, -, h⟩ := h
    split at h <;> cases h <;> exact ⟨rfl, rfl, rfl, ⟨rfl, rfl, rfl, rfl, rfl⟩, .inr ⟨rfl, rfl⟩⟩
  | createAuction | submitBid | revealBid | revealBids | claimBidRefund | awardContract | abortAuction
  | releaseEscrow | refundEscrow | claimRefund => cases hact

theorem Administered.lot (h : Administered op w w') (t : Sym) :
    w'.lot t = w.lot t := by
  obtain ⟨-, hj, -, ⟨ha, hb, hl, hw, he⟩, -⟩ := h
  unfold World.lot
  rw [ha, hb, hl, hw, he, hj]

/-- **One step of the system, seen from one auction**: its lot changes as an action of the call
allows, or stays. -/
theorem step_lot {e : Event Addr Sym τ} (hkey : w.WellKeyed)
    (h : (system env).step w e = some w') (t : Sym) :
    (∃ call op act ps, e = .invoke call op ∧ op.action = some (t, act) ∧
      Acted env t act w w' ps) ∨ w'.lot t = w.lot t := by
  cases e with
  | close | external => cases h; exact .inr rfl
  | invoke call op =>
    have h := step_invoke.mp h
    cases hact : op.action with
    | none => exact .inr ((exec_admin hact h).lot t)
    | some ta =>
      obtain ⟨t', act⟩ := ta
      obtain ⟨ps, hatd⟩ := exec_refines hact hkey h
      by_cases ht : t' = t
      · subst ht
        exact .inl ⟨call, op, act, ps, rfl, hact, hatd⟩
      · exact .inr (hatd.others t (fun he => ht he.symm))

theorem now_of_invoke (hkey : w.WellKeyed) (h : exec env call op w = .ok w') : w'.now = w.now := by
  cases hact : op.action with
  | none => exact (exec_admin hact h).now
  | some =>
    obtain ⟨ps, hatd⟩ := exec_refines hact hkey h
    exact hatd.booked.now

theorem now_le_of_step {e : Event Addr Sym τ} (hkey : w.WellKeyed) (hg : ClockMonotone w e)
    (h : (system env).step w e = some w') : w.now ≤ w'.now := by
  cases e with
  | close => cases h; exact hg
  | external => cases h; exact Nat.le_refl _
  | invoke => exact Nat.le_of_eq (now_of_invoke hkey (step_invoke.mp h)).symm

end AiNet.Bidding
