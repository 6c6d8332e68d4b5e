import AiNet.Bidding.Bonds

/-!
# What is owed on an auction

`Lot.owed` is what the contract still owes on one task: the creator's budget until the
award or the abort, every unsettled bond, and the escrow until it is settled. Every
change of a lot moves it by exactly what the change moves into or out of custody,
with one exception: `claim_refund` on a bid already forfeited pays a bond that is no
longer owed.
-/

namespace AiNet.Bidding

open Core List Option Function

variable {Addr Sym τ : Type}

/-! ## Owed -/

/-- `max_price` while the auction is in `bidding` or `reveal`. -/
def Auction.budgetHeld (a : Auction Addr Sym) : Int :=
  if a.phase = .bidding ∨ a.phase = .reveal then a.config.maxPrice else 0

/-- The bond of a bid neither returned nor forfeited. -/
def SealedBid.bondHeld (bid : SealedBid Addr) : Int := if bid.Settled then 0 else bid.bond

/-- The amount of an escrow neither released nor refunded. -/
def Escrow.amountHeld (e : Escrow Addr Sym) : Int :=
  if e.released = true ∨ e.refunded = true then 0 else e.amount

def Lot.owed (L : Lot Addr Sym) : Int :=
  L.auction.elim 0 Auction.budgetHeld + sumBids L.bidders L.bids SealedBid.bondHeld
    + L.escrow.elim 0 Escrow.amountHeld

theorem SealedBid.bondHeld_of_unsettled {bid : SealedBid Addr} (hr : bid.refunded = false)
    (hf : bid.forfeited = false) : bid.bondHeld = bid.bond :=
  if_neg (by simp [SealedBid.Settled, hr, hf])

theorem SealedBid.bondHeld_of_settled {bid : SealedBid Addr} (h : bid.Settled) :
    bid.bondHeld = 0 := if_pos h

/-! ## Flows -/

/-- A payment between the contract and somebody else. -/
def Payment.Crosses (me : Addr) (p : Payment Addr Sym) : Prop :=
  (p.src = me ∧ p.dst ≠ me) ∨ (p.src ≠ me ∧ p.dst = me)

theorem crosses_of_pull {me src : Addr} {ps : List (Payment Addr Sym)}
    {why : Purpose Addr Sym} {amount : Int} (h : Paid ps why src me amount) (hsrc : src ≠ me) :
    ∀ p ∈ ps, p.Crosses me := by
  rcases h with ⟨-, rfl⟩ | ⟨-, asset, units, rfl⟩
  · intro p hp; cases hp
  · intro p hp
    rw [mem_singleton.mp hp]
    exact .inr ⟨hsrc, rfl⟩

theorem crosses_of_push {me dst : Addr} {ps : List (Payment Addr Sym)}
    {why : Purpose Addr Sym} {amount : Int} (h : Paid ps why me dst amount) (hdst : dst ≠ me) :
    ∀ p ∈ ps, p.Crosses me := by
  rcases h with ⟨-, rfl⟩ | ⟨-, asset, units, rfl⟩
  · intro p hp; cases hp
  · intro p hp
    rw [mem_singleton.mp hp]
    exact .inl ⟨rfl, hdst⟩

section Net

variable [DecidableEq Addr] (me : Addr)

/-- What a payment adds to custody, in whatever `amount` measures it. -/
def Payment.flow (amount : Payment Addr Sym → Int) (p : Payment Addr Sym) : Int :=
  (if p.dst = me then amount p else 0) - (if p.src = me then amount p else 0)

/-- What payments add to custody. -/
def net (amount : Payment Addr Sym → Int) (ps : List (Payment Addr Sym)) : Int :=
  (ps.map (Payment.flow me amount)).sum

theorem net_append (amount : Payment Addr Sym → Int) (ps qs : List (Payment Addr Sym)) :
    net me amount (ps ++ qs) = net me amount ps + net me amount qs := by
  unfold net
  rw [map_append, sum_append]

variable {me} {ps : List (Payment Addr Sym)} {why : Purpose Addr Sym}
  {src dst : Addr} {amount : Int}

theorem net_of_pull (h : Paid ps why src me amount) (hsrc : src ≠ me) :
    net me Payment.stroops ps = amount := by
  rcases h with ⟨hz, rfl⟩ | ⟨-, asset, units, rfl⟩
  · exact hz.symm
  · simp [net, Payment.flow, hsrc]

theorem net_of_push (h : Paid ps why me dst amount) (hdst : dst ≠ me) :
    net me Payment.stroops ps = -amount := by
  rcases h with ⟨hz, rfl⟩ | ⟨-, asset, units, rfl⟩
  · rw [hz]; rfl
  · simp [net, Payment.flow, hdst]

end Net

/-! ## Nothing owed is negative -/

theorem Lot.Live.budgetHeld_nonneg {me : Addr} {t : Sym} {a : Auction Addr Sym}
    {L : Lot Addr Sym} (h : L.Live me t a) : 0 ≤ a.budgetHeld := by
  have hre := h.config.reserve
  have hle := h.config.reserve_le
  unfold Auction.budgetHeld
  split <;> omega

theorem Lot.Live.bond_nonneg {me : Addr} {t : Sym} {a : Auction Addr Sym}
    {L : Lot Addr Sym} (h : L.Live me t a) {b : Addr} {bid : SealedBid Addr}
    (hb : L.bids b = some bid) : 0 ≤ bid.bond := by
  have hbo := (h.roster.well b bid hb).bond
  have hpos := h.config.bond
  omega

theorem SealedBid.bondHeld_nonneg {bid : SealedBid Addr} (h : 0 ≤ bid.bond) :
    0 ≤ bid.bondHeld := by
  unfold SealedBid.bondHeld
  split <;> omega

theorem Lot.Live.amountHeld_nonneg {me : Addr} {t : Sym} {a : Auction Addr Sym}
    {L : Lot Addr Sym} (h : L.Live me t a) {e : Escrow Addr Sym}
    (he : L.escrow = some e) : 0 ≤ e.amountHeld := by
  obtain ⟨-, -, v, bid, hv, hb, -, hamt⟩ := h.staged.amount e he
  obtain ⟨bid', hb', hrev⟩ := h.staged.revealed v hv
  rw [hb] at hb'
  injection hb' with hb'
  have hprc := ((h.roster.well v bid hb).price (hb' ▸ hrev)).1
  have hre := h.config.reserve
  unfold Escrow.amountHeld
  split <;> omega

theorem sumBids_bondHeld_nonneg {bids : Addr → Option (SealedBid Addr)}
    (h : ∀ b bid, bids b = some bid → 0 ≤ bid.bond) (l : List Addr) :
    0 ≤ sumBids l bids SealedBid.bondHeld := by
  unfold sumBids
  refine sum_nonneg ?_
  intro x hx
  obtain ⟨b, -, rfl⟩ := List.mem_map.mp hx
  cases hb : bids b with
  | none => exact Int.le_refl 0
  | some bid => exact SealedBid.bondHeld_nonneg (h b bid hb)

theorem Lot.Inv.owed_nonneg {self : Addr} {t : Sym} {L : Lot Addr Sym}
    (h : L.Inv self t) : 0 ≤ L.owed := by
  cases ha : L.auction with
  | none => rw [h.vacant ha]; exact Int.le_refl 0
  | some =>
    have hl := h.live ha
    have hbu := hl.budgetHeld_nonneg
    have hbds : 0 ≤ sumBids L.bidders L.bids SealedBid.bondHeld :=
      sumBids_bondHeld_nonneg (fun _ _ hb => hl.bond_nonneg hb) L.bidders
    have hes : 0 ≤ L.escrow.elim 0 Escrow.amountHeld := by
      cases he : L.escrow with
      | none => exact Int.le_refl 0
      | some => exact hl.amountHeld_nonneg he
    unfold Lot.owed
    rw [ha, elim_some]
    omega

/-! ## Settlement loops -/

theorem Verdict.apply_once {verdict : Verdict Addr} {b : Addr} {bid : SealedBid Addr}
    (hv : (verdict b bid).1 = { bid with refunded := true } ∨
      (verdict b bid).1 = { bid with forfeited := true })
    (hoc : bid.refunded = true → bid.forfeited = false)
    (href : (verdict.apply b bid).refunded = true) : (verdict.apply b bid).forfeited = false := by
  unfold Verdict.apply at href ⊢
  split
  · rename_i hdn
    rw [if_pos hdn] at href
    exact hoc href
  · rename_i hon
    rw [if_neg hon] at href
    have hun : bid.refunded = false ∧ bid.forfeited = false := by
      unfold SealedBid.Settled at hon
      rw [not_or, Bool.not_eq_true, Bool.not_eq_true] at hon
      exact hon
    rcases hv with hv | hv
    · rw [hv]
      exact hun.2
    · rw [hv] at href
      have href : bid.refunded = true := href
      rw [hun.1] at href
      cases href

variable [DecidableEq Addr]

theorem Settled.owed {self : Addr} {t : Sym} {verdict : Verdict Addr}
    (good : Addr → SealedBid Addr → Prop)
    (hmk : ∀ b bid, (verdict b bid).1.Settled)
    (hgo : ∀ b bid, good b bid → good b (verdict b bid).1)
    (hdst : ∀ b bid, good b bid → (verdict b bid).2 ≠ self)
    {bidders l : List Addr} {bids bids' : Addr → Option (SealedBid Addr)}
    {ps : List (Payment Addr Sym)} (h : Settled self t verdict l bids bids' ps)
    (hn : bidders.Nodup) (hmem : ∀ b bid, bids b = some bid → b ∈ bidders ∧ good b bid) :
    sumBids bidders bids' SealedBid.bondHeld
        = sumBids bidders bids SealedBid.bondHeld + net self Payment.stroops ps ∧
      ∀ p ∈ ps, p.Crosses self := by
  induction h with
  | nil => exact ⟨(add_zero _).symm, by intro p hp; cases hp⟩
  | skip _ _ ih => exact ih hmem
  | @pay b l bids bids' bid p ps hb hr hf hpd _ ih =>
    obtain ⟨hlst, hgb⟩ := hmem b bid hb
    have hne := hdst b bid hgb
    have hone : sumBids bidders (update bids b (some (verdict b bid).1))
        SealedBid.bondHeld + bid.bondHeld
          = sumBids bidders bids SealedBid.bondHeld + (verdict b bid).1.bondHeld :=
      sumBids_update hn hlst hb
    rw [SealedBid.bondHeld_of_unsettled hr hf, SealedBid.bondHeld_of_settled (hmk b bid)] at hone
    obtain ⟨hsum, hcrs⟩ := ih (by
      intro x y hy
      rcases find_update hy with ⟨rfl, rfl⟩ | hy
      · exact ⟨hlst, hgo x bid hgb⟩
      · exact hmem x y hy)
    refine ⟨?_, ?_⟩
    · rw [hsum, net_append, net_of_push hpd hne]
      omega
    · intro q hq
      rcases mem_append.mp hq with hq | hq
      · exact crosses_of_push hpd hne q hq
      · exact hcrs q hq

/-! ## Changes -/

def Lot.Solvent (L : Lot Addr Sym) : Action Addr → Prop
  | .claimRefund b => ∀ bid ∈ L.bids b, bid.forfeited = false
  | _ => True

instance (L : Lot Addr Sym) (act : Action Addr) : Decidable (L.Solvent act) :=
  match act with
  | .claimRefund b => inferInstanceAs (Decidable (∀ bid ∈ L.bids b, _))
  | .create | .submit _ | .reveal _ | .select | .claimBidRefund _ | .award | .abort
  | .releaseEscrow | .refundEscrow => .isTrue trivial

theorem owed_refund {self : Addr} {t : Sym} {L : Lot Addr Sym}
    {a : Auction Addr Sym} (hl : L.Live self t a) {b : Addr} {bid : SealedBid Addr}
    {ps : List (Payment Addr Sym)} (hb : L.bids b = some bid) (hr : bid.refunded = false)
    (hf : bid.forfeited = false) (hpd : Paid ps (.bond t b) self b bid.bond) :
    Lot.owed { L with
        bids := update L.bids b (some { bid with refunded := true })
        payments := L.payments ++ ps }
      = L.owed + net self Payment.stroops ps ∧ ∀ p ∈ ps, p.Crosses self := by
  have hmem : b ∈ L.bidders := (hl.roster.mem b).mpr ⟨bid, hb⟩
  have hsf : b ≠ self := (hl.roster.well b bid hb).ne_self
  let marked : SealedBid Addr := { bid with refunded := true }
  have hsum : sumBids L.bidders (update L.bids b (some marked)) SealedBid.bondHeld
      + bid.bondHeld = sumBids L.bidders L.bids SealedBid.bondHeld + marked.bondHeld :=
    sumBids_update hl.roster.nodup hmem hb
  rw [SealedBid.bondHeld_of_unsettled hr hf, SealedBid.bondHeld_of_settled (.inl rfl)] at hsum
  refine ⟨?_, crosses_of_push hpd hsf⟩
  rw [net_of_push hpd hsf]
  show L.auction.elim 0 Auction.budgetHeld
    + sumBids L.bidders (update L.bids b (some marked)) SealedBid.bondHeld
    + L.escrow.elim 0 Escrow.amountHeld = L.owed + -bid.bond
  unfold Lot.owed
  omega

theorem owed_settle {self : Addr} {t : Sym} {L : Lot Addr Sym}
    {e e' : Escrow Addr Sym} {dst : Addr} {ps : List (Payment Addr Sym)}
    (he : L.escrow = some e) (hrel : e.released = false) (href : e.refunded = false)
    (hdn : e'.released = true ∨ e'.refunded = true) (hdst : dst ≠ self)
    (hpd : Paid ps (.escrow t) self dst e.amount) :
    Lot.owed { L with escrow := some e', payments := L.payments ++ ps }
      = L.owed + net self Payment.stroops ps ∧ ∀ p ∈ ps, p.Crosses self := by
  refine ⟨?_, crosses_of_push hpd hdst⟩
  have hold : e.amountHeld = e.amount := if_neg (by simp [hrel, href])
  have hnew : e'.amountHeld = 0 := if_pos hdn
  rw [net_of_push hpd hdst]
  show L.auction.elim 0 Auction.budgetHeld + sumBids L.bidders L.bids SealedBid.bondHeld
    + e'.amountHeld = L.owed + -e.amount
  unfold Lot.owed
  rw [he, elim_some]
  omega

theorem owed_submit {self : Addr} {now : Nat} {t : Sym} {L : Lot Addr Sym}
    {a : Auction Addr Sym} {new : SealedBid Addr} {ps : List (Payment Addr Sym)}
    (ha : L.auction = some a) (hl : L.Live self t a) (hno : L.bids new.bidder = none)
    (hfr : new.Fresh self a) (hpd : Paid ps (.bond t new.bidder) new.bidder self new.bond) :
    Lot.owed { L with
        auction := some (antiSnipe now { a with bidCount := a.bidCount + 1 })
        bids := update L.bids new.bidder (some new)
        bidders := L.bidders ++ [new.bidder]
        payments := L.payments ++ ps }
      = L.owed + net self Payment.stroops ps ∧ ∀ p ∈ ps, p.Crosses self := by
  refine ⟨?_, crosses_of_pull hpd hfr.bidder⟩
  obtain ⟨-, -, hc, -, -, -, hp, -⟩ := antiSnipe_fields now { a with bidCount := a.bidCount + 1 }
  have hnew : new.bidder ∉ L.bidders := by
    intro hmem
    obtain ⟨x, hx⟩ := (hl.roster.mem _).mp hmem
    rw [hno] at hx
    cases hx
  have hbu : (antiSnipe now { a with bidCount := a.bidCount + 1 }).budgetHeld
      = a.budgetHeld := by
    unfold Auction.budgetHeld
    rw [hp, hc]
  have hsum : sumBids (L.bidders ++ [new.bidder])
      (update L.bids new.bidder (some new)) SealedBid.bondHeld
        = sumBids L.bidders L.bids SealedBid.bondHeld + new.bondHeld := sumBids_append hnew
  have hhd := SealedBid.bondHeld_of_unsettled hfr.refunded hfr.forfeited
  rw [net_of_pull hpd hfr.bidder]
  show (antiSnipe now { a with bidCount := a.bidCount + 1 }).budgetHeld
    + sumBids (L.bidders ++ [new.bidder]) (update L.bids new.bidder (some new))
      SealedBid.bondHeld + L.escrow.elim 0 Escrow.amountHeld = L.owed + new.bond
  unfold Lot.owed
  rw [ha, elim_some]
  omega

theorem owed_reveal {self : Addr} {t : Sym} {L : Lot Addr Sym}
    {a : Auction Addr Sym} {b : Addr} {bid : SealedBid Addr} {price : Int}
    {terms : List UInt8} (ha : L.auction = some a) (hl : L.Live self t a)
    (hb : L.bids b = some bid) :
    Lot.owed { L with
        auction := some { a with revealedCount := a.revealedCount + 1 }
        bids := update L.bids b
          (some { bid with revealed := true, priceStroops := price, terms := terms }) }
      = L.owed := by
  let opened : SealedBid Addr :=
    { bid with revealed := true, priceStroops := price, terms := terms }
  have hsum : sumBids L.bidders (update L.bids b (some opened)) SealedBid.bondHeld
      + bid.bondHeld = sumBids L.bidders L.bids SealedBid.bondHeld + opened.bondHeld :=
    sumBids_update hl.roster.nodup ((hl.roster.mem b).mpr ⟨bid, hb⟩) hb
  have hhd : opened.bondHeld = bid.bondHeld := rfl
  show a.budgetHeld + sumBids L.bidders (update L.bids b (some opened))
    SealedBid.bondHeld + L.escrow.elim 0 Escrow.amountHeld = L.owed
  unfold Lot.owed
  rw [ha, elim_some]
  omega

omit [DecidableEq Addr] in
theorem owed_select {L : Lot Addr Sym} {a : Auction Addr Sym}
    {winner : Option Addr} {score : Addr → SealedBid Addr → Int}
    (ha : L.auction = some a) (hph : a.phase = .bidding) :
    Lot.owed { L with
        auction := some { a with phase := .reveal }
        bids := fun x => (L.bids x).map fun y => { y with score := score x y }
        winner := winner }
      = L.owed := by
  let scored : Addr → Option (SealedBid Addr) :=
    fun x => (L.bids x).map fun y => { y with score := score x y }
  have hsum : sumBids L.bidders scored SealedBid.bondHeld
      = sumBids L.bidders L.bids SealedBid.bondHeld := by
    refine sumBids_congr ?_
    intro x _
    show ((L.bids x).map _).elim 0 _ = _
    cases L.bids x <;> rfl
  have hold : a.budgetHeld = a.config.maxPrice := if_pos (.inl hph)
  show a.config.maxPrice + sumBids L.bidders scored SealedBid.bondHeld
    + L.escrow.elim 0 Escrow.amountHeld = L.owed
  unfold Lot.owed
  rw [ha, elim_some]
  omega

omit [DecidableEq Addr] in
theorem Lot.Live.owed_open {self : Addr} {t : Sym} {L : Lot Addr Sym} {a : Auction Addr Sym}
    (hl : L.Live self t a) (ha : L.auction = some a) (hph : a.phase = .bidding ∨ a.phase = .reveal) :
    L.owed = a.config.maxPrice + sumBids L.bidders L.bids SealedBid.bondHeld := by
  have hesc : L.escrow = none := by
    rw [← not_isSome_iff_eq_none, hl.staged.escrow_iff]
    rcases hph with hph | hph
    · simp [hph]
    · simp [hph]
  have hbu : a.budgetHeld = a.config.maxPrice := if_pos hph
  rw [Lot.owed, ha, hesc, elim_some, elim_none, hbu, add_zero]

theorem owed_award {self : Addr} {t : Sym} {L : Lot Addr Sym}
    {a : Auction Addr Sym} {winner : Addr} {bid : SealedBid Addr}
    {bids' : Addr → Option (SealedBid Addr)} {ps qs : List (Payment Addr Sym)}
    (ha : L.auction = some a) (hl : L.Live self t a) (hph : a.phase = .reveal)
    (hset : Settled self t (awardVerdict a.creator) L.bidders L.bids bids' ps)
    (hpd : Paid qs (.budget t) self a.creator (a.config.maxPrice - bid.priceStroops)) :
    Lot.owed { L with
        auction := some { a with phase := .awarded, escrowCreated := true }
        bids := bids'
        escrow := some
          { taskId := t
            agent := winner
            amount := bid.priceStroops
            creator := a.creator
            released := false
            refunded := false }
        payments := L.payments ++ (ps ++ qs) }
      = L.owed + net self Payment.stroops (ps ++ qs) ∧ ∀ p ∈ ps ++ qs, p.Crosses self := by
  -- a bond goes back to its bidder, or forfeited to the creator: to the contract in no case
  obtain ⟨hsum, hcrs⟩ := hset.owed (fun b _ => b ≠ self)
    (by
      intro b bid
      unfold awardVerdict
      split
      · exact .inl rfl
      · exact .inr rfl)
    (fun _ _ hb => hb)
    (by
      intro b bid hb
      unfold awardVerdict
      split
      · exact hb
      · exact hl.creator)
    hl.roster.nodup
    (fun b bid hb => ⟨(hl.roster.mem b).mpr ⟨bid, hb⟩, (hl.roster.well b bid hb).ne_self⟩)
  refine ⟨?_, forall_mem_append.mpr ⟨hcrs, crosses_of_push hpd hl.creator⟩⟩
  rw [net_append, net_of_push hpd hl.creator, hl.owed_open ha (.inr hph)]
  show 0 + sumBids L.bidders bids' SealedBid.bondHeld + bid.priceStroops
    = _ + (net self Payment.stroops ps + -(a.config.maxPrice - bid.priceStroops))
  omega

theorem owed_abort {self : Addr} {t : Sym} {L : Lot Addr Sym}
    {a : Auction Addr Sym} {bids' : Addr → Option (SealedBid Addr)}
    {ps qs : List (Payment Addr Sym)} (ha : L.auction = some a) (hl : L.Live self t a)
    (hph : a.phase = .bidding)
    (hset : Settled self t abortVerdict L.bidders L.bids bids' ps)
    (hpd : Paid qs (.budget t) self a.creator a.config.maxPrice) :
    Lot.owed { L with
        auction := some { a with phase := .cancelled }
        bids := bids'
        payments := L.payments ++ (ps ++ qs) }
      = L.owed + net self Payment.stroops (ps ++ qs) ∧ ∀ p ∈ ps ++ qs, p.Crosses self := by
  obtain ⟨hsum, hcrs⟩ := hset.owed (fun _ bid => bid.bidder ≠ self)
    (fun _ _ => .inl rfl) (fun _ _ hb => hb) (fun _ _ hb => hb) hl.roster.nodup
    (by
      intro b bid hb
      have hw := hl.roster.well b bid hb
      exact ⟨(hl.roster.mem b).mpr ⟨bid, hb⟩, by rw [hw.bidder]; exact hw.ne_self⟩)
  refine ⟨?_, forall_mem_append.mpr ⟨hcrs, crosses_of_push hpd hl.creator⟩⟩
  have hold : a.budgetHeld = a.config.maxPrice := if_pos (.inl hph)
  rw [net_append, net_of_push hpd hl.creator]
  show 0 + sumBids L.bidders bids' SealedBid.bondHeld + L.escrow.elim 0 Escrow.amountHeld
    = L.owed + (net self Payment.stroops ps + -a.config.maxPrice)
  unfold Lot.owed
  rw [ha, elim_some]
  omega

/--
**A change moves what is owed by what it moves into custody**, unless it refunds a forfeited
bond; and all its payments are between the contract and somebody else.
-/
theorem Lot.Change.owed {self : Addr} {now : Nat} {t : Sym} {act : Action Addr}
    {L L' : Lot Addr Sym} {ps : List (Payment Addr Sym)}
    (h : Lot.Change self now t act L L' ps) (hi : L.Inv self t) (hm : L.Marks)
    (hs : L.Solvent act) :
    L'.owed = L.owed + net self Payment.stroops ps ∧ ∀ p ∈ ps, p.Crosses self := by
  cases h with
  | create hno hfr hpd =>
    rename_i a
    refine ⟨?_, crosses_of_pull hpd hfr.creator⟩
    have hbu : a.budgetHeld = a.config.maxPrice := if_pos (.inl hfr.phase)
    rw [net_of_pull hpd hfr.creator, hi.vacant hno]
    show a.budgetHeld + 0 + 0 = 0 + 0 + 0 + a.config.maxPrice
    omega
  | submit ha hph hon hfl hno hfr hpd =>
    exact owed_submit ha (hi.live ha) hno hfr hpd
  | reveal ha hph hdd hon hb =>
    exact ⟨(owed_reveal ha (hi.live ha) hb).trans (add_zero _).symm, fun p hp => (by cases hp)⟩
  | select ha hph =>
    exact ⟨(owed_select ha hph).trans (add_zero _).symm, fun p hp => (by cases hp)⟩
  | claimRefund ha hdd hwi hb hunr hpd =>
    exact owed_refund (hi.live ha) hb hunr (hs _ hb) hpd
  | claimBidRefund ha hph hwin hne hb hunr hpd =>
    -- bonds are forfeited at the award only, and the winner was just selected
    exact owed_refund (hi.live ha) hb hunr (hm.unforfeited ha (by simp [hph]) hb) hpd
  | award ha hph hfg hwin hb hset hpd =>
    exact owed_award ha (hi.live ha) hph hset hpd
  | abort ha hph hdd hno hset hpd =>
    exact owed_abort ha (hi.live ha) hph hset hpd
  | releaseEscrow he hrel href hpd =>
    obtain ⟨a, ha⟩ := hi.auction_of_escrow he
    have hl := hi.live ha
    obtain ⟨-, -, v, bid, -, hb, hagt, -⟩ := hl.staged.amount _ he
    refine owed_settle he hrel href (.inl rfl) ?_ hpd
    rw [hagt]
    exact (hl.roster.well v bid hb).ne_self
  | refundEscrow he hrel href hpd =>
    obtain ⟨a, ha⟩ := hi.auction_of_escrow he
    have hl := hi.live ha
    obtain ⟨-, hcre, -⟩ := hl.staged.amount _ he
    refine owed_settle he hrel href (.inr rfl) ?_ hpd
    rw [hcre]
    exact hl.creator

theorem Lot.Change.payments {self : Addr} {now : Nat} {t : Sym} {act : Action Addr}
    {L L' : Lot Addr Sym} {ps : List (Payment Addr Sym)}
    (h : Lot.Change self now t act L L' ps) : L'.payments = L.payments ++ ps := by
  cases h <;> first | rfl | exact (append_nil _).symm

/-! ## One mark per bid -/

/-- No bid carries both marks. -/
def Lot.Once (L : Lot Addr Sym) : Prop :=
  ∀ b bid, L.bids b = some bid → bid.refunded = true → bid.forfeited = false

theorem Lot.Once.refund {L : Lot Addr Sym} (h : L.Once) {b : Addr}
    {bid : SealedBid Addr} (ps : List (Payment Addr Sym)) (hf : bid.forfeited = false) :
    Lot.Once { L with
      bids := update L.bids b (some { bid with refunded := true })
      payments := L.payments ++ ps } := by
  intro x y hy href
  rcases find_update hy with ⟨-, rfl⟩ | hy
  · exact hf
  · exact h x y hy href

theorem Lot.Change.once {self : Addr} {now : Nat} {t : Sym} {act : Action Addr}
    {L L' : Lot Addr Sym} {ps : List (Payment Addr Sym)}
    (h : Lot.Change self now t act L L' ps) (hi : L.Inv self t) (hm : L.Marks)
    (hs : L.Solvent act) (ho : L.Once) : L'.Once := by
  cases h with
  | create | releaseEscrow | refundEscrow => exact fun b bid hb => ho b bid hb
  | submit ha hph hon hfl hno hfr =>
    intro x y hy href
    rcases find_update hy with ⟨-, rfl⟩ | hy
    · exact hfr.forfeited
    · exact ho x y hy href
  | reveal ha hph hdd hon hb =>
    intro x y hy href
    rcases find_update hy with ⟨-, rfl⟩ | hy
    · have hbid := ho _ _ hb
      exact hbid href
    · exact ho x y hy href
  | select =>
    intro x y hy href
    obtain ⟨z, hz, rfl⟩ := map_eq_some_iff.mp hy
    exact ho x z hz href
  | claimRefund ha hdd hwi hb => exact ho.refund ps (hs _ hb)
  | claimBidRefund ha hph hwin hne hb =>
    exact ho.refund ps (hm.unforfeited ha (by simp [hph]) hb)
  | award ha hph hfg hwin hb hset hpd =>
    rename_i a winner bid bids' qs rs
    have hros := (hi.live ha).roster
    intro x y hy href
    obtain ⟨z, hz, rfl⟩ := hset.source (awardVerdict_face a.creator) hros.nodup
      (fun b z hz => (hros.mem b).mpr ⟨z, hz⟩) hy
    refine Verdict.apply_once ?_ (ho x z hz) href
    unfold awardVerdict
    split
    · exact .inl rfl
    · exact .inr rfl
  | abort ha hph hdd hno hset =>
    have hros := (hi.live ha).roster
    intro x y hy href
    obtain ⟨z, hz, rfl⟩ := hset.source abortVerdict_face hros.nodup
      (fun b z hz => (hros.mem b).mpr ⟨z, hz⟩) hy
    exact Verdict.apply_once (.inl rfl) (ho x z hz) href

end AiNet.Bidding
