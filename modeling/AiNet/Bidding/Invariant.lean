import AiNet.Bidding.Refine

/-!
# Rosters and stages

The two halves of the invariant of one auction. `Roster` is about who bid and what was
revealed, and reads of a bid only its *face*: what the bidder submitted and opened,
without the marks the settlement leaves. So every change that only marks bids (a
refund, a score, the two settlement loops) preserves it by one lemma,
`Roster.of_faces`. `Staged` is about the phase, the winner and the escrow.
-/

namespace AiNet.Bidding

open Core List Option Function

section

variable {Addr Sym τ : Type}

/-! ## Faces and sums over bidders -/

/-- A bid without the marks of scoring and settlement. -/
def SealedBid.face (bid : SealedBid Addr) : SealedBid Addr :=
  { bid with refunded := false, forfeited := false, score := 0 }

variable {x y : SealedBid Addr}

theorem SealedBid.revealed_of_face (h : x.face = y.face) :
    x.revealed = y.revealed := by
  show x.face.revealed = y.face.revealed
  rw [h]

theorem SealedBid.price_of_face (h : x.face = y.face) :
    x.priceStroops = y.priceStroops := by
  show x.face.priceStroops = y.face.priceStroops
  rw [h]

theorem SealedBid.bidder_of_face (h : x.face = y.face) :
    x.bidder = y.bidder := by
  show x.face.bidder = y.face.bidder
  rw [h]

theorem SealedBid.bond_of_face (h : x.face = y.face) :
    x.bond = y.bond := by
  show x.face.bond = y.face.bond
  rw [h]

def SameFaces (bids bids' : Addr → Option (SealedBid Addr)) : Prop :=
  ∀ b, (bids' b).map SealedBid.face = (bids b).map SealedBid.face

theorem SameFaces.refl (bids : Addr → Option (SealedBid Addr)) : SameFaces bids bids :=
  fun _ => rfl

theorem SameFaces.trans {bids bids₁ bids' : Addr → Option (SealedBid Addr)}
    (h : SameFaces bids bids₁) (h' : SameFaces bids₁ bids') : SameFaces bids bids' :=
  fun b => (h' b).trans (h b)

variable {bids : Addr → Option (SealedBid Addr)} {b : Addr} {bid bid' : SealedBid Addr}

theorem SameFaces.update [DecidableEq Addr]
    (hb : bids b = some bid)
    (hfa : bid'.face = bid.face) : SameFaces bids (update bids b (some bid')) := by
  intro x
  rw [update_apply]
  split
  · rename_i hx
    rw [hx, hb, map_some, map_some, hfa]
  · rfl

theorem find_update [DecidableEq Addr] {b x : Addr} {new bid : SealedBid Addr}
    (h : update bids b (some new) x = some bid) : (x = b ∧ bid = new) ∨ bids x = some bid := by
  rw [update_apply] at h
  split at h
  · rename_i hx
    injection h with h
    exact .inl ⟨hx, h.symm⟩
  · exact .inr h

variable {bids bids' : Addr → Option (SealedBid Addr)}

theorem SameFaces.find (h : SameFaces bids bids') {bid' : SealedBid Addr} (hb : bids' b = some bid') :
    ∃ bid, bids b = some bid ∧ bid'.face = bid.face := by
  have hf := h b
  rw [hb, map_some] at hf
  obtain ⟨bid, hbid, hfa⟩ := map_eq_some_iff.mp hf.symm
  exact ⟨bid, hbid, hfa.symm⟩

theorem SameFaces.symm (h : SameFaces bids bids') : SameFaces bids' bids := fun b => (h b).symm

section Sums

variable {M : Type} [AddCommMonoid M]

/-- The sum of `f` over the bids of the listed bidders. -/
def sumBids (bidders : List Addr) (bids : Addr → Option (SealedBid Addr))
    (f : SealedBid Addr → M) : M :=
  (bidders.map fun b => (bids b).elim 0 f).sum

theorem sumBids_cons (b : Addr) (l : List Addr)
    (bids : Addr → Option (SealedBid Addr)) (f : SealedBid Addr → M) :
    sumBids (b :: l) bids f = (bids b).elim 0 f + sumBids l bids f := by
  unfold sumBids
  rw [map_cons, sum_cons]

variable {bidders : List Addr} {f : SealedBid Addr → M}

theorem sumBids_update [DecidableEq Addr] (hn : bidders.Nodup) (hb : b ∈ bidders)
    (hbid : bids b = some bid) :
    sumBids bidders (update bids b (some bid')) f + f bid = sumBids bidders bids f + f bid' := by
  have hne : ∀ x, x ≠ b → (update bids b (some bid') x).elim 0 f = (bids x).elim 0 f := by
    intro x hx
    rw [update_of_ne hx]
  have h := Storage.sum_map_change hn hb hne
  rw [update_self, hbid] at h
  exact h

theorem sumBids_append [DecidableEq Addr] {bid : SealedBid Addr} (hb : b ∉ bidders) :
    sumBids (bidders ++ [b]) (update bids b (some bid)) f = sumBids bidders bids f + f bid := by
  unfold sumBids
  rw [map_append, sum_append, map_singleton, sum_singleton, update_self]
  congr 2
  refine map_congr_left ?_
  intro x hx
  rw [update_of_ne (fun he : x = b => hb (he ▸ hx))]

theorem sumBids_congr {f g : SealedBid Addr → M}
    (h : ∀ b ∈ bidders, (bids' b).elim 0 g = (bids b).elim 0 f) :
    sumBids bidders bids' g = sumBids bidders bids f := by
  unfold sumBids
  rw [map_congr_left h]

theorem SameFaces.sumBids (h : SameFaces bids bids')
    (hf : ∀ x y : SealedBid Addr, x.face = y.face → f x = f y) :
    Bidding.sumBids bidders bids' f = Bidding.sumBids bidders bids f := by
  refine sumBids_congr ?_
  intro b _
  cases hb : bids' b with
  | none =>
    have hn : bids b = none := by
      have := h b
      rw [hb] at this
      exact map_eq_none_iff.mp this.symm
    rw [hn]
  | some =>
    obtain ⟨bid, hbid, hfa⟩ := h.find hb
    rw [hbid]
    exact hf _ _ hfa

end Sums

/-! ## The roster -/

/-- One stored bid. -/
structure SealedBid.Well (me b : Addr) (config : AuctionConfig) (bid : SealedBid Addr) :
    Prop where
  bidder : bid.bidder = b
  ne_self : b ≠ me
  bond : bid.bond = config.bond
  reputation : bid.reputation ≤ maxReputation
  price : bid.revealed = true → config.reservePrice ≤ bid.priceStroops ∧ bid.priceStroops ≤ config.maxPrice

theorem SealedBid.Well.of_face {self b : Addr} {config : AuctionConfig} (h : bid.Well self b config)
    (hf : bid'.face = bid.face) :
    bid'.Well self b config := by
  simp only [SealedBid.face, SealedBid.mk.injEq, true_and] at hf
  obtain ⟨h1, -, h3, h4, h5, h6, -⟩ := hf
  exact ⟨h1.trans h.bidder, h.ne_self, h3.trans h.bond, h4 ▸ h.reputation, h5 ▸ h6 ▸ h.price⟩

/-- The weight that counts revealed bids. -/
def revealedOne (bid : SealedBid Addr) : Nat := if bid.revealed = true then 1 else 0

/-- The bidders list, the stored bids and the two counters. -/
structure Roster (me : Addr) (a : Auction Addr Sym) (bidders : List Addr)
    (bids : Addr → Option (SealedBid Addr)) : Prop where
  bidCount : a.bidCount = bidders.length
  bounded : a.bidCount ≤ maxBidders
  nodup : bidders.Nodup
  mem : ∀ b, b ∈ bidders ↔ ∃ bid, bids b = some bid
  well : ∀ b bid, bids b = some bid → bid.Well me b a.config
  revealedCount : a.revealedCount = sumBids bidders bids revealedOne

variable {bidders : List Addr} {self : Addr} {a a' : Auction Addr Sym}

theorem Roster.of_faces (h : Roster self a bidders bids) (hf : SameFaces bids bids')
    (hcfg : a'.config = a.config) (hcnt : a'.bidCount = a.bidCount)
    (hrev : a'.revealedCount = a.revealedCount) : Roster self a' bidders bids' where
  bidCount := hcnt.trans h.bidCount
  bounded := hcnt ▸ h.bounded
  nodup := h.nodup
  mem := by
    intro b
    rw [h.mem b]
    constructor
    · rintro ⟨bid, hb⟩
      obtain ⟨bid', hb', -⟩ := hf.symm.find hb
      exact ⟨bid', hb'⟩
    · rintro ⟨bid', hb'⟩
      obtain ⟨bid, hb, -⟩ := hf.find hb'
      exact ⟨bid, hb⟩
  well := by
    intro b bid' hb'
    obtain ⟨bid, hb, hfa⟩ := hf.find hb'
    rw [hcfg]
    exact (h.well b bid hb).of_face hfa
  revealedCount := by
    rw [hrev, h.revealedCount]
    refine (hf.sumBids ?_).symm
    intro x y hxy
    unfold revealedOne
    rw [SealedBid.revealed_of_face hxy]

/-! ## Phase, winner and escrow -/

/-- What the phase says about the winner and the escrow. -/
structure Staged (t : Sym) (a : Auction Addr Sym)
    (bids : Addr → Option (SealedBid Addr)) (winner : Option Addr)
    (escrow : Option (Escrow Addr Sym)) : Prop where
  winner_iff : winner.isSome = true ↔ a.phase = .reveal ∨ a.phase = .awarded
  revealed : ∀ v, winner = some v → ∃ bid, bids v = some bid ∧ bid.revealed = true
  escrowCreated : a.escrowCreated = true ↔ a.phase = .awarded
  escrow_iff : escrow.isSome = true ↔ a.phase = .awarded
  amount : ∀ e, escrow = some e → e.taskId = t ∧ e.creator = a.creator ∧
    ∃ v bid, winner = some v ∧ bids v = some bid ∧ e.agent = v ∧ e.amount = bid.priceStroops

variable {t : Sym} {winner : Option Addr} {escrow : Option (Escrow Addr Sym)}

theorem Staged.of_faces {a : Auction Addr Sym} (h : Staged t a bids winner escrow)
    (hf : SameFaces bids bids') : Staged t a bids' winner escrow where
  winner_iff := h.winner_iff
  revealed := by
    intro v hv
    obtain ⟨bid, hb, hrev⟩ := h.revealed v hv
    obtain ⟨bid', hb', hfa⟩ := hf.symm.find hb
    exact ⟨bid', hb', SealedBid.revealed_of_face hfa ▸ hrev⟩
  escrowCreated := h.escrowCreated
  escrow_iff := h.escrow_iff
  amount := by
    intro e he
    obtain ⟨ht, hc, v, bid, hv, hb, hag, ham⟩ := h.amount e he
    obtain ⟨bid', hb', hfa⟩ := hf.symm.find hb
    exact ⟨ht, hc, v, bid', hv, hb', hag, ham.trans (SealedBid.price_of_face hfa)⟩

theorem Staged.early
    (h : Staged t a bids winner escrow)
    (hph : a.phase = .bidding) (hph' : a'.phase = .bidding ∨ a'.phase = .cancelled)
    (hesc : a'.escrowCreated = a.escrowCreated) : Staged t a' bids' winner escrow := by
  have hw : winner = none := by
    rw [← not_isSome_iff_eq_none, h.winner_iff, hph]
    simp
  have he : escrow = none := by
    rw [← not_isSome_iff_eq_none, h.escrow_iff, hph]
    simp
  have hc : a'.escrowCreated = false := by
    rw [hesc, ← Bool.not_eq_true, h.escrowCreated, hph]
    simp
  subst hw he
  refine ⟨?_, ?_, ?_, ?_, ?_⟩
  · rcases hph' with hp | hp <;> simp [hp]
  · intro v hv; cases hv
  · rcases hph' with hp | hp <;> simp [hp, hc]
  · rcases hph' with hp | hp <;> simp [hp]
  · intro e he; cases he

theorem Staged.settle {a : Auction Addr Sym}
    {e e' : Escrow Addr Sym}
    (h : Staged t a bids winner escrow) (he : escrow = some e) (htk : e'.taskId = e.taskId)
    (hagt : e'.agent = e.agent) (hamt : e'.amount = e.amount)
    (hcre : e'.creator = e.creator) : Staged t a bids winner (some e') where
  winner_iff := h.winner_iff
  revealed := h.revealed
  escrowCreated := h.escrowCreated
  escrow_iff := by rw [← h.escrow_iff, he]; simp
  amount := by
    intro x hx
    injection hx with hx
    subst hx
    obtain ⟨ht, hc, v, bid, hv, hb, hag, ham⟩ := h.amount e he
    exact ⟨htk.trans ht, hcre.trans hc, v, bid, hv, hb, hagt.trans hag, hamt.trans ham⟩

/-! ## Changes -/

theorem awardVerdict_face (creator b : Addr) (bid : SealedBid Addr) :
    (awardVerdict creator b bid).1.face = bid.face := by
  unfold awardVerdict
  split <;> rfl

theorem abortVerdict_face (b : Addr) (bid : SealedBid Addr) :
    (abortVerdict b bid).1.face = bid.face := rfl

theorem sameFaces_scored (bids : Addr → Option (SealedBid Addr))
    (score : Addr → SealedBid Addr → Int) :
    SameFaces bids fun x => (bids x).map fun y => { y with score := score x y } := by
  intro b
  show ((bids b).map _).map _ = _
  rw [Option.map_map]
  rfl

theorem antiSnipe_fields (now : Nat) (a : Auction Addr Sym) :
    (antiSnipe now a).taskId = a.taskId ∧ (antiSnipe now a).creator = a.creator ∧
      (antiSnipe now a).config = a.config ∧ (antiSnipe now a).createdAt = a.createdAt ∧
      (antiSnipe now a).bidCount = a.bidCount ∧
      (antiSnipe now a).revealedCount = a.revealedCount ∧ (antiSnipe now a).phase = a.phase ∧
      (antiSnipe now a).escrowCreated = a.escrowCreated := by
  unfold antiSnipe
  split <;> exact ⟨rfl, rfl, rfl, rfl, rfl, rfl, rfl, rfl⟩

variable [DecidableEq Addr]

theorem Settled.sameFaces {verdict : Verdict Addr}
    (hv : ∀ b bid, (verdict b bid).1.face = bid.face) {l : List Addr}
    {ps : List (Payment Addr Sym)}
    (h : Settled self t verdict l bids bids' ps) : SameFaces bids bids' := by
  induction h with
  | nil => exact .refl _
  | skip _ _ ih => exact ih
  | pay hb _ _ _ _ ih => exact (SameFaces.update hb (hv _ _)).trans ih

theorem Roster.submit {bid : SealedBid Addr} (h : Roster self a bidders bids)
    (hno : bids bid.bidder = none) (hfl : a.bidCount < maxBidders) (hfr : bid.Fresh self a)
    (hcfg : a'.config = a.config) (hcnt : a'.bidCount = a.bidCount + 1)
    (hrev : a'.revealedCount = a.revealedCount) :
    Roster self a' (bidders ++ [bid.bidder]) (update bids bid.bidder (some bid)) := by
  have hnew : bid.bidder ∉ bidders := by
    intro hmem
    obtain ⟨x, hx⟩ := (h.mem _).mp hmem
    rw [hno] at hx
    cases hx
  refine ⟨?_, ?_, ?_, ?_, ?_, ?_⟩
  · rw [hcnt, h.bidCount, length_append, length_singleton]
  · omega
  · rw [nodup_append]
    refine ⟨h.nodup, nodup_singleton _, ?_⟩
    intro x hx y hy he
    rw [mem_singleton.mp hy] at he
    exact hnew (he ▸ hx)
  · intro b
    rw [mem_append, mem_singleton, update_apply]
    by_cases hb : b = bid.bidder
    · simp [hb]
    · rw [if_neg hb, or_iff_left hb]
      exact h.mem b
  · intro b x hx
    rcases find_update hx with ⟨hb, rfl⟩ | hx
    · rw [hcfg]
      refine ⟨hb.symm, hb ▸ hfr.bidder, hfr.bond, hfr.reputation, ?_⟩
      intro hr
      exact absurd hr (by simp [hfr.revealed])
    · rw [hcfg]
      exact h.well b x hx
  · have hz : revealedOne bid = 0 := by
      unfold revealedOne
      rw [if_neg (by simp [hfr.revealed])]
    rw [hrev, sumBids_append hnew, hz, Nat.add_zero]
    exact h.revealedCount

theorem Roster.reveal {bid : SealedBid Addr} {price : Int} {terms : List UInt8}
    (h : Roster self a bidders bids) (hb : bids b = some bid) (hrvl : bid.revealed = false)
    (hmin : a.config.reservePrice ≤ price) (hmax : price ≤ a.config.maxPrice) (hcfg : a'.config = a.config)
    (hcnt : a'.bidCount = a.bidCount) (hrev : a'.revealedCount = a.revealedCount + 1) :
    Roster self a' bidders (update bids b
      (some { bid with revealed := true, priceStroops := price, terms := terms })) := by
  have hmem : b ∈ bidders := (h.mem b).mpr ⟨bid, hb⟩
  refine ⟨hcnt.trans h.bidCount, hcnt ▸ h.bounded, h.nodup, ?_, ?_, ?_⟩
  · intro x
    rw [h.mem x, update_apply]
    by_cases hx : x = b
    · simp [hx, hb]
    · rw [if_neg hx]
  · intro x y hy
    rcases find_update hy with ⟨rfl, rfl⟩ | hy
    · have hw := h.well x bid hb
      rw [hcfg]
      exact ⟨hw.bidder, hw.ne_self, hw.bond, hw.reputation, fun _ => ⟨hmin, hmax⟩⟩
    · rw [hcfg]
      exact h.well x y hy
  · let opened : SealedBid Addr :=
      { bid with revealed := true, priceStroops := price, terms := terms }
    have hsum : sumBids bidders (update bids b (some opened)) revealedOne
        + revealedOne bid = sumBids bidders bids revealedOne + revealedOne opened :=
      sumBids_update h.nodup hmem hb
    have h0 : revealedOne bid = 0 := if_neg (by simp [hrvl])
    rw [h0, Nat.add_zero] at hsum
    rw [hrev, h.revealedCount, hsum]
    rfl

end

/-!
## The records of one auction agree

`Lot.Inv` ties the auction record of a task to the bids, the bidders list, the winner
and the escrow stored beside it. It holds of every lot in every reachable state, with
no condition on the clock or on which calls are made, and everything later rests on
it: the well-keyedness that `exec_refines` asks for is part of it.
-/

variable {Addr Sym τ : Type}

/-- The lot of a task that has an auction. -/
structure Lot.Live (me : Addr) (t : Sym) (a : Auction Addr Sym)
    (L : Lot Addr Sym) : Prop where
  taskId : a.taskId = t
  creator : a.creator ≠ me
  config : a.config.Normal
  roster : Roster me a L.bidders L.bids
  staged : Staged t a L.bids L.winner L.escrow

/-- **The records of one task agree**: with an auction as `Live` says, without one not at all. -/
def Lot.Inv (me : Addr) (t : Sym) (L : Lot Addr Sym) : Prop :=
  match L.auction with
  | none => L = .empty
  | some a => L.Live me t a

variable {t : Sym} {a : Auction Addr Sym} {me : Addr} {L : Lot Addr Sym}

theorem Lot.Inv.live (h : L.Inv me t) (ha : L.auction = some a) : L.Live me t a := by
  unfold Lot.Inv at h
  rw [ha] at h
  exact h

theorem Lot.Inv.vacant (h : L.Inv me t) (ha : L.auction = none) : L = .empty := by
  unfold Lot.Inv at h
  rw [ha] at h
  exact h

theorem Lot.inv_of_live (ha : L.auction = some a) (h : L.Live me t a) : L.Inv me t := by
  unfold Lot.Inv
  rw [ha]
  exact h

theorem Lot.Inv.auction_of_escrow (h : L.Inv me t) {e : Escrow Addr Sym} (he : L.escrow = some e) :
    ∃ a, L.auction = some a := by
  cases ha : L.auction with
  | some a => exact ⟨a, rfl⟩
  | none =>
    rw [h.vacant ha] at he
    cases he

theorem Lot.Inv.auction_of_bid (h : L.Inv me t) {b : Addr} {bid : SealedBid Addr}
    (hb : L.bids b = some bid) :
    ∃ a, L.auction = some a := by
  cases ha : L.auction with
  | some a => exact ⟨a, rfl⟩
  | none =>
    rw [h.vacant ha] at hb
    cases hb

/-! ## Every change preserves it -/

variable {now : Nat}

theorem roster_fresh (h : a.Fresh me now t) : Roster me a [] fun _ => none where
  bidCount := h.bidCount
  bounded := by rw [h.bidCount]; exact Nat.zero_le _
  nodup := nodup_nil
  mem := by intro b; simp
  well := by intro b bid hb; cases hb
  revealedCount := h.revealedCount

theorem staged_fresh (h : a.Fresh me now t) : Staged t a (fun _ => none) none none where
  winner_iff := by simp [h.phase]
  revealed := by intro v hv; cases hv
  escrowCreated := by simp [h.phase, h.escrowCreated]
  escrow_iff := by simp [h.phase]
  amount := by intro e he; cases he

theorem Lot.Live.mark
    {L L' : Lot Addr Sym} (h : L.Live me t a) (hbi : L'.bidders = L.bidders)
    (hwi : L'.winner = L.winner) (hes : L'.escrow = L.escrow)
    (hf : SameFaces L.bids L'.bids) : L'.Live me t a where
  taskId := h.taskId
  creator := h.creator
  config := h.config
  roster := hbi ▸ h.roster.of_faces hf rfl rfl rfl
  staged := hwi ▸ hes ▸ h.staged.of_faces hf

variable [DecidableEq Addr]

/-- **Every change preserves the invariant.** -/
theorem Lot.Change.inv {self : Addr} {act : Action Addr}
    {L L' : Lot Addr Sym} {ps : List (Payment Addr Sym)}
    (h : Lot.Change self now t act L L' ps) (hi : L.Inv self t) : L'.Inv self t := by
  cases h with
  | create hno hfr =>
    rw [hi.vacant hno]
    exact Lot.inv_of_live rfl
      ⟨hfr.taskId, hfr.creator, hfr.config, roster_fresh hfr, staged_fresh hfr⟩
  | submit ha hph hon hfl hno hfr hpd =>
    rename_i a bid
    have hl := hi.live ha
    -- the anti-snipe extension moves the two deadlines only
    obtain ⟨h1, h2, h3, -, h5, h6, h7, h8⟩ :=
      antiSnipe_fields now { a with bidCount := a.bidCount + 1 }
    refine Lot.inv_of_live rfl ⟨h1.trans hl.taskId, ?_, ?_, ?_, ?_⟩
    · rw [h2]; exact hl.creator
    · rw [h3]; exact hl.config
    · exact hl.roster.submit hno hfl hfr h3 h5 h6
    · exact hl.staged.early hph (.inl (h7.trans hph)) h8
  | reveal ha hph hdd hon hb hrvl hmin hmax =>
    have hl := hi.live ha
    refine Lot.inv_of_live rfl ⟨hl.taskId, hl.creator, hl.config, ?_, ?_⟩
    · exact hl.roster.reveal hb hrvl hmin hmax rfl rfl rfl
    · exact hl.staged.early hph (.inl hph) rfl
  | select ha hph hdd hrdy hmem hb hrvl =>
    rename_i a b bid score
    have hl := hi.live ha
    have hf := sameFaces_scored L.bids score
    refine Lot.inv_of_live rfl ⟨hl.taskId, hl.creator, hl.config, ?_, ?_⟩
    · exact hl.roster.of_faces hf rfl rfl rfl
    · have hwho : bid.bidder = b := (hl.roster.well b bid hb).bidder
      subst hwho
      -- the escrow waits for the award
      have hesc : L.escrow = none := by
        rw [← not_isSome_iff_eq_none, hl.staged.escrow_iff, hph]
        simp
      have hfg : a.escrowCreated = false := by
        rw [← Bool.not_eq_true, hl.staged.escrowCreated, hph]
        simp
      refine ⟨by simp, ?_, by simp [hfg], by simp [hesc], ?_⟩
      · intro v hv
        injection hv with hv
        subst hv
        refine ⟨{ bid with score := score bid.bidder bid }, ?_, hrvl⟩
        show (L.bids bid.bidder).map _ = _
        rw [hb]
        rfl
      · intro e he
        rw [hesc] at he
        cases he
  | claimRefund ha hdd hwi hb | claimBidRefund ha hph hwin hne hb =>
    have hl := hi.live ha
    exact Lot.inv_of_live ha (hl.mark rfl rfl rfl (.update hb rfl))
  | award ha hph hfg hwin hb hset hpd =>
    rename_i a winner bid bids' ps qs
    have hl := hi.live ha
    have hf := hset.sameFaces (awardVerdict_face a.creator)
    refine Lot.inv_of_live rfl ⟨hl.taskId, hl.creator, hl.config, ?_, ?_⟩
    · exact hl.roster.of_faces hf rfl rfl rfl
    · have hst := hl.staged.of_faces hf
      refine ⟨by simp [hwin], hst.revealed, by simp, by simp, ?_⟩
      intro e he
      injection he with he
      subst he
      -- the settlement loop marks the winner's bid too, at the price it had
      obtain ⟨bid', hb', hfa⟩ := hf.symm.find hb
      exact ⟨rfl, rfl, winner, bid', hwin, hb', rfl, SealedBid.price_of_face hfa⟩
  | abort ha hph hdd hno hset =>
    have hl := hi.live ha
    have hf := hset.sameFaces abortVerdict_face
    refine Lot.inv_of_live rfl ⟨hl.taskId, hl.creator, hl.config, ?_, ?_⟩
    · exact hl.roster.of_faces hf rfl rfl rfl
    · exact hl.staged.early hph (.inr rfl) rfl
  | releaseEscrow he hrel href hpd | refundEscrow he hrel href hpd =>
    rename_i e
    obtain ⟨a, ha⟩ := hi.auction_of_escrow he
    have hl := hi.live ha
    exact Lot.inv_of_live ha
      ⟨hl.taskId, hl.creator, hl.config, hl.roster, hl.staged.settle he rfl rfl rfl rfl⟩

/-! ## Every reachable state has it -/

variable [DecidableEq Sym]

/-- The invariant of all lots at once. -/
def World.Inv (me : Addr) (w : World Addr Sym τ) : Prop := ∀ t, (w.lot t).Inv me t

variable {w : World Addr Sym τ}

theorem World.Inv.wellKeyed (h : w.Inv me) :
    w.WellKeyed where
  auction t a ha := ((h t).live ha).taskId
  bid t b bid hb := by
    obtain ⟨a, ha⟩ := (h t).auction_of_bid hb
    exact (((h t).live ha).roster.well b bid hb).bidder

theorem inv_init (me : Addr) (now : Nat) (tokens : τ) :
    (World.init now tokens : World Addr Sym τ).Inv me := fun _ => rfl

variable {env : Env Addr Sym τ}

theorem inv_step {w w' : World Addr Sym τ} {e : Event Addr Sym τ} (hi : w.Inv env.self)
    (h : (system env).step w e = some w') :
    w'.Inv env.self := by
  intro t
  rcases step_lot hi.wellKeyed h t with ⟨call, op, act, ps, -, -, hatd⟩ | hsm
  · exact hatd.change.inv (hi t)
  · rw [hsm]
    exact hi t

variable {guard : World Addr Sym τ → Event Addr Sym τ → Prop}

/-- **The records agree in every reachable state**, whatever the guard. -/
theorem inv_reachable (h : (system env).Reachable guard w) : w.Inv env.self := by
  refine System.Reachable.invariant ?_ ?_ h
  · intro w ⟨now, tokens, hw⟩
    rw [hw]
    exact inv_init env.self now tokens
  · intro w e w' _ _ hi hst
    exact inv_step hi hst

/--
**The invariant rule for one auction.** A property of its lot, possibly of the time too, holds in
every reachable state if it holds of no auction at all, if time does not break it, and if every
change allowed by `p` preserves it.
-/
theorem lot_invariant {p : Nat → Lot Addr Sym → Action Addr → Prop}
    {P : Nat → Lot Addr Sym → Prop} (hgrd : ∀ w e, guard w e → OnActions t p w e)
    (hemp : ∀ now, P now .empty)
    (htm : ∀ w e w', w.Inv env.self → guard w e → (system env).step w e = some w' → ∀ L, P w.now L → P w'.now L)
    (hchg : ∀ now act L L' ps, Lot.Change env.self now t act L L' ps → L.Inv env.self t → p now L act → P now L → P now L')
    (h : (system env).Reachable guard w) : P w.now (w.lot t) := by
  have hin : ∀ w, (system env).start w → P w.now (w.lot t) := by
    intro w ⟨now, tokens, hw⟩
    rw [hw]
    exact hemp now
  have hst : ∀ w e w', (system env).Reachable guard w → guard w e → P w.now (w.lot t) →
      (system env).step w e = some w' → P w'.now (w'.lot t) := by
    intro w e w' hr hg hP hs
    have hi := inv_reachable hr
    refine htm w e w' hi hg hs _ ?_
    rcases step_lot hi.wellKeyed hs t with ⟨call, op, act, ps, he, hop, hatd⟩ | hsm
    · subst he
      exact hchg _ _ _ _ _ hatd.change (hi t) ((hgrd _ _ hg).of_invoke hop) hP
    · rw [hsm]
      exact hP
  exact System.Reachable.invariant hin hst h

theorem lot_invariant_always {P : Lot Addr Sym → Prop} (hemp : P .empty)
    (hchg : ∀ now act L L' ps, Lot.Change env.self now t act L L' ps → L.Inv env.self t → P L → P L')
    (h : (system env).Reachable guard w) : P (w.lot t) := by
  have hfr : ∀ w e, guard w e → OnActions t (fun _ _ _ => True) w e :=
    fun w e _ => onActions_of_all (fun _ => trivial) e
  exact lot_invariant hfr (fun _ => hemp) (fun _ _ _ _ _ _ _ hP => hP)
    (fun now act L L' ps hc hi _ hP => hchg now act L L' ps hc hi hP) h

end AiNet.Bidding
