import AiNet.Bidding.Invariant

/-!
# What a stored auction record says

The counters of an auction count what they are named after, its deadlines stay in
their window however often a late bid moves them, and winner and escrow appear with
the phases they belong to. The first and the last are read off `Lot.Inv`; the
deadlines need a bound on the clock, because the source adds to them with saturating
arithmetic: every timestamp plus sixty days must fit in a `u64`.
-/

namespace AiNet.Bidding

open Core List Option Storage

variable {Addr Sym τ : Type}

/-! ## Deadlines -/

/-- A call made at `now` can add two phases of the greatest length without saturating. -/
def InHorizon (now : Nat) : Prop := now + 2 * maxPhaseDurationSecs ≤ u64Max

/-- Every step is taken at a time within the horizon. -/
def Horizon (w : World Addr Sym τ) (_ : Event Addr Sym τ) : Prop := InHorizon w.now

/-- The deadlines of one auction. -/
structure Auction.Timed (a : Auction Addr Sym) : Prop where
  horizon : InHorizon a.createdAt
  opens : a.createdAt < a.deadline
  capped : a.deadline ≤ a.createdAt + maxPhaseDurationSecs
  window : a.revealDeadline = a.deadline + a.config.revealDurationSecs

variable {me : Addr} {now : Nat} {t : Sym} {a : Auction Addr Sym}

theorem Auction.Fresh.timed (h : a.Fresh me now t) (hnow : InHorizon now) : a.Timed := by
  obtain ⟨hlo, hhi⟩ := h.config.duration
  obtain ⟨-, hrhi⟩ := h.config.revealDuration
  have hpos : 0 < minPhaseDurationSecs := by decide
  have hbd : now + 2 * maxPhaseDurationSecs ≤ u64Max := hnow
  have hdd : a.deadline = now + a.config.durationSecs := by
    rw [h.deadline, satAdd64_of_le (by omega)]
  have hre : a.revealDeadline = a.deadline + a.config.revealDurationSecs := by
    rw [h.revealDeadline, satAdd64_of_le (by omega)]
  have hcrt := h.createdAt
  refine ⟨hcrt ▸ hnow, ?_, ?_, hre⟩
  · omega
  · omega

/-- **A late bid moves both deadlines by the same amount and never past the cap.** -/
theorem Auction.Timed.antiSnipe_eq (h : a.Timed) (hc : a.config.Normal) (now : Nat) :
    ∃ extension, a.deadline + extension ≤ a.createdAt + maxPhaseDurationSecs ∧ antiSnipe now a = { a with
        deadline := a.deadline + extension
        revealDeadline := a.revealDeadline + extension } := by
  obtain ⟨-, hrhi⟩ := hc.revealDuration
  have hca := h.capped
  have hwin := h.window
  have hbd : a.createdAt + 2 * maxPhaseDurationSecs ≤ u64Max := h.horizon
  unfold antiSnipe
  split
  · -- the extension stops at `createdAt + maxPhaseDurationSecs`, so neither sum saturates
    have hcap : satAdd64 a.createdAt maxPhaseDurationSecs = a.createdAt + maxPhaseDurationSecs :=
      satAdd64_of_le (by omega)
    dsimp only
    rw [hcap]
    generalize satAdd64 a.deadline antiSnipeExtensionSecs = wanted
    have hext : a.deadline + (min wanted (a.createdAt + maxPhaseDurationSecs) - a.deadline)
        ≤ a.createdAt + maxPhaseDurationSecs := by omega
    refine ⟨min wanted (a.createdAt + maxPhaseDurationSecs) - a.deadline, hext, ?_⟩
    rw [satAdd64_of_le (by omega), satAdd64_of_le (by omega)]
  · exact ⟨0, hca, rfl⟩

theorem Auction.Timed.antiSnipe (h : a.Timed) (hc : a.config.Normal) (now : Nat) : (antiSnipe now a).Timed := by
  obtain ⟨extension, hcap, heq⟩ := h.antiSnipe_eq hc now
  have hops := h.opens
  have hwin := h.window
  rw [heq]
  refine ⟨h.horizon, ?_, hcap, ?_⟩
  · show a.createdAt < a.deadline + extension
    omega
  · show a.revealDeadline + extension = a.deadline + extension + a.config.revealDurationSecs
    omega

theorem Auction.Timed.congr {a a' : Auction Addr Sym} (h : a.Timed)
    (hcrt : a'.createdAt = a.createdAt) (hdd : a'.deadline = a.deadline)
    (hre : a'.revealDeadline = a.revealDeadline) (hcfg : a'.config = a.config) :
    a'.Timed where
  horizon := hcrt ▸ h.horizon
  opens := by rw [hcrt, hdd]; exact h.opens
  capped := by rw [hcrt, hdd]; exact h.capped
  window := by rw [hre, hdd, hcfg]; exact h.window

def Lot.Timed (L : Lot Addr Sym) : Prop := ∀ a, L.auction = some a → a.Timed

theorem Lot.Timed.set {L : Lot Addr Sym} (hL : L.auction = some a) (ha : a.Timed) : L.Timed := by
  intro x hx
  rw [hL] at hx
  injection hx with hx
  exact hx ▸ ha

theorem Lot.Change.timed [DecidableEq Addr] {self : Addr} {act : Action Addr}
    {L L' : Lot Addr Sym} {ps : List (Payment Addr Sym)} (h : Lot.Change self now t act L L' ps)
    (hi : L.Inv self t) (hnow : InHorizon now) (ht : L.Timed) : L'.Timed := by
  cases h with
  | create hno hfr => exact .set rfl (hfr.timed hnow)
  | submit ha hph hon hfl hno hfr hpd =>
    rename_i a bid
    have hctd : ({ a with bidCount := a.bidCount + 1 } : Auction Addr Sym).Timed :=
      (ht a ha).congr rfl rfl rfl rfl
    exact .set rfl (hctd.antiSnipe (hi.live ha).config now)
  | reveal ha | select ha | award ha =>
    exact .set rfl ((ht _ ha).congr rfl rfl rfl rfl)
  | claimRefund ha | claimBidRefund ha => exact .set ha (ht _ ha)
  | abort ha => exact .set rfl ((ht _ ha).congr rfl rfl rfl rfl)
  | releaseEscrow | refundEscrow => exact fun a ha => ht a ha

/-! ## Phases -/

/-- The moves between phases. -/
inductive PhaseMove : AuctionPhase → AuctionPhase → Prop where
  | select : PhaseMove .bidding .reveal
  | award : PhaseMove .reveal .awarded
  | abort : PhaseMove .bidding .cancelled

/-- What a step does to the phase of an auction: it starts in `bidding`, stays, or moves. -/
def PhaseStep (o o' : Option (Auction Addr Sym)) : Prop :=
  match o, o' with
  | none, none => True
  | none, some a' => a'.phase = .bidding
  | some a, some a' => a'.phase = a.phase ∨ PhaseMove a.phase a'.phase
  | some _, none => False

theorem PhaseStep.refl (o : Option (Auction Addr Sym)) : PhaseStep o o := by
  cases o with
  | none => trivial
  | some => exact .inl rfl

theorem Lot.Change.phaseStep [DecidableEq Addr] {self : Addr}
    {act : Action Addr} {L L' : Lot Addr Sym} {ps : List (Payment Addr Sym)}
    (h : Lot.Change self now t act L L' ps) : PhaseStep L.auction L'.auction := by
  cases h with
  | create hno hfr => rw [hno]; exact hfr.phase
  | submit ha =>
    rw [ha]
    obtain ⟨-, -, -, -, -, -, hp, -⟩ :=
      antiSnipe_fields now { (_ : Auction Addr Sym) with bidCount := _ + 1 }
    exact .inl hp
  | reveal ha => rw [ha]; exact .inl rfl
  | select ha hph =>
    rw [ha]
    refine .inr ?_
    rw [hph]
    exact .select
  | claimRefund | claimBidRefund | releaseEscrow | refundEscrow => exact .refl _
  | award ha hph =>
    rw [ha]
    refine .inr ?_
    rw [hph]
    exact .award
  | abort ha hph =>
    rw [ha]
    refine .inr ?_
    rw [hph]
    exact .abort

variable [DecidableEq Addr] [DecidableEq Sym]

theorem phase_step {env : Env Addr Sym τ} {w w' : World Addr Sym τ}
    {e : Event Addr Sym τ} (hi : w.Inv env.self) (h : (system env).step w e = some w')
    (t : Sym) : PhaseStep (w.auctions.get t) (w'.auctions.get t) := by
  rcases step_lot hi.wellKeyed h t with ⟨call, op, act, ps, -, -, hatd⟩ | hsm
  · exact hatd.change.phaseStep
  · have hauc : w'.auctions.get t = w.auctions.get t := congrArg Lot.auction hsm
    rw [hauc]
    exact .refl _

/-! ## Counting stored bids -/

variable {w : World Addr Sym τ}

theorem total_bids_eq {M : Type} [AddCommMonoid M] (h : Roster me a (w.lot t).bidders (w.lot t).bids)
    (f : SealedBid Addr → M) :
    (w.bids.total fun k bid => if k.1 = t then f bid else 0)
      = sumBids (w.lot t).bidders (w.lot t).bids f := by
  have hnd : ((w.lot t).bidders.map fun b => (t, b)).Nodup :=
    h.nodup.map (fun x y hxy => congrArg Prod.snd hxy)
  rw [total_eq_sum _ hnd]
  · unfold sumBids
    rw [List.map_map]
    refine congrArg List.sum (map_congr_left ?_)
    intro b _
    show (w.bids.get (t, b)).elim 0 _ = (w.bids.get (t, b)).elim 0 f
    cases w.bids.get (t, b) with
    | none => rfl
    | some => exact if_pos rfl
  · rintro ⟨t', b⟩ bid hb hout
    refine if_neg ?_
    intro ht
    have ht : t' = t := ht
    subst ht
    exact hout (List.mem_map.mpr ⟨b, (h.mem b).mpr ⟨bid, hb⟩, rfl⟩)

theorem count_bids_eq (h : Roster me a (w.lot t).bidders (w.lot t).bids) (p : SealedBid Addr → Bool) :
    (w.bids.count fun k bid => decide (k.1 = t) && p bid)
      = sumBids (w.lot t).bidders (w.lot t).bids fun bid => if p bid = true then 1 else 0 := by
  rw [← total_bids_eq h]
  refine total_congr ?_
  intro k bid _
  by_cases hk : k.1 = t
  · simp [hk]
  · simp [hk]

/-! ## The record -/

/-- What holds of the record of an auction and of the entries stored beside it. -/
structure AuctionRecord (w : World Addr Sym τ) (t : Sym) (a : Auction Addr Sym) :
    Prop where
  /-- `bid_count` is the length of the `Bidders` list... -/
  bidders_length : a.bidCount = ((w.bidders.get t).getD []).length
  /-- ...and the number of `Bid` entries of the task. -/
  bids_count : a.bidCount = w.bids.count fun k _ => decide (k.1 = t)
  bidders_nodup : ((w.bidders.get t).getD []).Nodup
  bidders_bound : ((w.bidders.get t).getD []).length ≤ 100
  /-- `revealed_count` is the number of revealed bids. -/
  revealed_count : a.revealedCount = w.bids.count fun k bid => decide (k.1 = t) && bid.revealed
  created_lt : a.createdAt < a.deadline
  deadline_le : a.deadline ≤ a.createdAt + maxPhaseDurationSecs
  reveal_window : a.revealDeadline - a.deadline = a.config.revealDurationSecs
  winner_iff : (∃ v, w.winners.get t = some v) ↔ a.phase = .reveal ∨ a.phase = .awarded
  escrow_iff_created : (∃ e, w.escrows.get t = some e) ↔ a.escrowCreated = true
  escrow_iff_awarded : (∃ e, w.escrows.get t = some e) ↔ a.phase = .awarded
  /-- The escrow holds the price the winner revealed. -/
  escrow_amount : ∀ e, w.escrows.get t = some e → ∃ v bid, w.winners.get t = some v ∧
    w.bids.get (t, v) = some bid ∧ bid.revealed = true ∧ e.amount = bid.priceStroops

theorem auctionRecord_of_inv
    (hi : w.Inv me) (ht : (w.lot t).Timed)
    (ha : w.auctions.get t = some a) : AuctionRecord w t a := by
  have hl := (hi t).live ha
  have htim := ht a ha
  have hros := hl.roster
  have hst := hl.staged
  have hesc : (∃ e, w.escrows.get t = some e) ↔ a.phase = .awarded := by
    rw [← isSome_iff_exists]
    exact hst.escrow_iff
  refine ⟨hros.bidCount, ?_, hros.nodup, ?_, ?_, htim.opens, htim.capped, ?_, ?_, ?_, hesc, ?_⟩
  · have hcnt := count_bids_eq hros fun _ => true
    simp only [Bool.and_true, if_true] at hcnt
    rw [hcnt, hros.bidCount]
    unfold sumBids
    have hone : ∀ b ∈ (w.lot t).bidders, ((w.lot t).bids b).elim 0 (fun _ => 1) = 1 := by
      intro b hb
      obtain ⟨bid, hbid⟩ := (hros.mem b).mp hb
      rw [hbid]
      rfl
    rw [map_congr_left hone]
    simp
  · have hbd := hros.bounded
    rw [hros.bidCount] at hbd
    exact hbd
  · rw [count_bids_eq hros fun bid => bid.revealed]
    exact hros.revealedCount
  · rw [htim.window]
    omega
  · rw [← isSome_iff_exists]
    exact hst.winner_iff
  · rw [hesc]
    exact hst.escrowCreated.symm
  · intro e he
    obtain ⟨-, -, v, bid, hv, hb, -, hamt⟩ := hst.amount e he
    obtain ⟨bid', hb', hrev⟩ := hst.revealed v hv
    rw [hb] at hb'
    injection hb' with hb'
    exact ⟨v, bid, hv, hb, hb' ▸ hrev, hamt⟩

/-! ## Runs -/

theorem timed_reachable {env : Env Addr Sym τ}
    (h : (system env).Reachable Horizon w) (t : Sym) : (w.lot t).Timed := by
  have hnow : ∀ (w : World Addr Sym τ) e, Horizon w e → OnActions t (fun now _ _ => InHorizon now) w e :=
    fun w e hg => onActions_of_all (fun _ => hg) e
  have hemp : Lot.Timed (Lot.empty : Lot Addr Sym) := by
    intro a ha
    cases ha
  exact lot_invariant hnow (fun _ => hemp) (fun _ _ _ _ _ _ _ hP => hP)
    (fun _ _ _ _ _ hc hi hin ht => hc.timed hi hin ht) h

/--
**The auction record.** In every reachable state of a run within the horizon, each stored
auction agrees with its bids, bidders, winner and escrow and keeps its deadlines; and every step
from that state moves phases only forward, along `PhaseMove`.
-/
theorem auction_record {env : Env Addr Sym τ} {w : World Addr Sym τ}
    (h : (system env).Reachable Horizon w) :
    (∀ t a, w.auctions.get t = some a → AuctionRecord w t a) ∧ ∀ e w', (system env).step w e = some w' →
        ∀ t, PhaseStep (w.auctions.get t) (w'.auctions.get t) := by
  have hi := inv_reachable h
  refine ⟨?_, ?_⟩
  · intro t a ha
    exact auctionRecord_of_inv hi (timed_reachable h t) ha
  · intro e w' hst t
    exact phase_step hi hst t

instance (w : World Addr Sym τ) (e : Event Addr Sym τ) : Decidable (Horizon w e) :=
  inferInstanceAs (Decidable (_ ≤ _))

theorem auction_record_awarded : ∃ (w : World Nat Nat (Token.Ledger Nat)) (a : Auction Nat Nat),
    w.auctions.get 7 = some a ∧ a.phase = .awarded ∧ AuctionRecord w 7 a := by
  have hpl : ((system (Sample.env 7)).play Horizon
      (Sample.selected 7 ++ [Sample.signed 2 (.awardContract 2 7)])
      (World.init 1000 Sample.wallets)).any
        (fun w => (w.auctions.get 7).any fun a => a.phase = .awarded) = true := by
    decide +kernel
  obtain ⟨w, hr, hw⟩ := System.exists_reachable_of_play (start_init _ _ _) hpl
  obtain ⟨a, ha, hp⟩ := (Option.any_eq_true _ _).mp hw
  exact ⟨w, a, ha, of_decide_eq_true hp, (auction_record hr).1 7 a ha⟩

end AiNet.Bidding
