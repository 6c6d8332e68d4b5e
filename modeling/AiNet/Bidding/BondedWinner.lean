import AiNet.Bidding.Bonds

/-!
# What not revealing costs

A bidder who does not reveal should lose the bond to the creator; otherwise a sealed
bid is a free option. The award does its part, but two entry points let bidders take
bonds out on their own, and neither looks at `revealed`, nor at `forfeited`. So the
guarantee holds of an auction exactly as long as those two are not used by a bidder
who never opens the bid. `Lot.Fair` says so of each action, in the state it is taken
in: nobody is selected while an unrevealed bid has its bond back, and after the
selection only revealed bids are refunded.
-/

namespace AiNet.Bidding

open Core Option Sample System

section

variable {Addr Sym τ : Type}

/-- An action that gives no unrevealed bid of an auction with a winner its bond back. -/
def Lot.Fair (L : Lot Addr Sym) : Action Addr → Prop
  | .select => ∀ b ∈ L.bidders, ∀ bid ∈ L.bids b, bid.revealed = false → bid.refunded = false
  | .claimRefund b => ∀ a ∈ L.auction, a.phase = .reveal ∨ a.phase = .awarded →
      ∀ bid ∈ L.bids b, bid.revealed = true
  | .claimBidRefund b => ∀ bid ∈ L.bids b, bid.revealed = true
  | _ => True

instance (L : Lot Addr Sym) (act : Action Addr) : Decidable (L.Fair act) :=
  match act with
  | .select => inferInstanceAs (Decidable (∀ b ∈ L.bidders, ∀ bid ∈ L.bids b, _ → _))
  | .claimRefund b => inferInstanceAs (Decidable (∀ a ∈ L.auction, _ → ∀ bid ∈ L.bids b, _))
  | .claimBidRefund b => inferInstanceAs (Decidable (∀ bid ∈ L.bids b, _))
  | .create | .submit _ | .reveal _ | .award | .abort | .releaseEscrow | .refundEscrow =>
    .isTrue trivial

/-- Once there is a winner, no unrevealed bid has its bond back. -/
def Lot.NoFreeExit (L : Lot Addr Sym) : Prop :=
  ∀ a, L.auction = some a → a.phase = .reveal ∨ a.phase = .awarded →
    ∀ b bid, L.bids b = some bid → bid.revealed = false → bid.refunded = false

theorem Lot.NoFreeExit.refund [DecidableEq Addr] {L : Lot Addr Sym} (h : L.NoFreeExit)
    {b : Addr} {bid : SealedBid Addr} (ps : List (Payment Addr Sym))
    (hrev : ∀ a, L.auction = some a → a.phase = .reveal ∨ a.phase = .awarded → bid.revealed = true) :
    Lot.NoFreeExit { L with
      bids := Function.update L.bids b (some { bid with refunded := true })
      payments := L.payments ++ ps } := by
  intro a ha hph x y hy hsld
  rcases find_update hy with ⟨-, rfl⟩ | hy
  · have hsld : bid.revealed = false := hsld
    rw [hrev a ha hph] at hsld
    cases hsld
  · exact h a ha hph x y hy hsld

theorem Lot.Change.noFreeExit [DecidableEq Addr] {self : Addr} {now : Nat} {t : Sym}
    {act : Action Addr} {L L' : Lot Addr Sym} {ps : List (Payment Addr Sym)}
    (h : Lot.Change self now t act L L' ps) (hi : L.Inv self t) (hfa : L.Fair act)
    (hn : L.NoFreeExit) : L'.NoFreeExit := by
  cases h with
  | create hno =>
    rw [hi.vacant hno]
    intro a _ _ b bid hb
    cases hb
  | submit ha hph hon hfl hno hfr hpd =>
    rename_i a new
    intro a' ha' hph'
    cases ha'
    obtain ⟨-, -, -, -, -, -, hp, -⟩ := antiSnipe_fields now { a with bidCount := a.bidCount + 1 }
    rw [hp, hph] at hph'
    simp at hph'
  | reveal ha hph hdd hon hb hrvl hmin hmax =>
    rename_i a b bid price terms
    intro a' ha' hph'
    cases ha'
    have hph' : a.phase = .reveal ∨ a.phase = .awarded := hph'
    rw [hph] at hph'
    simp at hph'
  | select ha hph hdd hrdy hmem hb hrvl =>
    rename_i a b bid score
    intro a' ha' _ x y hy hsld
    obtain ⟨z, hz, rfl⟩ := map_eq_some_iff.mp hy
    have hx : x ∈ L.bidders := ((hi.live ha).roster.mem x).mpr ⟨z, hz⟩
    exact hfa x hx z hz hsld
  | claimRefund ha hdd hwi hb =>
    exact hn.refund ps fun a' ha' hph => hfa a' ha' hph _ hb
  | claimBidRefund ha hph hwin hne hb =>
    exact hn.refund ps fun _ _ _ => hfa _ hb
  | award ha hph hfg hwin hb hset hpd =>
    rename_i a winner bid bids' qs rs
    have hros := (hi.live ha).roster
    intro a' ha' _ b y hy hsld
    obtain ⟨z, hz, rfl⟩ := hset.source (awardVerdict_face a.creator) hros.nodup
      (fun b z hz => (hros.mem b).mpr ⟨z, hz⟩) hy
    unfold Verdict.apply at hsld ⊢
    split at hsld
    · rename_i hdn
      rw [if_pos hdn]
      exact hn a ha (.inl hph) b z hz hsld
    · rename_i hon
      rw [if_neg hon]
      -- the loop forfeits an unrevealed bid and leaves its other mark alone
      have hz' : z.revealed = false := by
        rw [← hsld]
        exact SealedBid.revealed_of_face (awardVerdict_face a.creator b z).symm
      unfold awardVerdict
      rw [if_neg (by simp [hz'])]
      exact hn a ha (.inl hph) b z hz hz'
  | abort =>
    intro a' ha' hph'
    cases ha'
    simp at hph'
  | releaseEscrow | refundEscrow => exact fun a ha => hn a ha

/-! ## Runs -/

variable [DecidableEq Addr] [DecidableEq Sym]

/--
What an awarded auction has done with its bonds. An unrevealed bid is forfeited: its bond left
custody once, to the creator. A revealed bid is refunded: its bond left custody once, to the
bidder. No bid carries both marks.
-/
def NonRevealCosts (env : Env Addr Sym τ) (t : Sym) (w : World Addr Sym τ) : Prop :=
  ∀ a, w.auctions.get t = some a → a.phase = .awarded → ∀ b bid, w.bids.get (t, b) = some bid →
    (bid.revealed = false → bid.forfeited = true ∧ bid.refunded = false ∧
      exits env.self t b w.journal = [(a.creator, bid.bond)]) ∧
    (bid.revealed = true → bid.forfeited = false ∧ bid.refunded = true ∧
      exits env.self t b w.journal = [(b, bid.bond)])

theorem noFreeExit_reachable {env : Env Addr Sym τ} {t : Sym} {w : World Addr Sym τ}
    (h : (system env).Reachable (OnActions t fun _ L act => L.Fair act) w) :
    (w.lot t).NoFreeExit := by
  have hemp : Lot.NoFreeExit (Lot.empty : Lot Addr Sym) := by
    intro a ha
    cases ha
  exact lot_invariant (fun _ _ hg => hg) (fun _ => hemp) (fun _ _ _ _ _ _ _ hn => hn)
    (fun _ _ _ _ _ hc hi hfa hn => hc.noFreeExit hi hfa hn) h

/--
**Non-reveal is not free**, in every run in which each action on the auction is fair: in every
state from the award on, each bond has gone where the reveal says it goes.
-/
theorem non_reveal_costs {env : Env Addr Sym τ} {t : Sym} {w : World Addr Sym τ}
    (h : (system env).Reachable (OnActions t fun _ L act => L.Fair act) w) :
    NonRevealCosts env t w := by
  have hfr := noFreeExit_reachable h
  intro a ha hph b bid hb
  have hmks := marks_reachable h t a ha
  have hstl : bid.Settled := hmks.closed (.inl hph) b bid hb
  have hexi := honest_reachable h t a ha b
  have hlot : (w.lot t).bids b = some bid := hb
  rw [exits_lot, hlot] at hexi
  refine ⟨?_, ?_⟩
  · intro hsld
    have hunr := hfr a ha (.inr hph) b bid hb hsld
    have hfo : bid.forfeited = true :=
      hstl.resolve_left (fun hr => absurd hr (by simp [hunr]))
    refine ⟨hfo, hunr, ?_⟩
    rw [hexi]
    simp [SealedBid.exits, hunr, hfo]
  · intro hrev
    have hun : bid.forfeited = false := by
      rw [← Bool.not_eq_true]
      intro hf
      have hsld := (hmks.forfeited b bid hb hf).2
      rw [hrev] at hsld
      cases hsld
    have href : bid.refunded = true :=
      hstl.resolve_right (fun hf => absurd hf (by simp [hun]))
    refine ⟨hun, href, ?_⟩
    rw [hexi]
    simp [SealedBid.exits, hun, href]

/-- Bidder `4` never reveals and calls nothing; bidder `3` wins and the task is awarded. -/
theorem non_reveal_costs_forfeit : ∃ (w : World Nat Nat (Token.Ledger Nat)) (bid : SealedBid Nat),
    w.bids.get (7, 4) = some bid ∧ bid.revealed = false ∧ NonRevealCosts (Sample.env 7) 7 w := by
  have hpl : ((system (Sample.env 7)).play (OnActions 7 fun _ L act => L.Fair act)
      (opened 7 10 100 5 ++
        [ Sample.bid 3 20 5, Sample.bid 4 30 5, .close 1400, Sample.reveal 3 20, .close 1420,
          Sample.signed 5 (.revealBids 5 7), Sample.signed 2 (.awardContract 2 7) ])
      (World.init 1000 wallets)).any
        (fun w => (w.bids.get (7, 4)).any fun bid => bid.revealed = false) = true := by
    decide +kernel
  obtain ⟨w, hr, hw⟩ := exists_reachable_of_play (start_init _ _ _) hpl
  obtain ⟨bid, hb, hsld⟩ := (Option.any_eq_true _ _).mp hw
  exact ⟨w, bid, hb, of_decide_eq_true hsld, non_reveal_costs hr⟩

/--
The free exit: bidder `4` does not reveal, takes its bond back with `claim_refund` inside the
reveal window, and the award then finds the bid refunded.
-/
theorem free_exit : ∃ w : World Nat Nat (Token.Ledger Nat),
    (system (Sample.env 7)).Reachable ClockMonotone w ∧ ¬ NonRevealCosts (Sample.env 7) 7 w := by
  have hpl : ((system (Sample.env 7)).play ClockMonotone
      (opened 7 10 100 5 ++
        [ Sample.bid 3 20 5, Sample.bid 4 30 5, .close 1400, Sample.reveal 3 20,
          Sample.signed 4 (.claimRefund 7 4), .close 1420,
          Sample.signed 5 (.revealBids 5 7), Sample.signed 2 (.awardContract 2 7) ])
      (World.init 1000 wallets)).any (fun w =>
        ((w.auctions.get 7).any fun a => a.phase = .awarded) &&
        (w.bids.get (7, 4)).any fun bid => bid.revealed = false ∧ bid.refunded = true) = true := by
    decide +kernel
  obtain ⟨w, hr, hw⟩ := exists_reachable_of_play (start_init _ _ _) hpl
  rw [Bool.and_eq_true] at hw
  obtain ⟨a, ha, hph⟩ := (Option.any_eq_true _ _).mp hw.1
  obtain ⟨bid, hb, hbid⟩ := (Option.any_eq_true _ _).mp hw.2
  obtain ⟨hsld, href⟩ := of_decide_eq_true hbid
  refine ⟨w, hr, ?_⟩
  intro hcos
  have hunr := ((hcos a ha (of_decide_eq_true hph) 4 bid hb).1 hsld).2.1
  rw [href] at hunr
  cases hunr

end

/-!
## The winner's bond

While a winner waits for the award, the contract should hold the winner's bond. The
entry point that can break this is `claim_refund`: it opens at the bidding deadline,
asks neither for the phase nor for the winner, and so overlaps the whole reveal
window. `Lot.BondKept` excludes exactly its dangerous uses: on a bid that can still be
revealed, on a bid that can still be selected, and on the winner's bid.

The proof carries one more fact than the claim: a refunded bid of an auction still in
`bidding` is unrevealed and past the reveal deadline, hence out of the race for good.
-/

variable {Addr Sym τ : Type}

/-- A `claim_refund` that takes no bond out of a race that is still on. -/
def Lot.BondKept [DecidableEq Addr] (now : Nat) (L : Lot Addr Sym) : Action Addr → Prop
  | .claimRefund b => ∀ a ∈ L.auction,
      (a.phase = .bidding → a.revealDeadline ≤ now ∧ ∀ bid ∈ L.bids b, bid.revealed = false) ∧
      (a.phase = .reveal → L.winner ≠ some b)
  | _ => True

instance [DecidableEq Addr] (now : Nat) (L : Lot Addr Sym) (act : Action Addr) :
    Decidable (L.BondKept now act) :=
  match act with
  | .claimRefund b =>
    inferInstanceAs (Decidable (∀ a ∈ L.auction, (_ → _ ∧ ∀ bid ∈ L.bids b, _) ∧ (_ → _)))
  | .create | .submit _ | .reveal _ | .select | .claimBidRefund _ | .award | .abort
  | .releaseEscrow | .refundEscrow => .isTrue trivial

/-- Refunded bids are out of the race, and the winner's bid is not refunded. -/
structure Racing (now : Nat) (a : Auction Addr Sym)
    (bids : Addr → Option (SealedBid Addr)) (winner : Option Addr) : Prop where
  out : a.phase = .bidding → ∀ b bid, bids b = some bid → bid.refunded = true →
    bid.revealed = false ∧ a.deadline ≤ now ∧ a.revealDeadline ≤ now
  held : a.phase = .reveal → ∀ v bid, winner = some v → bids v = some bid → bid.refunded = false

def Lot.Racing (now : Nat) (L : Lot Addr Sym) : Prop :=
  ∀ a, L.auction = some a → Bidding.Racing now a L.bids L.winner

theorem Lot.Racing.mono {now now' : Nat} {L : Lot Addr Sym} (h : L.Racing now)
    (hle : now ≤ now') : L.Racing now' := by
  intro a ha
  refine ⟨?_, (h a ha).held⟩
  intro hph b bid hb href
  obtain ⟨hsld, hdd, hre⟩ := (h a ha).out hph b bid hb href
  exact ⟨hsld, Nat.le_trans hdd hle, Nat.le_trans hre hle⟩

variable [DecidableEq Addr]

variable {self : Addr} {now : Nat} {t : Sym} {L L' : Lot Addr Sym} {ps : List (Payment Addr Sym)}

theorem Lot.Change.racing {act : Action Addr} (h : Lot.Change self now t act L L' ps) (hi : L.Inv self t)
    (hkpt : L.BondKept now act) (hr : L.Racing now) : L'.Racing now := by
  cases h with
  | create hno =>
    rw [hi.vacant hno]
    intro a _
    refine ⟨?_, ?_⟩
    · intro _ b bid hb
      cases hb
    · intro _ v bid hv
      cases hv
  | submit ha hph hon hfl hno hfr hpd =>
    rename_i a new
    intro a' ha'
    cases ha'
    obtain ⟨-, -, -, -, -, -, hp, -⟩ := antiSnipe_fields now { a with bidCount := a.bidCount + 1 }
    refine ⟨?_, ?_⟩
    · intro _ x y hy href
      rcases find_update hy with ⟨-, rfl⟩ | hy
      · rw [hfr.refunded] at href
        cases href
      · -- a bid was refunded at or after the deadline, so none is submitted any more
        have hdd := ((hr a ha).out hph x y hy href).2.1
        omega
    · intro hph'
      rw [hp, hph] at hph'
      cases hph'
  | reveal ha hph hdd hon hb hrvl hmin hmax =>
    rename_i a b bid price terms
    intro a' ha'
    cases ha'
    refine ⟨?_, ?_⟩
    · intro _ x y hy href
      rcases find_update hy with ⟨-, rfl⟩ | hy
      · -- a refunded bid has missed the reveal deadline, which is still to come
        have href : bid.refunded = true := href
        have hov := ((hr a ha).out hph b bid hb href).2.2
        omega
      · exact (hr a ha).out hph x y hy href
    · intro hph'
      have hph' : a.phase = .reveal := hph'
      rw [hph] at hph'
      cases hph'
  | select ha hph hdd hrdy hmem hb hrvl =>
    rename_i a b bid score
    intro a' ha'
    cases ha'
    refine ⟨fun hph' => (nomatch hph'), ?_⟩
    intro _ v y hv hy
    injection hv with hv
    have hwho : bid.bidder = b := ((hi.live ha).roster.well b bid hb).bidder
    obtain ⟨z, hz, rfl⟩ := map_eq_some_iff.mp hy
    rw [← hv, hwho, hb] at hz
    injection hz with hz
    subst hz
    -- the winner has revealed, so it was not refunded before
    show bid.refunded = false
    rw [← Bool.not_eq_true]
    intro href
    have hsld := ((hr a ha).out hph b bid hb href).1
    rw [hrvl] at hsld
    cases hsld
  | claimRefund ha hdd hwi hb hunr hpd =>
    rename_i a b bid
    obtain ⟨hbi, hwn⟩ := hkpt a ha
    intro a' ha'
    have ha' : L.auction = some a' := ha'
    rw [ha] at ha'
    injection ha' with ha'
    subst ha'
    refine ⟨?_, ?_⟩
    · intro hph x y hy href
      rcases find_update hy with ⟨-, rfl⟩ | hy
      · -- the condition on the claim: it comes late, for a bid that was never revealed
        obtain ⟨hov, hsld⟩ := hbi hph
        exact ⟨hsld bid hb, hdd, hov⟩
      · exact (hr a ha).out hph x y hy href
    · intro hph v y hv hy
      rcases find_update hy with ⟨rfl, -⟩ | hy
      · exact absurd hv (hwn hph)
      · exact (hr a ha).held hph v y hv hy
  | claimBidRefund ha hph hwin hne hb hunr hpd =>
    rename_i a b winner bid
    intro a' ha'
    have ha' : L.auction = some a' := ha'
    rw [ha] at ha'
    injection ha' with ha'
    subst ha'
    refine ⟨?_, ?_⟩
    · intro hph'
      rw [hph] at hph'
      cases hph'
    · intro _ v y hv hy
      rcases find_update hy with ⟨rfl, -⟩ | hy
      · have hv : L.winner = some v := hv
        rw [hwin] at hv
        injection hv with hv
        exact absurd hv hne
      · exact (hr a ha).held hph v y hv hy
  | award | abort =>
    intro a' ha'
    cases ha'
    exact ⟨fun hph' => (nomatch hph'), fun hph' => (nomatch hph')⟩
  | releaseEscrow | refundEscrow => exact fun a ha => hr a ha

theorem Lot.Change.reveal_unrefunded {b : Addr} (h : Lot.Change self now t (.reveal b) L L' ps)
    (hr : L.Racing now) {bid : SealedBid Addr} (hb : L.bids b = some bid) : bid.refunded = false := by
  cases h with
  | reveal ha hph =>
    rw [← Bool.not_eq_true]
    intro href
    have hov := ((hr _ ha).out hph b bid hb href).2.2
    omega

theorem Lot.Change.select_unrefunded (h : Lot.Change self now t .select L L' ps) (hi : L.Inv self t)
    (hr : L.Racing now) {b : Addr} {bid : SealedBid Addr} (hwin : L'.winner = some b)
    (hb : L.bids b = some bid) :
    bid.refunded = false := by
  cases h with
  | select ha hph hdd hrdy hmem hb' hrvl =>
    rename_i a b' bid' score
    injection hwin with hwin
    have hwho : bid'.bidder = b' := ((hi.live ha).roster.well b' bid' hb').bidder
    rw [← hwin, hwho, hb'] at hb
    injection hb with hb
    subst hb
    rw [← Bool.not_eq_true]
    intro href
    have hsld := ((hr a ha).out hph b' bid' hb' href).1
    rw [hrvl] at hsld
    cases hsld

/-! ## Runs -/

variable [DecidableEq Sym]

/--
The winner of an auction awaiting its award has revealed a price in range, and the contract holds
the winner's bond; and no bid whose bond was paid back can be revealed or selected.
-/
structure WinnerBonded (env : Env Addr Sym τ) (t : Sym) (w : World Addr Sym τ) :
    Prop where
  winner : ∀ a, w.auctions.get t = some a → a.phase = .reveal → ∀ v, w.winners.get t = some v →
    ∃ bid, w.bids.get (t, v) = some bid ∧ bid.revealed = true ∧
      a.config.reservePrice ≤ bid.priceStroops ∧ bid.priceStroops ≤ a.config.maxPrice ∧
      bid.refunded = false ∧ bid.forfeited = false ∧ exits env.self t v w.journal = []
  refunded : ∀ b bid, w.bids.get (t, b) = some bid → bid.refunded = true →
    (∀ call price terms salt w', revealBid env call t b price terms salt w ≠ .ok w') ∧
    (∀ call caller w', revealBids env call caller t w = .ok w' → w'.winners.get t ≠ some b)

/-- The runs in which the clock runs forward and no bond leaves the race on task `t`. -/
def RaceRun (t : Sym) (w : World Addr Sym τ) (e : Event Addr Sym τ) : Prop :=
  ClockMonotone w e ∧ OnActions t (fun now L act => L.BondKept now act) w e

instance (t : Sym) (w : World Addr Sym τ) (e : Event Addr Sym τ) :
    Decidable (RaceRun t w e) := inferInstanceAs (Decidable (_ ∧ _))

theorem racing_reachable {env : Env Addr Sym τ} {w : World Addr Sym τ}
    (h : (system env).Reachable (RaceRun t) w) : (w.lot t).Racing w.now := by
  have hkpt : ∀ (w : World Addr Sym τ) e, RaceRun t w e →
      OnActions t (fun now L act => L.BondKept now act) w e := fun _ _ hg => hg.2
  refine lot_invariant hkpt ?_ ?_ ?_ h
  · intro now a ha
    cases ha
  · intro w e w' hi hg hs L hr
    exact hr.mono (now_le_of_step hi.wellKeyed hg.1 hs)
  · intro now act L L' ps hc hi hk hr
    exact hc.racing hi hk hr

/-- **The winner is bonded** in every state of a run that takes no bond out of the race. -/
theorem winner_bonded {env : Env Addr Sym τ} {t : Sym} {w : World Addr Sym τ}
    (h : (system env).Reachable (RaceRun t) w) : WinnerBonded env t w := by
  have hi := inv_reachable h
  have hra := racing_reachable h
  refine ⟨?_, ?_⟩
  · intro a ha hph v hv
    have hl := (hi t).live ha
    obtain ⟨bid, hb, hrev⟩ := hl.staged.revealed v hv
    obtain ⟨hmin, hmax⟩ := (hl.roster.well v bid hb).price hrev
    have hunr := (hra a ha).held hph v bid hv hb
    have hun := (marks_reachable h t).unforfeited ha (by simp [hph]) hb
    have hexi := honest_reachable h t a ha v
    rw [exits_lot, hb, elim_some, SealedBid.exits_of_unsettled hunr hun] at hexi
    exact ⟨bid, hb, hrev, hmin, hmax, hunr, hun, hexi⟩
  · intro b bid hb href
    refine ⟨?_, ?_⟩
    · intro call price terms salt w' hok
      obtain ⟨ps, hatd⟩ := revealBid_acts hi.wellKeyed hok
      have hunr := hatd.change.reveal_unrefunded hra hb
      rw [href] at hunr
      cases hunr
    · intro call caller w' hok hwin
      obtain ⟨ps, hatd⟩ := revealBids_acts hi.wellKeyed hok
      have hunr := hatd.change.select_unrefunded (hi t) hra hwin hb
      rw [href] at hunr
      cases hunr

/-- Bidder `3` wins; the loser claims its bond back while the winner waits. -/
theorem winner_bonded_waiting : ∃ (w : World Nat Nat (Token.Ledger Nat)) (a : Auction Nat Nat),
    w.auctions.get 7 = some a ∧ a.phase = .reveal ∧ WinnerBonded (Sample.env 7) 7 w := by
  have hpl : ((system (Sample.env 7)).play (RaceRun 7)
      (Sample.selected 7 ++ [Sample.signed 4 (.claimRefund 7 4)])
      (World.init 1000 Sample.wallets)).any
        (fun w => (w.auctions.get 7).any fun a => a.phase = .reveal) = true := by
    decide +kernel
  obtain ⟨w, hr, hw⟩ := exists_reachable_of_play (start_init _ _ _) hpl
  obtain ⟨a, ha, hph⟩ := (Option.any_eq_true _ _).mp hw
  exact ⟨w, a, ha, of_decide_eq_true hph, winner_bonded hr⟩

/-- The unbonded winner: bidder `3` reveals, takes its bond back, and is selected all the same. -/
theorem unbonded_winner : ∃ w : World Nat Nat (Token.Ledger Nat),
    (system (Sample.env 7)).Reachable ClockMonotone w ∧ ¬ WinnerBonded (Sample.env 7) 7 w := by
  have hpl : ((system (Sample.env 7)).play ClockMonotone
      (Sample.opened 7 10 100 5 ++
        [ Sample.bid 3 20 5, .close 1400, Sample.reveal 3 20,
          Sample.signed 3 (.claimRefund 7 3), Sample.signed 5 (.revealBids 5 7) ])
      (World.init 1000 Sample.wallets)).any (fun w =>
        ((w.auctions.get 7).any fun a => a.phase = .reveal) && w.winners.get 7 == some 3 &&
        (w.bids.get (7, 3)).any fun bid => bid.refunded = true) = true := by
    decide +kernel
  obtain ⟨w, hr, hw⟩ := exists_reachable_of_play (start_init _ _ _) hpl
  rw [Bool.and_eq_true, Bool.and_eq_true] at hw
  obtain ⟨⟨hauc, hwin⟩, hbid⟩ := hw
  obtain ⟨a, ha, hph⟩ := (Option.any_eq_true _ _).mp hauc
  obtain ⟨bid, hb, href⟩ := (Option.any_eq_true _ _).mp hbid
  refine ⟨w, hr, ?_⟩
  intro hbo
  obtain ⟨bid', hb', -, -, -, hunr, -⟩ :=
    hbo.winner a ha (of_decide_eq_true hph) 3 (eq_of_beq hwin)
  rw [hb] at hb'
  injection hb' with hb'
  rw [← hb', of_decide_eq_true href] at hunr
  cases hunr

end AiNet.Bidding
