import AiNet.Bidding.Contract
import Mathlib.Algebra.Order.Ring.Int
import Mathlib.Tactic.Linarith
import Mathlib.Tactic.Ring

/-!
# What a transfer does

Every movement of money goes through `moveFunds`, which converts stroops to units of
the configured asset and either invokes the token or, for zero units, nothing. The
conversion is exact when it succeeds: `units * 10^7 = stroops * 10^decimals`. That
equation is the only thing the accounting above this module knows about decimals.
-/

namespace AiNet.Bidding

open Core List Option Function

section

variable {Addr Sym τ : Type}

/-! ## The conversion -/

/-- **A successful conversion is exact.** -/
theorem stroopsToUnits_exact {amount units : Int} {decimals : Nat}
    (h : stroopsToUnits amount decimals = .ok units) :
    0 ≤ amount ∧ units * 10 ^ stroopDecimals = amount * 10 ^ decimals := by
  unfold stroopsToUnits at h
  split at h
  · cases h
  · rename_i hneg
    refine ⟨Int.not_lt.mp hneg, ?_⟩
    split at h
    · rename_i hd
      rw [okOr_eq_ok, bind_eq_some_iff] at h
      obtain ⟨f, hf, hu⟩ := h
      rw [← (checked128_eq_some.mp hu).2, ← (checked128_eq_some.mp hf).2, mul_assoc, ← pow_add,
        Nat.sub_add_cancel hd]
    · rename_i hd
      dsimp only at h
      split at h
      · cases h
      · rename_i hmod
        injection h with h
        have hdiv : amount = amount / 10 ^ (stroopDecimals - decimals)
            * 10 ^ (stroopDecimals - decimals) :=
          (Int.ediv_mul_cancel (Int.dvd_of_emod_eq_zero (not_not.mp hmod))).symm
        have hpow : (10 : Int) ^ stroopDecimals
            = 10 ^ (stroopDecimals - decimals) * 10 ^ decimals := by
          rw [← pow_add, Nat.sub_add_cancel (Nat.le_of_not_le hd)]
        rw [← h, hpow, ← mul_assoc, ← hdiv]

theorem stroopsToUnits_pos {amount units : Int} {decimals : Nat}
    (h : stroopsToUnits amount decimals = .ok units) : 0 < units ↔ 0 < amount := by
  obtain ⟨_, he⟩ := stroopsToUnits_exact h
  have h1 : (0 : Int) < 10 ^ stroopDecimals := by positivity
  have h2 : (0 : Int) < 10 ^ decimals := by positivity
  constructor
  · intro hu
    have : 0 < amount * 10 ^ decimals := he ▸ mul_pos hu h1
    exact (mul_pos_iff_of_pos_right h2).mp this
  · intro ha
    have : 0 < units * 10 ^ stroopDecimals := he.symm ▸ mul_pos ha h2
    exact (mul_pos_iff_of_pos_right h1).mp this

/-! ## Payments -/

/-- `ps` is the record of moving `amount` from `src` to `dst`: nothing for nothing, else one entry. -/
def Paid (ps : List (Payment Addr Sym)) (why : Purpose Addr Sym) (src dst : Addr)
    (amount : Int) : Prop :=
  (amount = 0 ∧ ps = []) ∨ (0 < amount ∧ ∃ asset units, ps = [⟨why, asset, src, dst, amount, units⟩])

/-- A payment in the asset the world is configured with, converted exactly. -/
structure Quoted (env : Env Addr Sym τ) (w : World Addr Sym τ)
    (p : Payment Addr Sym) : Prop where
  asset : w.paymentAsset = some p.asset
  decimals : w.assetDecimals = some (env.token.decimals p.asset)
  exact : p.units * 10 ^ stroopDecimals = p.stroops * 10 ^ env.token.decimals p.asset

/-- The token ledger after performing payments in order. -/
inductive Transfers (T : Token Addr τ) : τ → List (Payment Addr Sym) → τ → Prop where
  | nil (t : τ) : Transfers T t [] t
  | cons {t t' t'' : τ} {p : Payment Addr Sym} {ps : List (Payment Addr Sym)} :
      T.transfer t p.asset p.src p.dst p.units = some t' → Transfers T t' ps t'' →
      Transfers T t (p :: ps) t''

theorem Transfers.append {T : Token Addr τ} {t t' t'' : τ}
    {ps qs : List (Payment Addr Sym)} (h : Transfers T t ps t') (h' : Transfers T t' qs t'') :
    Transfers T t (ps ++ qs) t'' := by
  induction h with
  | nil => exact h'
  | cons hp _ ih => exact .cons hp (ih h')

/-- The part of the world a call that moves money for `ps` may have changed, besides records. -/
structure Booked (env : Env Addr Sym τ) (w w' : World Addr Sym τ)
    (ps : List (Payment Addr Sym)) : Prop where
  now : w'.now = w.now
  asset : w'.paymentAsset = w.paymentAsset
  decimals : w'.assetDecimals = w.assetDecimals
  journal : w'.journal = w.journal ++ ps
  transfers : Transfers env.token w.tokens ps w'.tokens
  quoted : ∀ p ∈ ps, Quoted env w p

variable {env : Env Addr Sym τ}

theorem Booked.silent {w w' : World Addr Sym τ} (hnow : w'.now = w.now)
    (hast : w'.paymentAsset = w.paymentAsset) (hdec : w'.assetDecimals = w.assetDecimals)
    (hj : w'.journal = w.journal) (ht : w'.tokens = w.tokens) : Booked env w w' [] where
  now := hnow
  asset := hast
  decimals := hdec
  journal := hj.trans (append_nil _).symm
  transfers := ht ▸ .nil _
  quoted := by intro p hp; cases hp

theorem Booked.refl (w : World Addr Sym τ) :
    Booked env w w [] := .silent rfl rfl rfl rfl rfl

theorem Booked.trans {w w' w'' : World Addr Sym τ} {ps qs : List (Payment Addr Sym)}
    (h : Booked env w w' ps) (h' : Booked env w' w'' qs) :
    Booked env w w'' (ps ++ qs) where
  now := h'.now.trans h.now
  asset := h'.asset.trans h.asset
  decimals := h'.decimals.trans h.decimals
  journal := by rw [h'.journal, h.journal, append_assoc]
  transfers := h.transfers.append h'.transfers
  quoted := by
    intro p hp
    rcases mem_append.mp hp with hp | hp
    · exact h.quoted p hp
    · have hq := h'.quoted p hp
      exact ⟨h.asset ▸ hq.asset, h.decimals ▸ hq.decimals, hq.exact⟩

theorem Booked.after {w w₁ w' : World Addr Sym τ}
    {ps : List (Payment Addr Sym)} (h : Booked env w₁ w' ps) (hnow : w₁.now = w.now)
    (hast : w₁.paymentAsset = w.paymentAsset) (hdec : w₁.assetDecimals = w.assetDecimals)
    (hj : w₁.journal = w.journal) (ht : w₁.tokens = w.tokens) : Booked env w w' ps :=
  (Booked.silent hnow hast hdec hj ht).trans h

theorem Booked.before {w w₁ w' : World Addr Sym τ}
    {ps : List (Payment Addr Sym)} (h : Booked env w w₁ ps) (hnow : w'.now = w₁.now)
    (hast : w'.paymentAsset = w₁.paymentAsset) (hdec : w'.assetDecimals = w₁.assetDecimals)
    (hj : w'.journal = w₁.journal) (ht : w'.tokens = w₁.tokens) : Booked env w w' ps :=
  append_nil ps ▸ h.trans (.silent hnow hast hdec hj ht)

/-- The records a world keeps per task, without clock, configuration and money. -/
def World.SameRecords (w w' : World Addr Sym τ) : Prop :=
  w'.auctions = w.auctions ∧ w'.bids = w.bids ∧ w'.bidders = w.bidders ∧
    w'.winners = w.winners ∧ w'.escrows = w.escrows

/-- **What `moveFunds` does**: a payment, and nothing to the records. -/
theorem moveFunds_ok {w w' : World Addr Sym τ} {why : Purpose Addr Sym} {src dst : Addr}
    {amount : Int} (h : moveFunds env w why src dst amount = .ok w') :
    ∃ ps, Paid ps why src dst amount ∧ Booked env w w' ps ∧ w.SameRecords w' := by
  simp only [moveFunds, paymentToken, bind_eq_ok, failIf_eq_ok, okOr_eq_ok, pure_eq_ok,
    exists_and_left, exists_const, ne_eq, not_not] at h
  obtain ⟨⟨asset, decimals⟩, ⟨a, ha, d, hd, hdec, heq⟩, units, hu, h⟩ := h
  obtain ⟨rfl, rfl⟩ := Prod.mk.inj heq
  have hpos := stroopsToUnits_pos hu
  obtain ⟨hnn, hex⟩ := stroopsToUnits_exact hu
  split at h
  · rename_i hlt
    simp only [bind_eq_ok, orTrap_eq_ok, pure_eq_ok] at h
    obtain ⟨tokens, ht, rfl⟩ := h
    refine ⟨_, .inr ⟨hpos.mp hlt, a, units, rfl⟩, ?_, rfl, rfl, rfl, rfl, rfl⟩
    refine ⟨rfl, rfl, rfl, rfl, .cons ht (.nil _), ?_⟩
    intro p hp
    rw [mem_singleton.mp hp]
    exact ⟨ha, by rw [hd, hdec], by rw [hdec]; exact hex⟩
  · rename_i hlt
    rw [pure_eq_ok] at h
    subst h
    have hz : amount = 0 := by
      have := fun hp => hlt (hpos.mpr hp)
      omega
    exact ⟨[], .inl ⟨hz, rfl⟩, .refl w, rfl, rfl, rfl, rfl, rfl⟩

end

/-!
## One auction on its own

The contract runs any number of auctions over one balance, but no function ever
touches two of them. A `Lot` is everything stored for one task, together with the
payments made on its account, and `Lot.Change` is the life of one auction as a
transition relation over it: what each action requires, what it leaves behind and
what it pays. `AiNet.Bidding.Refine` proves that every call of the contract is such
a change of one lot and leaves the other lots alone, so that every property of one
auction can be proved here, where there is only one.

The bonds settled in a loop are a relation of their own, `Settled`, which follows the
bidders list the way the loop does.
-/

variable {Addr Sym τ : Type}

/-- Everything the contract stores and pays for one task. -/
structure Lot (Addr Sym : Type) where
  auction : Option (Auction Addr Sym)
  bids : Addr → Option (SealedBid Addr)
  bidders : List Addr
  winner : Option Addr
  escrow : Option (Escrow Addr Sym)
  payments : List (Payment Addr Sym)

def World.lot [DecidableEq Addr] [DecidableEq Sym] (w : World Addr Sym τ)
    (t : Sym) : Lot Addr Sym where
  auction := w.auctions.get t
  bids b := w.bids.get (t, b)
  bidders := (w.bidders.get t).getD []
  winner := w.winners.get t
  escrow := w.escrows.get t
  payments := w.journal.filter fun p => p.purpose.task = t

/-- The lot of a task nobody has created an auction for. -/
def Lot.empty : Lot Addr Sym where
  auction := none
  bids _ := none
  bidders := []
  winner := none
  escrow := none
  payments := []

/-! ## Actions -/

/-- What can be done to one auction. -/
inductive Action (Addr : Type) where
  | create
  | submit (bidder : Addr)
  | reveal (bidder : Addr)
  | select
  | claimRefund (bidder : Addr)
  | claimBidRefund (bidder : Addr)
  | award
  | abort
  | releaseEscrow
  | refundEscrow
  deriving DecidableEq

/-- The configurations `createAuction` accepts, after normalisation. -/
structure AuctionConfig.Normal (c : AuctionConfig) : Prop where
  bond : 0 < c.bond
  reserve : 0 < c.reservePrice
  reserve_le : c.reservePrice ≤ c.maxPrice
  max_le : c.maxPrice ≤ maxBidPrice
  duration : minPhaseDurationSecs ≤ c.durationSecs ∧ c.durationSecs ≤ maxPhaseDurationSecs
  revealDuration :
    minPhaseDurationSecs ≤ c.revealDurationSecs ∧ c.revealDurationSecs ≤ maxPhaseDurationSecs

/-- A freshly created auction. -/
structure Auction.Fresh (me : Addr) (now : Nat) (t : Sym) (a : Auction Addr Sym) :
    Prop where
  taskId : a.taskId = t
  creator : a.creator ≠ me
  config : a.config.Normal
  createdAt : a.createdAt = now
  deadline : a.deadline = satAdd64 now a.config.durationSecs
  revealDeadline : a.revealDeadline = satAdd64 a.deadline a.config.revealDurationSecs
  bidCount : a.bidCount = 0
  revealedCount : a.revealedCount = 0
  phase : a.phase = .bidding
  escrowCreated : a.escrowCreated = false

/-- A freshly submitted bid. -/
structure SealedBid.Fresh (me : Addr) (a : Auction Addr Sym)
    (bid : SealedBid Addr) : Prop where
  bidder : bid.bidder ≠ me
  bond : bid.bond = a.config.bond
  reputation : bid.reputation ≤ maxReputation
  revealed : bid.revealed = false
  refunded : bid.refunded = false
  forfeited : bid.forfeited = false

/-! ## Settling bonds in a loop -/

/-- What a loop does with one unsettled bid: the bid it stores and whom it pays. -/
abbrev Verdict (Addr : Type) := Addr → SealedBid Addr → SealedBid Addr × Addr

/-- The verdict of `awardContract`. -/
def awardVerdict (creator : Addr) : Verdict Addr := fun b bid =>
  if bid.revealed = true then ({ bid with refunded := true }, b)
  else ({ bid with forfeited := true }, creator)

/-- The verdict of `abortAuction`. -/
def abortVerdict : Verdict Addr := fun _ bid => ({ bid with refunded := true }, bid.bidder)

/-- Running a verdict over a list of bidders: bids before, bids after, payments made. -/
inductive Settled [DecidableEq Addr] (self : Addr) (t : Sym) (verdict : Verdict Addr) :
    List Addr → (Addr → Option (SealedBid Addr)) →
    (Addr → Option (SealedBid Addr)) → List (Payment Addr Sym) → Prop where
  | nil {bids : Addr → Option (SealedBid Addr)} : Settled self t verdict [] bids bids []
  | skip {b : Addr} {l : List Addr} {bids bids' : Addr → Option (SealedBid Addr)}
      {ps : List (Payment Addr Sym)} :
      (∀ bid, bids b = some bid → bid.refunded = true ∨ bid.forfeited = true) →
      Settled self t verdict l bids bids' ps → Settled self t verdict (b :: l) bids bids' ps
  | pay {b : Addr} {l : List Addr} {bids bids' : Addr → Option (SealedBid Addr)}
      {bid : SealedBid Addr} {p ps : List (Payment Addr Sym)} :
      bids b = some bid → bid.refunded = false → bid.forfeited = false →
      Paid p (.bond t b) self (verdict b bid).2 bid.bond →
      Settled self t verdict l (update bids b (some (verdict b bid).1)) bids' ps →
      Settled self t verdict (b :: l) bids bids' (p ++ ps)

/-! ## Changes -/

/--
The life of one auction. `Lot.Change self now t act L L' ps` says that `act`, performed at
`now`, may take the lot `L` of task `t` to `L'` while making the payments `ps`.
-/
inductive Lot.Change [DecidableEq Addr] (self : Addr) (now : Nat) (t : Sym) :
    Action Addr → Lot Addr Sym → Lot Addr Sym → List (Payment Addr Sym) →
    Prop where
  | create {L : Lot Addr Sym} {a : Auction Addr Sym}
      {ps : List (Payment Addr Sym)} :
      L.auction = none → a.Fresh self now t →
      Paid ps (.budget t) a.creator self a.config.maxPrice →
      Change self now t .create L
        { L with auction := some a, bidders := [], payments := L.payments ++ ps } ps
  | submit {L : Lot Addr Sym} {a : Auction Addr Sym} {bid : SealedBid Addr}
      {ps : List (Payment Addr Sym)} :
      L.auction = some a → a.phase = .bidding → now < a.deadline → a.bidCount < maxBidders →
      L.bids bid.bidder = none → bid.Fresh self a →
      Paid ps (.bond t bid.bidder) bid.bidder self bid.bond →
      Change self now t (.submit bid.bidder) L
        { L with
          auction := some (antiSnipe now { a with bidCount := a.bidCount + 1 })
          bids := update L.bids bid.bidder (some bid)
          bidders := L.bidders ++ [bid.bidder]
          payments := L.payments ++ ps } ps
  | reveal {L : Lot Addr Sym} {a : Auction Addr Sym} {b : Addr}
      {bid : SealedBid Addr} {price : Int} {terms : List UInt8} :
      L.auction = some a → a.phase = .bidding → a.deadline ≤ now → now < a.revealDeadline →
      L.bids b = some bid → bid.revealed = false →
      a.config.reservePrice ≤ price → price ≤ a.config.maxPrice →
      Change self now t (.reveal b) L
        { L with
          auction := some { a with revealedCount := a.revealedCount + 1 }
          bids := update L.bids b
            (some { bid with revealed := true, priceStroops := price, terms := terms }) } []
  | select {L : Lot Addr Sym} {a : Auction Addr Sym} {b : Addr}
      {bid : SealedBid Addr} {score : Addr → SealedBid Addr → Int} :
      L.auction = some a → a.phase = .bidding → a.deadline ≤ now →
      (a.revealDeadline ≤ now ∨ a.bidCount ≤ a.revealedCount) →
      b ∈ L.bidders → L.bids b = some bid → bid.revealed = true →
      Change self now t .select L
        { L with
          auction := some { a with phase := .reveal }
          bids := fun x => (L.bids x).map fun y => { y with score := score x y }
          winner := some bid.bidder } []
  | claimRefund {L : Lot Addr Sym} {a : Auction Addr Sym} {b : Addr}
      {bid : SealedBid Addr} {ps : List (Payment Addr Sym)} :
      L.auction = some a → a.deadline ≤ now → now < satAdd64 a.deadline claimWindowSecs →
      L.bids b = some bid → bid.refunded = false → Paid ps (.bond t b) self b bid.bond →
      Change self now t (.claimRefund b) L
        { L with
          bids := update L.bids b (some { bid with refunded := true })
          payments := L.payments ++ ps } ps
  | claimBidRefund {L : Lot Addr Sym} {a : Auction Addr Sym} {b winner : Addr}
      {bid : SealedBid Addr} {ps : List (Payment Addr Sym)} :
      L.auction = some a → a.phase = .reveal → L.winner = some winner → winner ≠ b →
      L.bids b = some bid → bid.refunded = false → Paid ps (.bond t b) self b bid.bond →
      Change self now t (.claimBidRefund b) L
        { L with
          bids := update L.bids b (some { bid with refunded := true })
          payments := L.payments ++ ps } ps
  | award {L : Lot Addr Sym} {a : Auction Addr Sym} {winner : Addr}
      {bid : SealedBid Addr} {bids' : Addr → Option (SealedBid Addr)}
      {ps qs : List (Payment Addr Sym)} :
      L.auction = some a → a.phase = .reveal → a.escrowCreated = false →
      L.winner = some winner → L.bids winner = some bid →
      Settled self t (awardVerdict a.creator) L.bidders L.bids bids' ps →
      Paid qs (.budget t) self a.creator (a.config.maxPrice - bid.priceStroops) →
      Change self now t .award L
        { L with
          auction := some { a with phase := .awarded, escrowCreated := true }
          bids := bids'
          escrow := some
            { taskId := t
              agent := winner
              amount := bid.priceStroops
              creator := a.creator
              released := false
              refunded := false }
          payments := L.payments ++ (ps ++ qs) } (ps ++ qs)
  | abort {L : Lot Addr Sym} {a : Auction Addr Sym}
      {bids' : Addr → Option (SealedBid Addr)} {ps qs : List (Payment Addr Sym)} :
      L.auction = some a → a.phase = .bidding → a.revealDeadline ≤ now → a.revealedCount = 0 →
      Settled self t abortVerdict L.bidders L.bids bids' ps →
      Paid qs (.budget t) self a.creator a.config.maxPrice →
      Change self now t .abort L
        { L with
          auction := some { a with phase := .cancelled }
          bids := bids'
          payments := L.payments ++ (ps ++ qs) } (ps ++ qs)
  | releaseEscrow {L : Lot Addr Sym} {e : Escrow Addr Sym}
      {ps : List (Payment Addr Sym)} :
      L.escrow = some e → e.released = false → e.refunded = false →
      Paid ps (.escrow t) self e.agent e.amount →
      Change self now t .releaseEscrow L
        { L with
          escrow := some { e with released := true }
          payments := L.payments ++ ps } ps
  | refundEscrow {L : Lot Addr Sym} {e : Escrow Addr Sym}
      {ps : List (Payment Addr Sym)} :
      L.escrow = some e → e.released = false → e.refunded = false →
      Paid ps (.escrow t) self e.creator e.amount →
      Change self now t .refundEscrow L
        { L with
          escrow := some { e with refunded := true }
          payments := L.payments ++ ps } ps

end AiNet.Bidding
