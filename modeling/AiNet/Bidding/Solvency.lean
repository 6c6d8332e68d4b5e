import AiNet.Bidding.AuctionRecord
import AiNet.Bidding.Custody

/-!
# Custody solvency

The contract holds the money of all auctions in one balance. Two ledgers are kept of
it here, and both are sums over the journal: in stroops, what the payments add up to
is what the contract owes, because every change of a lot books what it settles
(`Lot.Change.owed`); in units of the asset, what they add up to is the balance,
because the token is exact. Each journal entry was converted exactly, so the two sums
agree up to the decimals, and `custody_solvent` follows.

One thing breaks the first ledger: `claim_refund` on a forfeited bid.
-/

namespace AiNet.Bidding

open Core List Option Storage System

section

variable {Addr Sym τ : Type} [DecidableEq Addr] [DecidableEq Sym]

/-! ## What is owed on all auctions -/

/-- Over all `Auction`, `Bid` and `Escrow` entries: the budgets, bonds and amounts still held. -/
def World.owed (w : World Addr Sym τ) : Int :=
  (w.auctions.total fun _ a => a.budgetHeld) + (w.bids.total fun _ bid => bid.bondHeld)
    + w.escrows.total fun _ e => e.amountHeld

def World.owedElse (w : World Addr Sym τ) (t : Sym) : Int :=
  (w.auctions.total fun k a => if k = t then 0 else a.budgetHeld)
    + (w.bids.total fun k bid => if k.1 = t then 0 else bid.bondHeld)
    + w.escrows.total fun k e => if k = t then 0 else e.amountHeld

variable {me : Addr} {w : World Addr Sym τ}

theorem owed_eq (hi : w.Inv me) (t : Sym) :
    w.owed = (w.lot t).owed + w.owedElse t := by
  have hbi : (w.bids.total fun k bid => if k.1 = t then bid.bondHeld else 0)
      = sumBids (w.lot t).bidders (w.lot t).bids SealedBid.bondHeld := by
    cases ha : w.auctions.get t with
    | some => exact total_bids_eq ((hi t).live ha).roster _
    | none =>
      have hemp := (hi t).vacant ha
      rw [total_eq_sum _ nodup_nil, hemp]
      · rfl
      · intro k bid hb _
        refine if_neg ?_
        intro hk
        have hso : (w.lot t).bids k.2 = some bid := by
          rw [← hk]
          exact hb
        rw [hemp] at hso
        cases hso
  unfold World.owed World.owedElse Lot.owed
  rw [total_split w.auctions _ (· = t), total_split w.bids _ (fun k => k.1 = t),
    total_split w.escrows _ (· = t), total_key, total_key, hbi]
  show (w.lot t).auction.elim 0 Auction.budgetHeld + _ + _
    + ((w.lot t).escrow.elim 0 Escrow.amountHeld + _) = _
  omega

variable {w w' : World Addr Sym τ} {t : Sym}

theorem owedElse_congr (h : ∀ t', t' ≠ t → w'.lot t' = w.lot t') : w'.owedElse t = w.owedElse t := by
  have ha : (w'.auctions.total fun k a => if k = t then 0 else a.budgetHeld)
      = w.auctions.total fun k a => if k = t then 0 else a.budgetHeld := by
    refine total_agree ?_
    intro k
    by_cases hk : k = t
    · exact .inr fun _ => if_pos hk
    · exact .inl (congrArg Lot.auction (h k hk))
  have hb : (w'.bids.total fun k bid => if k.1 = t then 0 else bid.bondHeld)
      = w.bids.total fun k bid => if k.1 = t then 0 else bid.bondHeld := by
    refine total_agree ?_
    intro k
    by_cases hk : k.1 = t
    · exact .inr fun _ => if_pos hk
    · exact .inl (congrFun (congrArg Lot.bids (h k.1 hk)) k.2)
  have he : (w'.escrows.total fun k e => if k = t then 0 else e.amountHeld)
      = w.escrows.total fun k e => if k = t then 0 else e.amountHeld := by
    refine total_agree ?_
    intro k
    by_cases hk : k = t
    · exact .inr fun _ => if_pos hk
    · exact .inl (congrArg Lot.escrow (h k hk))
  unfold World.owedElse
  rw [ha, hb, he]

theorem owedElse_nonneg (hi : w.Inv me) (t : Sym) :
    0 ≤ w.owedElse t := by
  have ha : 0 ≤ w.auctions.total fun k a => if k = t then 0 else a.budgetHeld := by
    refine total_nonneg ?_
    intro k a hk
    have hhd := ((hi k).live hk).budgetHeld_nonneg
    split <;> omega
  have hb : 0 ≤ w.bids.total fun k bid => if k.1 = t then 0 else bid.bondHeld := by
    refine total_nonneg ?_
    intro k bid hk
    obtain ⟨a, hauc⟩ := (hi k.1).auction_of_bid hk
    have hhd := SealedBid.bondHeld_nonneg (((hi k.1).live hauc).bond_nonneg hk)
    split <;> omega
  have he : 0 ≤ w.escrows.total fun k e => if k = t then 0 else e.amountHeld := by
    refine total_nonneg ?_
    intro k e hk
    obtain ⟨a, hauc⟩ := (hi k).auction_of_escrow hk
    have hhd := ((hi k).live hauc).amountHeld_nonneg hk
    split <;> omega
  unfold World.owedElse
  omega

variable {env : Env Addr Sym τ} {ps : List (Payment Addr Sym)}

/-- **A call moves what is owed by what it moves into custody.** -/
theorem Acted.owed {act : Action Addr} (h : Acted env t act w w' ps) (hi : w.Inv env.self)
    (hi' : w'.Inv env.self) (hm : (w.lot t).Marks) (hs : (w.lot t).Solvent act) :
    w'.owed = w.owed + net env.self Payment.stroops ps ∧ ∀ p ∈ ps, p.Crosses env.self := by
  obtain ⟨how, hcrs⟩ := h.change.owed (hi t) hm hs
  refine ⟨?_, hcrs⟩
  rw [owed_eq hi t, owed_eq hi' t, owedElse_congr h.others, how]
  omega

/-! ## What the token says -/

def Payment.unitsOf (asset : Addr) (p : Payment Addr Sym) : Int :=
  if p.asset = asset then p.units else 0

section

omit [DecidableEq Sym]

theorem transfers_balance {T : Token Addr τ} (hT : T.Exact) {tokens tokens' : τ}
    (h : Transfers T tokens ps tokens') (hc : ∀ p ∈ ps, p.Crosses me) (asset : Addr) :
    T.balance tokens' asset me = T.balance tokens asset me + net me (Payment.unitsOf asset) ps := by
  induction h with
  | nil => exact (add_zero _).symm
  | @cons t t₁ t' p ps htrf _ ih =>
    have hrst := ih fun q hq => hc q (mem_cons_of_mem _ hq)
    have hone : T.balance t₁ asset me
        = T.balance t asset me + Payment.flow me (Payment.unitsOf asset) p := by
      unfold Payment.flow Payment.unitsOf
      by_cases ha : p.asset = asset
      · subst ha
        rcases hc p mem_cons_self with ⟨hs, hd⟩ | ⟨hs, hd⟩
        · subst hs
          rw [hT.debit htrf hd.symm, if_neg hd, if_pos rfl, if_pos rfl]
          omega
        · subst hd
          rw [hT.credit htrf hs, if_neg hs, if_pos rfl, if_pos rfl]
          omega
      · rw [hT.frame htrf asset me (.inl (fun he => ha he.symm)), if_neg ha]
        simp
    rw [hrst, hone]
    unfold net
    rw [map_cons, sum_cons]
    omega

theorem net_units_eq {asset : Addr} (hast : w.paymentAsset = some asset) (hq : ∀ p ∈ ps, Quoted env w p) :
    net env.self (Payment.unitsOf asset) ps * 10 ^ stroopDecimals
      = net env.self Payment.stroops ps * 10 ^ env.token.decimals asset := by
  induction ps with
  | nil => simp [net]
  | cons p ps ih =>
    have hrst := ih fun q hq' => hq q (mem_cons_of_mem _ hq')
    have hp := hq p mem_cons_self
    have hpa : p.asset = asset := by
      have hso := hp.asset
      rw [hast] at hso
      injection hso with hso
      exact hso.symm
    have hex := hp.exact
    rw [hpa] at hex
    have hone : Payment.flow env.self (Payment.unitsOf asset) p * 10 ^ stroopDecimals
        = Payment.flow env.self Payment.stroops p * 10 ^ env.token.decimals asset := by
      unfold Payment.flow Payment.unitsOf
      rw [if_pos hpa, sub_mul, sub_mul, ite_mul, ite_mul, ite_mul, ite_mul, hex]
      simp
    unfold net at hrst ⊢
    rw [map_cons, map_cons, sum_cons, sum_cons, add_mul, add_mul, hone, hrst]

theorem Booked.balance (hT : env.token.Exact) (h : Booked env w w' ps) (hc : ∀ p ∈ ps, p.Crosses env.self)
    {asset : Addr} (hast : w.paymentAsset = some asset) :
    env.token.balance w'.tokens asset env.self * 10 ^ stroopDecimals
      = env.token.balance w.tokens asset env.self * 10 ^ stroopDecimals
        + net env.self Payment.stroops ps * 10 ^ env.token.decimals asset := by
  rw [transfers_balance hT h.transfers hc asset, add_mul, net_units_eq hast h.quoted]

end

/-! ## Runs -/

/-- Nobody else changes the contract's balances, and the payment asset is configured once. -/
def Protected (env : Env Addr Sym τ) (w : World Addr Sym τ) :
    Event Addr Sym τ → Prop
  | .close _ => True
  | .external tokens =>
    ∀ asset, env.token.balance tokens asset env.self = env.token.balance w.tokens asset env.self
  | .invoke _ op => op.setsAsset = true → w.paymentAsset = none

/-- No call refunds a forfeited bond. -/
def FairRefunds (w : World Addr Sym τ) : Event Addr Sym τ → Prop
  | .invoke _ op =>
    match op.action with
    | some (t, act) => (w.lot t).Solvent act
    | none => True
  | _ => True

/-- The runs in which the contract stays solvent. -/
def CustodyRun (env : Env Addr Sym τ) (w : World Addr Sym τ)
    (e : Event Addr Sym τ) : Prop := Protected env w e ∧ FairRefunds w e

/-- The protected runs in which nobody else uses the token at all. -/
def Undisturbed (env : Env Addr Sym τ) (w : World Addr Sym τ) :
    Event Addr Sym τ → Prop
  | .external _ => False
  | e => Protected env w e

variable {e : Event Addr Sym τ}

omit [DecidableEq Addr] [DecidableEq Sym] in
theorem Undisturbed.protected (h : Undisturbed env w e) : Protected env w e := by
  cases e with
  | close => trivial
  | external => exact h.elim
  | invoke => exact h

instance (env : Env Addr Sym τ) (w : World Addr Sym τ) (e : Event Addr Sym τ) :
    Decidable (Undisturbed env w e) :=
  match e with
  | .close _ => .isTrue trivial
  | .external _ => .isFalse id
  | .invoke _ op => inferInstanceAs (Decidable (op.setsAsset = true → w.paymentAsset = none))

instance (w : World Addr Sym τ) (e : Event Addr Sym τ) : Decidable (FairRefunds w e) :=
  match e with
  | .close _ => .isTrue trivial
  | .external _ => .isTrue trivial
  | .invoke _ op =>
    show Decidable (match op.action with | some (t, act) => (w.lot t).Solvent act | none => True) from
      match op.action with
      | some (t, act) => inferInstanceAs (Decidable ((w.lot t).Solvent act))
      | none => .isTrue trivial

theorem FairRefunds.onActions (h : FairRefunds w e) (t : Sym) : OnActions t (fun _ L act => L.Solvent act) w e := by
  cases e with
  | close | external => trivial
  | invoke call op =>
    unfold FairRefunds at h
    unfold OnActions
    dsimp only at h ⊢
    cases hact : op.action with
    | none => trivial
    | some ta =>
      obtain ⟨t', act⟩ := ta
      rw [hact] at h
      intro ht
      subst ht
      exact h

/-- The two ledgers kept over the journal. -/
structure World.Books (env : Env Addr Sym τ) (w : World Addr Sym τ) : Prop where
  owed : net env.self Payment.stroops w.journal = w.owed
  quoted : ∀ p ∈ w.journal, Quoted env w p
  balance : ∀ asset, env.token.balance w.tokens asset env.self
    = net env.self (Payment.unitsOf asset) w.journal

section

omit [DecidableEq Sym]

theorem books_init {now : Nat} {tokens : τ} (h0 : ∀ asset, env.token.balance tokens asset env.self = 0) :
    (World.init now tokens : World Addr Sym τ).Books env where
  owed := rfl
  quoted := by intro p hp; cases hp
  balance := h0

theorem books_admin {op : Op Addr Sym} (h : Administered op w w')
    (hast : op.setsAsset = true → w.paymentAsset = none) (hb : w.Books env) : w'.Books env := by
  have how : w'.owed = w.owed := by
    obtain ⟨ha, hbi, -, -, he⟩ := h.records
    unfold World.owed
    rw [ha, hbi, he]
  refine ⟨?_, ?_, ?_⟩
  · rw [h.journal, how]
    exact hb.owed
  · intro p hp
    rw [h.journal] at hp
    have hq := hb.quoted p hp
    rcases h.asset with hset | ⟨hkp, hdec⟩
    · -- with no asset configured nothing has ever been paid
      have hso := hq.asset
      rw [hast hset] at hso
      cases hso
    · exact ⟨by rw [hkp]; exact hq.asset, by rw [hdec]; exact hq.decimals, hq.exact⟩
  · intro asset
    rw [h.tokens, h.journal]
    exact hb.balance asset

end

theorem books_acted (hT : env.token.Exact) {act : Action Addr} (h : Acted env t act w w' ps)
    (hi : w.Inv env.self) (hi' : w'.Inv env.self) (hm : (w.lot t).Marks) (hs : (w.lot t).Solvent act)
    (hb : w.Books env) : w'.Books env := by
  obtain ⟨how, hcrs⟩ := h.owed hi hi' hm hs
  have hbo := h.booked
  refine ⟨?_, ?_, ?_⟩
  · rw [hbo.journal, net_append, hb.owed, how]
  · intro p hp
    have hq : Quoted env w p := by
      rw [hbo.journal] at hp
      rcases mem_append.mp hp with hp | hp
      · exact hb.quoted p hp
      · exact hbo.quoted p hp
    exact ⟨by rw [hbo.asset]; exact hq.asset, by rw [hbo.decimals]; exact hq.decimals, hq.exact⟩
  · intro asset
    rw [transfers_balance hT hbo.transfers hcrs asset, hb.balance asset, hbo.journal, net_append]

theorem books_step (hT : env.token.Exact) (hi : w.Inv env.self) (hm : ∀ t, (w.lot t).Marks)
    (hg : CustodyRun env w e) (h : (system env).step w e = some w') (hb : w.Books env) : w'.Books env := by
  have hi' := inv_step hi h
  cases e with
  | close =>
    cases h
    refine ⟨hb.owed, ?_, hb.balance⟩
    intro p hp
    obtain ⟨hast, hdec, hex⟩ := hb.quoted p hp
    exact ⟨hast, hdec, hex⟩
  | external =>
    cases h
    refine ⟨hb.owed, ?_, ?_⟩
    · intro p hp
      obtain ⟨hast, hdec, hex⟩ := hb.quoted p hp
      exact ⟨hast, hdec, hex⟩
    · intro asset
      exact (hg.1 asset).trans (hb.balance asset)
  | invoke call op =>
    have hec := step_invoke.mp h
    cases hact : op.action with
    | none => exact books_admin (exec_admin hact hec) hg.1 hb
    | some ta =>
      obtain ⟨t, act⟩ := ta
      obtain ⟨ps, hatd⟩ := exec_refines hact hi.wellKeyed hec
      have hs : (w.lot t).Solvent act := (hg.2.onActions t).of_invoke hact
      exact books_acted hT hatd hi hi' (hm t) hs hb

/-! ## The claim -/

/--
Solvency of one state. In the configured asset, the contract's balance is what it owes on all
auctions, converted exactly; each bond has left custody at most once; and each task's own payments
add up to what is still owed on that task, so that no task has ever spent another's money.
-/
structure CustodySolvent (env : Env Addr Sym τ) (w : World Addr Sym τ) : Prop where
  balance : ∀ asset, w.paymentAsset = some asset →
    env.token.balance w.tokens asset env.self * 10 ^ stroopDecimals
      = w.owed * 10 ^ env.token.decimals asset
  bond_once : ∀ t b, (exits env.self t b w.journal).length ≤ 1
  separate : ∀ t, net env.self Payment.stroops (w.journal.filter fun p => p.purpose.task = t)
    = (w.lot t).owed ∧ 0 ≤ (w.lot t).owed

theorem books_run (hT : env.token.Exact) {now : Nat} {tokens : τ}
    (h0 : ∀ asset, env.token.balance tokens asset env.self = 0)
    (h : (system env).Run (CustodyRun env) (World.init now tokens) w) : w.Books env := by
  refine System.Run.invariant h (books_init h0) ?_
  intro w e w' hrun hg hb hs
  have hr : (system env).Reachable (CustodyRun env) w := ⟨_, start_init env now tokens, hrun⟩
  exact books_step hT (inv_reachable hr) (marks_reachable hr) hg hs hb

/-- What a fair run keeps about one lot: one mark a bid, and an account of its own. -/
structure Lot.Fine (me : Addr) (L : Lot Addr Sym) : Prop where
  marks : L.Marks
  once : L.Once
  separate : net me Payment.stroops L.payments = L.owed

theorem fine_reachable (h : (system env).Reachable (CustodyRun env) w) (t : Sym) : (w.lot t).Fine env.self := by
  have hfa : ∀ w e, CustodyRun env w e → OnActions t (fun _ L act => L.Solvent act) w e :=
    fun w e hg => hg.2.onActions t
  have hemp : Lot.Fine env.self (Lot.empty : Lot Addr Sym) := by
    refine ⟨?_, ?_, rfl⟩
    · intro a ha
      cases ha
    · intro b bid hb
      cases hb
  have hchg : ∀ now act (L L' : Lot Addr Sym) ps,
      Lot.Change env.self now t act L L' ps → L.Inv env.self t → L.Solvent act →
        L.Fine env.self → L'.Fine env.self := by
    intro now act L L' ps hc hi hs hf
    refine ⟨hc.marks hi hf.marks, hc.once hi hf.marks hs hf.once, ?_⟩
    rw [hc.payments, net_append, hf.separate, (hc.owed hi hf.marks hs).1]
  exact lot_invariant hfa (fun _ => hemp) (fun _ _ _ _ _ _ _ hP => hP) hchg h

/-- **Each bond leaves custody at most once** in a fair run. -/
theorem exits_once_reachable (h : (system env).Reachable (CustodyRun env) w) (t : Sym) (b : Addr) :
    (exits env.self t b w.journal).length ≤ 1 := by
  rw [← exits_lot]
  cases ha : (w.lot t).auction with
  | none =>
    rw [(inv_reachable h t).vacant ha]
    exact Nat.zero_le 1
  | some a =>
    rw [honest_reachable h t a ha b]
    cases hb : (w.lot t).bids b with
    | none => exact Nat.zero_le 1
    | some bid =>
      have hoc := (fine_reachable h t).once b bid hb
      rw [elim_some]
      unfold SealedBid.exits
      cases hr : bid.refunded with
      | true => rw [hoc hr]; simp
      | false => split <;> simp

/--
**Custody solvency.** With an exact token and no balance to begin with, the contract is solvent in
every state of every run in which the asset is configured once, nobody else moves the contract's
balance, and no forfeited bond is refunded.
-/
theorem custody_solvent {env : Env Addr Sym τ} (hT : env.token.Exact) {now : Nat} {tokens : τ}
    (h0 : ∀ asset, env.token.balance tokens asset env.self = 0) {w : World Addr Sym τ}
    (h : (system env).Run (CustodyRun env) (World.init now tokens) w) : CustodySolvent env w := by
  have hr : (system env).Reachable (CustodyRun env) w := ⟨_, start_init env now tokens, h⟩
  have hbks := books_run hT h0 h
  refine ⟨?_, ?_, ?_⟩
  · intro asset hast
    rw [hbks.balance asset, net_units_eq hast hbks.quoted, hbks.owed]
  · intro t b
    exact exits_once_reachable hr t b
  · intro t
    exact ⟨(fine_reachable hr t).separate, (inv_reachable hr t).owed_nonneg⟩

/-- Two auctions over an asset of six decimals: one awarded, one aborted. -/
theorem custody_solvent_two : ∃ w : World Nat Nat (Token.Ledger Nat),
    w.paymentAsset = some 9 ∧ w.owed = 20000000 ∧ CustodySolvent (Sample.env 6) w := by
  have hpl : ((system (Sample.env 6)).play
      (fun w e => Undisturbed (Sample.env 6) w e ∧ FairRefunds w e)
      (Sample.opened 6 10000000 100000000 50000000 ++
        [ Sample.signed 6 (.createAuction 6 8 ⟨60, 60, 10, 70000000, 50⟩),
          Sample.bid 3 20000000 50000000, Sample.bid 4 30000000 50000000, .close 1400,
          Sample.reveal 3 20000000, .close 1420, Sample.signed 5 (.revealBids 5 7),
          Sample.signed 2 (.awardContract 2 7), Sample.signed 6 (.abortAuction 6 8) ])
      (World.init 1000 Sample.wallets)).any
        (fun w => w.paymentAsset = some 9 ∧ w.owed = 20000000) = true := by
    decide +kernel
  obtain ⟨w, hrun, hw⟩ := (Option.any_eq_true _ _).mp hpl
  obtain ⟨hast, how⟩ := of_decide_eq_true hw
  have hcu : (system (Sample.env 6)).Run (CustodyRun (Sample.env 6))
      (World.init 1000 Sample.wallets) w :=
    (run_of_play hrun).weaken fun _ _ hg => ⟨hg.1.protected, hg.2⟩
  exact ⟨w, hast, how, custody_solvent (Token.ledger_exact _) (fun _ => rfl) hcu⟩

/--
The drain: bidder `4` never reveals, so the award pays its bond to the creator; `claim_refund` then
pays the same bond again, out of the escrow of the winner.
-/
theorem forfeited_bond_drains : ∃ w : World Nat Nat (Token.Ledger Nat),
    (system (Sample.env 7)).Run (Protected (Sample.env 7)) (World.init 1000 Sample.wallets) w ∧
      ¬ CustodySolvent (Sample.env 7) w := by
  have hpl : ((system (Sample.env 7)).play (Undisturbed (Sample.env 7))
      (Sample.opened 7 10 100 5 ++
        [ Sample.bid 3 20 5, Sample.bid 4 30 5, .close 1400, Sample.reveal 3 20, .close 1420,
          Sample.signed 5 (.revealBids 5 7), Sample.signed 2 (.awardContract 2 7),
          Sample.signed 4 (.claimRefund 7 4) ])
      (World.init 1000 Sample.wallets)).any (fun w => w.paymentAsset = some 9 ∧ w.owed = 20 ∧
        (Sample.env 7).token.balance w.tokens 9 0 = 15) = true := by
    decide +kernel
  obtain ⟨w, hrun, hw⟩ := (Option.any_eq_true _ _).mp hpl
  obtain ⟨hast, how, hbal⟩ := of_decide_eq_true hw
  refine ⟨w, (run_of_play hrun).weaken fun _ _ hg => hg.protected, ?_⟩
  intro hso
  have hbks := hso.balance 9 hast
  have hsf : (Sample.env 7).token.balance w.tokens 9 (Sample.env 7).self = 15 := hbal
  rw [hsf, how] at hbks
  exact absurd hbks (by decide)

end

/-!
## When a settlement goes through

`award_contract` and `abort_auction` pay every unsettled bond and one more amount, and
one failing transfer fails the call. With a token that pays whatever the balance
covers, and a balance that covers what is owed, a transfer can only fail in the
conversion to units of the asset. So a settlement goes through exactly when each
amount it has to pay is `Payable`: in an asset of seven decimals or more, when it does
not overflow; in one of fewer, when it is a whole number of units.
-/

variable {Addr Sym τ : Type}

/--
The amount is a whole number of units of an asset with that many decimals, and the multiplication
that converts it fits.
-/
def Payable (amount : Int) (decimals : Nat) : Prop :=
  if stroopDecimals ≤ decimals then
    (10 : Int) ^ (decimals - stroopDecimals) ≤ i128Max ∧ amount * 10 ^ (decimals - stroopDecimals) ≤ i128Max
  else (10 : Int) ^ (stroopDecimals - decimals) ∣ amount

variable {decimals : Nat}

theorem stroopsToUnits_ok_iff {amount : Int} (h : 0 ≤ amount) :
    (∃ units, stroopsToUnits amount decimals = .ok units) ↔ Payable amount decimals := by
  unfold stroopsToUnits Payable
  rw [if_neg (Int.not_lt.mpr h)]
  by_cases hd : stroopDecimals ≤ decimals
  · have hlow : i128Min ≤ 0 := by decide
    have hfa : (0 : Int) ≤ 10 ^ (decimals - stroopDecimals) := by positivity
    have hpr : 0 ≤ amount * 10 ^ (decimals - stroopDecimals) := mul_nonneg h hfa
    rw [if_pos hd, if_pos hd]
    simp only [okOr_eq_ok, bind_eq_some_iff, checked128_eq_some]
    constructor
    · rintro ⟨units, f, ⟨⟨-, hf⟩, rfl⟩, ⟨-, hu⟩, -⟩
      exact ⟨hf, hu⟩
    · rintro ⟨hf, hu⟩
      exact ⟨_, _, ⟨⟨by omega, hf⟩, rfl⟩, ⟨by omega, hu⟩, rfl⟩
  · rw [if_neg hd, if_neg hd, Int.dvd_iff_emod_eq_zero]
    dsimp only
    by_cases hm : amount % 10 ^ (stroopDecimals - decimals) = 0
    · rw [if_neg (not_not.mpr hm)]
      exact iff_of_true ⟨_, rfl⟩ hm
    · rw [if_pos hm]
      refine iff_of_false ?_ hm
      rintro ⟨units, hu⟩
      cases hu

/-- The asset the contract is configured with. -/
structure Configured (env : Env Addr Sym τ) (asset : Addr) (w : World Addr Sym τ) :
    Prop where
  paymentAsset : w.paymentAsset = some asset
  assetDecimals : w.assetDecimals = some (env.token.decimals asset)

/-- The contract's balance covers an amount of stroops. -/
def Covers (env : Env Addr Sym τ) (asset : Addr) (amount : Int)
    (w : World Addr Sym τ) : Prop :=
  amount * 10 ^ env.token.decimals asset
    ≤ env.token.balance w.tokens asset env.self * 10 ^ stroopDecimals

variable {w : World Addr Sym τ} {env : Env Addr Sym τ} {asset : Addr}

theorem Covers.mono {amount amount' : Int} (h : Covers env asset amount w) (hle : amount' ≤ amount) :
    Covers env asset amount' w :=
  le_trans (mul_le_mul_of_nonneg_right hle (by positivity)) h

/-- **A covered payment fails only in the conversion.** -/
theorem pushFunds_ok_iff (hP : env.token.Pays) (hc : Configured env asset w) {why : Purpose Addr Sym}
    {dst : Addr} {amount : Int} (hnn : 0 ≤ amount) (hcvr : Covers env asset amount w) :
    (∃ w', pushFunds env w why dst amount = .ok w') ↔ Payable amount (env.token.decimals asset) := by
  have htok : paymentToken env w = .ok (asset, env.token.decimals asset) := by
    simp only [paymentToken, bind_eq_ok, okOr_eq_ok, failIf_eq_ok, exists_and_left, exists_const,
      pure_eq_ok, ne_eq, not_not]
    exact ⟨asset, hc.paymentAsset, _, hc.assetDecimals, rfl, rfl⟩
  rw [← stroopsToUnits_ok_iff hnn]
  constructor
  · rintro ⟨w', h⟩
    simp only [pushFunds, moveFunds, bind_eq_ok, htok, Except.ok.injEq, exists_eq_left'] at h
    obtain ⟨units, hu, -⟩ := h
    exact ⟨units, hu⟩
  · rintro ⟨units, hu⟩
    obtain ⟨-, hex⟩ := stroopsToUnits_exact hu
    by_cases hpos : 0 < units
    · have hle : units ≤ env.token.balance w.tokens asset env.self := by
        have hpow : (0 : Int) < 10 ^ stroopDecimals := by positivity
        refine le_of_mul_le_mul_right ?_ hpow
        rw [hex]
        exact hcvr
      obtain ⟨tokens, ht⟩ := hP w.tokens asset env.self dst units (Int.le_of_lt hpos) hle
      refine ⟨{ w with
        tokens := tokens
        journal := w.journal ++ [⟨why, asset, env.self, dst, amount, units⟩] }, ?_⟩
      simp only [pushFunds, moveFunds, bind_eq_ok, htok, Except.ok.injEq, exists_eq_left', hu,
        hpos, if_true, orTrap_eq_ok, ht, Option.some.injEq, pure_eq_ok]
    · refine ⟨w, ?_⟩
      simp only [pushFunds, moveFunds, bind_eq_ok, htok, Except.ok.injEq, exists_eq_left', hu,
        hpos, if_false, pure_eq_ok]

/-! ## One bond -/

/-- A bond the loop has to pay is payable. -/
def BondPayable (decimals : Nat) (o : Option (SealedBid Addr)) : Prop :=
  ∀ bid, o = some bid → ¬ bid.Settled → Payable bid.bond decimals

theorem bondPayable_some {bid : SealedBid Addr} (hs : ¬ bid.Settled) :
    BondPayable decimals (some bid) ↔ Payable bid.bond decimals := by
  constructor
  · intro h
    exact h bid rfl hs
  · intro h x hx _
    injection hx with hx
    exact hx ▸ h

theorem bondPayable_of_settled {bid : SealedBid Addr} (hs : bid.Settled) :
    BondPayable decimals (some bid) := by
  intro x hx hon
  injection hx with hx
  exact absurd (hx ▸ hs) hon

theorem bondPayable_none (decimals : Nat) : BondPayable decimals (none : Option (SealedBid Addr)) := by
  intro x hx
  cases hx

variable [DecidableEq Addr] [DecidableEq Sym]

/-- When one iteration of a loop over the bidders succeeds. -/
def PaysBond (env : Env Addr Sym τ) (t : Sym)
    (f : World Addr Sym τ → Addr → Outcome Error (World Addr Sym τ)) : Prop :=
  ∀ w b asset, Configured env asset w → (∀ bid, w.bids.get (t, b) = some bid → ¬ bid.Settled →
      0 ≤ bid.bond ∧ Covers env asset bid.bond w) →
      ((∃ w', f w b = .ok w') ↔ BondPayable (env.token.decimals asset) (w.bids.get (t, b)))

theorem settleBond_pays (hP : env.token.Pays) (t : Sym)
    (creator : Addr) : PaysBond env t (settleBond env t creator) := by
  intro w b asset hc hcvr
  unfold settleBond
  cases hb : w.bids.get (t, b) with
  | none => exact iff_of_true ⟨w, rfl⟩ (bondPayable_none _)
  | some bid =>
    dsimp only
    by_cases hs : bid.refunded = true ∨ bid.forfeited = true
    · rw [if_pos hs]
      exact iff_of_true ⟨w, rfl⟩ (bondPayable_of_settled hs)
    · rw [if_neg hs, bondPayable_some hs]
      obtain ⟨hnn, hbo⟩ := hcvr bid hb hs
      split
      · rw [exists_bind_pure]
        exact pushFunds_ok_iff hP hc hnn hbo
      · rw [exists_bind_pure]
        exact pushFunds_ok_iff hP hc hnn hbo

theorem releaseBond_pays (hP : env.token.Pays) (t : Sym) :
    PaysBond env t (releaseBond env t) := by
  intro w b asset hc hcvr
  unfold releaseBond
  cases hb : w.bids.get (t, b) with
  | none => exact iff_of_true ⟨w, rfl⟩ (bondPayable_none _)
  | some bid =>
    dsimp only
    by_cases hs : bid.refunded = true ∨ bid.forfeited = true
    · rw [if_pos hs]
      exact iff_of_true ⟨w, rfl⟩ (bondPayable_of_settled hs)
    · rw [if_neg hs, bondPayable_some hs]
      obtain ⟨hnn, hbo⟩ := hcvr bid hb hs
      refine pushFunds_ok_iff hP ?_ hnn ?_
      · exact ⟨hc.paymentAsset, hc.assetDecimals⟩
      · exact hbo

/-! ## The loops -/

/-- The contract can pay what it holds for the listed bidders, and `rest` stroops more. -/
structure Ready (env : Env Addr Sym τ) (t : Sym) (asset : Addr)
    (bids : Addr → Option (SealedBid Addr)) (rest : Int) (l : List Addr)
    (w : World Addr Sym τ) : Prop where
  configured : Configured env asset w
  nodup : l.Nodup
  stored : ∀ b ∈ l, w.bids.get (t, b) = bids b
  covers : Covers env asset (sumBids l bids SealedBid.bondHeld + rest) w

theorem Ready.next (hT : env.token.Exact) {t : Sym} {bids : Addr → Option (SealedBid Addr)}
    {rest : Int} {verdict : Verdict Addr}
    (hdst : ∀ b bid, bids b = some bid → (verdict b bid).2 ≠ env.self) {b : Addr} {l : List Addr}
    {w w' : World Addr Sym τ} (h : Ready env t asset bids rest (b :: l) w)
    (hs : SettlesOne env t verdict b w w') : Ready env t asset bids rest l w' := by
  have hn := nodup_cons.mp h.nodup
  have hcvr := h.covers
  rw [sumBids_cons] at hcvr
  cases hs with
  | skip hstl heq =>
    subst heq
    refine ⟨h.configured, hn.2, fun x hx => h.stored x (mem_cons_of_mem _ hx), ?_⟩
    have hz : (bids b).elim 0 SealedBid.bondHeld = 0 := by
      rw [← h.stored b mem_cons_self]
      cases hb : w'.bids.get (t, b) with
      | none => rfl
      | some bid => exact SealedBid.bondHeld_of_settled (hstl bid hb)
    rw [hz, zero_add] at hcvr
    exact hcvr
  | @pay bid ps hb hr hf hpd hbo hon hwte =>
    have hbid : bids b = some bid := by rw [← h.stored b mem_cons_self, hb]
    have hne := hdst b bid hbid
    rw [hbid, elim_some, SealedBid.bondHeld_of_unsettled hr hf] at hcvr
    refine ⟨⟨?_, ?_⟩, hn.2, ?_, ?_⟩
    · rw [hbo.asset]
      exact h.configured.paymentAsset
    · rw [hbo.decimals]
      exact h.configured.assetDecimals
    · intro x hx
      have hxb : x ≠ b := fun he => hn.1 (he ▸ hx)
      rw [hwte, get_set_ne _ _ (fun he => hxb (congrArg Prod.snd he))]
      exact h.stored x (mem_cons_of_mem _ hx)
    · unfold Covers at hcvr ⊢
      rw [hbo.balance hT (crosses_of_push hpd hne) h.configured.paymentAsset, net_of_push hpd hne]
      linarith

/-- **When a settlement loop succeeds**, and that it leaves the rest covered. -/
theorem settleLoop_ok_iff (hT : env.token.Exact) {t : Sym} {bids : Addr → Option (SealedBid Addr)}
    {rest : Int} {verdict : Verdict Addr}
    {f : World Addr Sym τ → Addr → Outcome Error (World Addr Sym τ)}
    (hf : ∀ w w' b, f w b = .ok w' → SettlesOne env t verdict b w w') (hpa : PaysBond env t f)
    (hdst : ∀ b bid, bids b = some bid → (verdict b bid).2 ≠ env.self)
    (hbo : ∀ b bid, bids b = some bid → 0 ≤ bid.bond) (hrst : 0 ≤ rest) {l : List Addr}
    (h : Ready env t asset bids rest l w) :
    ((∃ w', l.foldlM f w = .ok w') ↔ ∀ b ∈ l, BondPayable (env.token.decimals asset) (bids b)) ∧
      ∀ w', l.foldlM f w = .ok w' → Ready env t asset bids rest [] w' := by
  have hnx : ∀ b l c c', Ready env t asset bids rest (b :: l) c → f c b = .ok c' →
      Ready env t asset bids rest l c' := fun b l c c' hc hst => hc.next hT hdst (hf c c' b hst)
  have hok : ∀ b l c, Ready env t asset bids rest (b :: l) c →
      ((∃ c', f c b = .ok c') ↔ BondPayable (env.token.decimals asset) (bids b)) := by
    intro b l c hc
    rw [← hc.stored b mem_cons_self]
    refine hpa c b asset hc.configured ?_
    intro bid hb hon
    rw [hc.stored b mem_cons_self] at hb
    have hcvr := hc.covers
    rw [sumBids_cons, hb, elim_some] at hcvr
    have hhd : bid.bondHeld = bid.bond := if_neg hon
    have hots := sumBids_bondHeld_nonneg hbo l
    exact ⟨hbo b bid hb, hcvr.mono (by omega)⟩
  exact ⟨foldlM_ok_iff _ _ hok hnx h, fun w' hrun => foldlM_rest _ hnx h hrun⟩

end AiNet.Bidding
