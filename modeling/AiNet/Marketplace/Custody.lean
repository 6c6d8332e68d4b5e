import AiNet.Marketplace.Steps

/-!
# The escrow of the marketplace

A booking does not say which asset it was paid in; the contract pays out of the asset
that is configured when it is completed or cancelled. As long as no other asset is
configured while a booking is open, the two are the same. Then the transfers made for a
booking are the payment and one payout of the same units, and the balance of an exact
token is what the open bookings have paid in it.
-/

namespace AiNet.Marketplace

open Core List Storage System

variable {Addr Sym τ : Type} [DecidableEq Addr] [DecidableEq Sym]
  {env : Env Addr Sym τ} {w w' : World Addr Sym τ}

/-! ## The account of a booking -/

/-- The transfers made for a booking. -/
def World.account (w : World Addr Sym τ) (id : Sym) : List (Payment Addr Sym) :=
  w.journal.filter fun p => p.bookingId = id

def World.paidIn (w : World Addr Sym τ) (id : Sym) : Option Addr :=
  (w.account id).head?.map Payment.asset

/-- What a booking is to be paid out by now: to the owner once completed, back once cancelled. -/
def Booking.payout (b : Booking Addr Sym) (self : Addr) (id : Sym) (asset owner : Addr) :
    List (Payment Addr Sym) :=
  if b.completed = true then [⟨id, asset, self, owner, b.escrowAmount⟩]
  else if b.cancelled = true then [⟨id, asset, self, b.client, b.escrowAmount⟩]
  else []

/-- A booking was paid once, and was paid out if and only if it is closed, in the same asset. -/
structure Accounted (env : Env Addr Sym τ) (w : World Addr Sym τ) (id : Sym)
    (b : Booking Addr Sym) (asset owner : Addr) : Prop where
  listed : ∃ listing, w.listings.get b.listingId = some listing ∧ listing.owner = owner
  account : w.account id =
    ⟨id, asset, b.client, env.self, b.escrowAmount⟩ :: b.payout env.self id asset owner
  exclusive : ¬ (b.completed = true ∧ b.cancelled = true)

/-- The accounts of all bookings. Those that are open were paid in the configured asset. -/
structure Accounts (env : Env Addr Sym τ) (w : World Addr Sym τ) : Prop where
  vacant : ∀ id, w.bookings.get id = none → w.account id = []
  booked : ∀ id b, w.bookings.get id = some b → ∃ asset owner, Accounted env w id b asset owner ∧
    (b.isOpen = true → w.paymentAsset = some asset)

variable {b : Booking Addr Sym}

section

omit [DecidableEq Addr] [DecidableEq Sym]

theorem Booking.isOpen_iff :
    b.isOpen = true ↔ b.completed = false ∧ b.cancelled = false := by
  unfold Booking.isOpen
  rw [Bool.and_eq_true, Bool.not_eq_true', Bool.not_eq_true']

theorem Booking.payout_open (h : b.isOpen = true) (self : Addr)
    (id : Sym) (asset owner : Addr) : b.payout self id asset owner = [] := by
  obtain ⟨hcmp, hcan⟩ := Booking.isOpen_iff.mp h
  unfold Booking.payout
  rw [hcmp, hcan]
  rfl

end

omit [DecidableEq Addr] in
theorem Accounted.paidIn {id : Sym} {asset owner : Addr}
    (h : Accounted env w id b asset owner) : w.paidIn id = some asset := by
  unfold World.paidIn
  rw [h.account]
  rfl

variable {p : Payment Addr Sym}

section

omit [DecidableEq Addr]

theorem account_snoc (h : w'.journal = w.journal ++ [p]) (id : Sym) :
    w'.account id = w.account id ++ if p.bookingId = id then [p] else [] := by
  unfold World.account
  rw [h, filter_append]
  congr 1
  by_cases hp : p.bookingId = id
  · simp [hp]
  · simp [hp]

theorem Accounted.carry {id : Sym} {asset owner : Addr} (h : Accounted env w id b asset owner)
    (hows : SameOwners w w') (hacc : w'.account id = w.account id) (rating : Nat) :
    Accounted env w' id { b with rating := rating } asset owner := by
  obtain ⟨listing, hlsg, hown⟩ := h.listed
  obtain ⟨listing', hlsg', hown'⟩ := hows b.listingId listing hlsg
  exact ⟨⟨listing', hlsg', hown'.trans hown⟩, hacc.trans h.account, h.exclusive⟩

theorem Accounts.kept (h : Accounts env w) (hsm : SameMoney w w') (hows : SameOwners w w')
    (hast : ∀ id b, w.bookings.get id = some b → b.isOpen = true →
      w'.paymentAsset = w.paymentAsset) : Accounts env w' := by
  have hacc : ∀ id, w'.account id = w.account id := by
    intro id
    unfold World.account
    rw [hsm.journal]
  refine ⟨?_, ?_⟩
  · intro id hno
    rw [hacc]
    rw [hsm.bookings] at hno
    exact h.vacant id hno
  · intro id b hb
    rw [hsm.bookings] at hb
    obtain ⟨asset, owner, hacd, hon⟩ := h.booked id b hb
    refine ⟨asset, owner, hacd.carry hows (hacc id) b.rating, ?_⟩
    intro ho
    rw [hast id b hb ho]
    exact hon ho

theorem Accounts.write (h : Accounts env w) {id₀ : Sym} {b' : Booking Addr Sym}
    (hows : SameOwners w w') (hast : w'.paymentAsset = w.paymentAsset)
    (hbks : w'.bookings = w.bookings.set id₀ b')
    (hacc : ∀ id, id ≠ id₀ → w'.account id = w.account id)
    (hnew : ∃ asset owner, Accounted env w' id₀ b' asset owner ∧
      (b'.isOpen = true → w.paymentAsset = some asset)) : Accounts env w' := by
  refine ⟨?_, ?_⟩
  · intro id hno
    rw [hbks, get_set] at hno
    split at hno
    · cases hno
    · rename_i hid
      rw [hacc id hid]
      exact h.vacant id hno
  · intro id b hb
    rw [hbks, get_set] at hb
    rw [hast]
    split at hb
    · rename_i hid
      cases hb
      subst hid
      exact hnew
    · rename_i hid
      obtain ⟨asset, owner, hacd, hon⟩ := h.booked id b hb
      exact ⟨asset, owner, hacd.carry hows (hacc id hid) b.rating, hon⟩

theorem Accounts.moved (h : Accounts env w) (hmv : Moved env w w') (hows : SameOwners w w')
    (hast : w'.paymentAsset = w.paymentAsset) : Accounts env w' := by
  have hots : ∀ {p : Payment Addr Sym}, w'.journal = w.journal ++ [p] → ∀ id,
      id ≠ p.bookingId → w'.account id = w.account id := by
    intro p hjo id hid
    rw [account_snoc hjo, if_neg (Ne.symm hid), append_nil]
  cases hmv with
  | kept same => exact h.kept same hows fun _ _ _ _ => hast
  | @rated id b rating hb hcmp hbks htks hjo =>
    have hacc : ∀ id, w'.account id = w.account id := by
      intro id
      unfold World.account
      rw [hjo]
    obtain ⟨asset, owner, hacd, hon⟩ := h.booked id b hb
    exact h.write hows hast hbks (fun id _ => hacc id)
      ⟨asset, owner, hacd.carry hows (hacc id) rating, hon⟩
  | @booked id b asset listing hnew hon hlsg hclt hast₀ hbks htrf =>
    have hacc : w'.account id = [⟨id, asset, b.client, env.self, b.escrowAmount⟩] := by
      rw [account_snoc htrf.journal, h.vacant id hnew, if_pos rfl, nil_append]
    refine h.write hows hast hbks (hots htrf.journal)
      ⟨asset, listing.owner, ⟨hows _ _ hlsg, ?_, ?_⟩, fun _ => hast₀⟩
    · rw [hacc, Booking.payout_open hon]
    · intro hbo
      rw [(Booking.isOpen_iff.mp hon).1] at hbo
      cases hbo.1
  | @completed id b asset listing hb hon hlsg hown hast₀ hbks htrf =>
    obtain ⟨asset', owner, hacd, hpd⟩ := h.booked id b hb
    -- the configured asset is the one the booking was paid in
    cases hast₀.symm.trans (hpd hon)
    obtain ⟨listing₀, hlsg₀, rfl⟩ := hacd.listed
    cases hlsg.symm.trans hlsg₀
    refine h.write hows hast hbks (hots htrf.journal)
      ⟨asset, listing.owner, ⟨hows _ _ hlsg, ?_, ?_⟩, fun _ => hast₀⟩
    · rw [account_snoc htrf.journal, hacd.account, Booking.payout_open hon, if_pos rfl]
      rfl
    · intro hbo
      rw [(Booking.isOpen_iff.mp hon).2] at hbo
      cases hbo.2
  | @cancelled id b asset hb hon hclt hast₀ hbks htrf =>
    obtain ⟨asset', owner, hacd, hpd⟩ := h.booked id b hb
    cases hast₀.symm.trans (hpd hon)
    obtain ⟨listing, hlsg, rfl⟩ := hacd.listed
    obtain ⟨hcmp, _⟩ := Booking.isOpen_iff.mp hon
    refine h.write hows hast hbks (hots htrf.journal)
      ⟨asset, listing.owner, ⟨hows _ _ hlsg, ?_, ?_⟩, fun _ => hast₀⟩
    · rw [account_snoc htrf.journal, hacd.account, Booking.payout_open hon, if_pos rfl]
      unfold Booking.payout
      dsimp only
      rw [hcmp]
      rfl
    · intro hbo
      rw [hcmp] at hbo
      cases hbo.1

end

/-! ## The balance of one asset -/

/-- What the contract holds of an asset for a booking. -/
def World.held (w : World Addr Sym τ) (asset : Addr) (id : Sym)
    (b : Booking Addr Sym) : Int :=
  if b.isOpen = true ∧ w.paidIn id = some asset then b.escrowAmount else 0

/-- The balance of the asset is what the open bookings have paid in it. -/
def Balanced (env : Env Addr Sym τ) (asset : Addr) (w : World Addr Sym τ) : Prop :=
  env.token.balance w.tokens asset env.self = w.bookings.total (w.held asset)

variable {asset : Addr}

theorem held_total (h : ∀ id b, w.bookings.get id = some b → w'.paidIn id = w.paidIn id) :
    w.bookings.total (w'.held asset) = w.bookings.total (w.held asset) := by
  refine total_congr ?_
  intro id b hb
  unfold World.held
  rw [h id b hb]

omit [DecidableEq Addr] in
theorem paidIn_snoc (h : w'.journal = w.journal ++ [p]) {id : Sym}
    (hid : p.bookingId = id → w.account id ≠ []) : w'.paidIn id = w.paidIn id := by
  unfold World.paidIn
  rw [account_snoc h]
  by_cases hp : p.bookingId = id
  · rw [List.head?_append_of_ne_nil _ (hid hp)]
  · rw [if_neg hp, append_nil]

section

omit [DecidableEq Sym]

theorem Transferred.receive {asset src : Addr} (h : Transferred env w w' p) (hT : env.token.ExactFor asset)
    (hsrc : p.src = src) (hsf : src ≠ env.self) (hdst : p.dst = env.self) :
    env.token.balance w'.tokens asset env.self =
      env.token.balance w.tokens asset env.self + if p.asset = asset then p.units else 0 := by
  have htrf := h.transfer
  rw [hsrc, hdst] at htrf
  by_cases hast : p.asset = asset
  · rw [hast] at htrf
    rw [if_pos hast, hT.credit htrf hsf]
  · rw [if_neg hast, hT.other htrf hast, add_zero]

theorem Transferred.send {asset dst : Addr} (h : Transferred env w w' p) (hT : env.token.ExactFor asset)
    (hsrc : p.src = env.self) (hdst : p.dst = dst) (hsf : dst ≠ env.self) :
    env.token.balance w'.tokens asset env.self =
      env.token.balance w.tokens asset env.self - if p.asset = asset then p.units else 0 := by
  have htrf := h.transfer
  rw [hsrc, hdst] at htrf
  by_cases hast : p.asset = asset
  · rw [hast] at htrf
    rw [if_pos hast, hT.debit htrf (Ne.symm hsf)]
  · rw [if_neg hast, hT.other htrf hast, sub_zero]

end

theorem total_close (asset : Addr) {asset₀ owner : Addr} {id : Sym} {b b' : Booking Addr Sym}
    (hacc : Accounts env w) (hb : w.bookings.get id = some b) (hon : b.isOpen = true)
    (hacd : Accounted env w id b asset₀ owner) (hbks : w'.bookings = w.bookings.set id b')
    (hcld : b'.isOpen = false) (hjo : w'.journal = w.journal ++ [p]) :
    w'.bookings.total (w'.held asset) + (if asset₀ = asset then b.escrowAmount else 0) =
      w.bookings.total (w.held asset) := by
  have hpd : ∀ id b, w.bookings.get id = some b → w'.paidIn id = w.paidIn id := by
    intro id b hb
    obtain ⟨_, _, hacd, _⟩ := hacc.booked id b hb
    refine paidIn_snoc hjo fun _ => ?_
    rw [hacd.account]
    exact cons_ne_nil _ _
  have hold : w'.held asset id b = if asset₀ = asset then b.escrowAmount else 0 := by
    unfold World.held
    rw [hpd id b hb, hacd.paidIn, hon]
    simp only [true_and, Option.some.injEq]
  have hnew : w'.held asset id b' = 0 := by
    unfold World.held
    rw [hcld]
    exact if_neg (fun h => (by cases h.1))
  have htot := total_set_of_some hb b' (w'.held asset)
  rw [hold, hnew, add_zero, held_total hpd] at htot
  rw [hbks]
  exact htot

/-- **A call keeps an exact token balanced.** -/
theorem Balanced.moved (h : Balanced env asset w) (hT : env.token.ExactFor asset) (hacc : Accounts env w)
    (hmv : Moved env w w') : Balanced env asset w' := by
  unfold Balanced at h ⊢
  cases hmv with
  | kept same =>
    have hpd : ∀ id b, w.bookings.get id = some b → w'.paidIn id = w.paidIn id := by
      intro id b _
      unfold World.paidIn World.account
      rw [same.journal]
    rw [same.tokens, same.bookings, held_total hpd, h]
  | @rated id b rating hb hcmp hbks htks hjo =>
    have hpd : ∀ id b, w.bookings.get id = some b → w'.paidIn id = w.paidIn id := by
      intro id b _
      unfold World.paidIn World.account
      rw [hjo]
    have hsm : w'.held asset id { b with rating := rating } = w'.held asset id b := rfl
    rw [htks, hbks, total_set_same hb hsm, held_total hpd, h]
  | @booked id b asset₀ listing hnew hon hlsg hclt hast hbks htrf =>
    have hpd : ∀ other b, w.bookings.get other = some b → w'.paidIn other = w.paidIn other := by
      intro other b hoth
      refine paidIn_snoc htrf.journal fun hid => ?_
      rw [show id = other from hid, hoth] at hnew
      cases hnew
    have hhd : w'.held asset id b = if asset₀ = asset then b.escrowAmount else 0 := by
      unfold World.held World.paidIn
      rw [account_snoc htrf.journal, hacc.vacant id hnew, if_pos rfl, hon]
      simp
    rw [hbks, total_set_of_none hnew, held_total hpd, hhd, ← h]
    exact htrf.receive hT rfl hclt rfl
  | @completed id b asset₀ listing hb hon hlsg hown hast hbks htrf =>
    obtain ⟨asset', owner, hacd, hpd⟩ := hacc.booked id b hb
    cases hast.symm.trans (hpd hon)
    have hclo := total_close asset hacc hb hon hacd hbks rfl
      htrf.journal
    have hsn := htrf.send hT rfl rfl hown
    dsimp only at hsn
    omega
  | @cancelled id b asset₀ hb hon hclt hast hbks htrf =>
    obtain ⟨asset', owner, hacd, hpd⟩ := hacc.booked id b hb
    cases hast.symm.trans (hpd hon)
    have hcld : ({ b with cancelled := true } : Booking Addr Sym).isOpen = false := by
      unfold Booking.isOpen
      rw [Bool.not_true, Bool.and_false]
    have hclo := total_close asset hacc hb hon hacd hbks hcld
      htrf.journal
    have hsn := htrf.send hT rfl rfl hclt
    dsimp only at hsn
    omega

/-! ## Runs -/

/-- The action does not configure another payment asset while a booking is open. -/
def AdminAction.Harmless (w : World Addr Sym τ) : AdminAction Addr → Prop
  | .unpause => True
  | .setPaymentAsset asset _ => w.paymentAsset = some asset ∨
      ∀ b ∈ w.bookings.entries.map fun e => e.2, b.isOpen = false

/--
Nobody else changes what the contract has of the asset, and no queued action that configures another
payment asset is executed while a booking is open.
-/
def Faithful (env : Env Addr Sym τ) (asset : Addr) (w : World Addr Sym τ) :
    Event Addr Sym τ → Prop
  | .close _ => True
  | .external tokens =>
    env.token.balance tokens asset env.self = env.token.balance w.tokens asset env.self
  | .invoke _ op =>
    match op with
    | .executeAction id => ∀ queued ∈ w.queuedActions.get id, queued.action.Harmless w
    | .initializeContract _ | .setAdmin _ | .pause | .queueAction _ | .cancelAction _ | .listService ..
    | .updateListingPrice .. | .bookAgent .. | .completeBooking _ | .cancelBooking _
    | .rateBooking .. => True

/-- The books of one asset. -/
structure Books (env : Env Addr Sym τ) (asset : Addr) (w : World Addr Sym τ) : Prop where
  accounts : Accounts env w
  balanced : Balanced env asset w

theorem Books.exec {call : Call Addr Sym} {op : Op Addr Sym} (h : Books env asset w)
    (hT : env.token.ExactFor asset) (hg : Faithful env asset w (.invoke call op))
    (hok : exec env call op w = .ok w') : Books env asset w' := by
  have hef := exec_effect hok
  refine ⟨?_, h.balanced.moved hT h.accounts hef.moved⟩
  rcases hef.asset with hkpt | ⟨hsm, id, queued, new, decimals, rfl, hqd, hac, hnew⟩
  · exact h.accounts.moved hef.moved hef.owners hkpt
  · refine h.accounts.kept hsm hef.owners ?_
    intro id b hb hon
    have hha := hg queued hqd
    rw [hac] at hha
    rcases hha with hcur | hcld
    · rw [hnew, hcur]
    · have hmem : b ∈ w.bookings.entries.map fun e => e.2 :=
        List.mem_map.mpr ⟨⟨id, b⟩, mem_entries.mpr hb, rfl⟩
      rw [hcld b hmem] at hon
      cases hon

theorem books_reachable (hT : env.token.ExactFor asset)
    (h : (system env).Reachable (Faithful env asset) w) : Books env asset w := by
  refine System.Reachable.invariant ?_ ?_ h
  · intro w h0
    obtain ⟨now, tokens, agentRegistry, hz, rfl⟩ := h0
    exact ⟨⟨fun _ _ => rfl, nofun⟩, hz asset⟩
  · intro w e w' _ hg hbks hs
    cases e with
    | close =>
      rw [step_close] at hs
      subst hs
      exact ⟨hbks.accounts.kept ⟨rfl, rfl, rfl⟩ (.of_eq rfl) fun _ _ _ _ => rfl, hbks.balanced⟩
    | external tokens =>
      rw [step_external] at hs
      subst hs
      refine ⟨⟨hbks.accounts.vacant, ?_⟩, ?_⟩
      · intro id b hb
        obtain ⟨asset, owner, hacd, hon⟩ := hbks.accounts.booked id b hb
        exact ⟨asset, owner, ⟨hacd.listed, hacd.account, hacd.exclusive⟩, hon⟩
      · exact (show env.token.balance tokens asset env.self = _ from hg).trans hbks.balanced
    | invoke => exact hbks.exec hT hg (step_invoke.mp hs)

/--
**The escrow is exact.** Take an exact token. In every state of every run that is faithful to the payment
asset, the contract's balance of the token is the sum of the escrow amounts of the open bookings that were
paid in it; and each booking was paid once, and paid out once it was closed and not before, in the asset it
was paid in: to the owner of the listing if it was completed, back to the client if it was cancelled.
-/
theorem marketplace_custody {asset : Addr} (hT : env.token.ExactFor asset)
    (h : (system env).Reachable (Faithful env asset) w) :
    env.token.balance w.tokens asset env.self = w.bookings.total (w.held asset) ∧
      ∀ id b, w.bookings.get id = some b → ∃ paid owner, w.paidIn id = some paid ∧
        Accounted env w id b paid owner := by
  have hbks := books_reachable hT h
  refine ⟨hbks.balanced, ?_⟩
  intro id b hb
  obtain ⟨paid, owner, hacd, _⟩ := hbks.accounts.booked id b hb
  exact ⟨paid, owner, hacd.paidIn, hacd⟩

/-! ## Runs to compare with -/

/-- Ledgers close in order, and nobody else uses the tokens. -/
def Undisturbed (w : World Addr Sym τ) : Event Addr Sym τ → Prop
  | .close timestamp => w.now ≤ timestamp
  | .external _ => False
  | .invoke _ _ => True

instance (w : World Addr Sym τ) (e : Event Addr Sym τ) : Decidable (Undisturbed w e) :=
  match e with
  | .close timestamp => inferInstanceAs (Decidable (w.now ≤ timestamp))
  | .external _ => .isFalse id
  | .invoke _ _ => .isTrue trivial

instance (w : World Addr Sym τ) (action : AdminAction Addr) : Decidable (action.Harmless w) :=
  match action with
  | .unpause => .isTrue trivial
  | .setPaymentAsset asset _ => inferInstanceAs (Decidable
      (w.paymentAsset = some asset ∨ ∀ b ∈ w.bookings.entries.map fun e => e.2, b.isOpen = false))

instance (asset : Addr) (w : World Addr Sym τ) (e : Event Addr Sym τ) :
    Decidable (Faithful env asset w e) :=
  match e with
  | .close _ => .isTrue trivial
  | .external tokens => inferInstanceAs (Decidable
      (env.token.balance tokens asset env.self = env.token.balance w.tokens asset env.self))
  | .invoke _ op =>
    match op with
    | .executeAction id =>
      inferInstanceAs (Decidable (∀ queued ∈ w.queuedActions.get id, queued.action.Harmless w))
    | .initializeContract _ | .setAdmin _ | .pause | .queueAction _ | .cancelAction _
    | .listService _ _ _ _ _ _ _ | .updateListingPrice _ _ | .bookAgent _ _ _ _ _
    | .completeBooking _ | .cancelBooking _ | .rateBooking _ _ => .isTrue trivial

/-! The addresses are numbers, the contract is `0`; all tokens have seven decimals. -/

namespace Sample

def deployment : Env Nat Nat (Token.Ledger Nat) where
  self := 0
  sha256 := fun _ => BytesN.zero 32
  xdr :=
    { string := id
      address := fun _ => []
      symbol := fun _ => []
      i128 := fun _ => []
      bytes := id }
  token := Token.ledger fun _ => 7

def signed (signer : Nat) (op : Op Nat Nat) : Event Nat Nat (Token.Ledger Nat) :=
  .invoke ⟨fun a => a == signer, fun _ _ => .returned⟩ op

/-- Everybody but the contract is rich, in every asset. -/
def wallets : Token.Ledger Nat := fun _ holder => if holder = 0 then 0 else 1000

/-- The admin `1` has the asset configured as action `id`, a day after it is queued. -/
def configure (asset id timestamp : Nat) : List (Event Nat Nat (Token.Ledger Nat)) :=
  [ signed 1 (.queueAction (.setPaymentAsset asset 7)), .close timestamp, signed 1 (.executeAction id) ]

/-- Agent `6` is listed by its owner `2` as listing `5`. -/
def listed : List (Event Nat Nat (Token.Ledger Nat)) :=
  signed 1 (.initializeContract 1) :: configure 9 0 86400 ++
    [ signed 2 (.listService 5 6 2 4 50 0 0) ]

/-- A client books it for `50`. -/
def book (client asset bookingId : Nat) : Event Nat Nat (Token.Ledger Nat) :=
  signed client (.bookAgent 5 client asset 50 bookingId)

theorem start_listed : (system deployment).start (World.init 0 wallets none) :=
  ⟨0, wallets, none, fun _ => rfl, rfl⟩

end Sample

/-- One booking is completed and one cancelled; then another asset is configured, and booked in. -/
theorem marketplace_custody_reconfigured : ∃ w : World Nat Nat (Token.Ledger Nat),
    w.paidIn 31 = some 9 ∧ w.paidIn 33 = some 8 ∧
      Sample.deployment.token.balance w.tokens 9 Sample.deployment.self = w.bookings.total (w.held 9) ∧
      ∀ id b, w.bookings.get id = some b → ∃ paid owner, w.paidIn id = some paid ∧
        Accounted Sample.deployment w id b paid owner := by
  have hpl : ((system Sample.deployment).play (Faithful Sample.deployment 9)
      (Sample.listed ++ [Sample.book 3 9 31, Sample.book 4 9 32, Sample.signed 2 (.completeBooking 31),
        Sample.signed 4 (.cancelBooking 32)] ++ Sample.configure 8 1 172800 ++ [Sample.book 3 8 33])
      (World.init 0 Sample.wallets none)).any
        (fun w => decide (w.paidIn 31 = some 9 ∧ w.paidIn 33 = some 8)) = true := by
    decide
  obtain ⟨w, hw, hfst, hsec⟩ := exists_reachable Sample.start_listed hpl
  exact ⟨w, hfst, hsec, marketplace_custody ((Token.ledger_exact _).exactFor 9) hw⟩

/--
Another asset is configured while booking `31`, paid in asset `9`, is open. It is then paid out in asset `8`,
out of the escrow of booking `32`, which is open and for which nothing is left.
-/
theorem payout_in_other_asset : ∃ w : World Nat Nat (Token.Ledger Nat),
    (system Sample.deployment).Reachable Undisturbed w ∧
      w.account 31 = [⟨31, 9, 3, 0, 50⟩, ⟨31, 8, 0, 2, 50⟩] ∧
      w.bookings.total (w.held 8) = 50 ∧
      Sample.deployment.token.balance w.tokens 8 Sample.deployment.self = 0 := by
  have hpl : ((system Sample.deployment).play Undisturbed
      (Sample.listed ++ [Sample.book 3 9 31] ++ Sample.configure 8 1 172800 ++
        [Sample.book 4 8 32, Sample.signed 2 (.completeBooking 31)])
      (World.init 0 Sample.wallets none)).any (fun w => decide
        (w.account 31 = [⟨31, 9, 3, 0, 50⟩, ⟨31, 8, 0, 2, 50⟩] ∧ w.bookings.total (w.held 8) = 50 ∧
          Sample.deployment.token.balance w.tokens 8 Sample.deployment.self = 0)) = true := by
    decide
  exact exists_reachable Sample.start_listed hpl

end AiNet.Marketplace
