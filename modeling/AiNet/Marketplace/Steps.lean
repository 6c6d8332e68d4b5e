import AiNet.Marketplace.Contract

/-!
# What each call does to the money

A call that succeeds does one of four things: it leaves the bookings and the tokens
alone, it rates a completed booking, it takes the payment for a new one, or it pays an
open one out. The results about money split on these four. Storage
-/

namespace AiNet.Marketplace

open Core

variable {Addr Sym τ : Type} [DecidableEq Addr] [DecidableEq Sym]
  {env : Env Addr Sym τ} {call : Call Addr Sym} {w w' : World Addr Sym τ}

/-- Neither completed nor cancelled. -/
def Booking.isOpen (b : Booking Addr Sym) : Bool := !b.completed && !b.cancelled

/-- The bookings, the transfers and the tokens are as they were. -/
structure SameMoney (w w' : World Addr Sym τ) : Prop where
  bookings : w'.bookings = w.bookings
  tokens : w'.tokens = w.tokens
  journal : w'.journal = w.journal

/-- A transfer for a booking was made, and written down. -/
structure Transferred (env : Env Addr Sym τ) (w w' : World Addr Sym τ)
    (p : Payment Addr Sym) : Prop where
  transfer : env.token.transfer w.tokens p.asset p.src p.dst p.units = some w'.tokens
  journal : w'.journal = w.journal ++ [p]

/-- What a call does to the money. -/
inductive Moved (env : Env Addr Sym τ) (w w' : World Addr Sym τ) : Prop
  | kept (same : SameMoney w w')
  | rated {id b rating} (hb : w.bookings.get id = some b) (hcompleted : b.completed = true)
      (hbookings : w'.bookings = w.bookings.set id { b with rating := rating })
      (htokens : w'.tokens = w.tokens) (hjournal : w'.journal = w.journal)
  | booked {id b asset listing} (hnew : w.bookings.get id = none) (hopen : b.isOpen = true)
      (hlisting : w.listings.get b.listingId = some listing) (hclient : b.client ≠ env.self)
      (hasset : w.paymentAsset = some asset) (hbookings : w'.bookings = w.bookings.set id b)
      (htransferred : Transferred env w w' ⟨id, asset, b.client, env.self, b.escrowAmount⟩)
  | completed {id b asset listing} (hb : w.bookings.get id = some b) (hopen : b.isOpen = true)
      (hlisting : w.listings.get b.listingId = some listing) (howner : listing.owner ≠ env.self)
      (hasset : w.paymentAsset = some asset)
      (hbookings : w'.bookings = w.bookings.set id { b with completed := true })
      (htransferred : Transferred env w w' ⟨id, asset, env.self, listing.owner, b.escrowAmount⟩)
  | cancelled {id b asset} (hb : w.bookings.get id = some b) (hopen : b.isOpen = true)
      (hclient : b.client ≠ env.self) (hasset : w.paymentAsset = some asset)
      (hbookings : w'.bookings = w.bookings.set id { b with cancelled := true })
      (htransferred : Transferred env w w' ⟨id, asset, env.self, b.client, b.escrowAmount⟩)

def SameOwners (w w' : World Addr Sym τ) : Prop :=
  ∀ id listing, w.listings.get id = some listing →
    ∃ listing', w'.listings.get id = some listing' ∧ listing'.owner = listing.owner

section

omit [DecidableEq Addr]

theorem SameOwners.of_eq (h : w'.listings = w.listings) : SameOwners w w' := by
  intro id listing hlsg
  rw [h]
  exact ⟨listing, hlsg, rfl⟩

theorem SameOwners.set {id : Sym} {new : ServiceListing Addr Sym}
    (h : w'.listings = w.listings.set id new)
    (hown : ∀ old, w.listings.get id = some old → new.owner = old.owner) : SameOwners w w' := by
  intro other listing hlsg
  rw [h, Storage.get_set]
  by_cases hid : other = id
  · subst hid
    rw [if_pos rfl]
    exact ⟨new, rfl, hown listing hlsg⟩
  · rw [if_neg hid]
    exact ⟨listing, hlsg, rfl⟩

end

/-- What a call does. -/
structure Effect (env : Env Addr Sym τ) (w : World Addr Sym τ) (op : Op Addr Sym)
    (w' : World Addr Sym τ) : Prop where
  moved : Moved env w w'
  owners : SameOwners w w'
  /-- The payment asset changes by a queued action only, which does nothing else. -/
  asset : w'.paymentAsset = w.paymentAsset ∨ SameMoney w w' ∧ ∃ id queued asset decimals,
    op = .executeAction id ∧ w.queuedActions.get id = some queued ∧
      queued.action = .setPaymentAsset asset decimals ∧ w'.paymentAsset = some asset

section

omit [DecidableEq Addr] [DecidableEq Sym]

theorem paymentToken_ok {asset : Addr} {decimals : Nat}
    (h : paymentToken env w = .ok (asset, decimals)) : w.paymentAsset = some asset := by
  unfold paymentToken at h
  simp only [bind_eq_ok, okOr_eq_ok, failIf_eq_ok, pure_eq_ok] at h
  obtain ⟨a, ha, _, _, _, _, he⟩ := h
  rw [ha, (Prod.mk.inj he).1]

theorem transferFor_ok {id : Sym} {asset src dst : Addr} {units : Int}
    (h : transferFor env id asset src dst units w = .ok w') :
    Transferred env w w' ⟨id, asset, src, dst, units⟩ ∧
      w' = { w with tokens := w'.tokens, journal := w'.journal } := by
  unfold transferFor at h
  simp only [bind_eq_ok, orTrap_eq_ok, pure_eq_ok] at h
  obtain ⟨tokens, htrf, rfl⟩ := h
  exact ⟨⟨htrf, rfl⟩, rfl⟩

end

omit [DecidableEq Addr] in
theorem openBooking_ok {id : Sym} {b : Booking Addr Sym} (h : openBooking w id = .ok b) :
    w.bookings.get id = some b ∧ b.isOpen = true := by
  unfold openBooking at h
  simp only [bind_eq_ok, okOr_eq_ok, failIf_eq_ok, pure_eq_ok, Bool.not_eq_true] at h
  obtain ⟨_, hb, _, hcmp, _, hcan, rfl⟩ := h
  unfold Booking.isOpen
  rw [hcmp, hcan]
  exact ⟨hb, rfl⟩

/-! ## The entry points that move no money -/

variable {op : Op Addr Sym}

omit [DecidableEq Addr] in
theorem Effect.none (hmon : SameMoney w w') (hls : w'.listings = w.listings)
    (hast : w'.paymentAsset = w.paymentAsset) :
    Effect env w op w' := ⟨.kept hmon, .of_eq hls, .inl hast⟩

section

omit [DecidableEq Sym]

theorem initializeContract_ok {admin : Addr} (h : initializeContract env call admin w = .ok w') :
    w' = { w with admin := some admin, paused := false } := by
  unfold initializeContract at h
  simp only [bind_eq_ok, pure_eq_ok] at h
  obtain ⟨_, _, _, _, rfl⟩ := h
  rfl

theorem setAdmin_ok {newAdmin : Addr} (h : setAdmin env call newAdmin w = .ok w') :
    w' = { w with admin := some newAdmin } := by
  unfold setAdmin at h
  simp only [bind_eq_ok, pure_eq_ok] at h
  obtain ⟨_, _, _, _, _, _, rfl⟩ := h
  rfl

theorem pause_ok (h : pause env call w = .ok w') : w' = { w with paused := true } := by
  unfold pause at h
  simp only [bind_eq_ok, pure_eq_ok] at h
  obtain ⟨_, _, rfl⟩ := h
  rfl

theorem queueAction_ok {action : AdminAction Addr} (h : queueAction env call action w = .ok w') :
    w' = { w with actionCount := w'.actionCount, queuedActions := w'.queuedActions } := by
  unfold queueAction at h
  simp only [bind_eq_ok, pure_eq_ok] at h
  obtain ⟨_, _, _, _, _, _, rfl⟩ := h
  rfl

theorem cancelAction_ok {id : Nat} (h : cancelAction env call id w = .ok w') :
    w' = { w with queuedActions := w'.queuedActions } := by
  unfold cancelAction at h
  simp only [bind_eq_ok, pure_eq_ok] at h
  obtain ⟨_, _, _, _, rfl⟩ := h
  rfl

end

theorem executeAction_effect {id : Nat} (h : executeAction env call id w = .ok w') :
    Effect env w (.executeAction id) w' := by
  unfold executeAction at h
  simp only [bind_eq_ok, okOr_eq_ok] at h
  obtain ⟨_, _, queued, hqd, _, _, h⟩ := h
  unfold applyAction at h
  cases hac : queued.action with
  | unpause =>
    rw [hac] at h
    cases h
    exact .none ⟨rfl, rfl, rfl⟩ rfl rfl
  | setPaymentAsset asset decimals =>
    rw [hac] at h
    simp only [bind_eq_ok, pure_eq_ok] at h
    obtain ⟨_, _, rfl⟩ := h
    exact ⟨.kept ⟨rfl, rfl, rfl⟩, .of_eq rfl,
      .inr ⟨⟨rfl, rfl, rfl⟩, id, queued, asset, decimals, rfl, hqd, hac, rfl⟩⟩

theorem listService_effect {listingId agentId capability : Sym} {owner : Addr}
    {priceStroops : Int} {maxResponseTime availabilityHours : Nat}
    (h : listService env call listingId agentId owner capability priceStroops maxResponseTime
      availabilityHours w = .ok w') : Effect env w op w' := by
  unfold listService at h
  simp only [bind_eq_ok, failIf_eq_ok, pure_eq_ok, Bool.not_eq_true] at h
  obtain ⟨_, _, _, _, _, _, _, _, _, hnew, _, _, rfl⟩ := h
  refine ⟨.kept ⟨rfl, rfl, rfl⟩, .set rfl ?_, .inl rfl⟩
  intro old hold
  rw [Storage.has_eq_false.mp hnew] at hold
  cases hold

theorem updateListingPrice_effect {listingId : Sym} {newPriceStroops : Int}
    (h : updateListingPrice env call listingId newPriceStroops w = .ok w') :
    Effect env w op w' := by
  unfold updateListingPrice at h
  simp only [bind_eq_ok, okOr_eq_ok, pure_eq_ok] at h
  obtain ⟨_, _, _, _, listing, hlsg, _, _, _, _, _, _, rfl⟩ := h
  refine ⟨.kept ⟨rfl, rfl, rfl⟩, .set rfl ?_, .inl rfl⟩
  intro old hold
  rw [Option.some.inj (hlsg.symm.trans hold)]

/-! ## The entry points for bookings -/

theorem bookAgent_effect {listingId bookingId : Sym} {client asset : Addr} {payment : Int}
    (h : bookAgent env call listingId client asset payment bookingId w = .ok w') :
    Effect env w op w' := by
  unfold bookAgent at h
  simp only [bind_eq_ok, okOr_eq_ok, failIf_eq_ok, requireAuth_eq_ok, pure_eq_ok, Bool.not_eq_true] at h
  obtain ⟨_, _, _, ⟨hsf, _⟩, ⟨token, decimals⟩, htok, _, _, listing, hlsg, _, _, _, _, _, _,
    _, hnew, units, _, w₁, htrf, rfl⟩ := h
  obtain ⟨htra, hrst⟩ := transferFor_ok htrf
  refine ⟨?_, ?_, .inl ?_⟩
  · refine .booked (b := ⟨bookingId, listingId, listing.agentId, client, units, w₁.now, false, false, 0⟩)
      (Storage.has_eq_false.mp hnew) rfl hlsg hsf (paymentToken_ok htok) ?_
      ⟨htra.transfer, htra.journal⟩
    rw [hrst]
  · exact .of_eq (by rw [hrst])
  · rw [hrst]

theorem completeBooking_effect {id : Sym} (h : completeBooking env call id w = .ok w') : Effect env w op w' := by
  unfold completeBooking at h
  simp only [bind_eq_ok, okOr_eq_ok, requireAuth_eq_ok] at h
  obtain ⟨_, _, b, hb, listing, hlsg, _, ⟨hsf, _⟩, ⟨token, decimals⟩, htok, htrf⟩ := h
  obtain ⟨hget, hon⟩ := openBooking_ok hb
  obtain ⟨htra, hrst⟩ := transferFor_ok htrf
  refine ⟨?_, ?_, .inl ?_⟩
  · refine .completed hget hon hlsg hsf (paymentToken_ok htok) ?_
      ⟨htra.transfer, htra.journal⟩
    rw [hrst]
  · exact .of_eq (by rw [hrst])
  · rw [hrst]

theorem cancelBooking_effect {id : Sym} (h : cancelBooking env call id w = .ok w') : Effect env w op w' := by
  unfold cancelBooking at h
  simp only [bind_eq_ok, requireAuth_eq_ok] at h
  obtain ⟨_, _, b, hb, _, ⟨hsf, _⟩, ⟨token, decimals⟩, htok, htrf⟩ := h
  obtain ⟨hget, hon⟩ := openBooking_ok hb
  obtain ⟨htra, hrst⟩ := transferFor_ok htrf
  refine ⟨?_, ?_, .inl ?_⟩
  · refine .cancelled hget hon hsf (paymentToken_ok htok) ?_
      ⟨htra.transfer, htra.journal⟩
    rw [hrst]
  · exact .of_eq (by rw [hrst])
  · rw [hrst]

theorem rateBooking_effect {id : Sym} {rating : Nat}
    (h : rateBooking env call id rating w = .ok w') : Effect env w op w' := by
  unfold rateBooking at h
  simp only [bind_eq_ok, okOr_eq_ok, failIf_eq_ok, pure_eq_ok, Bool.not_eq_false] at h
  obtain ⟨_, _, _, _, b, hb, _, hcmp, _, _, _, _, _, _, _, _, rfl⟩ := h
  exact ⟨.rated hb hcmp rfl rfl rfl, .of_eq rfl, .inl rfl⟩

/-- **Every call does one of these.** -/
theorem exec_effect (h : exec env call op w = .ok w') :
    Effect env w op w' := by
  cases op with
  | initializeContract =>
    rw [initializeContract_ok h]
    exact .none ⟨rfl, rfl, rfl⟩ rfl rfl
  | setAdmin =>
    rw [setAdmin_ok h]
    exact .none ⟨rfl, rfl, rfl⟩ rfl rfl
  | pause =>
    rw [pause_ok h]
    exact .none ⟨rfl, rfl, rfl⟩ rfl rfl
  | queueAction =>
    rw [queueAction_ok h]
    exact .none ⟨rfl, rfl, rfl⟩ rfl rfl
  | executeAction => exact executeAction_effect h
  | cancelAction =>
    rw [cancelAction_ok h]
    exact .none ⟨rfl, rfl, rfl⟩ rfl rfl
  | listService => exact listService_effect h
  | updateListingPrice => exact updateListingPrice_effect h
  | bookAgent => exact bookAgent_effect h
  | completeBooking => exact completeBooking_effect h
  | cancelBooking => exact cancelBooking_effect h
  | rateBooking => exact rateBooking_effect h

end AiNet.Marketplace
