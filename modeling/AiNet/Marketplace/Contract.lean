import AiNet.Core.Host
import AiNet.Core.Machine
import AiNet.Core.Storage
import AiNet.Core.Token
import AiNet.Core.Transition

/-!
# Agent marketplace types

The records and error codes of `agent_marketplace/src/types.rs` and `errors.rs`. Events
are left out: nothing reads them back.

`journal` is ours: it lists the transfers between the contract and others, in order. No
function reads it.
-/

namespace AiNet.Marketplace

open Core Option

/-! ## Constants -/

def timelockDelay : Nat := 86400
def stroopDecimals : Nat := 7
def minimumListingDuration : Nat := 48 * 60 * 60

/-- The error codes the modelled functions return. -/
inductive Error where
  | unauthorized | contractPaused | alreadyExists | notFound | invalidPrice | serviceNotAvailable
  | insufficientPayment | bookingNotFound | bookingAlreadyCompleted | bookingAlreadyCancelled
  | assetMismatch | assetNotConfigured | invalidAmount | actionNotQueued | timelockNotElapsed
  | agentNotFound | agentFrozen | insufficientBond | agentDeregistered | agentNotEligible
  deriving DecidableEq

/-! ## Records -/

inductive AdminAction (Addr : Type) where
  | unpause
  | setPaymentAsset (asset : Addr) (decimals : Nat)
  deriving DecidableEq

structure QueuedAction (Addr : Type) where
  action : AdminAction Addr
  eta : Nat
  deriving DecidableEq

structure ServiceListing (Addr Sym : Type) where
  listingId : Sym
  agentId : Sym
  owner : Addr
  capability : Sym
  priceStroops : Int
  maxResponseTime : Nat
  availabilityHours : Nat
  active : Bool
  deriving DecidableEq

structure Booking (Addr Sym : Type) where
  bookingId : Sym
  listingId : Sym
  agentId : Sym
  client : Addr
  /-- In units of the payment asset. Which asset that was is not stored. -/
  escrowAmount : Int
  createdAt : Nat
  completed : Bool
  cancelled : Bool
  rating : Nat
  deriving DecidableEq

structure AgentRating (Sym : Type) where
  agentId : Sym
  totalRatings : Nat
  ratingSum : Nat
  deriving DecidableEq

structure PriceHistoryEntry where
  timestamp : Nat
  priceStroops : Int
  deriving DecidableEq

/-- One transfer for a booking. -/
structure Payment (Addr Sym : Type) where
  bookingId : Sym
  asset : Addr
  src : Addr
  dst : Addr
  units : Int
  deriving DecidableEq

/-! ## The world a call runs in -/

/-- The contract's storage, the ledger's clock, the tokens and the transfers made. -/
structure World (Addr Sym τ : Type) where
  /-- `env.ledger().timestamp()`. -/
  now : Nat
  tokens : τ
  admin : Option Addr
  paused : Bool
  paymentAsset : Option Addr
  assetDecimals : Option Nat
  actionCount : Nat
  queuedActions : Storage Nat (QueuedAction Addr)
  agentRegistry : Option Addr
  listings : Storage Sym (ServiceListing Addr Sym)
  capabilityListings : Storage (Sym × Sym) Sym
  listingsByCapability : Storage Sym (List Sym)
  priceHistory : Storage Sym (List PriceHistoryEntry)
  bookings : Storage Sym (Booking Addr Sym)
  ratings : Storage Sym (AgentRating Sym)
  journal : List (Payment Addr Sym)

/-- The contract as deployed, before any call. No function sets the registry. -/
def World.init {Addr Sym τ : Type} (now : Nat) (tokens : τ) (agentRegistry : Option Addr) :
    World Addr Sym τ where
  now := now
  tokens := tokens
  admin := none
  paused := false
  paymentAsset := none
  assetDecimals := none
  actionCount := 0
  queuedActions := ∅
  agentRegistry := agentRegistry
  listings := ∅
  capabilityListings := ∅
  listingsByCapability := ∅
  priceHistory := ∅
  bookings := ∅
  ratings := ∅
  journal := []

/-!
## The entry points of the agent marketplace

Each function of `agent_marketplace/src/lib.rs` that reads or writes the contract's
state, in the source's order of checks. A transfer carries the booking it is for, which
the journal records.
-/

variable {Addr Sym τ : Type} [DecidableEq Addr] [DecidableEq Sym]

/-- What is fixed for a deployment: the host and the token contracts. -/
structure Env (Addr Sym τ : Type) extends Host Addr Sym where
  token : Token Addr τ

/-- What differs from call to call: who signed, and what the registry would answer. -/
structure Call (Addr Sym : Type) where
  signed : Addr → Bool
  verifyAgentEligible : Addr → Sym → Invoked

variable (env : Env Addr Sym τ) (call : Call Addr Sym)

/-! ## Helpers -/

def requireAdmin (w : World Addr Sym τ) : Outcome Error Addr := do
  let admin ← okOr w.admin .unauthorized
  requireAuth env.toHost call.signed admin
  pure admin

def requireNotPaused (w : World Addr Sym τ) : Outcome Error Unit :=
  failIf (w.paused = true) .contractPaused

/-- The error a failed call of the registry is mapped to. -/
def registryError : Invoked → Outcome Error Unit
  | .returned => .ok ()
  | .contractError 1 => .error (.error .agentNotFound)
  | .contractError 5 => .error (.error .agentFrozen)
  | .contractError 10 => .error (.error .insufficientBond)
  | .contractError 39 => .error (.error .agentDeregistered)
  | .contractError _ | .aborted => .error (.error .agentNotEligible)

def verifyAgentEligibility (w : World Addr Sym τ) (agentId : Sym) : Outcome Error Unit :=
  w.agentRegistry.elim (.ok ()) fun registry =>
    registryError (call.verifyAgentEligible registry agentId)

def stroopsToUnits (amount : Int) (decimals : Nat) : Outcome Error Int :=
  if amount < 0 then .error (.error .invalidAmount)
  else if stroopDecimals ≤ decimals then
    okOr ((checked128 (10 ^ (decimals - stroopDecimals))).bind fun f => checked128 (amount * f))
      .invalidAmount
  else
    let f : Int := 10 ^ (stroopDecimals - decimals)
    if amount % f ≠ 0 then .error (.error .invalidAmount) else .ok (amount / f)

/-- `payment_token`: the configured asset and its decimals. -/
def paymentToken (w : World Addr Sym τ) : Outcome Error (Addr × Nat) := do
  let asset ← okOr w.paymentAsset .assetNotConfigured
  let decimals ← okOr w.assetDecimals .assetNotConfigured
  failIf (env.token.decimals asset ≠ decimals) .assetMismatch
  pure (asset, decimals)

/-- `token.transfer`, for a booking. -/
def transferFor (bookingId : Sym) (asset src dst : Addr) (units : Int)
    (w : World Addr Sym τ) : Outcome Error (World Addr Sym τ) := do
  let tokens ← orTrap (env.token.transfer w.tokens asset src dst units)
  pure { w with tokens := tokens, journal := w.journal ++ [⟨bookingId, asset, src, dst, units⟩] }

/-! ## Administration -/

def initializeContract (admin : Addr) (w : World Addr Sym τ) :
    Outcome Error (World Addr Sym τ) := do
  requireAuth env.toHost call.signed admin
  failIf (w.admin.isSome = true) .alreadyExists
  pure { w with admin := some admin, paused := false }

def setAdmin (newAdmin : Addr) (w : World Addr Sym τ) :
    Outcome Error (World Addr Sym τ) := do
  requireNotPaused w
  let _ ← requireAdmin env call w
  requireAuth env.toHost call.signed newAdmin
  pure { w with admin := some newAdmin }

def pause (w : World Addr Sym τ) : Outcome Error (World Addr Sym τ) := do
  let _ ← requireAdmin env call w
  pure { w with paused := true }

def queueAction (action : AdminAction Addr) (w : World Addr Sym τ) :
    Outcome Error (World Addr Sym τ) := do
  let _ ← requireAdmin env call w
  let eta ← orTrap (checked64 (w.now + timelockDelay))
  let count ← orTrap (checked32 (w.actionCount + 1))
  pure { w with
    actionCount := count
    queuedActions := w.queuedActions.set w.actionCount ⟨action, eta⟩ }

/-- What a queued action does when its time has come. -/
def applyAction (action : AdminAction Addr) (w : World Addr Sym τ) :
    Outcome Error (World Addr Sym τ) :=
  match action with
  | .unpause => .ok { w with paused := false }
  | .setPaymentAsset asset decimals => do
    failIf (env.token.decimals asset ≠ decimals) .assetMismatch
    pure { w with paymentAsset := some asset, assetDecimals := some decimals }

def executeAction (id : Nat) (w : World Addr Sym τ) :
    Outcome Error (World Addr Sym τ) := do
  let _ ← requireAdmin env call w
  let queued ← okOr (w.queuedActions.get id) .actionNotQueued
  failIf (w.now < queued.eta) .timelockNotElapsed
  applyAction env queued.action { w with queuedActions := w.queuedActions.remove id }

def cancelAction (id : Nat) (w : World Addr Sym τ) :
    Outcome Error (World Addr Sym τ) := do
  let _ ← requireAdmin env call w
  failIf (w.queuedActions.has id = false) .actionNotQueued
  pure { w with queuedActions := w.queuedActions.remove id }

/-! ## Listings -/

def listedAlready (w : World Addr Sym τ) (agentId capability : Sym) : Bool :=
  ((w.capabilityListings.get (agentId, capability)).bind w.listings.get).any fun existing =>
    existing.active

def listService (listingId agentId : Sym) (owner : Addr) (capability : Sym)
    (priceStroops : Int) (maxResponseTime availabilityHours : Nat) (w : World Addr Sym τ) :
    Outcome Error (World Addr Sym τ) := do
  requireNotPaused w
  requireAuth env.toHost call.signed owner
  verifyAgentEligibility call w agentId
  failIf (priceStroops ≤ 0) .invalidPrice
  failIf (w.listings.has listingId = true) .alreadyExists
  failIf (listedAlready w agentId capability = true) .alreadyExists
  let listing : ServiceListing Addr Sym :=
    { listingId := listingId
      agentId := agentId
      owner := owner
      capability := capability
      priceStroops := priceStroops
      maxResponseTime := maxResponseTime
      availabilityHours := availabilityHours
      active := true }
  let ids := (w.listingsByCapability.get capability).getD []
  pure { w with
    listings := w.listings.set listingId listing
    capabilityListings := w.capabilityListings.set (agentId, capability) listingId
    priceHistory := w.priceHistory.set listingId [⟨w.now, priceStroops⟩]
    listingsByCapability := w.listingsByCapability.set capability (ids ++ [listingId]) }

def updateListingPrice (listingId : Sym) (newPriceStroops : Int) (w : World Addr Sym τ) :
    Outcome Error (World Addr Sym τ) := do
  requireNotPaused w
  failIf (newPriceStroops ≤ 0) .invalidPrice
  let listing ← okOr (w.listings.get listingId) .notFound
  requireAuth env.toHost call.signed listing.owner
  failIf (listing.active = false) .serviceNotAvailable
  let history := (w.priceHistory.get listingId).getD []
  failIf (history.getLast?.any (fun entry =>
    decide (satSub64 w.now entry.timestamp < minimumListingDuration)) = true) .invalidPrice
  pure { w with
    listings := w.listings.set listingId { listing with priceStroops := newPriceStroops }
    priceHistory := w.priceHistory.set listingId (history ++ [⟨w.now, newPriceStroops⟩]) }

/-! ## Bookings -/

def bookAgent (listingId : Sym) (client asset : Addr) (paymentAmount : Int)
    (bookingId : Sym) (w : World Addr Sym τ) : Outcome Error (World Addr Sym τ) := do
  requireNotPaused w
  requireAuth env.toHost call.signed client
  let (token, decimals) ← paymentToken env w
  failIf (token ≠ asset) .assetMismatch
  let listing ← okOr (w.listings.get listingId) .notFound
  verifyAgentEligibility call w listing.agentId
  failIf (listing.active = false) .serviceNotAvailable
  failIf (paymentAmount < listing.priceStroops) .insufficientPayment
  failIf (w.bookings.has bookingId = true) .alreadyExists
  let escrowAmount ← stroopsToUnits paymentAmount decimals
  let w ← transferFor env bookingId token client env.self escrowAmount w
  let booking : Booking Addr Sym :=
    { bookingId := bookingId
      listingId := listingId
      agentId := listing.agentId
      client := client
      escrowAmount := escrowAmount
      createdAt := w.now
      completed := false
      cancelled := false
      rating := 0 }
  pure { w with bookings := w.bookings.set bookingId booking }

/-- A booking that is neither completed nor cancelled, as both entry points below ask for it. -/
def openBooking (w : World Addr Sym τ) (bookingId : Sym) :
    Outcome Error (Booking Addr Sym) := do
  let booking ← okOr (w.bookings.get bookingId) .bookingNotFound
  failIf (booking.completed = true) .bookingAlreadyCompleted
  failIf (booking.cancelled = true) .bookingAlreadyCancelled
  pure booking

def completeBooking (bookingId : Sym) (w : World Addr Sym τ) :
    Outcome Error (World Addr Sym τ) := do
  requireNotPaused w
  let booking ← openBooking w bookingId
  let listing ← okOr (w.listings.get booking.listingId) .notFound
  requireAuth env.toHost call.signed listing.owner
  let w := { w with bookings := w.bookings.set bookingId { booking with completed := true } }
  -- the asset configured by now, whichever the booking was paid in
  let (token, _) ← paymentToken env w
  transferFor env bookingId token env.self listing.owner booking.escrowAmount w

def cancelBooking (bookingId : Sym) (w : World Addr Sym τ) :
    Outcome Error (World Addr Sym τ) := do
  requireNotPaused w
  let booking ← openBooking w bookingId
  requireAuth env.toHost call.signed booking.client
  let w := { w with bookings := w.bookings.set bookingId { booking with cancelled := true } }
  let (token, _) ← paymentToken env w
  transferFor env bookingId token env.self booking.client booking.escrowAmount w

def rateBooking (bookingId : Sym) (rating : Nat) (w : World Addr Sym τ) :
    Outcome Error (World Addr Sym τ) := do
  requireNotPaused w
  failIf (¬ (1 ≤ rating ∧ rating ≤ 5)) .invalidPrice
  let booking ← okOr (w.bookings.get bookingId) .bookingNotFound
  failIf (booking.completed = false) .bookingAlreadyCancelled
  failIf (booking.rating ≠ 0) .alreadyExists
  requireAuth env.toHost call.signed booking.client
  let agentRating := (w.ratings.get booking.agentId).getD ⟨booking.agentId, 0, 0⟩
  let totalRatings ← orTrap (checked64 (agentRating.totalRatings + 1))
  let ratingSum ← orTrap (checked64 (agentRating.ratingSum + rating))
  pure { w with
    bookings := w.bookings.set bookingId { booking with rating := rating }
    ratings := w.ratings.set booking.agentId ⟨agentRating.agentId, totalRatings, ratingSum⟩ }

/-! ## The contract as a transition system -/

/-- The state-changing entry points and their arguments. -/
inductive Op (Addr Sym : Type) where
  | initializeContract (admin : Addr)
  | setAdmin (newAdmin : Addr)
  | pause
  | queueAction (action : AdminAction Addr)
  | executeAction (id : Nat)
  | cancelAction (id : Nat)
  | listService (listingId agentId : Sym) (owner : Addr) (capability : Sym)
      (priceStroops : Int) (maxResponseTime availabilityHours : Nat)
  | updateListingPrice (listingId : Sym) (newPriceStroops : Int)
  | bookAgent (listingId : Sym) (client asset : Addr) (paymentAmount : Int)
      (bookingId : Sym)
  | completeBooking (bookingId : Sym)
  | cancelBooking (bookingId : Sym)
  | rateBooking (bookingId : Sym) (rating : Nat)

/-- One call of an entry point. -/
def exec : Op Addr Sym → World Addr Sym τ → Outcome Error (World Addr Sym τ)
  | .initializeContract admin => initializeContract env call admin
  | .setAdmin newAdmin => setAdmin env call newAdmin
  | .pause => pause env call
  | .queueAction action => queueAction env call action
  | .executeAction id => executeAction env call id
  | .cancelAction id => cancelAction env call id
  | .listService listingId agentId owner capability priceStroops maxResponseTime availabilityHours =>
    listService env call listingId agentId owner capability priceStroops maxResponseTime
      availabilityHours
  | .updateListingPrice listingId newPriceStroops =>
    updateListingPrice env call listingId newPriceStroops
  | .bookAgent listingId client asset paymentAmount bookingId =>
    bookAgent env call listingId client asset paymentAmount bookingId
  | .completeBooking bookingId => completeBooking env call bookingId
  | .cancelBooking bookingId => cancelBooking env call bookingId
  | .rateBooking bookingId rating => rateBooking env call bookingId rating

/-- What can happen in a run. -/
inductive Event (Addr Sym τ : Type) where
  /-- A ledger closes; calls from now on see this timestamp. -/
  | close (timestamp : Nat)
  /-- Anybody else uses the token contracts. -/
  | external (tokens : τ)
  /-- A call of the contract. -/
  | invoke (call : Call Addr Sym) (op : Op Addr Sym)

/-- The contract among its callers: deployed at any time, when it holds nothing. -/
def system : System (World Addr Sym τ) (Event Addr Sym τ) where
  start w := ∃ now tokens agentRegistry, (∀ asset, env.token.balance tokens asset env.self = 0) ∧
    w = World.init now tokens agentRegistry
  step w
    | .close timestamp => some { w with now := timestamp }
    | .external tokens => some { w with tokens := tokens }
    | .invoke call op => (exec env call op w).toOption

variable {env : Env Addr Sym τ} {w w' : World Addr Sym τ}

theorem step_invoke {call : Call Addr Sym} {op : Op Addr Sym} :
    (system env).step w (.invoke call op) = some w' ↔ exec env call op w = .ok w' :=
  toOption_eq_some

theorem step_close {timestamp : Nat} :
    (system env).step w (.close timestamp) = some w' ↔ { w with now := timestamp } = w' := by
  unfold system
  exact some_inj

theorem step_external {tokens : τ} :
    (system env).step w (.external tokens) = some w' ↔ { w with tokens := tokens } = w' := by
  unfold system
  exact some_inj

end AiNet.Marketplace
