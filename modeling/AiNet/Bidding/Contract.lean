import AiNet.Core.Host
import AiNet.Core.Storage
import AiNet.Core.Token
import AiNet.Core.Machine

/-!
# Bid and auction types

The records of `agent_bidding/src/types.rs` and the error codes of `errors.rs`, over
arbitrary types of addresses and symbols. Events, rent extension and the stored
version string are left out: nothing reads them back.

`World` is the contract's storage next to the two things outside it that its
functions read or move, the ledger's clock and the token ledger. `journal` is ours:
it records every transfer the contract makes together with the obligation it
settles, so that a statement can speak of a bond that was paid back in the past. No
function reads it.
-/

namespace AiNet.Bidding

open Core

/-! ## Constants, with the source's values (seconds, stroops, bytes) -/

def defaultBiddingDurationSecs : Nat := 3600
def defaultRevealDurationSecs : Nat := 3600
def maxPhaseDurationSecs : Nat := 30 * 24 * 60 * 60
def minPhaseDurationSecs : Nat := 60
def antiSnipeWindowSecs : Nat := 5 * 60
def antiSnipeExtensionSecs : Nat := 5 * 60
def claimWindowSecs : Nat := 604800
def maxReputation : Nat := 100
def maxBidPrice : Int := 100000000000000000
def maxBidders : Nat := 100
def maxBiddersPerAuction : Nat := 100
def maxTermsLen : Nat := 512
def scoreScale : Int := 1000
def priceWeight : Int := 60
def reputationWeight : Int := 40
def stroopDecimals : Nat := 7
def commitmentDomain : String := "ai-net:agent_bidding:v2:bid"

/-! ## Errors -/

/-- The error codes the modelled functions return. -/
inductive Error where
  | notFound | unauthorized | alreadyExists | notInBiddingPhase | biddingPeriodActive
  | biddingPeriodEnded | invalidCommitment | bidAlreadyExists | bidAlreadyRevealed
  | notInRevealPhase | notEnoughBids | invalidReputation | invalidPrice | invalidBond
  | alreadyAwarded | winnerNotDetermined | escrowAlreadyCreated | revealPeriodEnded
  | revealPeriodActive | auctionFull | invalidDuration | termsTooLong | invalidPriceRange
  | auctionClosed | auctionNotAbortable | arithmeticOverflow | contractPaused
  | winnerCannotClaimRefund | refundAlreadyClaimed | claimWindowExpired | alreadyRefunded
  | assetNotConfigured | assetMismatch | invalidAmount | escrowAlreadySettled
  | maxBiddersReached | agentNotFound | agentFrozen | agentNotEligible | agentDeregistered
  | insufficientBond
  deriving DecidableEq

/-! ## Records -/

inductive AuctionPhase where
  /-- Collecting sealed bids, then collecting reveals. -/
  | bidding
  /-- Winner selected, awaiting `awardContract`. -/
  | reveal
  /-- Escrow created, bonds settled. Terminal. -/
  | awarded
  /-- Died without a valid reveal. Terminal. -/
  | cancelled
  deriving DecidableEq

structure AuctionConfig where
  durationSecs : Nat
  revealDurationSecs : Nat
  reservePrice : Int
  maxPrice : Int
  bond : Int
  deriving DecidableEq

structure Auction (Addr Sym : Type) where
  taskId : Sym
  creator : Addr
  config : AuctionConfig
  createdAt : Nat
  deadline : Nat
  revealDeadline : Nat
  bidCount : Nat
  revealedCount : Nat
  phase : AuctionPhase
  escrowCreated : Bool
  deriving DecidableEq

structure SealedBid (Addr : Type) where
  bidder : Addr
  commitment : BytesN 32
  bond : Int
  reputation : Nat
  revealed : Bool
  refunded : Bool
  forfeited : Bool
  priceStroops : Int
  terms : List UInt8
  score : Int
  deriving DecidableEq

structure Escrow (Addr Sym : Type) where
  taskId : Sym
  agent : Addr
  amount : Int
  creator : Addr
  released : Bool
  refunded : Bool
  deriving DecidableEq

/-! ## The world a call runs in -/

/-- The obligation a transfer creates or settles. -/
inductive Purpose (Addr Sym : Type) where
  /-- The creator's budget for a task. -/
  | budget (taskId : Sym)
  /-- The bond of one bidder for a task. -/
  | bond (taskId : Sym) (bidder : Addr)
  /-- The escrowed price of an awarded task. -/
  | escrow (taskId : Sym)
  deriving DecidableEq

/-- The task whose money is moved. -/
def Purpose.task {Addr Sym : Type} : Purpose Addr Sym → Sym
  | .budget t => t
  | .bond t _ => t
  | .escrow t => t

/-- One transfer made by the contract. -/
structure Payment (Addr Sym : Type) where
  purpose : Purpose Addr Sym
  asset : Addr
  src : Addr
  dst : Addr
  /-- The amount the contract asked for. -/
  stroops : Int
  /-- The units of the asset that moved. -/
  units : Int
  deriving DecidableEq

/-- Storage, clock, token ledger and the record of past transfers. -/
structure World (Addr Sym τ : Type) where
  /-- `env.ledger().timestamp()`. -/
  now : Nat
  admin : Option Addr
  paused : Bool
  pauseAdmin : Option Addr
  paymentAsset : Option Addr
  assetDecimals : Option Nat
  agentRegistry : Option Addr
  auctions : Storage Sym (Auction Addr Sym)
  bids : Storage (Sym × Addr) (SealedBid Addr)
  bidders : Storage Sym (List Addr)
  winners : Storage Sym Addr
  escrows : Storage Sym (Escrow Addr Sym)
  agentBonds : Storage Addr Int
  tokens : τ
  journal : List (Payment Addr Sym)

/-- The contract as deployed, before any call. -/
def World.init {Addr Sym τ : Type} (now : Nat) (tokens : τ) : World Addr Sym τ where
  now := now
  admin := none
  paused := false
  pauseAdmin := none
  paymentAsset := none
  assetDecimals := none
  agentRegistry := none
  auctions := ∅
  bids := ∅
  bidders := ∅
  winners := ∅
  escrows := ∅
  agentBonds := ∅
  tokens := tokens
  journal := []

/-!
## The entry points of `agent_bidding`

Each function of `agent_bidding/src/lib.rs` that reads or writes the contract's
state, statement by statement and in the source's order of checks. A function takes
the world before the call and returns the world after it; an early return of an
error code is `failIf` or `okOr`, a panic is a trap, and either discards every write.

Transfers carry one extra argument, the `Purpose` recorded in the journal.
-/

variable {Addr Sym τ : Type} [DecidableEq Addr] [DecidableEq Sym]

/-- What is fixed for a deployment: the host and the token contracts. -/
structure Env (Addr Sym τ : Type) extends Host Addr Sym where
  token : Token Addr τ

/-- What differs from call to call: who signed, and what the registry would answer. -/
structure Call (Addr Sym : Type) where
  signed : Addr → Bool
  verifyAgentEligible : Addr → Sym → Invoked

variable (env : Env Addr Sym τ) (call : Call Addr Sym)

/-! ## Helpers -/

def requireAdmin (w : World Addr Sym τ) : Outcome Error Addr := do
  let admin ← okOr w.admin .unauthorized
  requireAuth env.toHost call.signed admin
  pure admin

def requireNotPaused (w : World Addr Sym τ) : Outcome Error Unit :=
  failIf (w.paused = true) .contractPaused

def biddersLen (w : World Addr Sym τ) (taskId : Sym) : Nat :=
  ((w.bidders.get taskId).map List.length).getD 0

def verifyAgentEligibility (w : World Addr Sym τ) (agentId : Sym) : Outcome Error Unit :=
  match w.agentRegistry with
  | none => .ok ()
  | some registryAddr =>
    match call.verifyAgentEligible registryAddr agentId with
    | .returned => .ok ()
    | .contractError 1 => .error (.error .agentNotFound)
    | .contractError 5 => .error (.error .agentFrozen)
    | .contractError 10 => .error (.error .insufficientBond)
    | .contractError 39 => .error (.error .agentDeregistered)
    | .contractError _ => .error (.error .agentNotEligible)
    | .aborted => .error (.error .agentNotEligible)

def loadAuction (w : World Addr Sym τ) (taskId : Sym) :
    Outcome Error (Auction Addr Sym) :=
  okOr (w.auctions.get taskId) .notFound

def saveAuction (w : World Addr Sym τ) (auction : Auction Addr Sym) :
    World Addr Sym τ :=
  { w with auctions := w.auctions.set auction.taskId auction }

def requireLive (auction : Auction Addr Sym) : Outcome Error Unit :=
  failIf (auction.phase = .awarded ∨ auction.phase = .cancelled) .auctionClosed

def normaliseDuration (secs default : Nat) : Outcome Error Nat := do
  let value := if secs = 0 then default else secs
  failIf (¬ (minPhaseDurationSecs ≤ value ∧ value ≤ maxPhaseDurationSecs)) .invalidDuration
  pure value

def computeCommitment (taskId : Sym) (bidder : Addr) (price : Int) (terms : List UInt8)
    (salt : BytesN 32) : BytesN 32 :=
  env.sha256 (env.xdr.string commitmentDomain.toUTF8.toList
    ++ env.xdr.address env.self
    ++ env.xdr.symbol taskId
    ++ env.xdr.address bidder
    ++ env.xdr.i128 price
    ++ env.xdr.string terms
    ++ env.xdr.bytes salt.bytes)

def scaledRatio (numerator denominator : Int) : Outcome Error Int :=
  if denominator = 0 then .ok scoreScale
  else okOr ((checked128 (scoreScale * numerator)).bind fun scaled =>
    checked128 (scaled.tdiv denominator)) .arithmeticOverflow

/-! ## Token helpers -/

def stroopsToUnits (amount : Int) (decimals : Nat) : Outcome Error Int :=
  if amount < 0 then .error (.error .invalidAmount)
  else if stroopDecimals ≤ decimals then
    okOr ((checked128 (10 ^ (decimals - stroopDecimals))).bind fun f =>
      checked128 (amount * f)) .arithmeticOverflow
  else
    let f : Int := 10 ^ (stroopDecimals - decimals)
    if amount % f ≠ 0 then .error (.error .invalidAmount) else .ok (amount / f)

/-- `payment_token`: the configured asset and its decimals. -/
def paymentToken (w : World Addr Sym τ) : Outcome Error (Addr × Nat) := do
  let asset ← okOr w.paymentAsset .assetNotConfigured
  let decimals ← okOr w.assetDecimals .assetNotConfigured
  failIf (env.token.decimals asset ≠ decimals) .assetMismatch
  pure (asset, decimals)

/-- One transfer of the payment asset; nothing is invoked for zero units. -/
def moveFunds (w : World Addr Sym τ) (why : Purpose Addr Sym) (src dst : Addr)
    (amountStroops : Int) : Outcome Error (World Addr Sym τ) := do
  let (asset, decimals) ← paymentToken env w
  let units ← stroopsToUnits amountStroops decimals
  if 0 < units then
    let tokens ← orTrap (env.token.transfer w.tokens asset src dst units)
    pure { w with
      tokens := tokens
      journal := w.journal ++ [⟨why, asset, src, dst, amountStroops, units⟩] }
  else
    pure w

def pullFunds (w : World Addr Sym τ) (why : Purpose Addr Sym) (src : Addr)
    (amountStroops : Int) : Outcome Error (World Addr Sym τ) :=
  moveFunds env w why src env.self amountStroops

def pushFunds (w : World Addr Sym τ) (why : Purpose Addr Sym) (dst : Addr)
    (amountStroops : Int) : Outcome Error (World Addr Sym τ) :=
  moveFunds env w why env.self dst amountStroops

/-! ## Administration -/

def initializeContract (admin : Addr) (w : World Addr Sym τ) :
    Outcome Error (World Addr Sym τ) := do
  failIf (w.admin.isSome = true) .alreadyExists
  requireAuth env.toHost call.signed admin
  pure { w with admin := some admin, paused := false }

def pause (w : World Addr Sym τ) : Outcome Error (World Addr Sym τ) := do
  let _ ← requireAdmin env call w
  pure { w with paused := true }

def unpause (w : World Addr Sym τ) : Outcome Error (World Addr Sym τ) := do
  let _ ← requireAdmin env call w
  pure { w with paused := false }

def setPauseAdmin (newPauseAdmin : Addr) (w : World Addr Sym τ) :
    Outcome Error (World Addr Sym τ) := do
  let _ ← requireAdmin env call w
  pure { w with pauseAdmin := some newPauseAdmin }

def pauseByPauseAdmin (w : World Addr Sym τ) : Outcome Error (World Addr Sym τ) := do
  let pauseAdmin ← okOr w.pauseAdmin .unauthorized
  requireAuth env.toHost call.signed pauseAdmin
  pure { w with paused := true }

def setPaymentAsset (asset : Addr) (decimals : Nat) (w : World Addr Sym τ) :
    Outcome Error (World Addr Sym τ) := do
  let _ ← requireAdmin env call w
  failIf (env.token.decimals asset ≠ decimals) .assetMismatch
  pure { w with paymentAsset := some asset, assetDecimals := some decimals }

def setPaused (admin : Addr) (paused : Bool) (w : World Addr Sym τ) :
    Outcome Error (World Addr Sym τ) := do
  let storedAdmin ← requireAdmin env call w
  failIf (admin ≠ storedAdmin) .unauthorized
  requireAuth env.toHost call.signed admin
  pure { w with paused := paused }

def setAgentRegistry (registry : Addr) (w : World Addr Sym τ) :
    Outcome Error (World Addr Sym τ) := do
  let _ ← requireAdmin env call w
  pure { w with agentRegistry := some registry }

def slashAgentBond (agentId : Addr) (percentage : Nat) (w : World Addr Sym τ) :
    Outcome Error (World Addr Sym τ) := do
  let _ ← requireAdmin env call w
  failIf (100 < percentage) .invalidReputation
  let currentBond := (w.agentBonds.get agentId).getD 0
  if currentBond ≤ 0 then
    pure w
  else
    let amountToSlash := (((checked128 (currentBond * percentage)).bind fun v =>
      checked128 (v.tdiv 100)).getD 0)
    let remaining := max i128Min (min i128Max (currentBond - amountToSlash))
    if 0 < remaining then
      pure { w with agentBonds := w.agentBonds.set agentId remaining }
    else
      pure { w with agentBonds := w.agentBonds.remove agentId }

def setAgentBond (agentId : Addr) (amount : Int) (w : World Addr Sym τ) :
    Outcome Error (World Addr Sym τ) := do
  let _ ← requireAdmin env call w
  failIf (amount < 0) .invalidAmount
  if 0 < amount then
    pure { w with agentBonds := w.agentBonds.set agentId amount }
  else
    pure { w with agentBonds := w.agentBonds.remove agentId }

/-! ## Creation -/

def createAuction (creator : Addr) (taskId : Sym) (config : AuctionConfig)
    (w : World Addr Sym τ) : Outcome Error (World Addr Sym τ) := do
  requireNotPaused w
  requireAuth env.toHost call.signed creator
  failIf (w.auctions.has taskId = true) .alreadyExists
  failIf (config.bond ≤ 0) .invalidBond
  failIf (config.reservePrice ≤ 0 ∨ maxBidPrice < config.reservePrice) .invalidPrice
  -- `0` asks for the global ceiling
  let maxPrice := if config.maxPrice = 0 then maxBidPrice else config.maxPrice
  failIf (maxPrice < config.reservePrice ∨ maxBidPrice < maxPrice) .invalidPriceRange
  let durationSecs ← normaliseDuration config.durationSecs defaultBiddingDurationSecs
  let revealDurationSecs ← normaliseDuration config.revealDurationSecs defaultRevealDurationSecs
  let deadline := satAdd64 w.now durationSecs
  let revealDeadline := satAdd64 deadline revealDurationSecs
  let auction : Auction Addr Sym :=
    { taskId := taskId
      creator := creator
      config :=
        { durationSecs := durationSecs
          revealDurationSecs := revealDurationSecs
          reservePrice := config.reservePrice
          maxPrice := maxPrice
          bond := config.bond }
      createdAt := w.now
      deadline := deadline
      revealDeadline := revealDeadline
      bidCount := 0
      revealedCount := 0
      phase := .bidding
      escrowCreated := false }
  let w ← pullFunds env w (.budget taskId) creator maxPrice
  pure { w with
    auctions := w.auctions.set taskId auction
    bidders := w.bidders.set taskId [] }

/-! ## Sealed bids -/

/-- The deadlines of an auction after a bid at `now`: a late bid moves both, up to the cap. -/
def antiSnipe (now : Nat) (auction : Auction Addr Sym) : Auction Addr Sym :=
  if auction.deadline - now ≤ antiSnipeWindowSecs then
    let cap := satAdd64 auction.createdAt maxPhaseDurationSecs
    let extension := min (satAdd64 auction.deadline antiSnipeExtensionSecs) cap - auction.deadline
    { auction with
      deadline := satAdd64 auction.deadline extension
      revealDeadline := satAdd64 auction.revealDeadline extension }
  else auction

def submitBid (taskId : Sym) (bidder : Addr) (commitment : BytesN 32) (bond : Int)
    (reputation : Nat) (w : World Addr Sym τ) : Outcome Error (World Addr Sym τ) := do
  requireNotPaused w
  requireAuth env.toHost call.signed bidder
  verifyAgentEligibility call w taskId
  let auction ← loadAuction w taskId
  requireLive auction
  failIf (auction.phase ≠ .bidding) .notInBiddingPhase
  failIf (auction.deadline ≤ w.now) .biddingPeriodEnded
  failIf (bond ≠ auction.config.bond) .invalidBond
  failIf (maxReputation < reputation) .invalidReputation
  failIf (maxBidders ≤ auction.bidCount) .auctionFull
  failIf (commitment = BytesN.zero 32) .invalidCommitment
  failIf (w.bids.has (taskId, bidder) = true) .bidAlreadyExists
  failIf (maxBiddersPerAuction ≤ biddersLen w taskId) .maxBiddersReached
  let w ← pullFunds env w (.bond taskId bidder) bidder bond
  let sealed : SealedBid Addr :=
    { bidder := bidder
      commitment := commitment
      bond := bond
      reputation := reputation
      revealed := false
      refunded := false
      forfeited := false
      priceStroops := 0
      terms := []
      score := 0 }
  let w := { w with bids := w.bids.set (taskId, bidder) sealed }
  let bidders := (w.bidders.get taskId).getD []
  failIf (maxBiddersPerAuction ≤ bidders.length) .maxBiddersReached
  let w := { w with bidders := w.bidders.set taskId (bidders ++ [bidder]) }
  pure (saveAuction w (antiSnipe w.now { auction with bidCount := auction.bidCount + 1 }))

/-! ## Reveals -/

def revealBid (taskId : Sym) (bidder : Addr) (priceStroops : Int) (terms : List UInt8)
    (salt : BytesN 32) (w : World Addr Sym τ) : Outcome Error (World Addr Sym τ) := do
  requireNotPaused w
  requireAuth env.toHost call.signed bidder
  let auction ← loadAuction w taskId
  requireLive auction
  failIf (auction.phase ≠ .bidding) .notInBiddingPhase
  failIf (w.now < auction.deadline) .biddingPeriodActive
  failIf (auction.revealDeadline ≤ w.now) .revealPeriodEnded
  let sealed ← okOr (w.bids.get (taskId, bidder)) .notFound
  failIf (sealed.revealed = true) .bidAlreadyRevealed
  failIf (maxTermsLen < terms.length) .termsTooLong
  failIf (computeCommitment env taskId bidder priceStroops terms salt ≠ sealed.commitment)
    .invalidCommitment
  failIf (priceStroops < auction.config.reservePrice ∨ auction.config.maxPrice < priceStroops)
    .invalidPrice
  let opened := { sealed with revealed := true, priceStroops := priceStroops, terms := terms }
  let w := { w with bids := w.bids.set (taskId, bidder) opened }
  pure (saveAuction w { auction with revealedCount := auction.revealedCount + 1 })

/-- The revealed bids of an auction and the ranges they span. -/
structure Field (Addr : Type) where
  revealed : List (SealedBid Addr)
  minPrice : Int
  maxPrice : Int
  minRep : Nat
  maxRep : Nat

/-- Phase 1 of `reveal_bids` for one bidder. -/
def gatherBid (w : World Addr Sym τ) (taskId : Sym) (g : Field Addr)
    (bidder : Addr) : Field Addr :=
  match w.bids.get (taskId, bidder) with
  | some bid =>
    if bid.revealed then
      { revealed := g.revealed ++ [bid]
        minPrice := if bid.priceStroops < g.minPrice then bid.priceStroops else g.minPrice
        maxPrice := if g.maxPrice < bid.priceStroops then bid.priceStroops else g.maxPrice
        minRep := if bid.reputation < g.minRep then bid.reputation else g.minRep
        maxRep := if g.maxRep < bid.reputation then bid.reputation else g.maxRep }
    else g
  | none => g

/-- Phase 1 of `reveal_bids`: gather the revealed bids and compute the ranges. -/
def gather (w : World Addr Sym τ) (taskId : Sym) (bidders : List Addr) :
    Field Addr :=
  bidders.foldl (gatherBid w taskId)
    { revealed := [], minPrice := i128Max, maxPrice := 0, minRep := u32Max, maxRep := 0 }

/-- The composite score of one bid, every step checked. -/
def scoreBid (g : Field Addr) (priceRange repRange : Int) (bid : SealedBid Addr) :
    Outcome Error Int := do
  let priceDelta ← okOr (checked128 (g.maxPrice - bid.priceStroops)) .arithmeticOverflow
  let priceScore ← scaledRatio priceDelta priceRange
  -- the subtraction of the two `u32` reputations panics below zero
  trapUnless (g.minRep ≤ bid.reputation)
  let repScore ← scaledRatio (bid.reputation - g.minRep : Nat) repRange
  okOr ((checked128 (priceWeight * priceScore)).bind fun weighted =>
    ((checked128 (reputationWeight * repScore)).bind fun r => checked128 (weighted + r)).bind
      fun total => checked128 (total.tdiv 100)) .arithmeticOverflow

/-- The best bid so far. -/
structure Best (Addr : Type) where
  score : Int
  price : Int
  winner : Option Addr

/-- A higher score wins, then a lower price, then the earlier bid. -/
def Best.update (best : Best Addr) (bid : SealedBid Addr) (score : Int) : Best Addr :=
  if best.score < score then ⟨score, bid.priceStroops, some bid.bidder⟩
  else if score = best.score ∧ bid.priceStroops < best.price then
    { best with price := bid.priceStroops, winner := some bid.bidder }
  else best

/-- Phase 2 of `reveal_bids` for one bid: score it, store the score, compare. -/
def scoreStep (taskId : Sym) (g : Field Addr) (priceRange repRange : Int)
    (acc : World Addr Sym τ × Best Addr) (bid : SealedBid Addr) :
    Outcome Error (World Addr Sym τ × Best Addr) := do
  let (w, best) := acc
  let score ← scoreBid g priceRange repRange bid
  let stored ← okOr (w.bids.get (taskId, bid.bidder)) .notFound
  let w := { w with bids := w.bids.set (taskId, bid.bidder) { stored with score := score } }
  pure (w, best.update bid score)

def revealBids (caller : Addr) (taskId : Sym) (w : World Addr Sym τ) :
    Outcome Error (World Addr Sym τ) := do
  requireNotPaused w
  requireAuth env.toHost call.signed caller
  let auction ← loadAuction w taskId
  requireLive auction
  failIf (auction.phase ≠ .bidding) .notInBiddingPhase
  failIf (w.now < auction.deadline) .biddingPeriodActive
  failIf (w.now < auction.revealDeadline ∧ auction.revealedCount < auction.bidCount)
    .revealPeriodActive
  let g := gather w taskId ((w.bidders.get taskId).getD [])
  failIf (g.revealed = []) .notEnoughBids
  let priceRange ← okOr (checked128 (g.maxPrice - g.minPrice)) .arithmeticOverflow
  trapUnless (g.minRep ≤ g.maxRep)
  let repRange : Int := (g.maxRep - g.minRep : Nat)
  let (w, best) ← g.revealed.foldlM (scoreStep taskId g priceRange repRange)
    (w, ⟨-1, i128Max, none⟩)
  let winnerAddr ← okOr best.winner .notEnoughBids
  let w := { w with winners := w.winners.set taskId winnerAddr }
  pure (saveAuction w { auction with phase := .reveal })

/-! ## Settlement -/

def claimBidRefund (taskId : Sym) (bidder : Addr) (w : World Addr Sym τ) :
    Outcome Error (World Addr Sym τ) := do
  requireNotPaused w
  requireAuth env.toHost call.signed bidder
  let auction ← okOr (w.auctions.get taskId) .notFound
  failIf (auction.phase ≠ .reveal) .notInRevealPhase
  let winner ← okOr (w.winners.get taskId) .winnerNotDetermined
  failIf (winner = bidder) .winnerCannotClaimRefund
  let bid ← okOr (w.bids.get (taskId, bidder)) .notFound
  failIf (bid.refunded = true) .refundAlreadyClaimed
  let w := { w with bids := w.bids.set (taskId, bidder) { bid with refunded := true } }
  pushFunds env w (.bond taskId bidder) bidder bid.bond

/-- The bond of one bidder at award: back if revealed, to the creator if not. -/
def settleBond (taskId : Sym) (creator : Addr) (w : World Addr Sym τ) (b : Addr) :
    Outcome Error (World Addr Sym τ) :=
  match w.bids.get (taskId, b) with
  | none => pure w
  | some bid =>
    if bid.refunded = true ∨ bid.forfeited = true then pure w
    else if bid.revealed = true then do
      let w ← pushFunds env w (.bond taskId b) b bid.bond
      pure { w with bids := w.bids.set (taskId, b) { bid with refunded := true } }
    else do
      let w ← pushFunds env w (.bond taskId b) creator bid.bond
      pure { w with bids := w.bids.set (taskId, b) { bid with forfeited := true } }

def awardContract (caller : Addr) (taskId : Sym) (w : World Addr Sym τ) :
    Outcome Error (World Addr Sym τ) := do
  requireNotPaused w
  requireAuth env.toHost call.signed caller
  let auction ← loadAuction w taskId
  failIf (auction.phase = .awarded) .alreadyAwarded
  failIf (auction.phase ≠ .reveal) .notInRevealPhase
  failIf (auction.escrowCreated = true) .escrowAlreadyCreated
  let winner ← okOr (w.winners.get taskId) .winnerNotDetermined
  failIf (caller ≠ auction.creator ∧ caller ≠ winner) .unauthorized
  let winningBid ← okOr (w.bids.get (taskId, winner)) .notFound
  let escrowAmount := winningBid.priceStroops
  let escrow : Escrow Addr Sym :=
    { taskId := taskId
      agent := winner
      amount := escrowAmount
      creator := auction.creator
      released := false
      refunded := false }
  let w := { w with escrows := w.escrows.set taskId escrow }
  let w ← ((w.bidders.get taskId).getD []).foldlM (settleBond env taskId auction.creator) w
  let w := saveAuction w { auction with phase := .awarded, escrowCreated := true }
  let unusedBudget ← okOr (checked128 (auction.config.maxPrice - escrowAmount)) .arithmeticOverflow
  pushFunds env w (.budget taskId) auction.creator unusedBudget

/-- The bond of one bidder at an abort: always back, to the address stored in the bid. -/
def releaseBond (taskId : Sym) (w : World Addr Sym τ) (b : Addr) :
    Outcome Error (World Addr Sym τ) :=
  match w.bids.get (taskId, b) with
  | none => pure w
  | some bid =>
    if bid.refunded = true ∨ bid.forfeited = true then pure w
    else
      let w := { w with bids := w.bids.set (taskId, b) { bid with refunded := true } }
      pushFunds env w (.bond taskId b) bid.bidder bid.bond

def abortAuction (caller : Addr) (taskId : Sym) (w : World Addr Sym τ) :
    Outcome Error (World Addr Sym τ) := do
  requireNotPaused w
  requireAuth env.toHost call.signed caller
  let auction ← loadAuction w taskId
  requireLive auction
  failIf (auction.phase ≠ .bidding) .notInBiddingPhase
  failIf (w.now < auction.revealDeadline) .revealPeriodActive
  failIf (0 < auction.revealedCount) .auctionNotAbortable
  let w ← ((w.bidders.get taskId).getD []).foldlM (releaseBond env taskId) w
  let w := saveAuction w { auction with phase := .cancelled }
  pushFunds env w (.budget taskId) auction.creator auction.config.maxPrice

def releaseEscrow (taskId : Sym) (w : World Addr Sym τ) :
    Outcome Error (World Addr Sym τ) := do
  requireNotPaused w
  let escrow ← okOr (w.escrows.get taskId) .notFound
  requireAuth env.toHost call.signed escrow.creator
  failIf (escrow.released = true ∨ escrow.refunded = true) .escrowAlreadySettled
  let w := { w with escrows := w.escrows.set taskId { escrow with released := true } }
  pushFunds env w (.escrow taskId) escrow.agent escrow.amount

def refundEscrow (taskId : Sym) (w : World Addr Sym τ) :
    Outcome Error (World Addr Sym τ) := do
  requireNotPaused w
  let _ ← requireAdmin env call w
  let escrow ← okOr (w.escrows.get taskId) .notFound
  failIf (escrow.released = true ∨ escrow.refunded = true) .escrowAlreadySettled
  let w := { w with escrows := w.escrows.set taskId { escrow with refunded := true } }
  pushFunds env w (.escrow taskId) escrow.creator escrow.amount

def claimRefund (taskId : Sym) (bidder : Addr) (w : World Addr Sym τ) :
    Outcome Error (World Addr Sym τ) := do
  requireNotPaused w
  requireAuth env.toHost call.signed bidder
  let auction ← okOr (w.auctions.get taskId) .notFound
  failIf (w.now < auction.deadline) .biddingPeriodActive
  failIf (satAdd64 auction.deadline claimWindowSecs ≤ w.now) .claimWindowExpired
  let bid ← okOr (w.bids.get (taskId, bidder)) .notFound
  -- `forfeited` is not looked at here
  failIf (bid.refunded = true) .alreadyRefunded
  let w := { w with bids := w.bids.set (taskId, bidder) { bid with refunded := true } }
  pushFunds env w (.bond taskId bidder) bidder bid.bond

end AiNet.Bidding
