import AiNet.Core.Host
import AiNet.Core.Storage

/-!
# The entry points of `price_oracle`

The admin pushes observations of a pair, each with the time it was made; `get_price` hands
out the stored one unless it is too old. Rent extension and the events are left out:
nothing reads them back.
-/

namespace AiNet.PriceOracle

open Core Option

/-! ## Types -/

def defaultMaxPriceAge : Nat := 3600

/-- The error codes the modelled functions return. -/
inductive Error where
  | notInitialized | alreadyInitialized | feedNotFound | priceStale | invalidPrice
  | invalidTimestamp | contractPaused | invalidMaxPriceAge
  deriving DecidableEq

/-- The codes of `errors.rs`. -/
def Error.code : Error → Nat
  | .notInitialized => 1
  | .alreadyInitialized => 3
  | .feedNotFound => 4
  | .priceStale => 5
  | .invalidPrice => 6
  | .invalidTimestamp => 7
  | .contractPaused => 8
  | .invalidMaxPriceAge => 9

/-- `PriceEntry`, one observation of a pair. -/
structure PriceEntry where
  price : Int
  timestamp : Nat
  deriving DecidableEq

/-- `PriceResult`, an observation with its pair. -/
structure PriceResult (Sym : Type) where
  pair : Sym
  price : Int
  timestamp : Nat
  deriving DecidableEq

/-- The contract's storage. -/
structure World (Addr Sym : Type) where
  admin : Option Addr
  paused : Bool
  maxPriceAge : Option Nat
  prices : Storage Sym PriceEntry

/-- The contract as deployed, before any call. -/
def World.init {Addr Sym : Type} : World Addr Sym where
  admin := none
  paused := false
  maxPriceAge := none
  prices := ∅

/-- What differs from call to call: the ledger's timestamp, and who signed. -/
structure Call (Addr : Type) where
  now : Nat
  signed : Addr → Bool

variable {Addr Sym : Type} [DecidableEq Addr] [DecidableEq Sym]
  (host : Host Addr Sym) (call : Call Addr)

/-! ## Helpers -/

def requireAdmin (w : World Addr Sym) : Outcome Error Addr := do
  let admin ← okOr w.admin .notInitialized
  requireAuth host call.signed admin
  pure admin

def requireNotPaused (w : World Addr Sym) : Outcome Error Unit :=
  failIf (w.paused = true) .contractPaused

def readMaxAge (w : World Addr Sym) : Nat := w.maxPriceAge.getD defaultMaxPriceAge

/-! ## Administration -/

def initializeContract (admin : Addr) (maxPriceAge : Nat) (w : World Addr Sym) :
    Outcome Error (World Addr Sym) := do
  failIf (w.admin.isSome = true) .alreadyInitialized
  requireAuth host call.signed admin
  let age := if maxPriceAge = 0 then defaultMaxPriceAge else maxPriceAge
  pure { w with admin := some admin, maxPriceAge := some age, paused := false }

def setAdmin (newAdmin : Addr) (w : World Addr Sym) :
    Outcome Error (World Addr Sym) := do
  requireNotPaused w
  let _ ← requireAdmin host call w
  requireAuth host call.signed newAdmin
  pure { w with admin := some newAdmin }

def pause (w : World Addr Sym) : Outcome Error (World Addr Sym) := do
  let _ ← requireAdmin host call w
  pure { w with paused := true }

def unpause (w : World Addr Sym) : Outcome Error (World Addr Sym) := do
  let _ ← requireAdmin host call w
  pure { w with paused := false }

def setMaxPriceAge (newMaxAge : Nat) (w : World Addr Sym) :
    Outcome Error (World Addr Sym) := do
  requireNotPaused w
  let _ ← requireAdmin host call w
  failIf (newMaxAge = 0) .invalidMaxPriceAge
  pure { w with maxPriceAge := some newMaxAge }

/-! ## Observations -/

def submitPrice (pair : Sym) (price : Int) (timestamp : Nat) (w : World Addr Sym) :
    Outcome Error (World Addr Sym) := do
  requireNotPaused w
  let _ ← requireAdmin host call w
  failIf (price ≤ 0) .invalidPrice
  failIf (call.now < timestamp) .invalidTimestamp
  -- whatever was stored for the pair is replaced, also when it was observed later
  pure { w with prices := w.prices.set pair { price := price, timestamp := timestamp } }

/-- `get_price`, at a timestamp of the ledger. -/
def getPrice (now : Nat) (w : World Addr Sym) (pair : Sym) :
    Outcome Error (PriceResult Sym) := do
  requireNotPaused w
  let entry ← okOr (w.prices.get pair) .feedNotFound
  failIf (readMaxAge w < now - entry.timestamp) .priceStale
  pure { pair := pair, price := entry.price, timestamp := entry.timestamp }

/-! ## Calls -/

/-- The state-changing entry points and their arguments. -/
inductive Op (Addr Sym : Type) where
  | initializeContract (admin : Addr) (maxPriceAge : Nat)
  | setAdmin (newAdmin : Addr)
  | pause
  | unpause
  | setMaxPriceAge (newMaxAge : Nat)
  | submitPrice (pair : Sym) (price : Int) (timestamp : Nat)

/-- One call of an entry point. -/
def exec : Op Addr Sym → World Addr Sym → Outcome Error (World Addr Sym)
  | .initializeContract admin maxPriceAge => initializeContract host call admin maxPriceAge
  | .setAdmin newAdmin => setAdmin host call newAdmin
  | .pause => pause host call
  | .unpause => unpause host call
  | .setMaxPriceAge newMaxAge => setMaxPriceAge host call newMaxAge
  | .submitPrice pair price timestamp => submitPrice host call pair price timestamp

/-- The observation of a pair that an operation stores. -/
def Op.observes (pair : Sym) : Op Addr Sym → Option PriceEntry
  | .submitPrice pair' price timestamp =>
    if pair' = pair then some { price := price, timestamp := timestamp } else none
  | _ => none

/-! ## What the entry points do -/

section Facts

variable {host call} {w w' : World Addr Sym}

variable {pair : Sym}

omit [DecidableEq Addr] in
theorem getPrice_ok {now : Nat} {result : PriceResult Sym} (h : getPrice now w pair = .ok result) :
    result.pair = pair ∧ w.prices.get pair = some ⟨result.price, result.timestamp⟩ ∧
      now ≤ result.timestamp + readMaxAge w := by
  unfold getPrice at h
  simp only [bind_eq_ok, okOr_eq_ok, failIf_eq_ok, pure_eq_ok, not_lt] at h
  obtain ⟨_, _, entry, hent, _, hage, rfl⟩ := h
  exact ⟨rfl, hent, (by dsimp only; omega)⟩

theorem submitPrice_ok {price : Int} {timestamp : Nat}
    (h : submitPrice host call pair price timestamp w = .ok w') :
    0 < price ∧ timestamp ≤ call.now ∧ w' = { w with prices := w.prices.set pair ⟨price, timestamp⟩ } := by
  unfold submitPrice at h
  simp only [bind_eq_ok, failIf_eq_ok, pure_eq_ok, not_le, not_lt] at h
  obtain ⟨_, _, _, _, _, hprc, _, htm, rfl⟩ := h
  exact ⟨hprc, htm, rfl⟩

theorem exec_prices {op : Op Addr Sym} (h : exec host call op w = .ok w') (pair : Sym) :
    w'.prices.get pair = (op.observes pair).or (w.prices.get pair) := by
  cases op with
  | submitPrice pair' =>
    obtain ⟨_, _, rfl⟩ := submitPrice_ok h
    unfold Op.observes
    dsimp only
    rw [Storage.get_set]
    by_cases hp : pair = pair'
    · rw [if_pos hp, if_pos hp.symm, some_or]
    · rw [if_neg hp, if_neg (Ne.symm hp), none_or]
  | initializeContract | setAdmin | pause | unpause | setMaxPriceAge =>
    simp only [exec, initializeContract, setAdmin, pause, unpause, setMaxPriceAge] at h
    repeat obtain ⟨_, _, h⟩ := bind_eq_ok.mp h
    obtain rfl := pure_eq_ok.mp h
    rfl

theorem exec_observes {op : Op Addr Sym} (h : exec host call op w = .ok w') {entry : PriceEntry}
    (hent : op.observes pair = some entry) :
    0 < entry.price ∧ entry.timestamp ≤ call.now := by
  cases op with
  | submitPrice =>
    obtain ⟨hprc, htm, _⟩ := submitPrice_ok h
    unfold Op.observes at hent
    dsimp only at hent
    split at hent
    · cases hent
      exact ⟨hprc, htm⟩
    · cases hent
  | initializeContract | setAdmin | pause | unpause | setMaxPriceAge => cases hent

end Facts

end AiNet.PriceOracle
