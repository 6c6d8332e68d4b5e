import AiNet.Core.Host
import AiNet.Core.Storage

/-!
# The entry points of `oracle_manager`

A price comes from the configured oracle if it answers, else from the fallback the admin
set for the pair. The oracle is another contract: how its `get_price` comes back goes with
the call. Rent extension and the events are left out.
-/

namespace AiNet.OracleManager

open Core Option

/-! ## Types -/

/-- The error codes the modelled functions return. -/
inductive Error where
  | notInitialized | alreadyInitialized | noPriceAvailable | priceStale | invalidFallbackPrice
  | oracleCallFailed | contractPaused | oracleNotInitialized | oraclePaused | feedNotFound
  deriving DecidableEq

inductive PriceSource where
  | oracle
  | fallback
  deriving DecidableEq

structure ResolvedPrice (Sym : Type) where
  pair : Sym
  price : Int
  source : PriceSource
  deriving DecidableEq

/-- The contract's storage. -/
structure World (Addr Sym : Type) where
  admin : Option Addr
  paused : Bool
  oracleAddress : Option Addr
  fallbackPrice : Storage Sym Int

/-- The contract as deployed, before any call. -/
def World.init {Addr Sym : Type} : World Addr Sym where
  admin := none
  paused := false
  oracleAddress := none
  fallbackPrice := ∅

/-- How `get_price` of an oracle comes back. -/
inductive Fetched where
  /-- With a value; a field is `none` if the value has none of that name and type. -/
  | returned (price : Option Int) (timestamp : Option Nat)
  /-- With one of the oracle's error codes. -/
  | contractError (code : Nat)
  /-- The call was aborted by the host. -/
  | aborted
  deriving DecidableEq

variable {Addr Sym : Type} [DecidableEq Addr] [DecidableEq Sym]
  (host : Host Addr Sym) (signed : Addr → Bool) (getPrice : Addr → Sym → Fetched)

/-! ## Helpers -/

def requireAdmin (w : World Addr Sym) : Outcome Error Addr := do
  let admin ← okOr w.admin .notInitialized
  requireAuth host signed admin
  pure admin

def requireNotPaused (w : World Addr Sym) : Outcome Error Unit :=
  failIf (w.paused = true) .contractPaused

/-- `try_oracle_get_price`: the price and its time, `none` where the oracle has no such feed. -/
def tryOracleGetPrice (oracle : Addr) (pair : Sym) : Except Error (Option (Int × Nat)) :=
  match getPrice oracle pair with
  | .returned (some price) (some timestamp) =>
    if 0 < price then .ok (some (price, timestamp)) else .error .oracleCallFailed
  | .returned _ _ => .error .oracleCallFailed
  | .contractError 4 => .ok none
  | .contractError 1 => .error .oracleNotInitialized
  | .contractError 5 => .error .priceStale
  | .contractError 8 => .error .oraclePaused
  | .contractError _ => .error .oracleCallFailed
  | .aborted => .error .oracleCallFailed

def readFallback (w : World Addr Sym) (pair : Sym) : Option Int := w.fallbackPrice.get pair

/-! ## Administration -/

def initializeContract (admin : Addr) (oracle : Option Addr) (w : World Addr Sym) :
    Outcome Error (World Addr Sym) := do
  failIf (w.admin.isSome = true) .alreadyInitialized
  requireAuth host signed admin
  pure { w with
    admin := some admin
    paused := false
    oracleAddress := oracle.or w.oracleAddress }

def setAdmin (newAdmin : Addr) (w : World Addr Sym) :
    Outcome Error (World Addr Sym) := do
  requireNotPaused w
  let _ ← requireAdmin host signed w
  requireAuth host signed newAdmin
  pure { w with admin := some newAdmin }

def pause (w : World Addr Sym) : Outcome Error (World Addr Sym) := do
  let _ ← requireAdmin host signed w
  pure { w with paused := true }

def unpause (w : World Addr Sym) : Outcome Error (World Addr Sym) := do
  let _ ← requireAdmin host signed w
  pure { w with paused := false }

def setOracle (oracle : Option Addr) (w : World Addr Sym) :
    Outcome Error (World Addr Sym) := do
  requireNotPaused w
  let _ ← requireAdmin host signed w
  pure { w with oracleAddress := oracle }

def setFallbackPrice (pair : Sym) (price : Int) (w : World Addr Sym) :
    Outcome Error (World Addr Sym) := do
  requireNotPaused w
  let _ ← requireAdmin host signed w
  failIf (price ≤ 0) .invalidFallbackPrice
  pure { w with fallbackPrice := w.fallbackPrice.set pair price }

/-! ## Prices -/

/-- The first step of `resolve_price`: the live price, or the failure to report. -/
def livePrice (w : World Addr Sym) (pair : Sym) : Except Error Int :=
  match w.oracleAddress with
  | none => .error .noPriceAvailable
  | some oracle =>
    match tryOracleGetPrice getPrice oracle pair with
    | .ok (some (price, _)) => .ok price
    | .ok none => .error .feedNotFound
    | .error e => .error e

def resolvePrice (w : World Addr Sym) (pair : Sym) :
    Outcome Error (ResolvedPrice Sym) := do
  requireNotPaused w
  match livePrice getPrice w pair with
  | .ok price => pure { pair := pair, price := price, source := .oracle }
  | .error failure =>
    match readFallback w pair with
    | some price => pure { pair := pair, price := price, source := .fallback }
    | none => .error (.error failure)

/-! ## Calls -/

/-- The state-changing entry points and their arguments. -/
inductive Op (Addr Sym : Type) where
  | initializeContract (admin : Addr) (oracle : Option Addr)
  | setAdmin (newAdmin : Addr)
  | pause
  | unpause
  | setOracle (oracle : Option Addr)
  | setFallbackPrice (pair : Sym) (price : Int)

/-- One call of an entry point. -/
def exec : Op Addr Sym → World Addr Sym → Outcome Error (World Addr Sym)
  | .initializeContract admin oracle => initializeContract host signed admin oracle
  | .setAdmin newAdmin => setAdmin host signed newAdmin
  | .pause => pause host signed
  | .unpause => unpause host signed
  | .setOracle oracle => setOracle host signed oracle
  | .setFallbackPrice pair price => setFallbackPrice host signed pair price

def Op.fallsBack (pair : Sym) : Op Addr Sym → Option Int
  | .setFallbackPrice pair' price => if pair' = pair then some price else none
  | _ => none

variable {op : Op Addr Sym} {pair : Sym} {price : Int}

omit [DecidableEq Addr] in
theorem Op.fallsBack_eq_some :
    op.fallsBack pair = some price ↔ op = .setFallbackPrice pair price := by
  unfold Op.fallsBack
  split
  · rename_i pair' price'
    by_cases hpa : pair' = pair
    · rw [if_pos hpa, hpa, Option.some.injEq]
      exact ⟨fun h => h ▸ rfl, fun h => (Op.setFallbackPrice.inj h).2⟩
    · rw [if_neg hpa]
      exact ⟨nofun, fun h => absurd (Op.setFallbackPrice.inj h).1 hpa⟩
  · rename_i hoth
    exact ⟨nofun, fun h => absurd h (hoth pair price)⟩

/-! ## What the entry points do -/

section Facts

variable {host signed getPrice} {w w' : World Addr Sym}

omit [DecidableEq Addr] [DecidableEq Sym] in
theorem livePrice_eq_ok :
    livePrice getPrice w pair = .ok price ↔ 0 < price ∧ ∃ oracle timestamp,
      w.oracleAddress = some oracle ∧ getPrice oracle pair = .returned (some price) (some timestamp) := by
  unfold livePrice
  cases w.oracleAddress with
  | none =>
    refine ⟨nofun, fun h => ?_⟩
    obtain ⟨_, oracle, _, hor, _⟩ := h
    cases hor
  | some oracle =>
    unfold tryOracleGetPrice
    dsimp only
    refine ⟨fun h => ?_, fun h => ?_⟩
    · split at h
      · rename_i timestamp hlv
        cases h
        split at hlv
        · rename_i hfe
          split at hlv
          · rename_i hpos
            obtain ⟨rfl, rfl⟩ := Prod.mk.inj (Option.some.inj (Except.ok.inj hlv))
            exact ⟨hpos, oracle, _, rfl, hfe⟩
          · cases hlv
        all_goals cases hlv
      · cases h
      · cases h
    · obtain ⟨hpos, oracle', timestamp, hor, hfe⟩ := h
      cases hor
      rw [hfe]
      dsimp only
      rw [if_pos hpos]

omit [DecidableEq Addr] in
theorem resolvePrice_ok {resolved : ResolvedPrice Sym} (h : resolvePrice getPrice w pair = .ok resolved) :
    (resolved.source = .oracle ∧ livePrice getPrice w pair = .ok resolved.price) ∨
      (resolved.source = .fallback ∧ w.fallbackPrice.get pair = some resolved.price ∧
        ∃ failure, livePrice getPrice w pair = .error failure) := by
  unfold resolvePrice at h
  simp only [bind_eq_ok] at h
  obtain ⟨_, _, h⟩ := h
  cases hlv : livePrice getPrice w pair with
  | ok =>
    rw [hlv] at h
    obtain rfl := pure_eq_ok.mp h
    exact .inl ⟨rfl, rfl⟩
  | error failure =>
    rw [hlv] at h
    dsimp only at h
    cases hfa : readFallback w pair with
    | none =>
      rw [hfa] at h
      cases h
    | some =>
      rw [hfa] at h
      obtain rfl := pure_eq_ok.mp h
      exact .inr ⟨rfl, hfa, failure, rfl⟩

theorem setFallbackPrice_ok (h : setFallbackPrice host signed pair price w = .ok w') :
    0 < price ∧ (∃ admin, w.admin = some admin ∧ signed admin = true) ∧
      w' = { w with fallbackPrice := w.fallbackPrice.set pair price } := by
  unfold setFallbackPrice requireAdmin at h
  simp only [bind_eq_ok, failIf_eq_ok, okOr_eq_ok, requireAuth_eq_ok, pure_eq_ok, not_le] at h
  obtain ⟨_, _, _, ⟨admin, hadm, _, ⟨_, hsgn⟩, rfl⟩, _, hprc, rfl⟩ := h
  exact ⟨hprc, ⟨_, hadm, hsgn⟩, rfl⟩

theorem exec_fallbackPrice (h : exec host signed op w = .ok w') (pair : Sym) :
    w'.fallbackPrice.get pair = (op.fallsBack pair).or (w.fallbackPrice.get pair) := by
  cases op with
  | setFallbackPrice pair' =>
    obtain ⟨_, _, rfl⟩ := setFallbackPrice_ok h
    unfold Op.fallsBack
    dsimp only
    rw [Storage.get_set]
    by_cases hp : pair = pair'
    · rw [if_pos hp, if_pos hp.symm, some_or]
    · rw [if_neg hp, if_neg (Ne.symm hp), none_or]
  | initializeContract | setAdmin | pause | unpause | setOracle =>
    simp only [exec, initializeContract, setAdmin, pause, unpause, setOracle] at h
    repeat obtain ⟨_, _, h⟩ := bind_eq_ok.mp h
    obtain rfl := pure_eq_ok.mp h
    rfl

theorem exec_fallsBack (h : exec host signed op w = .ok w') (hprc : op.fallsBack pair = some price) :
    0 < price ∧ ∃ admin, w.admin = some admin ∧ signed admin = true := by
  cases op with
  | setFallbackPrice =>
    obtain ⟨hpos, hadm, _⟩ := setFallbackPrice_ok h
    unfold Op.fallsBack at hprc
    dsimp only at hprc
    split at hprc
    · cases hprc
      exact ⟨hpos, hadm⟩
    · cases hprc
  | initializeContract | setAdmin | pause | unpause | setOracle => cases hprc

end Facts

end AiNet.OracleManager
