import Mathlib.Algebra.Order.Ring.Int
import Mathlib.Logic.Function.Basic

/-!
# Token contracts

The tokens a contract is paid in are contracts of somebody else. What is known of
them is an interface: they report their decimals and balances, and a transfer either
fails or changes their state. The two laws a custody argument relies on are stated
separately, because different results need different ones: `Exact` says that a
transfer which succeeds moves exactly the requested units, `Pays` that it succeeds
whenever the balance suffices.
-/

namespace AiNet.Core

/-- A family of tokens, addressed by their contracts, over one shared ledger state `τ`. -/
structure Token (Addr τ : Type) where
  /-- The decimals the token at an address reports. -/
  decimals : Addr → Nat
  /-- `balance t asset holder`. -/
  balance : τ → Addr → Addr → Int
  /-- `transfer t asset src dst units`; `none` when the token traps. -/
  transfer : τ → Addr → Addr → Addr → Int → Option τ

namespace Token

variable {Addr τ : Type}

/-- A successful transfer moves exactly the requested units of the one asset. -/
structure Exact (T : Token Addr τ) : Prop where
  /-- The sender pays the units. -/
  debit : ∀ {t t' asset src dst n}, T.transfer t asset src dst n = some t' → src ≠ dst →
    T.balance t' asset src = T.balance t asset src - n
  /-- The recipient receives them. -/
  credit : ∀ {t t' asset src dst n}, T.transfer t asset src dst n = some t' → src ≠ dst →
    T.balance t' asset dst = T.balance t asset dst + n
  /-- Nothing else moves. -/
  frame : ∀ {t t' asset src dst n}, T.transfer t asset src dst n = some t' →
    ∀ asset' holder, asset' ≠ asset ∨ (holder ≠ src ∧ holder ≠ dst) →
      T.balance t' asset' holder = T.balance t asset' holder

/-- One token among others: its own transfers are exact, and those of other tokens do not touch it. -/
structure ExactFor (T : Token Addr τ) (asset : Addr) : Prop where
  debit : ∀ {t t' src dst n}, T.transfer t asset src dst n = some t' → src ≠ dst →
    T.balance t' asset src = T.balance t asset src - n
  credit : ∀ {t t' src dst n}, T.transfer t asset src dst n = some t' → src ≠ dst →
    T.balance t' asset dst = T.balance t asset dst + n
  other : ∀ {t t' asset' src dst n}, T.transfer t asset' src dst n = some t' → asset' ≠ asset →
    ∀ holder, T.balance t' asset holder = T.balance t asset holder

theorem Exact.exactFor {T : Token Addr τ} (h : T.Exact) (asset : Addr) : T.ExactFor asset where
  debit := h.debit
  credit := h.credit
  other htrf hne holder := h.frame htrf asset holder (.inl fun he => hne he.symm)

/-- A transfer the sender can afford goes through. -/
def Pays (T : Token Addr τ) : Prop :=
  ∀ t asset src dst n, 0 ≤ n → n ≤ T.balance t asset src → ∃ t', T.transfer t asset src dst n = some t'

/-! ## A ledger of balances -/

/-- Balances per asset and holder. -/
abbrev Ledger (Addr : Type) := Addr → Addr → Int

/-- The plain token: a table of balances, and transfers limited by the sender's balance. -/
def ledger [DecidableEq Addr] (decimals : Addr → Nat) : Token Addr (Ledger Addr) where
  decimals := decimals
  balance t asset holder := t asset holder
  transfer t asset src dst n :=
    if 0 ≤ n ∧ n ≤ t asset src then
      some fun asset' holder =>
        if asset' = asset then
          t asset holder + (if holder = dst then n else 0) - (if holder = src then n else 0)
        else t asset' holder
    else none

theorem ledger_exact [DecidableEq Addr] (decimals : Addr → Nat) :
    (ledger decimals).Exact := by
  have key : ∀ {t t' asset src dst n}, (ledger decimals).transfer t asset src dst n = some t' →
      t' = fun asset' holder =>
        if asset' = asset then
          t asset holder + (if holder = dst then n else 0) - (if holder = src then n else 0)
        else t asset' holder := by
    intro t t' asset src dst n h
    unfold ledger at h
    dsimp only at h
    split at h
    · exact (Option.some.inj h).symm
    · cases h
  refine ⟨?_, ?_, ?_⟩
  · intro t t' asset src dst n h hne
    rw [key h]; simp [ledger, hne]
  · intro t t' asset src dst n h hne
    rw [key h]; simp [ledger, hne.symm]
  · intro t t' asset src dst n h asset' holder hor
    rw [key h]
    rcases hor with ha | ⟨hs, hd⟩
    · simp [ledger, ha]
    · by_cases ha : asset' = asset
      · subst ha; simp [ledger, hs, hd]
      · simp [ledger, ha]

theorem ledger_pays [DecidableEq Addr] (decimals : Addr → Nat) :
    (ledger decimals).Pays := by
  intro t asset src dst n h0 hn
  unfold ledger
  dsimp only
  rw [if_pos ⟨h0, hn⟩]
  exact ⟨_, rfl⟩

end Token

end AiNet.Core
