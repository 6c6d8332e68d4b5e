import Mathlib.Algebra.Order.Ring.Int
import Mathlib.Data.Nat.Basic
import Mathlib.Tactic.Ring

/-!
# Machine integers

Amounts are `Int` and timestamps and counters are `Nat`; the width of the source's
type appears only where the source relies on it, through the operations below: the
saturating ones of the unsigned types and the checked ones. A plain `+` that overflows
aborts the call, so it is a checked one whose failure is a trap.
-/

namespace AiNet.Core

/-- `u64::MAX`. -/
def u64Max : Nat := 2 ^ 64 - 1

/-- `u32::MAX`. -/
def u32Max : Nat := 2 ^ 32 - 1

/-- `u128::MAX`. -/
def u128Max : Nat := 2 ^ 128 - 1

/-- `i128::MAX`. -/
def i128Max : Int := 2 ^ 127 - 1

/-- `i128::MIN`. -/
def i128Min : Int := -2 ^ 127

/-- `u64::saturating_add`. -/
def satAdd64 (a b : Nat) : Nat := min (a + b) u64Max

/-- `u64::saturating_mul`. -/
def satMul64 (a b : Nat) : Nat := min (a * b) u64Max

/-- `u32::saturating_add`. -/
def satAdd32 (a b : Nat) : Nat := min (a + b) u32Max

/-- `u64::saturating_sub`. -/
def satSub64 (a b : Nat) : Nat := a - b

/-- `u128::saturating_mul`. -/
def satMulU128 (a b : Nat) : Nat := min (a * b) u128Max

theorem satAdd64_of_le {a b : Nat} (h : a + b ≤ u64Max) : satAdd64 a b = a + b :=
  Nat.min_eq_left h

theorem satAdd32_of_le {a b : Nat} (h : a + b ≤ u32Max) : satAdd32 a b = a + b :=
  Nat.min_eq_left h

/-- An exact result, if `u32` can hold it. -/
def checked32 (n : Nat) : Option Nat := if n ≤ u32Max then some n else none

/-- An exact result, if `u64` can hold it. -/
def checked64 (n : Nat) : Option Nat := if n ≤ u64Max then some n else none

theorem checked32_eq_some {n m : Nat} : checked32 n = some m ↔ n ≤ u32Max ∧ n = m := by
  unfold checked32
  by_cases h : n ≤ u32Max
  · rw [if_pos h, Option.some.injEq, and_iff_right h]
  · rw [if_neg h]; simp [h]

theorem checked64_eq_some {n m : Nat} : checked64 n = some m ↔ n ≤ u64Max ∧ n = m := by
  unfold checked64
  by_cases h : n ≤ u64Max
  · rw [if_pos h, Option.some.injEq, and_iff_right h]
  · rw [if_neg h]; simp [h]

/-- `i128::saturating_add`. -/
def satAdd128 (a b : Int) : Int := max i128Min (min i128Max (a + b))

/-- `i128::saturating_mul`. -/
def satMul128 (a b : Int) : Int := max i128Min (min i128Max (a * b))

/-- `i128::saturating_sub`. -/
def satSub128 (a b : Int) : Int := max i128Min (min i128Max (a - b))

/-- An exact result, if `i128` can hold it: what every `checked_` operation returns. -/
def checked128 (x : Int) : Option Int :=
  if i128Min ≤ x ∧ x ≤ i128Max then some x else none

theorem checked128_eq_some {x y : Int} :
    checked128 x = some y ↔ (i128Min ≤ x ∧ x ≤ i128Max) ∧ x = y := by
  unfold checked128
  by_cases h : i128Min ≤ x ∧ x ≤ i128Max
  · rw [if_pos h, Option.some.injEq, and_iff_right h]
  · rw [if_neg h]; simp [h]

theorem checked128_of_mem {x : Int} (h : i128Min ≤ x ∧ x ≤ i128Max) :
    checked128 x = some x :=
  if_pos h

/-!
## Numbers in bytes

`to_be_bytes`: the bytes of an unsigned integer, the highest first. A number that fits is determined by
its bytes.
-/

/-- The lowest `width` bytes of a number, the highest first. -/
def toBeBytes : Nat → Nat → List UInt8
  | 0, _ => []
  | width + 1, n => UInt8.ofNat (n / 256 ^ width) :: toBeBytes width n

theorem length_toBeBytes (width n : Nat) : (toBeBytes width n).length = width := by
  induction width with
  | zero => rfl
  | succ width ih => rw [toBeBytes, List.length_cons, ih]

theorem mod_eq_of_toBeBytes {width n m : Nat} (h : toBeBytes width n = toBeBytes width m) :
    n % 256 ^ width = m % 256 ^ width := by
  induction width with
  | zero => rw [pow_zero, Nat.mod_one, Nat.mod_one]
  | succ width ih =>
    obtain ⟨hhe, htl⟩ := List.cons.inj h
    have hby := congrArg UInt8.toNat hhe
    rw [UInt8.toNat_ofNat', UInt8.toNat_ofNat'] at hby
    have hby : n / 256 ^ width % 256 = m / 256 ^ width % 256 := hby
    rw [pow_succ, Nat.mod_mul, Nat.mod_mul, hby, ih htl]

/-- **A number that fits is determined by its bytes.** -/
theorem toBeBytes_injective {width n m : Nat} (hn : n < 256 ^ width) (hm : m < 256 ^ width)
    (h : toBeBytes width n = toBeBytes width m) : n = m := by
  have hmod := mod_eq_of_toBeBytes h
  rwa [Nat.mod_eq_of_lt hn, Nat.mod_eq_of_lt hm] at hmod

end AiNet.Core
