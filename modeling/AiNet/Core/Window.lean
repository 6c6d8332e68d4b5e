import Mathlib.Algebra.Order.Group.Int
import Mathlib.Data.List.Basic

/-!
# Trailing windows

The window of a width that ends at some time, without the time at its other end. Who lets a new time through only if
few of the last window are there has few in every window.
-/

namespace AiNet.Core

open List

variable {α : Type} [LinearOrder α] [Add α]

def inTrailing (width time x : α) : Bool := decide (x ≤ time) && decide (time < x + width)

theorem countP_trailing_snoc {times : List α} {width now : α} {n : Nat} (hps : ∀ x ∈ times, x ≤ now)
    (hfew : times.countP (inTrailing width now) < n) (h : ∀ time, times.countP (inTrailing width time) ≤ n) (time : α) :
    (times ++ [now]).countP (inTrailing width time) ≤ n := by
  rw [countP_append, countP_singleton]
  by_cases hnow : now ≤ time
  · -- what is still in the window was in the last one
    have hmo : times.countP (inTrailing width time) ≤ times.countP (inTrailing width now) :=
      countP_mono_left fun x hx hin => by
        simp only [inTrailing, Bool.and_eq_true, decide_eq_true_eq] at hin ⊢
        exact ⟨hps x hx, hnow.trans_lt hin.2⟩
    split <;> omega
  · rw [if_neg (by simp [inTrailing, hnow])]
    exact h time

end AiNet.Core
