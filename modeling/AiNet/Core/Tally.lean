import Mathlib.Algebra.BigOperators.Group.Finset.Piecewise
import Mathlib.Algebra.Order.BigOperators.Group.Finset
import Mathlib.Data.Fintype.BigOperators

/-!
# Tallies

A family of parts, each in a state of its own, and a weight for each state: the `tally` is
the sum of the weights. Counters that a program keeps of its parts are tallies, and moving
one part moves the tally by the difference of two weights.
-/

namespace AiNet.Core

variable {ι α M : Type} [Fintype ι]

/-- The sum of the weights of all parts. -/
def tally [AddCommMonoid M] (w : ι → α → M) (f : ι → α) : M := ∑ i, w i (f i)

section Update

variable [AddCommMonoid M] [DecidableEq ι] {w : ι → α → M} {f : ι → α}

/-- **Moving one part replaces its old weight by the new one.** -/
theorem tally_update (i : ι) (a : α) :
    tally w (Function.update f i a) + w i (f i) = tally w f + w i a := by
  have hi := Finset.mem_univ i
  have hrst : ∑ j ∈ Finset.univ.erase i, w j (Function.update f i a j) =
      ∑ j ∈ Finset.univ.erase i, w j (f j) := by
    refine Finset.sum_congr rfl ?_
    intro j hj
    rw [Function.update_of_ne (Finset.ne_of_mem_erase hj)]
  unfold tally
  rw [← Finset.sum_erase_add _ _ hi, ← Finset.sum_erase_add Finset.univ (fun j => w j (f j)) hi,
    hrst, Function.update_self, add_right_comm]

omit [DecidableEq ι] in
theorem tally_eq_zero (h : ∀ i, w i (f i) = 0) : tally w f = 0 :=
  Finset.sum_eq_zero fun i _ => h i

end Update

section Order

variable {w : ι → α → Nat} {f : ι → α}

theorem le_tally (i : ι) : w i (f i) ≤ tally w f :=
  Finset.single_le_sum (fun j _ => Nat.zero_le (w j (f j))) (Finset.mem_univ i)

theorem tally_pos {i : ι} (h : 0 < w i (f i)) : 0 < tally w f := lt_of_lt_of_le h (le_tally i)

end Order

theorem tally_mono [AddCommMonoid M] [PartialOrder M] [IsOrderedAddMonoid M] {β : Type}
    {w : ι → α → M} {w' : ι → β → M} {f : ι → α} {f' : ι → β}
    (h : ∀ i, w i (f i) ≤ w' i (f' i)) : tally w f ≤ tally w' f' :=
  Finset.sum_le_sum fun i _ => h i

end AiNet.Core
