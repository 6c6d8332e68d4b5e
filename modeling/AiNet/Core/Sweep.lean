import Mathlib.Data.List.Nodup

/-!
# Sweeping a list in batches

A bounded clean-up walks a list from the front and takes out what is due, up to a batch;
the rest of the list it leaves as it is. Several rounds take out the due elements in the
order they stand in: each leaves a batch less of them.
-/

namespace AiNet.Core.Sweep

open List

variable {α : Type} {p : α → Bool} {n : Nat} {l : List α} {a : α}

/-- What one round takes out: the first `n` elements that are due. -/
def taken (p : α → Bool) (n : Nat) (l : List α) : List α := (l.filter p).take n

/-- What it leaves. -/
def kept (p : α → Bool) : Nat → List α → List α
  | 0, l => l
  | _ + 1, [] => []
  | n + 1, a :: l => if p a = true then kept p n l else a :: kept p (n + 1) l

example : kept p 1 [] = [] := by rw [kept]

@[simp] theorem taken_nil : taken p n [] = [] := by
  unfold taken
  rw [filter_nil, take_nil]

@[simp] theorem taken_zero : taken p 0 l = [] := take_zero

theorem taken_cons_due (h : p a = true) : taken p (n + 1) (a :: l) = a :: taken p n l := by
  unfold taken
  rw [filter_cons_of_pos h, take_succ_cons]

theorem taken_cons_of_not (h : ¬ p a = true) : taken p n (a :: l) = taken p n l := by
  unfold taken
  rw [filter_cons_of_neg h]

@[simp] theorem kept_nil : kept p n [] = [] := by
  cases n with
  | zero | succ => rfl

@[simp] theorem kept_zero : kept p 0 l = l := by
  cases l with
  | nil | cons => rfl

theorem kept_cons_due (h : p a = true) : kept p (n + 1) (a :: l) = kept p n l := by
  rw [kept, if_pos h]

theorem kept_cons_of_not (h : ¬ p a = true) : kept p n (a :: l) = a :: kept p n l := by
  cases n with
  | zero => rw [kept_zero, kept_zero]
  | succ => rw [kept, if_neg h]

/-! ## One round -/

theorem length_taken_le : (taken p n l).length ≤ n := length_take_le n _

theorem mem_of_taken (h : a ∈ taken p n l) : a ∈ l ∧ p a = true :=
  mem_filter.mp (mem_of_mem_take h)

theorem kept_filter : (kept p n l).filter p = (l.filter p).drop n := by
  induction l generalizing n with
  | nil => rw [kept_nil, filter_nil, drop_nil]
  | cons a l ih =>
    by_cases hp : p a = true
    · cases n with
      | zero => rw [kept_zero, drop_zero]
      | succ => rw [kept_cons_due hp, ih, filter_cons_of_pos hp, drop_succ_cons]
    · rw [kept_cons_of_not hp, filter_cons_of_neg hp, filter_cons_of_neg hp, ih]

theorem taken_append_kept_perm : (taken p n l ++ kept p n l).Perm l := by
  induction l generalizing n with
  | nil => rw [taken_nil, kept_nil]; exact .refl _
  | cons a l ih =>
    by_cases hp : p a = true
    · cases n with
      | zero => rw [taken_zero, kept_zero]; exact .refl _
      | succ => rw [taken_cons_due hp, kept_cons_due hp]; exact ih.cons a
    · rw [taken_cons_of_not hp, kept_cons_of_not hp]
      exact perm_middle.trans (ih.cons a)

theorem kept_nodup (h : l.Nodup) : (kept p n l).Nodup :=
  (nodup_append.mp ((taken_append_kept_perm).nodup_iff.mpr h)).2.1

theorem mem_kept (h : l.Nodup) : a ∈ kept p n l ↔ a ∈ l ∧ a ∉ taken p n l := by
  have hpe : (taken p n l ++ kept p n l).Perm l := taken_append_kept_perm
  have hdi := disjoint_of_nodup_append (hpe.nodup_iff.mpr h)
  rw [← hpe.mem_iff, mem_append]
  refine ⟨fun ha => ⟨.inr ha, fun ht => hdi ht ha⟩, fun ha => ?_⟩
  rcases ha.1 with ht | hk
  · exact absurd ht ha.2
  · exact hk

theorem length_taken_add_kept : (taken p n l).length + (kept p n l).length = l.length := by
  rw [← length_append]
  exact (taken_append_kept_perm).length_eq

end AiNet.Core.Sweep
