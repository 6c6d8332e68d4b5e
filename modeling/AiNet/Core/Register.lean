import Mathlib.Logic.Basic
import Mathlib.Logic.Function.Basic
import Mathlib.Data.List.Basic

/-!
# Registers

Records that get a number each when they are added, and keep it. An update or a deletion goes
over all of them and decides, by number and content, what to do; `alter` is both. That a number
not given out yet has no record is part of the structure, so `add` never overwrites.
-/

namespace AiNet.Core

/-- Numbered records. -/
structure Register (α : Type) where
  get : Nat → Option α
  /-- The next number. -/
  next : Nat
  fresh : ∀ k, next ≤ k → get k = none

namespace Register

variable {α : Type} (r : Register α)

def empty : Register α := ⟨fun _ => none, 0, fun _ _ => rfl⟩

/-- Add a record, under the next number. -/
def add (a : α) : Register α where
  get := Function.update r.get r.next (some a)
  next := r.next + 1
  fresh := by
    intro k hk
    rw [Function.update_of_ne (by omega)]
    exact r.fresh k (by omega)

/-- Rewrite or drop every record, by its number and content. -/
def alter (f : Nat → α → Option α) : Register α where
  get := fun k => (r.get k).bind (f k)
  next := r.next
  fresh := by
    intro k hk
    rw [r.fresh k hk]
    rfl

/-- Rewrite the records that meet a condition. -/
def rewrite (p : Nat → α → Bool) (f : α → α) : Register α :=
  r.alter fun k a => some (if p k a then f a else a)

/-- Drop the records that meet a condition. -/
def drop (p : Nat → α → Bool) : Register α := r.alter fun k a => if p k a then none else some a

/-- Does a record meet the condition? -/
def any (p : Nat → α → Bool) : Bool := (List.range r.next).any fun k => (r.get k).any (p k)

variable {r} {a : α} {k : Nat}

theorem lt_next (h : r.get k = some a) : k < r.next := by
  by_contra hk
  rw [r.fresh k (Nat.le_of_not_lt hk)] at h
  cases h

@[simp] theorem get_empty : (empty : Register α).get k = none := rfl

@[simp] theorem get_add_self : (r.add a).get r.next = some a := Function.update_self ..

theorem get_add_of_ne (h : k ≠ r.next) : (r.add a).get k = r.get k := Function.update_of_ne h ..

theorem get_add_of_some {b : α} (h : r.get k = some b) : (r.add a).get k = some b := by
  rw [get_add_of_ne (Nat.ne_of_lt (lt_next h))]
  exact h

theorem of_get_add {b : α} (h : (r.add a).get k = some b) :
    k = r.next ∧ b = a ∨ r.get k = some b := by
  by_cases hk : k = r.next
  · rw [hk, get_add_self] at h
    exact .inl ⟨hk, (Option.some.inj h).symm⟩
  · rw [get_add_of_ne hk] at h
    exact .inr h

theorem get_rewrite (p : Nat → α → Bool) (f : α → α) :
    (r.rewrite p f).get k = (r.get k).map fun a => if p k a then f a else a := by
  unfold rewrite alter
  dsimp only
  cases r.get k <;> rfl

theorem get_rewrite_of_some {p : Nat → α → Bool} {f : α → α} (h : r.get k = some a) :
    (r.rewrite p f).get k = some (if p k a then f a else a) := by
  rw [get_rewrite, h]
  rfl

theorem of_get_drop {p : Nat → α → Bool} (h : (r.drop p).get k = some a) :
    r.get k = some a ∧ p k a = false := by
  unfold drop alter at h
  dsimp only at h
  cases hk : r.get k with
  | none =>
    rw [hk] at h
    cases h
  | some b =>
    rw [hk, Option.bind_some] at h
    split at h
    · cases h
    · rename_i hp
      cases h
      exact ⟨rfl, eq_false_of_ne_true hp⟩

theorem get_drop_of_not {p : Nat → α → Bool} (h : r.get k = some a) (hp : p k a = false) :
    (r.drop p).get k = some a := by
  unfold drop alter
  dsimp only
  rw [h, Option.bind_some, hp, if_neg Bool.false_ne_true]

theorem get_drop_of_pos {p : Nat → α → Bool} (h : r.get k = some a) (hp : p k a = true) :
    (r.drop p).get k = none := by
  unfold drop alter
  dsimp only
  rw [h, Option.bind_some, if_pos hp]

theorem get_drop_of_none {p : Nat → α → Bool} (h : r.get k = none) : (r.drop p).get k = none := by
  unfold drop alter
  dsimp only
  rw [h]
  rfl

theorem any_eq_true {p : Nat → α → Bool} :
    r.any p = true ↔ ∃ k a, r.get k = some a ∧ p k a = true := by
  unfold any
  rw [List.any_eq_true]
  constructor
  · intro ⟨k, _, hk⟩
    obtain ⟨a, ha, hp⟩ := (Option.any_eq_true _ _).mp hk
    exact ⟨k, a, ha, hp⟩
  · intro ⟨k, a, ha, hp⟩
    exact ⟨k, List.mem_range.mpr (lt_next ha), (Option.any_eq_true _ _).mpr ⟨a, ha, hp⟩⟩

end Register

end AiNet.Core
