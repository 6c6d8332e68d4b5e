import Mathlib.Data.List.Induction

/-!
# Histories read as of a time

A value that changes is kept with the times of its changes, so that what it was at an
earlier time can still be read. The history is bounded: beyond the bound the oldest
entries go, and a read before the oldest one left finds the default. What a write may
do to the reads is all that is ever used of it: from its own time on they see the new
value, and before it they see what they saw or, after pruning, nothing.
-/

namespace AiNet.Core

open List

/-- A value and the time it took effect. -/
structure Checkpoint (V : Type) where
  timestamp : Nat
  value : V
  deriving DecidableEq

namespace Checkpoint

variable {V : Type}

/-- Append a change; one of the same time is overwritten. -/
def push (now : Nat) (value : V) (history : List (Checkpoint V)) : List (Checkpoint V) :=
  if history.getLast?.any (fun last => last.timestamp == now) = true then
    history.dropLast ++ [⟨now, value⟩]
  else history ++ [⟨now, value⟩]

/-- Append a change and drop what exceeds the bound, oldest first. -/
def write (bound now : Nat) (value : V) (history : List (Checkpoint V)) : List (Checkpoint V) :=
  let pushed := push now value history
  pushed.drop (pushed.length - bound)

/-- The last value that took effect by the time `at`. -/
def valueAt (default : V) (history : List (Checkpoint V)) (time : Nat) : V :=
  (history.reverse.find? fun cp => decide (cp.timestamp ≤ time)).elim default Checkpoint.value

variable {default : V}

theorem valueAt_snoc (history : List (Checkpoint V)) (cp : Checkpoint V) (time : Nat) :
    valueAt default (history ++ [cp]) time =
      if cp.timestamp ≤ time then cp.value else valueAt default history time := by
  unfold valueAt
  rw [reverse_append, reverse_singleton, singleton_append, List.find?_cons]
  by_cases h : cp.timestamp ≤ time <;> simp [h]

theorem valueAt_drop (n : Nat) (history : List (Checkpoint V)) (time : Nat) :
    valueAt default (history.drop n) time = valueAt default history time ∨
      valueAt default (history.drop n) time = default := by
  -- from the newest entry backwards, the direction in which it is read
  induction history using List.reverseRecOn with
  | nil => exact .inl (by rw [drop_nil])
  | append_singleton history cp ih =>
    by_cases hn : n ≤ history.length
    · rw [drop_append_of_le_length hn, valueAt_snoc, valueAt_snoc]
      by_cases hcp : cp.timestamp ≤ time
      · rw [if_pos hcp, if_pos hcp]
        exact .inl rfl
      · rw [if_neg hcp, if_neg hcp]
        exact ih
    · have hall : (history ++ [cp]).length ≤ n := by
        rw [length_append, length_singleton]
        omega
      rw [drop_eq_nil_of_le hall]
      exact .inr rfl

theorem push_eq (now : Nat) (value : V) (history : List (Checkpoint V)) :
    ∃ kept, push now value history = kept ++ [⟨now, value⟩] ∧
      (history = kept ∨ ∃ old, history = kept ++ [⟨now, old⟩]) := by
  unfold push
  rcases eq_nil_or_concat history with rfl | ⟨kept, last, rfl⟩
  · exact ⟨[], by simp, .inl rfl⟩
  · rw [concat_eq_append, List.getLast?_concat, dropLast_concat, Option.any_some]
    by_cases h : last.timestamp = now
    · rw [if_pos (beq_iff_eq.mpr h)]
      subst h
      exact ⟨kept, rfl, .inr ⟨last.value, rfl⟩⟩
    · rw [if_neg (fun hb => h (beq_iff_eq.mp hb))]
      exact ⟨kept ++ [last], rfl, .inl rfl⟩

theorem write_eq {bound : Nat} (hbd : 0 < bound) (now : Nat) (value : V)
    (history : List (Checkpoint V)) :
    ∃ kept n, write bound now value history = kept.drop n ++ [⟨now, value⟩] ∧
      (history = kept ∨ ∃ old, history = kept ++ [⟨now, old⟩]) := by
  obtain ⟨kept, hpu, hkpt⟩ := push_eq now value history
  refine ⟨kept, kept.length + 1 - bound, ?_, hkpt⟩
  unfold write
  dsimp only
  rw [hpu, length_append, length_singleton, drop_append_of_le_length (by omega)]

theorem valueAt_write_of_le {bound : Nat} (hbd : 0 < bound) {now time : Nat} (h : now ≤ time)
    (value : V) (history : List (Checkpoint V)) :
    valueAt default (write bound now value history) time = value := by
  obtain ⟨kept, n, hw, -⟩ := write_eq hbd now value history
  rw [hw, valueAt_snoc, if_pos h]

theorem valueAt_write_of_lt {bound : Nat} (hbd : 0 < bound) {now time : Nat} (h : time < now)
    (value : V) (history : List (Checkpoint V)) :
    valueAt default (write bound now value history) time = valueAt default history time ∨
      valueAt default (write bound now value history) time = default := by
  obtain ⟨kept, n, hw, hkpt⟩ := write_eq hbd now value history
  have hla : ¬ now ≤ time := Nat.not_le_of_lt h
  have hrd : valueAt default history time = valueAt default kept time := by
    rcases hkpt with rfl | ⟨old, rfl⟩
    · rfl
    · rw [valueAt_snoc, if_neg hla]
  rw [hw, valueAt_snoc, if_neg hla, hrd]
  exact valueAt_drop n kept time

end Checkpoint

end AiNet.Core
