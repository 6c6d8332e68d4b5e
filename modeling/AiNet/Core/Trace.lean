import Mathlib.Data.List.Basic
import Mathlib.Logic.Relation

/-!
# Records of what happened

A component that writes down what it does leaves a list of entries. Claims such as "never
this before that" say of every entry something about the entries before it. A record is
`Justified` when every entry meets such a condition; appending one entry asks for that
entry only.

The second part lifts an invariant of small steps to what a loop does with them.
-/

namespace AiNet.Core

open List

variable {α : Type} {P Q : List α → α → Prop} {log : List α}

/-- Every entry meets `P` of the entries before it. -/
def Justified (P : List α → α → Prop) (log : List α) : Prop :=
  ∀ before entry after, log = before ++ entry :: after → P before entry

theorem justified_nil : Justified P [] := by
  intro before entry after h
  exact absurd h.symm (append_ne_nil_of_right_ne_nil _ (cons_ne_nil _ _))

/-- **One more entry has to be justified by the record so far.** -/
theorem justified_snoc {entry : α} :
    Justified P (log ++ [entry]) ↔ Justified P log ∧ P log entry := by
  constructor
  · intro h
    refine ⟨?_, h log entry [] rfl⟩
    intro before e after he
    refine h before e (after ++ [entry]) ?_
    rw [he, append_assoc, cons_append]
  · intro h before e after he
    rcases eq_nil_or_concat after with rfl | ⟨after', last, rfl⟩
    · obtain ⟨rfl, hla⟩ := append_inj' he rfl
      rw [← (List.cons.inj hla).1]
      exact h.2
    · rw [concat_eq_append, ← cons_append, ← append_assoc] at he
      exact h.1 before e after' (append_inj' he rfl).1

/-- Each of the further entries meets `P` of what has gone before it. -/
def Continues (P : List α → α → Prop) : List α → List α → Prop
  | _, [] => True
  | log, entry :: more => P log entry ∧ Continues P (log ++ [entry]) more

/-- **Several entries are justified one after the other.** -/
theorem justified_append {more : List α} :
    Justified P (log ++ more) ↔ Justified P log ∧ Continues P log more := by
  induction more generalizing log with
  | nil =>
    rw [append_nil]
    exact (and_iff_left trivial).symm
  | cons entry more ih =>
    rw [append_cons, ih, justified_snoc, and_assoc]
    rfl

theorem Justified.of_split {before after : List α} {first entry : α} (h : Justified P log)
    (hlog : log = before ++ first :: after) (he : entry ∈ after) :
    ∃ between, (∃ rest, after = between ++ entry :: rest) ∧ P (before ++ first :: between) entry := by
  obtain ⟨between, rest, rfl⟩ := append_of_mem he
  refine ⟨between, ⟨rest, rfl⟩, h _ entry rest ?_⟩
  rw [hlog, append_assoc, cons_append]

/-! ## Small steps -/

section Steps

variable {σ β : Type} {r : σ → σ → Prop}

theorem chain_foldl {f : σ → β → σ} (hf : ∀ s b, Relation.ReflTransGen r s (f s b)) (bs : List β)
    (s : σ) : Relation.ReflTransGen r s (bs.foldl f s) := by
  induction bs generalizing s with
  | nil => exact .refl
  | cons b bs ih => exact (hf s b).trans (ih (f s b))

theorem chain_preserves {I : σ → Prop} {s s' : σ} (h : Relation.ReflTransGen r s s')
    (hr : ∀ s s', r s s' → I s → I s') (hI : I s) : I s' := by
  induction h with
  | refl => exact hI
  | tail _ hst ih => exact hr _ _ hst ih

theorem foldl_preserves {I : σ → Prop} {f : σ → β → σ} (hf : ∀ s b, I s → I (f s b)) (bs : List β)
    {s : σ} (hI : I s) : I (bs.foldl f s) := by
  induction bs generalizing s with
  | nil => exact hI
  | cons b bs ih => exact ih (hf s b hI)

end Steps

end AiNet.Core
