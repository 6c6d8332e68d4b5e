import Mathlib.Data.List.Basic

/-!
# Lists of processes

Processes that run side by side are a list, and a step moves one of them: `List.set` at its place.
-/

namespace AiNet.Core

variable {α β : Type} {as : List α} {i j : Nat} {a b : α}

theorem of_getElem?_set (h : (as.set i a)[j]? = some b) : i = j ∧ b = a ∨ i ≠ j ∧ as[j]? = some b := by
  rcases eq_or_ne i j with rfl | hne
  · rw [List.getElem?_set] at h
    simp only [if_true] at h
    split at h
    · exact .inl ⟨rfl, (Option.some.inj h).symm⟩
    · cases h
  · rw [List.getElem?_set_ne hne] at h
    exact .inr ⟨hne, h⟩

theorem getElem?_set_of_some (h : as[i]? = some b) : (as.set i a)[i]? = some a :=
  List.getElem?_set_self (List.getElem?_eq_some_iff.mp h).1

/-- **What holds of all processes after a move: of the one that moved, and of the others.** -/
theorem forall_mem_set {P : α → Prop} (hmv : P a)
    (hrst : ∀ j b, i ≠ j → as[j]? = some b → P b) : ∀ b ∈ as.set i a, P b := by
  intro b hb
  obtain ⟨j, hj⟩ := List.mem_iff_getElem?.mp hb
  rcases of_getElem?_set hj with ⟨_, rfl⟩ | ⟨hne, hold⟩
  · exact hmv
  · exact hrst j b hne hold

theorem map_set_of_eq {f : α → β} (h : as[i]? = some b) (hf : f a = f b) :
    (as.set i a).map f = as.map f := by
  refine List.ext_getElem? fun j => ?_
  rw [List.getElem?_map, List.getElem?_map]
  rcases eq_or_ne i j with rfl | hne
  · rw [getElem?_set_of_some h, h]
    exact congrArg some hf
  · rw [List.getElem?_set_ne hne]

theorem countP_moved {p : α → Bool} (h : as[i]? = some b) :
    (as.set i a).countP p + (if p b then 1 else 0) = as.countP p + (if p a then 1 else 0) := by
  obtain ⟨hlt, hb⟩ := List.getElem?_eq_some_iff.mp h
  have hle : (if p b then 1 else 0) ≤ as.countP p := by
    split
    · rename_i hp
      exact List.countP_pos_iff.mpr ⟨b, List.mem_of_getElem? h, hp⟩
    · exact Nat.zero_le _
  rw [List.countP_set hlt, hb]
  omega

end AiNet.Core
