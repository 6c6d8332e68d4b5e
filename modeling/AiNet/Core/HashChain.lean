import Mathlib.Data.List.Chain
import Mathlib.Data.List.Infix

/-!
# Hash chains

Each element of a chain names the hash of the one before it. Where a hash determines its element, the last
element determines the chain, as far back as it goes: of two chains with the same last element, one is the end
of the other (`Linked.comparable`). A chain whose first element names a hash that no element has is the whole
(`Linked.suffix_of_anchored`).
-/

namespace AiNet.Core

open List

variable {α δ : Type} (prev hash : α → δ)

/-- Each element names the hash of the one before it. -/
def Linked (l : List α) : Prop := l.IsChain fun a b => prev b = hash a

variable {prev hash} {l l' : List α} {a : α}

theorem linked_nil : Linked prev hash [] := List.IsChain.nil

theorem Linked.of_suffix (h : Linked prev hash l) (hsfx : l' <:+ l) : Linked prev hash l' :=
  List.IsChain.suffix h hsfx

theorem Linked.snoc (h : Linked prev hash l) (ha : ∀ b, l.getLast? = some b → prev a = hash b) :
    Linked prev hash (l ++ [a]) := by
  refine List.IsChain.append h (isChain_singleton a) ?_
  intro b hb c hc
  cases hc
  exact ha b hb

theorem Linked.prev_eq {b : α} (h : Linked prev hash (l ++ [b] ++ [a])) : prev a = hash b := by
  have hla : b ∈ (l ++ [b]).getLast? := by
    rw [List.getLast?_concat]
    rfl
  exact (isChain_append.mp h).2.2 b hla a rfl

/-- What a hash is taken over: elements with the same hash are the same. -/
def Binding (hash : α → δ) (l l' : List α) : Prop := ∀ a ∈ l, ∀ b ∈ l', hash a = hash b → a = b

theorem Binding.of_append {m m' : List α} (h : Binding hash (l ++ m) (l' ++ m')) : Binding hash l l' :=
  fun a ha b hb => h a (mem_append_left _ ha) b (mem_append_left _ hb)

/-- **Of two chains with the same last element, one is the end of the other.** -/
theorem Linked.comparable (h : Linked prev hash (l ++ [a])) (h' : Linked prev hash (l' ++ [a]))
    (hbi : Binding hash l l') : l <:+ l' ∨ l' <:+ l := by
  induction l using List.reverseRecOn generalizing l' a with
  | nil => exact .inl (nil_suffix)
  | append_singleton l b ih =>
    rcases eq_nil_or_concat l' with rfl | ⟨m, b', rfl⟩
    · exact .inr (nil_suffix)
    · rw [concat_eq_append] at h' hbi ⊢
      -- both name the hash of the element before
      have hsm : hash b = hash b' := h.prev_eq.symm.trans h'.prev_eq
      obtain rfl := hbi b (by simp) b' (by simp) hsm
      have hen := ih (List.IsChain.left_of_append h) (List.IsChain.left_of_append h')
        hbi.of_append
      rcases hen with ⟨t, rfl⟩ | ⟨t, rfl⟩
      · exact .inl ⟨t, (append_assoc ..).symm⟩
      · exact .inr ⟨t, (append_assoc ..).symm⟩

/-- **A chain that begins with a hash no element has is not the end of another one.** -/
theorem Linked.suffix_of_anchored (h : Linked prev hash (l ++ [a])) (h' : Linked prev hash (l' ++ [a]))
    (hbi : Binding hash l l') {genesis : δ} (hfst : ∀ b, (l ++ [a]).head? = some b → prev b = genesis)
    (hge : ∀ b ∈ l', hash b ≠ genesis) : l' <:+ l := by
  rcases h.comparable h' hbi with ⟨t, rfl⟩ | hsfx
  · rcases eq_nil_or_concat t with rfl | ⟨t, b, rfl⟩
    · exact suffix_refl _
    · rw [concat_eq_append, append_assoc] at h'
      have hfst' : ∀ c, (l ++ [a]).head? = some c → prev c = hash b := by
        intro c hc
        exact (isChain_append.mp h').2.2 b (by simp) c hc
      -- the first element would name the hash of the one before it
      cases hhe : (l ++ [a]).head? with
      | none => simp at hhe
      | some c =>
        refine absurd ?_ (hge b (by simp))
        rw [← hfst' c hhe, hfst c hhe]
  · exact hsfx

end AiNet.Core
