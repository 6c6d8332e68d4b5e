import Mathlib.Algebra.BigOperators.Group.List.Basic
import Mathlib.Algebra.Order.BigOperators.Group.List
import Mathlib.Algebra.Order.Group.Nat
import Mathlib.Data.List.AList
import Mathlib.Data.List.Dedup

/-!
# Keyed storage

A contract's persistent storage is a finite map. It is an association list without
duplicate keys, so that reads compute, together with the one measure the accounting
arguments need: `total f`, the sum of `f` over the stored entries. `total_set` is the
whole calculus of such sums: a write replaces the old contribution by the new one.
-/

namespace AiNet.Core

open List Option

/-- A finite map from keys to values. -/
abbrev Storage (K V : Type) := AList fun _ : K => V

namespace Storage

variable {K V M : Type} [DecidableEq K]

/-- The value stored under `k`. -/
def get (s : Storage K V) (k : K) : Option V := s.lookup k

/-- Store `v` under `k`. -/
def set (s : Storage K V) (k : K) (v : V) : Storage K V := s.insert k v

/-- Drop whatever is stored under `k`. -/
def remove (s : Storage K V) (k : K) : Storage K V := s.erase k

/-- Is something stored under `k`? -/
def has (s : Storage K V) (k : K) : Bool := (s.get k).isSome

/-- Rewrite the value stored under `k`, if there is one. -/
def adjust (s : Storage K V) (k : K) (f : V → V) : Storage K V :=
  match s.get k with
  | some v => s.set k (f v)
  | none => s

@[simp] theorem get_empty (k : K) : get (∅ : Storage K V) k = none := rfl

theorem get_set (s : Storage K V) (k : K) (v : V) (k' : K) :
    get (set s k v) k' = if k' = k then some v else get s k' := by
  by_cases h : k' = k
  · subst h; rw [if_pos rfl]; exact AList.lookup_insert s
  · rw [if_neg h]; exact AList.lookup_insert_ne h

@[simp] theorem get_set_self (s : Storage K V) (k : K) (v : V) :
    get (set s k v) k = some v := by
  rw [get_set, if_pos rfl]

theorem get_set_ne (s : Storage K V) {k k' : K} (v : V) (h : k' ≠ k) :
    get (set s k v) k' = get s k' := by
  rw [get_set, if_neg h]

theorem get_remove (s : Storage K V) (k k' : K) :
    get (remove s k) k' = if k' = k then none else get s k' := by
  by_cases h : k' = k
  · subst h; rw [if_pos rfl]; exact AList.lookup_erase k' s
  · rw [if_neg h]; exact AList.lookup_erase_ne h

theorem has_eq_true {s : Storage K V} {k : K} : has s k = true ↔ ∃ v, get s k = some v :=
  isSome_iff_exists

theorem has_eq_false {s : Storage K V} {k : K} : has s k = false ↔ get s k = none := by
  unfold has; rw [← not_isSome_iff_eq_none]; simp

@[simp] theorem get_remove_self (s : Storage K V) (k : K) : get (remove s k) k = none := by
  rw [get_remove, if_pos rfl]

theorem get_of_remove {s : Storage K V} {k k' : K} {v : V} (h : get (remove s k) k' = some v) :
    get s k' = some v := by
  rw [get_remove] at h
  split at h
  · cases h
  · exact h

theorem get_remove_ne (s : Storage K V) {k k' : K} (h : k' ≠ k) :
    get (remove s k) k' = get s k' := by
  rw [get_remove, if_neg h]

@[simp] theorem has_set_self (s : Storage K V) (k : K) (v : V) : has (set s k v) k = true := by
  rw [has, get_set_self]; rfl

theorem has_set_ne (s : Storage K V) {k k' : K} (v : V) (h : k' ≠ k) :
    has (set s k v) k' = has s k' := by
  rw [has, get_set_ne _ _ h]; rfl

@[simp] theorem has_remove_self (s : Storage K V) (k : K) : has (remove s k) k = false := by
  rw [has, get_remove_self]; rfl

theorem has_remove_ne (s : Storage K V) {k k' : K} (h : k' ≠ k) :
    has (remove s k) k' = has s k' := by
  rw [has, get_remove_ne _ h]; rfl

theorem get_adjust (s : Storage K V) (k : K) (f : V → V) (k' : K) :
    get (adjust s k f) k' = if k' = k then (s.get k).map f else s.get k' := by
  unfold adjust
  cases hk : s.get k with
  | some v => exact get_set s k (f v) k'
  | none =>
    by_cases h : k' = k
    · subst h; rw [if_pos rfl]; exact hk
    · rw [if_neg h]

@[simp] theorem get_adjust_self (s : Storage K V) (k : K) (f : V → V) :
    get (adjust s k f) k = (s.get k).map f := by
  rw [get_adjust, if_pos rfl]

theorem get_adjust_ne (s : Storage K V) {k k' : K} (f : V → V) (h : k' ≠ k) :
    get (adjust s k f) k' = s.get k' := by
  rw [get_adjust, if_neg h]

/-- A map kept as it is, or written under the one key `k`. -/
def WroteAt (k : K) (s s' : Storage K V) : Prop := s' = s ∨ ∃ v, s' = s.set k v

theorem WroteAt.get_ne {k k' : K} {s s' : Storage K V} (h : WroteAt k s s') (hk : k' ≠ k) :
    s'.get k' = s.get k' := by
  rcases h with rfl | ⟨v, rfl⟩
  · rfl
  · exact get_set_ne _ _ hk

/-! ## Totals -/

section Total

variable [AddCommMonoid M]

/-- The sum of `f` over the stored entries. -/
def total (s : Storage K V) (f : K → V → M) : M :=
  (s.entries.map fun e => f e.1 e.2).sum

theorem mem_entries {s : Storage K V} {k : K} {v : V} :
    (⟨k, v⟩ : Sigma fun _ : K => V) ∈ s.entries ↔ get s k = some v := by
  rw [get, ← mem_def, AList.mem_lookup_iff]

theorem total_congr {s : Storage K V} {f g : K → V → M}
    (h : ∀ k v, get s k = some v → f k v = g k v) : total s f = total s g := by
  unfold total
  refine congrArg List.sum (map_congr_left ?_)
  rintro ⟨k, v⟩ he
  exact h k v (mem_entries.mp he)

private theorem sum_kerase (f : K → V → M) (k : K) :
    ∀ {l : List (Sigma fun _ : K => V)}, l.NodupKeys →
      ((l.kerase k).map fun e => f e.1 e.2).sum + ((l.dlookup k).elim 0 (f k))
        = (l.map fun e => f e.1 e.2).sum
  | [], _ => by simp
  | ⟨k', v⟩ :: l, hl => by
    have hl' := nodupKeys_cons.mp hl
    by_cases hk : k = k'
    · subst hk
      have he : List.kerase k (⟨k, v⟩ :: l) = l := kerase_cons_eq rfl
      rw [he, dlookup_cons_eq]
      simp [add_comm]
    · rw [kerase_cons_ne hk, dlookup_cons_ne _ _ hk]
      simp only [map_cons, sum_cons]
      rw [add_assoc, sum_kerase f k hl'.2]

/-- **A write replaces the old contribution by the new one.** -/
theorem total_set (s : Storage K V) (k : K) (v : V) (f : K → V → M) :
    total (set s k v) f + (get s k).elim 0 (f k) = total s f + f k v := by
  have h := sum_kerase f k s.nodupKeys
  unfold total set get
  rw [AList.entries_insert, map_cons, sum_cons, add_assoc]
  rw [show s.lookup k = s.entries.dlookup k from rfl, h, add_comm]

theorem total_set_of_none {s : Storage K V} {k : K} (h : get s k = none) (v : V)
    (f : K → V → M) : total (set s k v) f = total s f + f k v := by
  have := total_set s k v f
  rwa [h, elim_none, add_zero] at this

theorem total_set_of_some {s : Storage K V} {k : K} {v₀ : V} (h : get s k = some v₀) (v : V)
    (f : K → V → M) : total (set s k v) f + f k v₀ = total s f + f k v := by
  have := total_set s k v f
  rwa [h, elim_some] at this

theorem total_remove (s : Storage K V) (k : K) (f : K → V → M) :
    total (remove s k) f + (get s k).elim 0 (f k) = total s f :=
  sum_kerase f k s.nodupKeys

theorem sum_map_change {l : List K} {f g : K → M} {k : K} (hn : l.Nodup) (hk : k ∈ l)
    (h : ∀ x, x ≠ k → g x = f x) : (l.map g).sum + f k = (l.map f).sum + g k := by
  induction l with
  | nil => exact absurd hk not_mem_nil
  | cons x l ih =>
    rw [nodup_cons] at hn
    simp only [map_cons, sum_cons]
    by_cases hx : x = k
    · subst hx
      have hrst : l.map g = l.map f := by
        refine map_congr_left ?_
        intro y hy
        exact h y (fun he => hn.1 (he ▸ hy))
      rw [hrst, add_right_comm, add_comm (g x), add_right_comm]
    · have hkl : k ∈ l := (mem_cons.mp hk).resolve_left (fun he => hx he.symm)
      rw [h x hx, add_assoc, ih hn.2 hkl, add_assoc]

theorem total_eq_sum (f : K → V → M) : ∀ {l : List K} {s : Storage K V}, l.Nodup →
    (∀ k v, get s k = some v → k ∉ l → f k v = 0) →
      total s f = (l.map fun k => (get s k).elim 0 (f k)).sum := by
  intro l
  induction l with
  | nil =>
    intro s _ h
    have hz : total s f = total s fun _ _ => 0 :=
      total_congr fun k v hk => h k v hk not_mem_nil
    rw [hz]
    simp [total]
  | cons k l ih =>
    intro s hn h
    rw [nodup_cons] at hn
    rw [← total_remove s k f, ih hn.2, map_cons, sum_cons, add_comm]
    · congr 2
      refine map_congr_left ?_
      intro x hx
      rw [get_remove, if_neg (fun he : x = k => hn.1 (he ▸ hx))]
    · intro k' v hk' hl
      rw [get_remove] at hk'
      split at hk'
      · cases hk'
      · rename_i hne
        exact h k' v hk' (fun hm => (mem_cons.mp hm).elim hne hl)

omit [DecidableEq K] in
theorem total_split (s : Storage K V) (f : K → V → M) (p : K → Prop) [DecidablePred p] :
    total s f = total s (fun k v => if p k then f k v else 0)
      + total s fun k v => if p k then 0 else f k v := by
  unfold total
  rw [← sum_map_add]
  refine congrArg List.sum (map_congr_left ?_)
  intro e _
  dsimp only
  by_cases h : p e.1
  · rw [if_pos h, if_pos h, add_zero]
  · rw [if_neg h, if_neg h, zero_add]

theorem total_key (s : Storage K V) (f : K → V → M) (k : K) :
    total s (fun x v => if x = k then f x v else 0) = (get s k).elim 0 (f k) := by
  have hz : ∀ x v, get s x = some v → x ∉ [k] → (if x = k then f x v else 0) = 0 := by
    intro x v _ hx
    exact if_neg (fun he => hx (mem_singleton.mpr he))
  rw [total_eq_sum _ (nodup_singleton k) hz, map_singleton, sum_singleton]
  simp only [if_true]

theorem total_reweigh {s : Storage K V} {k : K} {v : V} (hk : get s k = some v) {f g : K → V → M}
    (h : ∀ x v, x ≠ k → g x v = f x v) : total s g + f k v = total s f + g k v := by
  have hrst : total s (fun x v => if x = k then 0 else g x v) =
      total s fun x v => if x = k then 0 else f x v := by
    refine total_congr ?_
    intro x v _
    by_cases hx : x = k
    · rw [if_pos hx, if_pos hx]
    · rw [if_neg hx, if_neg hx, h x v hx]
  rw [total_split s g (· = k), total_split s f (· = k), total_key, total_key, hk, elim_some,
    elim_some, hrst, add_right_comm, add_comm (g k v) (f k v), add_right_comm]

theorem total_agree {s s' : Storage K V} {f : K → V → M}
    (h : ∀ k, get s k = get s' k ∨ ∀ v, f k v = 0) : total s f = total s' f := by
  have hl : (s.keys ++ s'.keys).dedup.Nodup := nodup_dedup _
  have hkey : ∀ (r : Storage K V) k v, get r k = some v → k ∈ r.keys := by
    intro r k v hk
    rw [← AList.mem_keys, ← AList.lookup_isSome]
    exact isSome_iff_exists.mpr ⟨v, hk⟩
  rw [total_eq_sum f hl, total_eq_sum f hl]
  · refine congrArg List.sum (map_congr_left ?_)
    intro k _
    rcases h k with hk | hk
    · rw [hk]
    · cases get s k <;> cases get s' k <;> simp [hk]
  · intro k v hk hout
    exact absurd (mem_dedup.mpr (mem_append_right _ (hkey s' k v hk))) hout
  · intro k v hk hout
    exact absurd (mem_dedup.mpr (mem_append_left _ (hkey s k v hk))) hout

end Total

theorem total_set_same [AddCancelCommMonoid M] {s : Storage K V} {k : K} {v₀ v : V}
    (h : get s k = some v₀) {f : K → V → M} (hf : f k v = f k v₀) :
    total (set s k v) f = total s f := by
  have := total_set_of_some h v f
  rw [hf] at this
  exact add_right_cancel this

theorem entry_le_total [AddCommMonoid M] [PartialOrder M] [IsOrderedAddMonoid M]
    {s : Storage K V} (f : K → V → M) (hf : ∀ k v, get s k = some v → 0 ≤ f k v) {k : K} {v : V}
    (h : get s k = some v) : f k v ≤ total s f := by
  unfold total
  refine single_le_sum ?_ _ (List.mem_map.mpr ⟨⟨k, v⟩, mem_entries.mpr h, rfl⟩)
  intro x hx
  obtain ⟨⟨k', v'⟩, he, rfl⟩ := List.mem_map.mp hx
  exact hf k' v' (mem_entries.mp he)

theorem total_nonneg [AddCommMonoid M] [PartialOrder M] [IsOrderedAddMonoid M]
    {s : Storage K V} {f : K → V → M} (hf : ∀ k v, get s k = some v → 0 ≤ f k v) :
    0 ≤ total s f := by
  unfold total
  refine sum_nonneg ?_
  intro x hx
  obtain ⟨⟨k', v'⟩, he, rfl⟩ := List.mem_map.mp hx
  exact hf k' v' (mem_entries.mp he)

theorem total_mono [AddCommMonoid M] [PartialOrder M] [IsOrderedAddMonoid M] {s : Storage K V}
    {f g : K → V → M} (h : ∀ k v, get s k = some v → f k v ≤ g k v) : total s f ≤ total s g := by
  unfold total
  refine sum_le_sum ?_
  intro e he
  exact h e.1 e.2 (mem_entries.mp he)

/-! ## Size -/

/-- How many keys something is stored under. -/
def size (s : Storage K V) : Nat := s.keys.length

theorem mem_keys_iff {s : Storage K V} {k : K} : k ∈ s.keys ↔ has s k = true := by
  rw [← AList.mem_keys, ← AList.lookup_isSome]
  rfl

theorem size_set_of_none {s : Storage K V} {k : K} (h : get s k = none) (v : V) :
    size (set s k v) = size s + 1 := by
  have hk : k ∉ s.keys := by
    rw [mem_keys_iff, has_eq_false.mpr h]
    exact Bool.false_ne_true
  unfold size set
  rw [AList.keys_insert, erase_of_not_mem hk, length_cons]

theorem size_remove_of_some {s : Storage K V} {k : K} {v : V} (h : get s k = some v) :
    size (remove s k) + 1 = size s := by
  have hk : k ∈ s.keys := mem_keys_iff.mpr (has_eq_true.mpr ⟨v, h⟩)
  have hpos := length_pos_of_mem hk
  unfold size remove
  rw [AList.keys_erase, length_erase_of_mem hk]
  omega

theorem size_congr {s s' : Storage K V} (h : ∀ k, has s' k = has s k) : size s' = size s := by
  refine List.Perm.length_eq ((perm_ext_iff_of_nodup s'.keys_nodup s.keys_nodup).mpr ?_)
  intro k
  rw [mem_keys_iff, mem_keys_iff, h]

/-! ## Counting -/

/-- How many stored entries satisfy `p`. -/
def count (s : Storage K V) (p : K → V → Bool) : Nat :=
  total s fun k v => if p k v then 1 else 0

end Storage

end AiNet.Core
