import Mathlib.Data.List.Nodup
import Mathlib.Data.List.Perm.Subperm

/-!
# Tables with a unique key

The rows of a table, no two of which have the same key. `insert` fails where a key is taken,
`insertOrIgnore` leaves the table as it is. What a bulk insert leaves behind is stated by keys: every
key is there, under the row that came first.
-/

namespace AiNet.Core

open List

/-- Rows with different keys, in the order of their insertion. -/
structure UniqueTable {α κ : Type} (key : α → κ) where
  rows : List α
  keys : (rows.map key).Nodup

namespace UniqueTable

variable {α κ : Type} {key : α → κ}

instance [DecidableEq α] : DecidableEq (UniqueTable key) := fun t t' =>
  decidable_of_iff (t.rows = t'.rows) (by
    cases t
    cases t'
    simp)

def empty (key : α → κ) : UniqueTable key := ⟨[], nodup_nil⟩

variable (t : UniqueTable key)

/-- Keep the rows that meet a condition. -/
def keep (p : α → Bool) : UniqueTable key where
  rows := t.rows.filter p
  keys := t.keys.sublist (filter_sublist.map key)

/-- Change rows, none of them in its key. -/
def update (f : α → α) (hf : ∀ a, key (f a) = key a) : UniqueTable key where
  rows := t.rows.map f
  keys := by
    rw [List.map_map, show key ∘ f = key from funext hf]
    exact t.keys

variable [DecidableEq κ]

def find (k : κ) : Option α := t.rows.find? fun a => decide (key a = k)

/-- One more row, if its key is free. -/
def insert (a : α) : Option (UniqueTable key) :=
  if h : key a ∈ t.rows.map key then none
  else some
    { rows := t.rows ++ [a]
      keys := by
        rw [map_append, nodup_append]
        refine ⟨t.keys, nodup_singleton _, ?_⟩
        intro k hk k' hk' heq
        rw [heq, mem_singleton.mp hk'] at hk
        exact h hk }

def insertOrIgnore (a : α) : UniqueTable key := (t.insert a).getD t

def insertAll (as : List α) : UniqueTable key := as.foldl (fun t a => t.insertOrIgnore a) t

variable {t} {a b : α}

section

omit [DecidableEq κ]

/-- **Rows with the same key are the same.** -/
theorem unique (ha : a ∈ t.rows) (hb : b ∈ t.rows) (h : key a = key b) : a = b :=
  inj_on_of_nodup_map t.keys ha hb h

@[simp] theorem mem_keep {p : α → Bool} : a ∈ (t.keep p).rows ↔ a ∈ t.rows ∧ p a = true :=
  mem_filter

end

theorem find_eq_some {k : κ} : t.find k = some a ↔ a ∈ t.rows ∧ key a = k := by
  unfold find
  constructor
  · intro h
    have hkey := List.find?_some h
    exact ⟨List.mem_of_find?_eq_some h, of_decide_eq_true hkey⟩
  · intro ⟨ha, hkey⟩
    cases hfi : t.rows.find? fun a => decide (key a = k) with
    | none =>
      rw [List.find?_eq_none] at hfi
      exact absurd (decide_eq_true hkey) (hfi a ha)
    | some =>
      have hkey' := List.find?_some hfi
      have hb := List.mem_of_find?_eq_some hfi
      rw [unique hb ha ((of_decide_eq_true hkey').trans hkey.symm)]

theorem find_eq_none {k : κ} : t.find k = none ↔ ∀ a ∈ t.rows, key a ≠ k := by
  unfold find
  simp

theorem insert_eq_none : t.insert a = none ↔ ∃ b ∈ t.rows, key b = key a := by
  unfold insert
  split
  · rename_i h
    simpa using h
  · rename_i h
    simpa using h

theorem insert_eq_some {t' : UniqueTable key} (h : t.insert a = some t') :
    t'.rows = t.rows ++ [a] ∧ ∀ b ∈ t.rows, key b ≠ key a := by
  unfold insert at h
  split at h
  · cases h
  · rename_i hfr
    cases h
    refine ⟨rfl, fun b hb heq => hfr ?_⟩
    exact heq ▸ List.mem_map_of_mem hb

theorem insert_of_free (h : ∀ b ∈ t.rows, key b ≠ key a) :
    ∃ t', t.insert a = some t' ∧ t'.rows = t.rows ++ [a] := by
  cases hins : t.insert a with
  | none =>
    obtain ⟨b, hb, heq⟩ := insert_eq_none.mp hins
    exact absurd heq (h b hb)
  | some t' => exact ⟨t', rfl, (insert_eq_some hins).1⟩

theorem find_insert {t' : UniqueTable key} (h : t.insert a = some t') (k : κ) :
    t'.find k = if key a = k then some a else t.find k := by
  obtain ⟨hrw, hfr⟩ := insert_eq_some h
  split
  · rename_i hk
    refine find_eq_some.mpr ⟨?_, hk⟩
    rw [hrw]
    exact mem_append_right _ mem_cons_self
  · rename_i hk
    unfold find
    rw [hrw, List.find?_append]
    simp [hk]

theorem find_update {f : α → α} {hf : ∀ a, key (f a) = key a} (k : κ) :
    (t.update f hf).find k = (t.find k).map f := by
  unfold find update
  rw [List.find?_map]
  simp only [Function.comp_def, hf]

/-! ## Inserting many -/

theorem rows_insertOrIgnore (t : UniqueTable key) (a : α) :
    (t.insertOrIgnore a).rows = t.rows ∧ (∃ b ∈ t.rows, key b = key a) ∨
      (t.insertOrIgnore a).rows = t.rows ++ [a] ∧ ∀ b ∈ t.rows, key b ≠ key a := by
  unfold insertOrIgnore
  cases hins : t.insert a with
  | none => exact .inl ⟨rfl, insert_eq_none.mp hins⟩
  | some =>
    have hrw := insert_eq_some hins
    exact .inr hrw

theorem insertAll_cons (t : UniqueTable key) (a : α) (as : List α) :
    t.insertAll (a :: as) = (t.insertOrIgnore a).insertAll as := rfl

theorem mem_insertAll_of_mem {as : List α} (h : a ∈ t.rows) : a ∈ (t.insertAll as).rows := by
  induction as generalizing t with
  | nil => exact h
  | cons b rest ih =>
    refine ih (t := t.insertOrIgnore b) ?_
    rcases rows_insertOrIgnore t b with ⟨hrw, _⟩ | ⟨hrw, _⟩
    · rw [hrw]
      exact h
    · rw [hrw]
      exact mem_append_left _ h

/-- **A row is in the table if it was, or if it came in and its key was free.** -/
theorem mem_of_mem_insertAll {as : List α} (h : a ∈ (t.insertAll as).rows) :
    a ∈ t.rows ∨ a ∈ as ∧ ∀ b ∈ t.rows, key b ≠ key a := by
  induction as generalizing t with
  | nil => exact .inl h
  | cons b rest ih =>
    rcases rows_insertOrIgnore t b with ⟨hrw, _⟩ | ⟨hrw, hfr⟩
    · rcases ih (t := t.insertOrIgnore b) h with hold | ⟨hnew, hfr⟩
      · exact .inl (hrw ▸ hold)
      · rw [hrw] at hfr
        exact .inr ⟨mem_cons_of_mem b hnew, hfr⟩
    · rcases ih (t := t.insertOrIgnore b) h with hold | ⟨hnew, hfr'⟩
      · rw [hrw] at hold
        rcases mem_append.mp hold with hold | hsf
        · exact .inl hold
        · rw [mem_singleton.mp hsf]
          exact .inr ⟨mem_cons_self, hfr⟩
      · rw [hrw] at hfr'
        refine .inr ⟨mem_cons_of_mem b hnew, fun c hc => ?_⟩
        exact hfr' c (mem_append_left _ hc)

/-- **Every key that came in is there.** -/
theorem key_of_insertAll {as : List α} (h : a ∈ as) : ∃ b ∈ (t.insertAll as).rows, key b = key a := by
  induction as generalizing t with
  | nil => cases h
  | cons c rest ih =>
    rw [insertAll_cons]
    rcases mem_cons.mp h with rfl | hrst
    · rcases rows_insertOrIgnore t a with ⟨hrw, b, hb, hkey⟩ | ⟨hrw, _⟩
      · have hkpt : b ∈ (t.insertOrIgnore a).rows := by
          rw [hrw]
          exact hb
        exact ⟨b, mem_insertAll_of_mem hkpt, hkey⟩
      · have hnew : a ∈ (t.insertOrIgnore a).rows := by
          rw [hrw]
          exact mem_append_right _ mem_cons_self
        exact ⟨a, mem_insertAll_of_mem hnew, rfl⟩
    · exact ih (t := t.insertOrIgnore c) hrst

theorem insertAll_of_taken {as : List α} (h : ∀ a ∈ as, ∃ b ∈ t.rows, key b = key a) :
    t.insertAll as = t := by
  induction as with
  | nil => rfl
  | cons a rest ih =>
    have hsf : t.insertOrIgnore a = t := by
      unfold insertOrIgnore
      rw [(insert_eq_none).mpr (h a mem_cons_self)]
      rfl
    unfold insertAll
    rw [foldl_cons, hsf]
    exact ih fun b hb => h b (mem_cons_of_mem a hb)

theorem rows_insertAll {as : List α} (hfr : ∀ a ∈ as, ∀ b ∈ t.rows, key b ≠ key a)
    (hke : (as.map key).Nodup) : (t.insertAll as).rows = t.rows ++ as := by
  induction as generalizing t with
  | nil => exact (append_nil _).symm
  | cons a rest ih =>
    obtain ⟨hhe, hrst⟩ := nodup_cons.mp hke
    rcases rows_insertOrIgnore t a with ⟨_, b, hb, hkey⟩ | ⟨hrw, _⟩
    · exact absurd hkey (hfr a mem_cons_self b hb)
    · rw [insertAll_cons, ih ?_ hrst, hrw, append_assoc, singleton_append]
      intro c hc b hb
      rw [hrw, mem_append, mem_singleton] at hb
      rcases hb with hold | rfl
      · exact hfr c (mem_cons_of_mem a hc) b hold
      · exact fun heq => hhe (heq ▸ List.mem_map_of_mem hc)

/-! ## Counting -/

omit [DecidableEq κ] in
theorem length_le_of_keys {α' : Type} {key' : α' → κ} {t : UniqueTable key} {u : UniqueTable key'}
    (h : ∀ a ∈ t.rows, ∃ b ∈ u.rows, key' b = key a) : t.rows.length ≤ u.rows.length := by
  have hsub : t.rows.map key ⊆ u.rows.map key' := by
    intro k hk
    obtain ⟨a, ha, rfl⟩ := List.mem_map.mp hk
    obtain ⟨b, hb, hkey⟩ := h a ha
    exact hkey ▸ List.mem_map_of_mem hb
  have hle := (t.keys.subperm hsub).length_le
  simpa using hle

end UniqueTable

end AiNet.Core
