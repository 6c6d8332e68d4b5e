import AiNet.Core.Ranking

/-!
# Pages by keyset

A page has the first rows after a cursor, in the order of their keys, and its last row is the next cursor
if there are more. What it returns is what lies between the two cursors.
-/

namespace AiNet.Core

open List Option

structure Page (α κ : Type) where
  items : List α
  nextCursor : Option κ

variable {α κ : Type} [LinearOrder κ] (key : α → κ) (rows : List α) (cursor : Option κ) (limit : Nat)

/-- The rows after the cursor. -/
def behind : List α := rows.filter fun r => cursor.all fun c => decide (c < key r)

/-- One row more than the limit is read, to see whether there are more. -/
def page : Page α κ :=
  let found := (ranked key (behind key rows cursor)).take (limit + 1)
  let items := found.take limit
  ⟨items, if limit < found.length then items.getLast?.map key else none⟩

variable {key rows cursor limit} {a b : α} {l : List α}

theorem mem_take_getLast (h : l.Pairwise fun a b => key a < key b) (hla : (l.take limit).getLast? = some a)
    (hb : b ∈ l) : b ∈ l.take limit ↔ key b ≤ key a := by
  obtain ⟨before, heq⟩ := getLast?_eq_some_iff.mp hla
  rw [← take_append_drop limit l, heq] at h hb
  rw [heq]
  obtain ⟨htak, _, hcr⟩ := pairwise_append.mp h
  constructor
  · intro hin
    rcases mem_append.mp hin with hin | hin
    · exact ((pairwise_append.mp htak).2.2 b hin a mem_cons_self).le
    · rw [mem_singleton.mp hin]
  · intro hle
    refine (mem_append.mp hb).resolve_right fun hdro => ?_
    exact absurd (hcr a (mem_append_right _ mem_cons_self) b hdro) hle.not_gt

theorem mem_behind : a ∈ ranked key (behind key rows cursor) ↔ a ∈ rows ∧ ∀ c ∈ cursor, c < key a := by
  simp [(perm_ranked key _).mem_iff, behind, Option.all_eq_true]

/-- **A page returns the rows after its cursor, up to the next.** -/
theorem mem_page (hke : (rows.map key).Nodup) (hpos : 0 < limit) : a ∈ (page key rows cursor limit).items ↔
    a ∈ rows ∧ (∀ c ∈ cursor, c < key a) ∧ ∀ c ∈ (page key rows cursor limit).nextCursor, key a ≤ c := by
  have hst := strict_ranked (hke.sublist ((filter_sublist (l := rows)).map key) : ((behind key rows cursor).map key).Nodup)
  rw [← and_assoc, ← mem_behind]
  simp only [page, take_take, length_take, min_eq_left (Nat.le_succ limit)]
  generalize ranked key (behind key rows cursor) = l at hst
  split
  · rename_i hlt
    cases hla : (l.take limit).getLast? with
    | none =>
      rw [getLast?_eq_none_iff, take_eq_nil_iff] at hla
      rcases hla with rfl | rfl
      · omega
      · exact absurd hlt (Nat.not_lt_zero _)
    | some z =>
      have hcut : a ∈ l → (a ∈ l.take limit ↔ key a ≤ key z) := fun hin => mem_take_getLast hst hla hin
      simp only [map_some, mem_def, some.injEq, forall_eq']
      exact ⟨fun h => ⟨mem_of_mem_take h, (hcut (mem_of_mem_take h)).mp h⟩, fun h => (hcut h.1).mpr h.2⟩
  · rw [take_of_length_le (by omega)]
    simp

theorem count_page [DecidableEq α] {β : Type} [BEq β] [LawfulBEq β] {f : α → β} (h : (rows.map f).Nodup) (ha : a ∈ rows) :
    ((page key rows cursor limit).items.map f).count (f a) = if a ∈ (page key rows cursor limit).items then 1 else 0 := by
  have hpe := ((perm_ranked key (behind key rows cursor)).map f).nodup_iff.mpr (h.sublist (filter_sublist.map f))
  have hsub : (page key rows cursor limit).items.Sublist (ranked key (behind key rows cursor)) :=
    (take_sublist ..).trans (take_sublist ..)
  rw [(hpe.sublist (hsub.map f)).count]
  refine if_congr ⟨fun hin => ?_, mem_map_of_mem⟩ rfl rfl
  obtain ⟨b, hb, heq⟩ := mem_map.mp hin
  exact inj_on_of_nodup_map h (mem_behind.mp (hsub.subset hb)).1 ha heq ▸ hb

theorem of_nextCursor {c : κ} (h : (page key rows cursor limit).nextCursor = some c) :
    ∃ a ∈ (page key rows cursor limit).items, key a = c := by
  obtain ⟨_, h⟩ := ite_none_right_eq_some.mp h
  obtain ⟨a, ha, rfl⟩ := map_eq_some_iff.mp h
  exact ⟨a, mem_of_getLast? ha, rfl⟩

end AiNet.Core
