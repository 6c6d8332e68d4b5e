import Mathlib.Data.List.Perm.Subperm
import Mathlib.Data.List.Sort
import Mathlib.Order.Lattice
import Mathlib.Data.List.Perm.Basic

/-!
# The first few of a ranking

A batch is taken from the front of a list that is sorted by a key. Whether an element is in it
depends on how many rank before it; and if those that are never served are fewer than the batch,
then the batch has the element, or one that ranks before it and is served.
-/

namespace AiNet.Core

open List

section

variable {α κ : Type} [LinearOrder κ]

/-- The list in the order of its keys. -/
def ranked (key : α → κ) (l : List α) : List α := l.insertionSort fun a b => key a ≤ key b

/-- How many elements rank before one. -/
def ahead (key : α → κ) (l : List α) (a : α) : Nat := l.countP fun b => decide (key b < key a)

variable {key : α → κ} {l l' : List α} {a b : α} {n : Nat} {p q : α → Bool}

theorem perm_ranked (key : α → κ) (l : List α) : (ranked key l).Perm l := perm_insertionSort _ l

theorem mem_of_mem_take_ranked (h : a ∈ (ranked key l).take n) : a ∈ l :=
  (perm_ranked key l).mem_iff.mp (mem_of_mem_take h)

theorem strict_ranked (hke : (l.map key).Nodup) :
    (ranked key l).Pairwise fun a b => key a < key b := by
  have hle : (ranked key l).Pairwise fun a b => key a ≤ key b := pairwise_insertionSort _ l
  have hne : (ranked key l).Pairwise fun a b => key a ≠ key b :=
    pairwise_map.mp (((perm_ranked key l).map key).nodup_iff.mpr hke)
  exact hle.imp₂ (fun _ _ h hne => lt_of_le_of_ne h hne) hne

/-- **A strict order leaves one way to list the same elements.** -/
theorem eq_of_strict (key : α → κ) (hpe : l.Perm l') (h : l.Pairwise fun a b => key a < key b)
    (h' : l'.Pairwise fun a b => key a < key b) : l = l' := by
  refine List.Perm.eq_of_pairwise (fun a b _ _ hlt hgt => ?_) h h' hpe
  exact absurd hgt hlt.asymm

theorem mem_take_of_strict (h : l.Pairwise fun a b => key a < key b) (ha : a ∈ l) :
    a ∈ l.take n ↔ ahead key l a < n := by
  unfold ahead
  induction l generalizing n with
  | nil => cases ha
  | cons b rest ih =>
    rw [pairwise_cons] at h
    cases n with
    | zero => simp
    | succ n =>
      rw [take_succ_cons, mem_cons]
      rcases mem_cons.mp ha with rfl | hrst
      · -- nothing ranks before the first
        have hno : rest.countP (fun b => decide (key b < key a)) = 0 := by
          rw [countP_eq_zero]
          intro b hb
          simpa using (h.1 b hb).le
        simp [hno]
      · have hlt := h.1 a hrst
        have hne : a ≠ b := by
          intro heq
          exact absurd (heq ▸ hlt) (lt_irrefl _)
        rw [countP_cons_of_pos (by simpa using hlt)]
        have hih := ih (n := n) h.2 hrst
        constructor
        · intro hmem
          have hin := hih.mp (hmem.resolve_left hne)
          omega
        · intro hcnt
          exact .inr (hih.mpr (by omega))

/-- **An element is in the batch if fewer than the batch rank before it.** -/
theorem mem_take_ranked (hke : (l.map key).Nodup) (ha : a ∈ l) :
    a ∈ (ranked key l).take n ↔ ahead key l a < n := by
  rw [mem_take_of_strict (strict_ranked hke) ((perm_ranked key l).mem_iff.mpr ha)]
  unfold ahead
  rw [(perm_ranked key l).countP_eq]

theorem ahead_mono (h : key a ≤ key b) : ahead key l a ≤ ahead key l b := by
  refine countP_mono_left fun c _ hc => ?_
  have hlt := of_decide_eq_true hc
  exact decide_eq_true (hlt.trans_le h)

theorem countP_le_of_mem (hnd : l.Nodup) (h : ∀ a ∈ l, p a = true → a ∈ l' ∧ q a = true) :
    l.countP p ≤ l'.countP q := by
  rw [countP_eq_length_filter, countP_eq_length_filter]
  refine ((hnd.filter p).subperm fun a ha => ?_).length_le
  obtain ⟨hmem, hp⟩ := mem_filter.mp ha
  exact mem_filter.mpr (h a hmem hp)

/--
**A batch makes progress.** If fewer elements than the batch rank before one and are never served, the
batch has it, or has one that ranks before it and is served.
-/
theorem taken_or_served (hke : (l.map key).Nodup) (ha : a ∈ l) {served : α → Bool}
    (hfew : l.countP (fun b => !served b && decide (key b < key a)) < n) :
    a ∈ (ranked key l).take n ∨ ∃ b ∈ (ranked key l).take n, served b = true := by
  by_cases hin : a ∈ (ranked key l).take n
  · exact .inl hin
  · refine .inr ?_
    by_contra hno
    simp only [not_exists, not_and, Bool.not_eq_true] at hno
    rw [mem_take_ranked hke ha, Nat.not_lt] at hin
    -- the whole batch ranks before it and is not served
    have hbat : ∀ b ∈ (ranked key l).take n, b ∈ l ∧ (!served b && decide (key b < key a)) = true := by
      intro b hb
      have hbl := mem_of_mem_take_ranked hb
      have hlt := (mem_take_ranked hke hbl).mp hb
      have hbf : key b < key a := by
        by_contra hge
        have hle := ahead_mono (l := l) (not_lt.mp hge)
        omega
      simp [hbl, hno b hb, hbf]
    have hnd : ((ranked key l).take n).Nodup := by
      have hra := (perm_ranked key l).nodup_iff.mpr hke.of_map
      exact hra.sublist (take_sublist n _)
    have hlen : ((ranked key l).take n).length = n := by
      rw [length_take, (perm_ranked key l).length_eq]
      have hle : ahead key l a ≤ l.length := countP_le_length
      omega
    have hcnt := countP_le_of_mem (p := fun _ => true) hnd fun b hb _ => hbat b hb
    rw [countP_true, hlen] at hcnt
    omega

end

/-!
## Selection sort on an indexed list

The in-place sort that contracts write out by hand: at each position, find the first of
the largest keys at or after it, and swap it in. What is proved of it is the contract of a
sort: the same entries, by falling keys. The invariant of the outer loop is `SortedUpTo`:
every key before the position is at least every key after it.
-/

variable {α : Type} (key : α → Nat)

/-- The key of the entry at an index. -/
def keyAt (l : List α) (i : Nat) : Nat := (l[i]?.map key).getD 0

/-- The inner loop: the index of the largest key among `best` and the `fuel` entries from `j` on. -/
def findMax (l : List α) : Nat → Nat → Nat → Nat
  | 0, _, best => best
  | fuel + 1, j, best => findMax l fuel (j + 1) (if keyAt key l best < keyAt key l j then j else best)

/-- Exchange two entries. -/
def swapAt (l : List α) (i j : Nat) : List α :=
  match l[i]?, l[j]? with
  | some a, some b => (l.set i b).set j a
  | _, _ => l

/-- The outer loop, for `fuel` positions from `i` on. -/
def selectFrom : Nat → Nat → List α → List α
  | 0, _, l => l
  | fuel + 1, i, l =>
    let best := findMax key l (l.length - (i + 1)) (i + 1) i
    selectFrom fuel (i + 1) (if best ≠ i then swapAt l i best else l)

/-- The sort, largest key first. -/
def selectionSort (l : List α) : List α := selectFrom key l.length 0 l

/-! ## The largest key -/

variable {key}

variable (key) in
/-- **The inner loop** returns `best` or an index it visited, and no visited key is larger. -/
theorem findMax_spec (l : List α) :
    ∀ fuel j best, best < j → (findMax key l fuel j best = best ∨
        (j ≤ findMax key l fuel j best ∧ findMax key l fuel j best < j + fuel)) ∧
      keyAt key l best ≤ keyAt key l (findMax key l fuel j best) ∧
      ∀ k, j ≤ k → k < j + fuel → keyAt key l k ≤ keyAt key l (findMax key l fuel j best) := by
  intro fuel
  induction fuel with
  | zero =>
    intro j best _
    refine ⟨.inl rfl, Nat.le_refl _, ?_⟩
    intro k hj hk
    omega
  | succ fuel ih =>
    intro j best hbe
    unfold findMax
    by_cases hle : keyAt key l best < keyAt key l j
    · rw [if_pos hle]
      obtain ⟨hpla, hge, hall⟩ := ih (j + 1) j (Nat.lt_succ_self j)
      refine ⟨.inr (by omega), by omega, ?_⟩
      intro k hj hk
      rcases Nat.eq_or_lt_of_le hj with rfl | hltr
      · exact hge
      · exact hall k hltr (by omega)
    · rw [if_neg hle]
      obtain ⟨hpla, hge, hall⟩ := ih (j + 1) best (by omega)
      refine ⟨by omega, hge, ?_⟩
      intro k hj hk
      rcases Nat.eq_or_lt_of_le hj with rfl | hltr
      · omega
      · exact hall k hltr (by omega)

/-! ## The swap -/

theorem swapAt_eq {l : List α} {i j : Nat} (hi : i < l.length) (hj : j < l.length) :
    swapAt l i j = (l.set i l[j]).set j l[i] := by
  unfold swapAt
  rw [getElem?_eq_getElem hi, getElem?_eq_getElem hj]

theorem swapAt_perm {l : List α} {i j : Nat} (hi : i < l.length) (hj : j < l.length) :
    (swapAt l i j).Perm l := by
  rw [swapAt_eq hi hj]
  exact set_set_perm hi hj

theorem keyAt_swapAt {l : List α} {i j : Nat} (hi : i < l.length) (hj : j < l.length) (k : Nat) :
    keyAt key (swapAt l i j) k
      = if k = j then keyAt key l i else if k = i then keyAt key l j else keyAt key l k := by
  rw [swapAt_eq hi hj]
  unfold keyAt
  rw [getElem?_set, getElem?_set, length_set]
  by_cases hkj : k = j
  · rw [if_pos hkj.symm, if_pos (hkj ▸ hj), if_pos hkj, getElem?_eq_getElem hi]
  · rw [if_neg (Ne.symm hkj), if_neg hkj]
    by_cases hki : k = i
    · rw [if_pos hki.symm, if_pos (hki ▸ hi), if_pos hki, getElem?_eq_getElem hj]
    · rw [if_neg (Ne.symm hki), if_neg hki]

/-! ## The sort -/

variable (key) in
/-- The keys before the position `i` fall, and none after it is larger than they are. -/
def SortedUpTo (l : List α) (i : Nat) : Prop :=
  ∀ a b, a < i → a < b → b < l.length → keyAt key l b ≤ keyAt key l a

theorem SortedUpTo.step {l : List α} {i : Nat} (h : SortedUpTo key l i) (hi : i < l.length) :
    ∃ l', (if findMax key l (l.length - (i + 1)) (i + 1) i ≠ i then
        swapAt l i (findMax key l (l.length - (i + 1)) (i + 1) i) else l) = l' ∧
      l'.Perm l ∧ SortedUpTo key l' (i + 1) := by
  obtain ⟨hpla, hge, hall⟩ :=
    findMax_spec key l (l.length - (i + 1)) (i + 1) i (Nat.lt_succ_self i)
  generalize findMax key l (l.length - (i + 1)) (i + 1) i = best at *
  by_cases hbe : best = i
  · rw [if_neg (not_not.mpr hbe)]
    refine ⟨l, rfl, .refl l, ?_⟩
    intro a b ha hab hb
    rcases Nat.lt_succ_iff_lt_or_eq.mp ha with hbf | rfl
    · exact h a b hbf hab hb
    · rw [hbe] at hall
      exact hall b hab (by omega)
  · rw [if_pos hbe]
    have hlen : best < l.length := by omega
    have hpe := swapAt_perm hi hlen
    refine ⟨_, rfl, hpe, ?_⟩
    intro a b ha hab hb
    rw [hpe.length_eq] at hb
    rw [keyAt_swapAt hi hlen, keyAt_swapAt hi hlen]
    rcases Nat.lt_succ_iff_lt_or_eq.mp ha with hbf | rfl
    · -- the keys before the position are the same, and none of the others grows past them
      rw [if_neg (show a ≠ best by omega), if_neg (show a ≠ i by omega)]
      split
      · exact h a i hbf hbf hi
      · split
        · exact h a best hbf (by omega) hlen
        · exact h a b hbf hab hb
    · rw [if_neg (Ne.symm hbe), if_pos rfl, if_neg (show b ≠ a by omega)]
      split
      · exact hge
      · exact hall b hab (by omega)

theorem selectFrom_spec : ∀ fuel i (l : List α), i + fuel = l.length → SortedUpTo key l i →
    (selectFrom key fuel i l).Perm l ∧
      SortedUpTo key (selectFrom key fuel i l) (selectFrom key fuel i l).length := by
  intro fuel
  induction fuel with
  | zero =>
    intro i l hlen h
    rw [Nat.add_zero] at hlen
    exact ⟨.refl l, hlen ▸ h⟩
  | succ fuel ih =>
    intro i l hlen h
    unfold selectFrom
    obtain ⟨l', hl', hpe, hsrt⟩ := h.step (by omega)
    dsimp only
    rw [hl']
    have hrst : i + 1 + fuel = l'.length := by
      rw [hpe.length_eq]
      omega
    obtain ⟨hpe', hsrt'⟩ := ih (i + 1) l' hrst hsrt
    exact ⟨hpe'.trans hpe, hsrt'⟩

variable (key) in
theorem selectionSort_spec (l : List α) : (selectionSort key l).Perm l ∧
    SortedUpTo key (selectionSort key l) (selectionSort key l).length :=
  selectFrom_spec l.length 0 l (Nat.zero_add _) fun _ _ ha => absurd ha (Nat.not_lt_zero _)

/-- **The sort loses and invents nothing.** -/
theorem selectionSort_perm (l : List α) : (selectionSort key l).Perm l := (selectionSort_spec key l).1

/-- **The sort sorts**, largest key first. -/
theorem selectionSort_pairwise (l : List α) :
    (selectionSort key l).Pairwise fun a b => key b ≤ key a := by
  rw [pairwise_iff_getElem]
  intro a b ha hb hab
  have hle := (selectionSort_spec key l).2 a b ha hab hb
  unfold keyAt at hle
  rwa [getElem?_eq_getElem ha, getElem?_eq_getElem hb] at hle

end AiNet.Core
