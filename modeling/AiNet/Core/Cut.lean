import Mathlib.Data.List.Basic

/-!
# Cutting a sorted list

In a list that is sorted by a number, the elements below a bound come first. `below` counts them, so that
selecting by the number is dropping or taking as many.
-/

namespace AiNet.Core

open List

section

variable {α : Type} (f : α → Nat)

/-- The list is sorted by the number of its elements. -/
def SortedBy (l : List α) : Prop := l.Pairwise fun a b => f a ≤ f b

/-- How many elements are below a bound. -/
def below (l : List α) (k : Nat) : Nat := l.countP fun a => decide (f a < k)

variable {f} {l : List α} {k : Nat}

theorem SortedBy.tail {a : α} (h : SortedBy f (a :: l)) : SortedBy f l := (pairwise_cons.mp h).2

theorem below_cons {a : α} : below f (a :: l) k = below f l k + if f a < k then 1 else 0 := by
  unfold below
  rw [countP_cons]
  simp only [decide_eq_true_eq]

theorem SortedBy.below_eq_zero {a : α} (h : SortedBy f (a :: l)) (ha : ¬f a < k) :
    below f (a :: l) k = 0 := by
  unfold below
  rw [countP_eq_zero]
  intro b hb
  rcases mem_cons.mp hb with rfl | hb
  · simpa using ha
  · have hle := (pairwise_cons.mp h).1 b hb
    simp only [decide_eq_true_eq]
    omega

theorem SortedBy.filter_ge (h : SortedBy f l) :
    l.filter (fun a => decide (k ≤ f a)) = l.drop (below f l k) := by
  induction l with
  | nil => rfl
  | cons a l ih =>
    by_cases ha : f a < k
    · rw [filter_cons_of_neg (by simpa using ha), below_cons, if_pos ha, ih h.tail]
      rfl
    · have hall : ∀ b ∈ a :: l, decide (k ≤ f b) = true := by
        intro b hb
        have hz := countP_eq_zero.mp (h.below_eq_zero ha) b hb
        simp only [decide_eq_true_eq] at hz ⊢
        omega
      rw [filter_eq_self.mpr hall, h.below_eq_zero ha]
      rfl

theorem SortedBy.filter_lt (h : SortedBy f l) :
    l.filter (fun a => decide (f a < k)) = l.take (below f l k) := by
  induction l with
  | nil => rfl
  | cons a l ih =>
    by_cases ha : f a < k
    · rw [filter_cons_of_pos (by simpa using ha), below_cons, if_pos ha, ih h.tail]
      rfl
    · have hno : ∀ b ∈ a :: l, ¬decide (f b < k) = true := countP_eq_zero.mp (h.below_eq_zero ha)
      rw [filter_eq_nil_iff.mpr hno, h.below_eq_zero ha]
      rfl

theorem below_le_length : below f l k ≤ l.length := countP_le_length

theorem below_append_of_ge {l' : List α} (h : ∀ a ∈ l', k ≤ f a) : below f (l ++ l') k = below f l k := by
  unfold below
  rw [countP_append, Nat.add_eq_left, countP_eq_zero]
  intro a ha
  have hle := h a ha
  simp only [decide_eq_true_eq]
  omega

theorem below_eq_length (h : ∀ a ∈ l, f a < k) : below f l k = l.length := by
  unfold below
  rw [countP_eq_length]
  exact fun a ha => decide_eq_true (h a ha)

/-- **The elements below a bound are those that stand before it.** -/
theorem SortedBy.lt_below_iff (h : SortedBy f l) {j : Nat} {a : α} (ha : l[j]? = some a) :
    j < below f l k ↔ f a < k := by
  induction l generalizing j with
  | nil => cases ha
  | cons b l ih =>
    by_cases hb : f b < k
    · rw [below_cons, if_pos hb]
      cases j with
      | zero =>
        rw [← Option.some.inj ha]
        exact iff_of_true (Nat.succ_pos _) hb
      | succ =>
        rw [getElem?_cons_succ] at ha
        rw [Nat.add_lt_add_iff_right]
        exact ih h.tail ha
    · rw [h.below_eq_zero hb]
      refine iff_of_false (Nat.not_lt_zero j) fun hlt => ?_
      have hz := countP_eq_zero.mp (h.below_eq_zero hb) a (mem_of_getElem? ha)
      exact hz (decide_eq_true hlt)

/-! ## Slices -/

theorem SortedBy.drop {n : Nat} (h : SortedBy f l) : SortedBy f (l.drop n) := List.Pairwise.drop h

theorem take_drop_zipIdx (l : List α) (a n : Nat) :
    (l.zipIdx.drop a).take n = ((l.drop a).take n).zipIdx a := by
  refine ext_getElem? fun i => ?_
  rw [getElem?_zipIdx, getElem?_take, getElem?_take]
  split
  · rw [getElem?_drop, getElem?_drop, getElem?_zipIdx]
    simp only [Nat.zero_add]
  · rfl

/-- **What a numbered, sorted list has between two bounds is a slice of it.** -/
theorem SortedBy.between (h : SortedBy f l) (start tip limit : Nat) :
    ∃ n, below f l start + n ≤ l.length ∧ (l.zipIdx.filter fun entry =>
        decide (start ≤ f entry.1) && decide (f entry.1 ≤ tip)).take limit =
          ((l.drop (below f l start)).take n).zipIdx (below f l start) := by
  have hnu : SortedBy (fun entry : α × Nat => f entry.1) l.zipIdx := by
    have hfst : (l.zipIdx.map Prod.fst).Pairwise fun a b => f a ≤ f b := by
      rw [zipIdx_map_fst]
      exact h
    exact (pairwise_map (f := Prod.fst) (R := fun a b => f a ≤ f b)).mp hfst
  have hsta : below (fun entry : α × Nat => f entry.1) l.zipIdx start = below f l start := by
    have hcnt : (l.zipIdx.map Prod.fst).countP (fun a => decide (f a < start)) = below f l start := by
      rw [zipIdx_map_fst]
      rfl
    rw [countP_map] at hcnt
    exact hcnt
  have hspl : (l.zipIdx.filter fun entry => decide (start ≤ f entry.1) && decide (f entry.1 ≤ tip)) =
      (l.zipIdx.filter fun entry => decide (start ≤ f entry.1)).filter
        fun entry => decide (f entry.1 < tip + 1) := by
    rw [filter_filter]
    refine filter_congr fun entry _ => ?_
    rw [Bool.and_comm, decide_eq_decide.mpr (Nat.lt_succ_iff (n := tip)).symm]
  rw [hspl, hnu.filter_ge, hsta, hnu.drop.filter_lt, take_take, take_drop_zipIdx,
    take_eq_take_min, length_drop]
  refine ⟨_, ?_, rfl⟩
  have hle : below f l start ≤ l.length := below_le_length
  omega

theorem mem_slice {a n j : Nat} {x : α} :
    (x, j) ∈ ((l.drop a).take n).zipIdx a ↔ l[j]? = some x ∧ a ≤ j ∧ j < a + n := by
  rw [mk_mem_zipIdx_iff_le_and_getElem?_sub, getElem?_take]
  by_cases hle : a ≤ j
  · by_cases hlt : j - a < n
    · rw [if_pos hlt, getElem?_drop, Nat.add_sub_cancel' hle]
      exact ⟨fun hx => ⟨hx.2, hle, by omega⟩, fun hx => ⟨hle, hx.1⟩⟩
    · rw [if_neg hlt]
      refine iff_of_false (fun hx => ?_) fun hx => ?_
      · cases hx.2
      · omega
  · exact iff_of_false (fun hx => hle hx.1) fun hx => hle hx.2.1

end

/-!
## Windows of a numbered list

The elements of a list whose numbers are above one bound and not above another. Where the numbers go up,
two windows that meet make one, and the window up to an element holds that element alone just when it is
the next one.
-/

variable {α : Type} (f : α → Int)

/-- The numbers of the list go up. -/
def Rising (l : List α) : Prop := l.Pairwise fun a b => f a < f b

/-- The elements above `low`, up to `high`. -/
def window (l : List α) (low high : Int) : List α := l.filter fun a => decide (low < f a) && decide (f a ≤ high)

variable {f} {l : List α} {low mid high : Int}

theorem mem_window {a : α} : a ∈ window f l low high ↔ a ∈ l ∧ low < f a ∧ f a ≤ high := by
  unfold window
  rw [mem_filter, Bool.and_eq_true, decide_eq_true_eq, decide_eq_true_eq]

theorem window_eq_nil (h : ∀ a ∈ l, low < f a → high < f a) : window f l low high = [] := by
  refine eq_nil_iff_forall_not_mem.mpr fun a ha => ?_
  obtain ⟨hmem, hlow, hhi⟩ := mem_window.mp ha
  have habo := h a hmem hlow
  omega

@[simp] theorem window_self : window f l low low = [] := window_eq_nil fun _ _ h => h

theorem window_append_above {l' : List α} (h : ∀ a ∈ l', low < f a → high < f a) :
    window f (l ++ l') low high = window f l low high := by
  have hnil := window_eq_nil h
  unfold window at hnil ⊢
  rw [filter_append, hnil, append_nil]

theorem window_cons_of_mem {a : α} (hlow : low < f a) (hhi : f a ≤ high) :
    window f (a :: l) low high = a :: window f l low high := by
  unfold window
  exact filter_cons_of_pos (by simp [hlow, hhi])

theorem window_cons_of_le {a : α} (h : f a ≤ low) : window f (a :: l) low high = window f l low high := by
  unfold window
  exact filter_cons_of_neg (by simp; omega)

/-- **Two windows that meet make one.** -/
theorem Rising.window_split (h : Rising f l) (hlow : low ≤ mid) (hhi : mid ≤ high) :
    window f l low high = window f l low mid ++ window f l mid high := by
  induction l with
  | nil => rfl
  | cons a l ih =>
    obtain ⟨habo, hl⟩ := pairwise_cons.mp h
    rcases Int.lt_or_le low (f a) with hin | hbel
    · rcases Int.lt_or_le mid (f a) with hla | hear
      · -- from here on, every number is above the middle
        have hall : ∀ b ∈ a :: l, mid < f b := by
          intro b hb
          rcases mem_cons.mp hb with rfl | hb
          · exact hla
          · have hlt := habo b hb
            omega
        have hno : window f (a :: l) low mid = [] := window_eq_nil fun b hb _ => hall b hb
        rw [hno, nil_append]
        refine filter_congr fun b hb => ?_
        have hmid := hall b hb
        have hbo : (low < f b ↔ mid < f b) := by omega
        rw [decide_eq_decide.mpr hbo]
      · rw [window_cons_of_mem hin (by omega), window_cons_of_mem hin hear, window_cons_of_le hear, ih hl]
        rfl
    · rw [window_cons_of_le hbel, window_cons_of_le hbel, window_cons_of_le (by omega), ih hl]

theorem Rising.eq_of_eq (h : Rising f l) {a b : α} (ha : a ∈ l) (hb : b ∈ l) (heq : f a = f b) : a = b := by
  induction l with
  | nil => cases ha
  | cons c l ih =>
    obtain ⟨habo, hl⟩ := pairwise_cons.mp h
    rcases mem_cons.mp ha with rfl | ha'
    · rcases mem_cons.mp hb with rfl | hb'
      · rfl
      · have hlt := habo b hb'
        omega
    · rcases mem_cons.mp hb with rfl | hb'
      · have hlt := habo a ha'
        omega
      · exact ih hl ha' hb'

/-- **The window up to an element is that element**, when no other one is before it. -/
theorem Rising.window_eq_singleton_iff (h : Rising f l) {a : α} (ha : a ∈ l) (hlow : low < f a) :
    window f l low (f a) = [a] ↔ ∀ b ∈ l, low < f b → f a ≤ f b := by
  constructor
  · intro heq b hb hlt
    by_contra hbf
    have hmem : b ∈ window f l low (f a) := mem_window.mpr ⟨hb, hlt, by omega⟩
    rw [heq, mem_singleton] at hmem
    rw [hmem] at hbf
    omega
  · intro hnx
    have hsf : a ∈ window f l low (f a) := mem_window.mpr ⟨ha, hlow, by omega⟩
    have hall : ∀ b ∈ window f l low (f a), b = a := by
      intro b hb
      obtain ⟨hmem, hlt, hle⟩ := mem_window.mp hb
      have hge := hnx b hmem hlt
      exact h.eq_of_eq hmem ha (by omega)
    have hri : Rising f (window f l low (f a)) := h.filter _
    generalize window f l low (f a) = w at hsf hall hri
    -- a rising list has no element twice
    cases w with
    | nil => cases hsf
    | cons b w =>
      obtain rfl := hall b mem_cons_self
      cases w with
      | nil => rfl
      | cons c =>
        have hlt := (pairwise_cons.mp hri).1 c mem_cons_self
        rw [hall c (mem_cons_of_mem _ mem_cons_self)] at hlt
        omega

end AiNet.Core
