import AiNet.UpgradeManager.Contract

/-!
# The order of version tags

`compare_version_bytes` is defined on well-formed tags and orders them totally. It is the precedence of
version tags unless the comparison comes down to a number beyond 32 bits in a pre-release: the parser takes
it for a text. `precedence_iff` says which tags it orders wrongly.
-/

namespace AiNet.UpgradeManager

open Core AiNet.Core.SemVer List Option

/-- The grammar of version tags. -/
structure WellFormed (tag : Tag) : Prop where
  build : ∀ build ∈ (splitFirst (ascii '+') tag).2, build ≠ [] ∧
    ∀ b ∈ build, (isDigit b || isLetter b || b == ascii '.' || b == ascii '-') = true
  pre : ∀ pre ∈ (splitFirst (ascii '-') (splitFirst (ascii '+') tag).1).2,
    ∀ ident ∈ pre.splitOn (ascii '.'), ident ≠ [] ∧
      ∀ b ∈ ident, (isDigit b || isLetter b || b == ascii '-') = true
  core : ∀ text ∈ (splitFirst (ascii '-') (splitFirst (ascii '+') tag).1).1.splitOn (ascii '.'),
    text ≠ [] ∧ text.all isDigit = true ∧ decimal text ≤ u32Max
  short : ((splitFirst (ascii '-') (splitFirst (ascii '+') tag).1).1.splitOn (ascii '.')).length ≤
    maxVersionComponents

theorem parseNumeric_isSome {text : List UInt8} : (parseNumeric text).isSome = true ↔
    text ≠ [] ∧ text.all isDigit = true ∧ decimal text ≤ u32Max := by
  unfold parseNumeric
  by_cases hne : text = []
  · simp [hne]
  · rw [if_neg hne, foldlM_pushDigit text (Nat.zero_le _)]
    by_cases hall : text.all isDigit = true
    · rw [if_pos hall]
      unfold checked32
      by_cases hft : decimal text ≤ u32Max
      · simp [hne, hall, hft, show text.foldl _ 0 = decimal text from rfl]
      · simp [hne, hall, hft, show text.foldl _ 0 = decimal text from rfl]
    · simp [hall]

theorem parseVersion_isSome {tag : Tag} : (parseVersion tag).isSome = true ↔ WellFormed tag := by
  have hmM : ∀ components : List (List UInt8), (components.mapM parseNumeric).isSome = true ↔
      ∀ text ∈ components, (parseNumeric text).isSome = true := by
    intro components
    induction components with
    | nil => simp
    | cons text components ih =>
      rw [mapM_cons, forall_mem_cons, ← ih]
      cases parseNumeric text with
      | none => simp
      | some n =>
        cases components.mapM parseNumeric with
        | none | some => simp
  -- an empty pre-release has an empty identifier
  have hemp : ∀ pre : List UInt8, pre.isEmpty = true → ([] : List UInt8) ∈ pre.splitOn (ascii '.') := by
    intro pre hpre
    rw [List.isEmpty_iff.mp hpre]
    exact mem_singleton_self []
  unfold parseVersion
  dsimp only
  constructor
  · intro h
    split at h
    · cases h
    · rename_i hgo
      rw [isSome_map, hmM] at h
      simp only [not_or, Bool.not_eq_true, Option.any_eq_false, Bool.or_eq_false_iff, Bool.not_eq_false',
        List.all_eq_true, Bool.and_eq_true, Bool.not_eq_true', isEmpty_eq_false_iff, Nat.not_lt] at hgo
      exact ⟨fun build hbui => hgo.1 build hbui, fun pre hpre => (hgo.2.1 pre hpre).2,
        fun text htx => parseNumeric_isSome.mp (h text htx), hgo.2.2⟩
  · intro h
    rw [if_neg, isSome_map, hmM]
    · exact fun text htx => parseNumeric_isSome.mpr (h.core text htx)
    · simp only [not_or, Bool.not_eq_true, Option.any_eq_false, Bool.or_eq_false_iff, Bool.not_eq_false',
        List.all_eq_true, Bool.and_eq_true, Bool.not_eq_true', isEmpty_eq_false_iff, Nat.not_lt]
      refine ⟨h.build, fun pre hpre => ⟨fun hnil => ?_, h.pre pre hpre⟩, h.short⟩
      exact (h.pre pre hpre [] (hemp pre (List.isEmpty_iff.mpr hnil))).1 rfl

/-! ## A total order -/

instance : Ord Identifier := ⟨Identifier.order⟩

def Identifier.key : Identifier → Bool × Nat × List UInt8
  | .numeric n => (false, n, [])
  | .alphanumeric text => (true, 0, text)

instance : Std.TransOrd Identifier := by
  have horder : (compare : Identifier → Identifier → Ordering) =
      compareLex (compareOn fun x => (Identifier.key x).1) (compareLex
        (compareOn fun x => (Identifier.key x).2.1) (compareOn fun x => (Identifier.key x).2.2)) := by
    funext x y
    cases x with
    | numeric m =>
      cases y with
      | numeric n => exact Ordering.then_eq.symm
      | alphanumeric => rfl
    | alphanumeric =>
      cases y with
      | numeric | alphanumeric => rfl
  unfold Std.TransOrd
  rw [horder]
  infer_instance

/-- An identifier as the parser takes it: a number too large is a text. -/
def parsed (text : List UInt8) : Identifier :=
  match parseNumeric text with
  | some n => .numeric n
  | none => .alphanumeric text

theorem compareIdentifiers_parsed (x y : List UInt8) :
    compareIdentifiers x y = compare (parsed x) (parsed y) := by
  unfold compareIdentifiers parsed
  cases parseNumeric x with
  | none | some =>
    cases parseNumeric y with
    | none | some => rfl

/-- The components as they are compared, filled up with zeros. -/
def ParsedVersion.filled (v : ParsedVersion) : List Nat :=
  (List.range maxVersionComponents).map fun i => v.parts.getD i 0

def versionOrder : ParsedVersion → ParsedVersion → Ordering :=
  compareLex (compareOn ParsedVersion.filled) (compareLex (compareOn fun v => decide (v.pre = []))
    (compareOn fun v => (v.pre.splitOn (ascii '.')).map parsed))

instance : Std.TransCmp versionOrder :=
  inferInstanceAs (Std.TransCmp (compareLex _ (compareLex _ _)))

theorem foldr_compare (l : List Nat) (f g : Nat → Nat) :
    l.foldr (fun i rest => (compare (f i) (g i)).then rest) .eq = compare (l.map f) (l.map g) := by
  induction l with
  | nil => rfl
  | cons i l ih =>
    rw [foldr_cons, ih]
    exact (List.compareLex_cons_cons ..).symm

theorem orderCore_filled {a b : ParsedVersion} (ha : a.parts.length ≤ maxVersionComponents)
    (hb : b.parts.length ≤ maxVersionComponents) :
    orderCore a.parts b.parts = compare a.filled b.filled := by
  have hmax := Nat.max_le.mpr ⟨ha, hb⟩
  have hspl : List.range maxVersionComponents = List.range (max a.parts.length b.parts.length) ++
      (List.range (maxVersionComponents - max a.parts.length b.parts.length)).map
        (max a.parts.length b.parts.length + ·) := by
    rw [← range_add, Nat.add_sub_cancel' hmax]
  unfold orderCore ParsedVersion.filled
  rw [← foldr_compare, hspl, foldr_append]
  congr 1
  -- beyond the components of both, zeros are compared
  rw [foldr_compare]
  have hz : ∀ v : List Nat, v.length ≤ max a.parts.length b.parts.length →
      ((List.range (maxVersionComponents - max a.parts.length b.parts.length)).map
        (max a.parts.length b.parts.length + ·)).map (fun i => v.getD i 0) =
          List.replicate (maxVersionComponents - max a.parts.length b.parts.length) 0 := by
    intro v hv
    rw [List.map_map]
    refine eq_replicate_iff.mpr ⟨by simp, ?_⟩
    simp only [List.mem_map]
    rintro n ⟨i, _, rfl⟩
    simp only [Function.comp, List.getD_eq_getElem?_getD]
    rw [List.getElem?_eq_none (by omega), getD_none]
  rw [hz _ (Nat.le_max_left _ _), hz _ (Nat.le_max_right _ _), Std.ReflOrd.compare_self]

theorem comparePreRelease_parsed (a b : List UInt8) : comparePreRelease a b =
    (compare (decide (a = [])) (decide (b = []))).then
      (compare ((a.splitOn (ascii '.')).map parsed) ((b.splitOn (ascii '.')).map parsed)) := by
  unfold comparePreRelease
  by_cases ha : a = []
  · by_cases hb : b = []
    · rw [if_pos ha, if_pos hb, ha, hb, Std.ReflOrd.compare_self, Std.ReflOrd.compare_self]
      rfl
    · simp [ha, hb, compare]
  · by_cases hb : b = []
    · simp [ha, hb, compare]
    · rw [if_neg ha, if_neg hb, decide_eq_false ha, decide_eq_false hb]
      exact compareLex_map fun x _ y _ => compareIdentifiers_parsed x y

/-- **The comparison is a total order of what is parsed.** -/
theorem compareVersionBytes_eq {a b : Tag} {va vb : ParsedVersion} (ha : parseVersion a = some va)
    (hb : parseVersion b = some vb) : compareVersionBytes a b = some (versionOrder va vb) := by
  have hlen : ∀ {tag : Tag} {v : ParsedVersion}, parseVersion tag = some v →
      v.parts.length ≤ maxVersionComponents := by
    intro tag v h
    have hsh := (parseVersion_isSome.mp (isSome_iff_exists.mpr ⟨v, h⟩)).short
    have hpar := congrArg Version.core (parseVersion_eq h)
    simp only [Version.ofTag] at hpar
    rwa [← hpar, length_map]
  unfold compareVersionBytes
  rw [ha, hb]
  refine congrArg some ?_
  rw [orderCore_filled (hlen ha) (hlen hb), comparePreRelease_parsed]
  rfl

/-! ## Agreement -/

/-- A number beyond 32 bits meets another identifier that is no number of 32 bits. -/
def Clash (x y : List UInt8) : Prop :=
  x ≠ y ∧ (parseNumeric x).isNone = true ∧ (parseNumeric y).isNone = true ∧
    (Identifier.ofText x = .numeric (decimal x) ∨ Identifier.ofText y = .numeric (decimal y))

/-- Where two lists of identifiers first clash, the bytewise order of the two is that of the lists. -/
def Bytewise : List (List UInt8) → List (List UInt8) → Prop
  | x :: xs, y :: ys =>
    (Clash x y → ((x :: xs).map Identifier.ofText).compareLex Identifier.order
      ((y :: ys).map Identifier.ofText) = compare x y) ∧
    (¬Clash x y → (Identifier.ofText x).order (Identifier.ofText y) = .eq → Bytewise xs ys)
  | _, _ => True

theorem compareIdentifiers_clash {x y : List UInt8} (h : Clash x y) :
    compareIdentifiers x y = compare x y ∧ compare x y ≠ .eq := by
  obtain ⟨hne, hx, hy, _⟩ := h
  refine ⟨?_, fun heq => hne (Std.LawfulEqOrd.eq_of_compare heq)⟩
  rw [compareIdentifiers, isNone_iff_eq_none.mp hx, isNone_iff_eq_none.mp hy]

theorem ofText_of_none {text : List UInt8} (h : parseNumeric text = none) :
    Identifier.ofText text = .alphanumeric text ∨
      Identifier.ofText text = .numeric (decimal text) ∧ u32Max < decimal text := by
  by_cases hdgs : text ≠ [] ∧ text.all isDigit = true
  · refine .inr ⟨if_pos hdgs, Nat.lt_of_not_le fun hft => ?_⟩
    have hso := parseNumeric_isSome.mpr ⟨hdgs.1, hdgs.2, hft⟩
    rw [h] at hso
    cases hso
  · exact .inl (if_neg hdgs)

theorem compareIdentifiers_order {x y : List UInt8} (h : ¬Clash x y) :
    compareIdentifiers x y = (Identifier.ofText x).order (Identifier.ofText y) := by
  have hft : ∀ {text : List UInt8} {n : Nat}, parseNumeric text = some n → n ≤ u32Max := by
    intro text n hn
    have hso := parseNumeric_isSome.mp (isSome_iff_exists.mpr ⟨n, hn⟩)
    rw [(parseNumeric_ofText hn).2] at hso
    exact hso.2.2
  unfold compareIdentifiers
  cases hx : parseNumeric x with
  | some m =>
    rw [(parseNumeric_ofText hx).1]
    cases hy : parseNumeric y with
    | some n => rw [(parseNumeric_ofText hy).1]; rfl
    | none =>
      rcases ofText_of_none hy with htt | ⟨hnum, hlar⟩
      · rw [htt]; rfl
      · rw [hnum]
        exact (Nat.compare_eq_lt.mpr ((hft hx).trans_lt hlar)).symm
  | none =>
    cases hy : parseNumeric y with
    | some n =>
      rw [(parseNumeric_ofText hy).1]
      rcases ofText_of_none hx with htt | ⟨hnum, hlar⟩
      · rw [htt]; rfl
      · rw [hnum]
        exact (Nat.compare_eq_gt.mpr ((hft hy).trans_lt hlar)).symm
    | none =>
      by_cases hxy : x = y
      · rw [hxy, Std.ReflOrd.compare_self]
        exact (Std.ReflOrd.compare_self (α := Identifier)).symm
      · have hbo : Identifier.ofText x = .alphanumeric x ∧ Identifier.ofText y = .alphanumeric y := by
          rcases ofText_of_none hx with htx | ⟨hnum, _⟩
          · rcases ofText_of_none hy with hty | ⟨hnum, _⟩
            · exact ⟨htx, hty⟩
            · exact absurd ⟨hxy, isNone_iff_eq_none.mpr hx, isNone_iff_eq_none.mpr hy, .inr hnum⟩ h
          · exact absurd ⟨hxy, isNone_iff_eq_none.mpr hx, isNone_iff_eq_none.mpr hy, .inl hnum⟩ h
        rw [hbo.1, hbo.2]
        rfl

theorem compareLex_iff {xs ys : List (List UInt8)} :
    xs.compareLex compareIdentifiers ys = (xs.map Identifier.ofText).compareLex Identifier.order
      (ys.map Identifier.ofText) ↔ Bytewise xs ys := by
  induction xs generalizing ys with
  | nil => cases ys with | nil | cons => exact iff_of_true rfl trivial
  | cons x xs ih =>
    cases ys with
    | nil => exact iff_of_true rfl trivial
    | cons y ys =>
      rw [Bytewise, List.compareLex_cons_cons]
      by_cases hcla : Clash x y
      · -- the clash decides
        obtain ⟨hbyt, hne⟩ := compareIdentifiers_clash hcla
        have hde : (compare x y).then (xs.compareLex compareIdentifiers ys) = compare x y := by
          cases hord : compare x y with
          | eq => exact absurd hord hne
          | lt | gt => rfl
        rw [hbyt, hde]
        exact ⟨fun h => ⟨fun _ => h.symm, fun hno => absurd hcla hno⟩, fun h => (h.1 hcla).symm⟩
      · rw [compareIdentifiers_order hcla, map_cons, map_cons, List.compareLex_cons_cons]
        cases hord : (Identifier.ofText x).order (Identifier.ofText y) with
        | eq => exact ih.trans ⟨fun h => ⟨fun hc => absurd hc hcla, fun _ _ => h⟩, fun h => h.2 hcla rfl⟩
        | lt | gt =>
          exact iff_of_true rfl ⟨fun hc => absurd hc hcla, nofun⟩

/-- The text after the hyphen. -/
def preRelease (tag : Tag) : List UInt8 :=
  (splitFirst (ascii '-') (splitFirst (ascii '+') tag).1).2.getD []

/-- Two tags are well ordered unless they are pre-releases of one version with a clash that bytes decide wrongly. -/
def WellOrdered (a b : Tag) : Prop :=
  WellFormed a → WellFormed b → orderCore (Version.ofTag a).core (Version.ofTag b).core = .eq →
    preRelease a ≠ [] → preRelease b ≠ [] →
      Bytewise ((preRelease a).splitOn (ascii '.')) ((preRelease b).splitOn (ascii '.'))

/-- The comparison of tags is a total order of the well-formed ones, and their precedence. -/
structure OrdersTags (a b c : Tag) : Prop where
  defined : (compareVersionBytes a b).isSome = true ↔ WellFormed a ∧ WellFormed b
  reflexive : WellFormed a → compareVersionBytes a a = some .eq
  antisymmetric : compareVersionBytes b a = (compareVersionBytes a b).map Ordering.swap
  transitive : ∀ o ∈ compareVersionBytes a b, ∀ o' ∈ compareVersionBytes b c, o.isLE = true → o'.isLE = true →
    ∃ o'' ∈ compareVersionBytes a c, o''.isLE = true
  precedence : ∀ o ∈ compareVersionBytes a b, o = (Version.ofTag a).order (Version.ofTag b)

theorem comparePreRelease_iff (a b : List UInt8) :
    comparePreRelease a b = orderPre (identifiers a) (identifiers b) ↔
      (a ≠ [] → b ≠ [] → Bytewise (a.splitOn (ascii '.')) (b.splitOn (ascii '.'))) := by
  have hno : ∀ pre : List UInt8, pre ≠ [] → identifiers pre ≠ [] := by
    intro pre hpre
    unfold identifiers
    rw [if_neg hpre, ne_eq, map_eq_nil_iff]
    exact splitOnP_ne_nil _ _
  have hemp : identifiers [] = [] := rfl
  unfold comparePreRelease orderPre
  by_cases ha : a = []
  · refine iff_of_true ?_ fun hna => absurd ha hna
    by_cases hb : b = []
    · rw [if_pos ha, if_pos hb, ha, hb, hemp, if_pos rfl, if_pos rfl]
    · rw [if_pos ha, if_neg hb, ha, hemp, if_pos rfl, if_neg (hno b hb)]
  · by_cases hb : b = []
    · refine iff_of_true ?_ fun _ hnb => absurd hb hnb
      rw [if_neg ha, if_pos hb, hb, hemp, if_neg (hno a ha), if_pos rfl]
    · rw [if_neg ha, if_neg hb, if_neg (hno a ha), if_neg (hno b hb)]
      unfold identifiers
      rw [if_neg ha, if_neg hb, compareLex_iff]
      exact ⟨fun h _ _ => h, fun h => h ha hb⟩

theorem exists_parsed {tag : Tag} (h : WellFormed tag) :
    ∃ v, parseVersion tag = some v ∧ v.pre = preRelease tag := by
  obtain ⟨v, hv⟩ := isSome_iff_exists.mp (parseVersion_isSome.mpr h)
  refine ⟨v, hv, ?_⟩
  unfold parseVersion at hv
  dsimp only at hv
  split at hv
  · cases hv
  · obtain ⟨parts, _, rfl⟩ := map_eq_some_iff.mp hv
    rfl

theorem compareVersionBytes_iff {a b : Tag} (ha : WellFormed a) (hb : WellFormed b) :
    compareVersionBytes a b = some ((Version.ofTag a).order (Version.ofTag b)) ↔
      (orderCore (Version.ofTag a).core (Version.ofTag b).core = .eq → preRelease a ≠ [] →
        preRelease b ≠ [] →
          Bytewise ((preRelease a).splitOn (ascii '.')) ((preRelease b).splitOn (ascii '.'))) := by
  obtain ⟨va, hva, hpr⟩ := exists_parsed ha
  obtain ⟨vb, hvb, hpb⟩ := exists_parsed hb
  rw [← hpr, ← hpb, ← comparePreRelease_iff, parseVersion_eq hva, parseVersion_eq hvb, Version.order,
    compareVersionBytes, hva, hvb]
  dsimp only [bind_eq_bind, bind_some, pure]
  rw [some_inj]
  cases orderCore va.parts vb.parts with
  | eq => exact ⟨fun h _ => h, fun h => h rfl⟩
  | lt | gt => exact iff_of_true rfl nofun

/-- **Version tags are ordered totally, and by precedence as long as no large number clashes.** -/
theorem precedence_iff (a b c : Tag) : OrdersTags a b c ↔ WellOrdered a b := by
  have hde : ∀ a b : Tag, (compareVersionBytes a b).isSome = true ↔ WellFormed a ∧ WellFormed b := by
    intro a b
    rw [← parseVersion_isSome, ← parseVersion_isSome, compareVersionBytes]
    cases parseVersion a with
    | none => simp
    | some va => cases parseVersion b with | none | some => simp
  have hbo : ∀ {a b : Tag} {o : Ordering}, o ∈ compareVersionBytes a b → WellFormed a ∧ WellFormed b :=
    fun ho => (hde _ _).mp (isSome_iff_exists.mpr ⟨_, ho⟩)
  constructor
  · intro h ha hb
    obtain ⟨o, ho⟩ := isSome_iff_exists.mp (h.defined.mpr ⟨ha, hb⟩)
    exact (compareVersionBytes_iff ha hb).mp (h.precedence o ho ▸ ho)
  · intro h
    refine ⟨hde a b, fun ha => ?_, ?_, fun o ho o' ho' hle hle' => ?_, fun o ho => ?_⟩
    · obtain ⟨va, hva, _⟩ := exists_parsed ha
      exact (compareVersionBytes_eq hva hva).trans (congrArg some Std.ReflCmp.compare_self)
    · cases hva : parseVersion a with
      | none => cases hvb : parseVersion b with | none | some => simp [compareVersionBytes, hva, hvb]
      | some va =>
        cases hvb : parseVersion b with
        | none => simp [compareVersionBytes, hva, hvb]
        | some vb =>
          rw [compareVersionBytes_eq hva hvb, compareVersionBytes_eq hvb hva]
          exact congrArg some Std.OrientedCmp.eq_swap
    · obtain ⟨va, hva, _⟩ := exists_parsed (hbo ho).1
      obtain ⟨vb, hvb, _⟩ := exists_parsed (hbo ho).2
      obtain ⟨vc, hvc, _⟩ := exists_parsed (hbo ho').2
      rw [compareVersionBytes_eq hva hvb] at ho
      rw [compareVersionBytes_eq hvb hvc] at ho'
      cases ho
      cases ho'
      exact ⟨_, compareVersionBytes_eq hva hvc, Std.TransCmp.isLE_trans hle hle'⟩
    · obtain ⟨ha, hb⟩ := hbo ho
      exact some.inj (ho.symm.trans ((compareVersionBytes_iff ha hb).mpr (h ha hb)))

/-- `1.0.0-99999999999` is ordered after `1.0.0-100000000000`. -/
theorem large_number_misplaced :
    ¬OrdersTags ("1.0.0-99999999999".toList.map ascii) ("1.0.0-100000000000".toList.map ascii) [] := by
  intro h
  have haf : compareVersionBytes ("1.0.0-99999999999".toList.map ascii)
      ("1.0.0-100000000000".toList.map ascii) = some .gt := by decide
  have hbf : (Version.ofTag ("1.0.0-99999999999".toList.map ascii)).order
      (Version.ofTag ("1.0.0-100000000000".toList.map ascii)) = .lt := by decide
  cases (h.precedence _ haf).trans hbf

end AiNet.UpgradeManager
