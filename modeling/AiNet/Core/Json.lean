import Mathlib.Data.List.Sort
import Mathlib.Tactic.IntervalCases
import Mathlib.Data.List.Flatten

/-!
# JSON texts

A JSON value is written without blanks: strings between quotation marks, the items of an array and
the members of an object with commas between them. The way strings are written is a parameter, a
`Quoting`. `render_injective`: two values with the same text are the same.

Where the members of every object are put in the order of their keys first, the text forgets that
order and nothing else. `similar_of_render_sorted` says so: values with the same text are `Similar`.
-/

namespace AiNet.Core

open List

/-! ## Texts that can be read back -/

/-- The characters of a number in exponent or positional form. -/
def numberChars : List Char := "0123456789+-.eE".toList

/-- What follows does not go on with a number. -/
def Ends (rest : List Char) : Prop := ∀ c rest', rest = c :: rest' → c ∉ numberChars

theorem ends_cons {c : Char} {rest : List Char} (h : c ∉ numberChars) : Ends (c :: rest) := by
  intro c' rest' heq
  rw [← (List.cons.inj heq).1]
  exact h

theorem ends_nil : Ends [] := by
  intro c rest h
  cases h

/-- A text that begins with that of `a` begins with no other one, and goes on in one way. -/
def Readable {α : Type} (f : α → List Char) (a : α) : Prop :=
  ∀ b rest rest', Ends rest → Ends rest' → f a ++ rest = f b ++ rest' → a = b ∧ rest = rest'

/-- A way to write strings, from which they can be read back. -/
structure Quoting (σ : Type) where
  quote : σ → List Char
  opens : ∀ s, ∃ text, quote s = Char.ofNat 34 :: text
  readable : ∀ s s' rest rest', quote s ++ rest = quote s' ++ rest' → s = s' ∧ rest = rest'

/-- The text of a finite number, which stands for the number. -/
structure NumberText where
  text : List Char
  nonempty : text ≠ []
  chars : ∀ c ∈ text, c ∈ numberChars
deriving DecidableEq

theorem NumberText.ext_text {n n' : NumberText} (h : n.text = n'.text) : n = n' := by
  cases n
  cases n'
  cases h
  rfl

theorem NumberText.takeWhile (n : NumberText) {rest : List Char} (h : Ends rest) :
    (n.text ++ rest).takeWhile (fun c => decide (c ∈ numberChars)) = n.text := by
  rw [takeWhile_append_of_pos fun c hc => decide_eq_true (n.chars c hc)]
  cases rest with
  | nil => exact append_nil _
  | cons c rest =>
    rw [takeWhile_cons_of_neg (by simpa using h c rest rfl), append_nil]

theorem NumberText.readable (n : NumberText) : Readable NumberText.text n := by
  intro n' rest rest' hen hen' h
  have htx : n.text = n'.text := by rw [← n.takeWhile hen, h, n'.takeWhile hen']
  rw [htx] at h
  exact ⟨NumberText.ext_text htx, append_cancel_left h⟩

theorem numberChars_digit {c : Char} (h : c.isDigit = true) : c ∈ numberChars := by
  have hbo : 48 ≤ c.toNat ∧ c.toNat ≤ 57 := Char.isDigit_iff_toNat.mp h
  have hch : Char.ofNat c.toNat = c := Char.ofNat_toNat c
  generalize c.toNat = n at hbo hch
  obtain ⟨hlow, hhi⟩ := hbo
  rw [← hch]
  interval_cases n <;> decide

/-- The digits of a whole number that doubles count to. -/
def NumberText.ofNat (n : Nat) : NumberText where
  text := Nat.toDigits 10 n
  nonempty := Nat.toDigits_ne_nil
  chars := fun _ hc => numberChars_digit (Nat.isDigit_of_mem_toDigits (by decide) (by decide) hc)

def NumberText.ofInt : Int → NumberText
  | .ofNat n => .ofNat n
  | .negSucc n =>
    { text := '-' :: Nat.toDigits 10 (n + 1)
      nonempty := cons_ne_nil _ _
      chars := forall_mem_cons.mpr ⟨by decide, (NumberText.ofNat (n + 1)).chars⟩ }

theorem NumberText.toDigits_injective {n m : Nat} (h : Nat.toDigits 10 n = Nat.toDigits 10 m) : n = m := by
  have hval := congrArg (fun digits => Nat.ofDigitChars 10 digits 0) h
  rwa [Nat.ofDigitChars_ten_toDigits, Nat.ofDigitChars_ten_toDigits] at hval

theorem NumberText.minus_ne_toDigits {n : Nat} {rest : List Char} : '-' :: rest ≠ Nat.toDigits 10 n := by
  intro h
  have hdig : '-'.isDigit = true := by
    refine Nat.isDigit_of_mem_toDigits (b := 10) (n := n) (by decide) (by decide) ?_
    rw [← h]
    exact mem_cons_self
  cases hdig

theorem NumberText.ofInt_injective {i j : Int} (h : NumberText.ofInt i = NumberText.ofInt j) : i = j := by
  have htx := congrArg NumberText.text h
  cases i with
  | ofNat =>
    cases j with
    | ofNat => exact congrArg Int.ofNat (toDigits_injective htx)
    | negSucc => exact absurd htx.symm minus_ne_toDigits
  | negSucc =>
    cases j with
    | ofNat => exact absurd htx minus_ne_toDigits
    | negSucc =>
      have hsu := toDigits_injective (List.cons.inj htx).2
      exact congrArg Int.negSucc (Nat.succ.inj hsu)

/-! ## Lists of texts -/

/-- The texts with commas between them. -/
def joinComma : List (List Char) → List Char
  | [] => []
  | text :: texts => text ++ texts.flatMap fun text => ',' :: text

section Join

variable {α : Type} {f : α → List Char} {close : Char}

theorem ends_joined {texts : List (List Char)} {rest : List Char} (hclo : close ∉ numberChars) :
    Ends ((texts.flatMap fun text => ',' :: text) ++ close :: rest) := by
  cases texts with
  | nil => exact ends_cons hclo
  | cons => exact ends_cons (by decide)

theorem joined_readable (hclo : close ∉ numberChars) (hcom : close ≠ ',') {as : List α}
    (has : ∀ a ∈ as, Readable f a) {bs : List α} {rest rest' : List Char}
    (h : ((as.map f).flatMap fun text => ',' :: text) ++ close :: rest =
      ((bs.map f).flatMap fun text => ',' :: text) ++ close :: rest') : as = bs ∧ rest = rest' := by
  induction as generalizing bs with
  | nil =>
    cases bs with
    | nil => exact ⟨rfl, (List.cons.inj h).2⟩
    | cons => exact absurd (List.cons.inj h).1 hcom
  | cons a as ih =>
    cases bs with
    | nil => exact absurd (List.cons.inj h).1.symm hcom
    | cons b =>
      simp only [map_cons, flatMap_cons, cons_append, append_assoc] at h
      have htl := (List.cons.inj h).2
      obtain ⟨rfl, hrst⟩ := has a (mem_cons_self ..) b _ _ (ends_joined hclo)
        (ends_joined hclo) htl
      obtain ⟨rfl, rfl⟩ := ih (fun a ha => has a (mem_cons_of_mem _ ha)) hrst
      exact ⟨rfl, rfl⟩

/-- **A bracketed list can be read back, if its items can be.** -/
theorem join_readable (hclo : close ∉ numberChars) (hcom : close ≠ ',')
    (hops : ∀ b, ∃ c text, f b = c :: text ∧ c ≠ close) {as : List α}
    (has : ∀ a ∈ as, Readable f a) {bs : List α} {rest rest' : List Char}
    (h : joinComma (as.map f) ++ close :: rest = joinComma (bs.map f) ++ close :: rest') :
    as = bs ∧ rest = rest' := by
  cases as with
  | nil =>
    cases bs with
    | nil => exact ⟨rfl, (List.cons.inj h).2⟩
    | cons b =>
      obtain ⟨c, text, hb, hne⟩ := hops b
      simp only [map_cons, joinComma, hb, cons_append] at h
      exact absurd (List.cons.inj h).1.symm hne
  | cons a =>
    cases bs with
    | nil =>
      obtain ⟨c, text, ha, hne⟩ := hops a
      simp only [map_cons, joinComma, ha, cons_append] at h
      exact absurd (List.cons.inj h).1 hne
    | cons b =>
      simp only [map_cons, joinComma, append_assoc] at h
      obtain ⟨rfl, hrst⟩ := has a (mem_cons_self ..) b _ _ (ends_joined hclo)
        (ends_joined hclo) h
      obtain ⟨rfl, rfl⟩ := joined_readable hclo hcom
        (fun a ha => has a (mem_cons_of_mem _ ha)) hrst
      exact ⟨rfl, rfl⟩

end Join

/-! ## Values -/

/-- A JSON value with strings from `σ`. The members of an object stand in some order. -/
inductive Json (σ : Type) where
  | null
  | bool (b : Bool)
  | number (n : NumberText)
  | string (s : σ)
  | array (items : List (Json σ))
  | object (members : List (σ × Json σ))

/-- What the first character of a text says about the value. -/
inductive Json.Kind
  | null | bool | number | string | array | object
deriving DecidableEq

namespace Json

variable {σ : Type}

def kind : Json σ → Kind
  | .null => .null
  | .bool _ => .bool
  | .number _ => .number
  | .string _ => .string
  | .array _ => .array
  | .object _ => .object

def kindOf (c : Char) : Kind :=
  if c = 'n' then .null
  else if c = 't' ∨ c = 'f' then .bool
  else if c = Char.ofNat 34 then .string
  else if c = '[' then .array
  else if c = Char.ofNat 123 then .object
  else .number

section Render

variable (Q : Quoting σ)

mutual

/-- The text of a value. -/
def render : Json σ → List Char
  | .null => "null".toList
  | .bool true => "true".toList
  | .bool false => "false".toList
  | .number n => n.text
  | .string s => Q.quote s
  | .array items => '[' :: (joinComma (renderItems items) ++ [']'])
  | .object members => Char.ofNat 123 :: (joinComma (renderMembers members) ++ [Char.ofNat 125])

def renderItems : List (Json σ) → List (List Char)
  | [] => []
  | item :: items => render item :: renderItems items

def renderMembers : List (σ × Json σ) → List (List Char)
  | [] => []
  | (key, value) :: members => (Q.quote key ++ ':' :: render value) :: renderMembers members

end

example : render Q .null = "null".toList := by simp only [render]

/-- A member of an object: its key and its value. -/
def renderMember (member : σ × Json σ) : List Char := Q.quote member.1 ++ ':' :: render Q member.2

theorem renderItems_eq (items : List (Json σ)) : renderItems Q items = items.map (render Q) := by
  induction items with
  | nil => simp only [renderItems, map_nil]
  | cons item items ih => simp only [renderItems, map_cons, ih]

theorem renderMembers_eq (members : List (σ × Json σ)) :
    renderMembers Q members = members.map (renderMember Q) := by
  induction members with
  | nil => simp only [renderMembers, map_nil]
  | cons member members ih =>
    obtain ⟨key, value⟩ := member
    simp only [renderMembers, map_cons, ih, renderMember]

/-! ## Reading back -/

theorem kindOf_numberChars : ∀ c ∈ numberChars, kindOf c = .number ∧ c ≠ ']' := by
  have hall : (numberChars.all fun c => decide (kindOf c = .number ∧ c ≠ ']')) = true := by decide
  exact fun c hc => of_decide_eq_true (List.all_eq_true.mp hall c hc)

theorem render_opens (j : Json σ) :
    ∃ c text, render Q j = c :: text ∧ kindOf c = j.kind ∧ c ≠ ']' := by
  cases j with
  | null => exact ⟨'n', _, rfl, rfl, by decide⟩
  | bool b =>
    cases b with
    | true => exact ⟨'t', _, rfl, rfl, by decide⟩
    | false => exact ⟨'f', _, rfl, rfl, by decide⟩
  | number n =>
    obtain ⟨c, text, htx⟩ := exists_cons_of_ne_nil n.nonempty
    have hc : c ∈ n.text := by
      rw [htx]
      exact mem_cons_self ..
    refine ⟨c, text, ?_, kindOf_numberChars c (n.chars c hc)⟩
    rw [render]
    exact htx
  | string s =>
    obtain ⟨text, htx⟩ := Q.opens s
    refine ⟨Char.ofNat 34, text, ?_, rfl, by decide⟩
    rw [render]
    exact htx
  | array => exact ⟨'[', _, by rw [render], rfl, by decide⟩
  | object => exact ⟨Char.ofNat 123, _, by rw [render], rfl, by decide⟩

theorem renderMember_opens (member : σ × Json σ) :
    ∃ c text, renderMember Q member = c :: text ∧ c ≠ Char.ofNat 125 := by
  obtain ⟨text, htx⟩ := Q.opens member.1
  refine ⟨Char.ofNat 34, text ++ ':' :: render Q member.2, ?_, by decide⟩
  rw [renderMember, htx, cons_append]

theorem kind_eq {j j' : Json σ} {rest rest' : List Char}
    (h : render Q j ++ rest = render Q j' ++ rest') : j.kind = j'.kind := by
  obtain ⟨c, text, hj, hc, _⟩ := render_opens Q j
  obtain ⟨c', text', hj', hc', _⟩ := render_opens Q j'
  rw [hj, hj', cons_append, cons_append] at h
  rw [← hc, ← hc', (List.cons.inj h).1]

theorem renderMember_readable {key : σ} {value : Json σ} (h : Readable (render Q) value) :
    Readable (renderMember Q) (key, value) := by
  intro member' rest rest' hen hen' heq
  obtain ⟨key', value'⟩ := member'
  simp only [renderMember, append_assoc, cons_append] at heq
  obtain ⟨rfl, hval⟩ := Q.readable _ _ _ _ heq
  obtain ⟨rfl, rfl⟩ := h value' rest rest' hen hen' (List.cons.inj hval).2
  exact ⟨rfl, rfl⟩

theorem array_readable {items : List (Json σ)} (h : ∀ item ∈ items, Readable (render Q) item) :
    Readable (render Q) (.array items) := by
  intro j' rest rest' _ _ heq
  have hkd := kind_eq Q heq
  cases j' with
  | array =>
    simp only [render, renderItems_eq, cons_append, append_assoc, nil_append] at heq
    have hops : ∀ item : Json σ, ∃ c text, render Q item = c :: text ∧ c ≠ ']' := by
      intro item
      obtain ⟨c, text, htx, _, hne⟩ := render_opens Q item
      exact ⟨c, text, htx, hne⟩
    obtain ⟨rfl, rfl⟩ := join_readable (by decide) (by decide) hops h (List.cons.inj heq).2
    exact ⟨rfl, rfl⟩
  | null | bool | number | string | object => cases hkd

theorem object_readable {members : List (σ × Json σ)}
    (h : ∀ member ∈ members, Readable (renderMember Q) member) :
    Readable (render Q) (.object members) := by
  intro j' rest rest' _ _ heq
  have hkd := kind_eq Q heq
  cases j' with
  | object =>
    simp only [render, renderMembers_eq, cons_append, append_assoc, nil_append] at heq
    obtain ⟨rfl, rfl⟩ := join_readable (by decide) (by decide) (renderMember_opens Q) h
      (List.cons.inj heq).2
    exact ⟨rfl, rfl⟩
  | null | bool | number | string | array => cases hkd

theorem bool_readable (b : Bool) : Readable (render Q) (.bool b) := by
  intro j' rest rest' _ _ heq
  have hkd := kind_eq Q heq
  cases j' with
  | bool b' =>
    cases b with
    | true =>
      cases b' with
      | true =>
        simp only [render] at heq
        exact ⟨rfl, append_cancel_left heq⟩
      | false =>
        simp only [render] at heq
        exact absurd (List.cons.inj heq).1 (by decide)
    | false =>
      cases b' with
      | true =>
        simp only [render] at heq
        exact absurd (List.cons.inj heq).1 (by decide)
      | false =>
        simp only [render] at heq
        exact ⟨rfl, append_cancel_left heq⟩
  | null | number | string | array | object => cases hkd

theorem leaf_readable {j : Json σ} (h : j.kind = .null ∨ j.kind = .number ∨ j.kind = .string) :
    Readable (render Q) j := by
  intro j' rest rest' hen hen' heq
  have hkd := kind_eq Q heq
  cases j with
  | null =>
    cases j' with
    | null => exact ⟨rfl, append_cancel_left heq⟩
    | _ => cases hkd
  | number n =>
    cases j' with
    | number n' =>
      simp only [render] at heq
      obtain ⟨rfl, rfl⟩ := n.readable n' rest rest' hen hen' heq
      exact ⟨rfl, rfl⟩
    | _ => cases hkd
  | string s =>
    cases j' with
    | string s' =>
      simp only [render] at heq
      obtain ⟨rfl, rfl⟩ := Q.readable s s' rest rest' heq
      exact ⟨rfl, rfl⟩
    | _ => cases hkd
  | bool | array | object => simp [kind] at h

mutual

/-- **A text names one value.** -/
theorem render_readable : ∀ j : Json σ, Readable (render Q) j
  | .null => leaf_readable Q (.inl rfl)
  | .bool b => bool_readable Q b
  | .number _ => leaf_readable Q (.inr (.inl rfl))
  | .string _ => leaf_readable Q (.inr (.inr rfl))
  | .array items => array_readable Q (items_readable items)
  | .object members => object_readable Q (members_readable members)

theorem items_readable : ∀ items : List (Json σ), ∀ item ∈ items, Readable (render Q) item
  | [] => fun _ h => absurd h not_mem_nil
  | item :: items => forall_mem_cons.mpr ⟨render_readable item, items_readable items⟩

theorem members_readable : ∀ members : List (σ × Json σ), ∀ member ∈ members,
    Readable (renderMember Q) member
  | [] => fun _ h => absurd h not_mem_nil
  | (_, value) :: members =>
    forall_mem_cons.mpr
      ⟨renderMember_readable Q (render_readable value), members_readable members⟩

end

/-- **Values with the same text are the same.** -/
theorem render_injective {j j' : Json σ} (h : render Q j = render Q j') : j = j' :=
  (render_readable Q j j' [] [] ends_nil ends_nil (by rw [h])).1

end Render

/-! ## Up to the order of members -/

/-- The same value, but for the order of the members of objects. -/
inductive Similar : Json σ → Json σ → Prop
  | refl (j : Json σ) : Similar j j
  | symm {j j' : Json σ} : Similar j j' → Similar j' j
  | trans {j j' j'' : Json σ} : Similar j j' → Similar j' j'' → Similar j j''
  | item {before after : List (Json σ)} {j j' : Json σ} : Similar j j' →
      Similar (.array (before ++ j :: after)) (.array (before ++ j' :: after))
  | member {before after : List (σ × Json σ)} {key : σ} {j j' : Json σ} : Similar j j' →
      Similar (.object (before ++ (key, j) :: after)) (.object (before ++ (key, j') :: after))
  | reorder {members members' : List (σ × Json σ)} : members.Perm members' →
      Similar (.object members) (.object members')

section Sorted

variable (le : σ → σ → Prop) [DecidableRel le]

mutual

/-- The members of every object in the order of their keys. -/
def sorted : Json σ → Json σ
  | .null => .null
  | .bool b => .bool b
  | .number n => .number n
  | .string s => .string s
  | .array items => .array (sortedItems items)
  | .object members =>
    .object ((sortedMembers members).insertionSort fun member member' => le member.1 member'.1)

def sortedItems : List (Json σ) → List (Json σ)
  | [] => []
  | item :: items => sorted item :: sortedItems items

def sortedMembers : List (σ × Json σ) → List (σ × Json σ)
  | [] => []
  | (key, value) :: members => (key, sorted value) :: sortedMembers members

end

mutual

theorem similar_sorted : ∀ j : Json σ, Similar j (sorted le j)
  | .null => by rw [sorted]; exact .refl _
  | .bool b => by rw [sorted]; exact .refl _
  | .number n => by rw [sorted]; exact .refl _
  | .string s => by rw [sorted]; exact .refl _
  | .array items => by
    rw [sorted]
    exact similar_sortedItems items []
  | .object members => by
    rw [sorted]
    exact (similar_sortedMembers members []).trans (.reorder (perm_insertionSort _ _).symm)

theorem similar_sortedItems : ∀ items before : List (Json σ),
    Similar (.array (before ++ items)) (.array (before ++ sortedItems le items))
  | [], before => by
    rw [sortedItems]
    exact .refl _
  | item :: items, before => by
    have hrst := similar_sortedItems items (before ++ [sorted le item])
    simp only [append_assoc, cons_append, nil_append] at hrst
    rw [sortedItems]
    exact (Similar.item (similar_sorted item)).trans hrst

theorem similar_sortedMembers : ∀ members before : List (σ × Json σ),
    Similar (.object (before ++ members)) (.object (before ++ sortedMembers le members))
  | [], before => by
    rw [sortedMembers]
    exact .refl _
  | (key, value) :: members, before => by
    have hrst := similar_sortedMembers members (before ++ [(key, sorted le value)])
    simp only [append_assoc, cons_append, nil_append] at hrst
    rw [sortedMembers]
    exact (Similar.member (similar_sorted value)).trans hrst

end

/-- **With its members sorted, a text names one value up to the order of members.** -/
theorem similar_of_render_sorted (Q : Quoting σ) {j j' : Json σ}
    (h : render Q (sorted le j) = render Q (sorted le j')) : Similar j j' := by
  have hj := similar_sorted le j
  rw [render_injective Q h] at hj
  exact hj.trans (similar_sorted le j').symm

end Sorted

end Json

/-!
## Strings in JSON texts

A string is a sequence of UTF-16 code units. In a JSON text it stands between quotation marks; a
quotation mark, a backslash, a control character and a surrogate without its partner are escaped,
every other code point stands for itself. `unescape` reads one code point back, so nothing is lost:
the way strings are written is a `Quoting`.
-/

/-- A string: its UTF-16 code units. -/
abbrev JsString := List UInt16

namespace JsString

def isLeading (u : UInt16) : Bool := decide (0xD800 ≤ u.toNat ∧ u.toNat < 0xDC00)

def isTrailing (u : UInt16) : Bool := decide (0xDC00 ≤ u.toNat ∧ u.toNat < 0xE000)

/-- The code points of a string. A surrogate without its partner counts as one. -/
def codePoints : JsString → List Nat
  | [] => []
  | [u] => [u.toNat]
  | u :: v :: us =>
    if isLeading u && isTrailing v then
      (0x10000 + (u.toNat - 0xD800) * 0x400 + (v.toNat - 0xDC00)) :: codePoints us
    else u.toNat :: codePoints (v :: us)

/-- The code units of a code point. -/
def units (c : Nat) : List Nat :=
  if c < 0x10000 then [c]
  else [0xD800 + (c - 0x10000) / 0x400, 0xDC00 + (c - 0x10000) % 0x400]

/-- The string of a text of characters. -/
def ofText (text : List Char) : JsString := text.flatMap fun c => (units c.toNat).map UInt16.ofNat

theorem units_toNat (u : UInt16) : units u.toNat = [u.toNat] := if_pos u.toNat_lt

theorem units_codePoints (s : JsString) : (codePoints s).flatMap units = s.map UInt16.toNat := by
  fun_induction codePoints s with
  | case1 => rfl
  | case2 u => simp only [flatMap_cons, flatMap_nil, append_nil, units_toNat, map_cons, map_nil]
  | case3 u v us hpa ih =>
    simp only [isLeading, isTrailing, Bool.and_eq_true, decide_eq_true_eq] at hpa
    have huni : units (0x10000 + (u.toNat - 0xD800) * 0x400 + (v.toNat - 0xDC00)) = [u.toNat, v.toNat] := by
      unfold units
      rw [if_neg (by omega)]
      have hle : 0xD800 + (0x10000 + (u.toNat - 0xD800) * 0x400 + (v.toNat - 0xDC00) - 0x10000) / 0x400 =
          u.toNat := by omega
      have htr : 0xDC00 + (0x10000 + (u.toNat - 0xD800) * 0x400 + (v.toNat - 0xDC00) - 0x10000) % 0x400 =
          v.toNat := by omega
      rw [hle, htr]
    rw [flatMap_cons, ih, huni]
    rfl
  | case4 u v us hpa ih => rw [flatMap_cons, ih, units_toNat]; rfl

theorem codePoints_injective {s s' : JsString} (h : codePoints s = codePoints s') : s = s' := by
  have huni : s.map UInt16.toNat = s'.map UInt16.toNat := by
    rw [← units_codePoints, ← units_codePoints, h]
  exact map_injective_iff.mpr (fun _ _ heq => UInt16.toNat_inj.mp heq) huni

theorem toNat_ofNat_of_lt {n : Nat} (h : n < 65536) : (UInt16.ofNat n).toNat = n := by
  rw [UInt16.toNat_ofNat']
  exact Nat.mod_eq_of_lt h

theorem codePoints_ofText (text : List Char) : codePoints (ofText text) = text.map Char.toNat := by
  induction text with
  | nil => rfl
  | cons c text ih =>
    have hco : ofText (c :: text) = (units c.toNat).map UInt16.ofNat ++ ofText text := rfl
    have hval : c.toNat < 0xD800 ∨ 0xDFFF < c.toNat ∧ c.toNat < 0x110000 := c.valid
    rw [hco, map_cons, units]
    by_cases hsma : c.toNat < 0x10000
    · have hun : (UInt16.ofNat c.toNat).toNat = c.toNat := toNat_ofNat_of_lt hsma
      have hlo : isLeading (UInt16.ofNat c.toNat) = false := by
        unfold isLeading
        rw [hun]
        exact decide_eq_false (by omega)
      rw [if_pos hsma, map_singleton, singleton_append]
      cases hrst : ofText text with
      | nil =>
        rw [hrst] at ih
        rw [codePoints, hun, ← ih]
        rfl
      | cons =>
        rw [hrst] at ih
        rw [codePoints, hlo, Bool.false_and, if_neg Bool.false_ne_true, hun, ih]
    · have hle : (UInt16.ofNat (0xD800 + (c.toNat - 0x10000) / 0x400)).toNat =
          0xD800 + (c.toNat - 0x10000) / 0x400 := toNat_ofNat_of_lt (by omega)
      have htr : (UInt16.ofNat (0xDC00 + (c.toNat - 0x10000) % 0x400)).toNat =
          0xDC00 + (c.toNat - 0x10000) % 0x400 := toNat_ofNat_of_lt (by omega)
      have hpa : (isLeading (UInt16.ofNat (0xD800 + (c.toNat - 0x10000) / 0x400)) &&
          isTrailing (UInt16.ofNat (0xDC00 + (c.toNat - 0x10000) % 0x400))) = true := by
        rw [isLeading, isTrailing, hle, htr, Bool.and_eq_true, decide_eq_true_eq, decide_eq_true_eq]
        omega
      rw [if_neg hsma, map_cons, map_singleton, cons_append, singleton_append,
        codePoints, if_pos hpa, ih, hle, htr]
      refine congrArg (fun n => n :: text.map Char.toNat) ?_
      omega

theorem ofText_injective {text text' : List Char} (h : ofText text = ofText text') : text = text' := by
  have hcod : text.map Char.toNat = text'.map Char.toNat := by
    rw [← codePoints_ofText, ← codePoints_ofText, h]
  exact map_injective_iff.mpr (fun _ _ heq => Char.toNat_inj.mp heq) hcod

theorem codePoints_lt (s : JsString) : ∀ c ∈ codePoints s, c < 0x110000 := by
  have hun : ∀ u : UInt16, u.toNat < 0x110000 := fun u => Nat.lt_of_lt_of_le u.toNat_lt (by omega)
  fun_induction codePoints s with
  | case1 => exact fun _ h => absurd h not_mem_nil
  | case2 u => exact forall_mem_singleton.mpr (hun u)
  | case3 u v us hpa ih =>
    simp only [isLeading, isTrailing, Bool.and_eq_true, decide_eq_true_eq] at hpa
    exact forall_mem_cons.mpr ⟨by omega, ih⟩
  | case4 u v us hpa ih => exact forall_mem_cons.mpr ⟨hun u, ih⟩

/-! ## Escapes -/

/-- The code points with an escape of two characters. -/
def shortEscapes : List (Nat × Char) :=
  [(8, 'b'), (9, 't'), (10, 'n'), (12, 'f'), (13, 'r'), (34, Char.ofNat 34), (92, Char.ofNat 92)]

/-- The escape of a code unit by its four hexadecimal digits. -/
def unicodeEscape (c : Nat) : List Char :=
  [Char.ofNat 92, 'u', Nat.digitChar (c / 4096), Nat.digitChar (c / 256 % 16),
    Nat.digitChar (c / 16 % 16), Nat.digitChar (c % 16)]

def isLone (c : Nat) : Bool := decide (0xD800 ≤ c ∧ c < 0xE000)

/-- A code point inside the quotation marks. -/
def escape (c : Nat) : List Char :=
  match shortEscapes.lookup c with
  | some e => [Char.ofNat 92, e]
  | none => if c < 0x20 || isLone c then unicodeEscape c else [Char.ofNat c]

/-- A string of a JSON text. -/
def quote (s : JsString) : List Char :=
  Char.ofNat 34 :: ((codePoints s).flatMap escape ++ [Char.ofNat 34])

/-! ## Reading back -/

def hexValue (c : Char) : Nat := if c.toNat < 58 then c.toNat - 48 else c.toNat - 87

/-- The code point at the front of a text, and the rest. -/
def unescape : List Char → Option (Nat × List Char)
  | [] => none
  | c :: rest =>
    if c = Char.ofNat 92 then
      match rest with
      | 'u' :: d₁ :: d₂ :: d₃ :: d₄ :: rest =>
        some (hexValue d₁ * 4096 + hexValue d₂ * 256 + hexValue d₃ * 16 + hexValue d₄, rest)
      | e :: rest => (shortEscapes.find? fun p => p.2 == e).map fun p => (p.1, rest)
      | [] => none
    else some (c.toNat, rest)

theorem hexValue_digitChar : ∀ d < 16, hexValue (Nat.digitChar d) = d := by decide

theorem toNat_ofNat {c : Nat} (h : c < 0x110000) (hlo : isLone c = false) :
    (Char.ofNat c).toNat = c := by
  have hval : c.isValidChar := by
    unfold isLone at hlo
    have hlo := of_decide_eq_false hlo
    unfold Nat.isValidChar
    omega
  unfold Char.ofNat
  rw [dif_pos hval]
  rfl

example : unescape [] = none := by simp only [unescape]

theorem unescape_short {rest : List Char} : ∀ p ∈ shortEscapes,
    unescape (Char.ofNat 92 :: p.2 :: rest) = some (p.1, rest) := by
  intro p hp
  simp only [shortEscapes, mem_cons, not_mem_nil, or_false] at hp
  rcases hp with rfl | rfl | rfl | rfl | rfl | rfl | rfl <;> rfl

theorem unescape_unicode {c : Nat} {rest : List Char} (h : c < 0x10000) :
    unescape (unicodeEscape c ++ rest) = some (c, rest) := by
  have hval : hexValue (Nat.digitChar (c / 4096)) * 4096 + hexValue (Nat.digitChar (c / 256 % 16)) * 256 +
      hexValue (Nat.digitChar (c / 16 % 16)) * 16 + hexValue (Nat.digitChar (c % 16)) = c := by
    rw [hexValue_digitChar _ (by omega), hexValue_digitChar _ (by omega),
      hexValue_digitChar _ (by omega), hexValue_digitChar _ (by omega)]
    omega
  simp only [unicodeEscape, cons_append, nil_append, unescape, if_true, hval]

theorem mem_of_lookup {c : Nat} {e : Char} (h : shortEscapes.lookup c = some e) :
    (c, e) ∈ shortEscapes := by
  obtain ⟨before, after, heq, _⟩ := lookup_eq_some_iff.mp h
  rw [heq]
  exact mem_append_right _ (mem_cons_self ..)

theorem plain_of_lookup {c : Nat} (h : shortEscapes.lookup c = none) : c ≠ 34 ∧ c ≠ 92 := by
  constructor
  · rintro rfl
    exact absurd h (by decide)
  · rintro rfl
    exact absurd h (by decide)

theorem ofNat_ne {c n : Nat} (h : c < 0x110000) (hlo : isLone c = false) (hn : (Char.ofNat n).toNat = n)
    (hne : c ≠ n) : Char.ofNat c ≠ Char.ofNat n := by
  intro heq
  have hnat := congrArg Char.toNat heq
  rw [toNat_ofNat h hlo, hn] at hnat
  exact hne hnat

/-- **A code point can be read back.** -/
theorem unescape_escape {c : Nat} {rest : List Char} (h : c < 0x110000) :
    unescape (escape c ++ rest) = some (c, rest) := by
  unfold escape
  cases hlkp : shortEscapes.lookup c with
  | some => exact unescape_short _ (mem_of_lookup hlkp)
  | none =>
    simp only
    split
    · rename_i hes
      refine unescape_unicode ?_
      simp only [isLone, Bool.or_eq_true, decide_eq_true_eq] at hes
      omega
    · rename_i hpln
      simp only [Bool.or_eq_true, not_or, Bool.not_eq_true] at hpln
      have hne := ofNat_ne (n := 92) h hpln.2 rfl (plain_of_lookup hlkp).2
      simp only [cons_append, nil_append, unescape, if_neg hne, toNat_ofNat h hpln.2]

theorem escape_opens {c : Nat} (h : c < 0x110000) :
    ∃ x text, escape c = x :: text ∧ x ≠ Char.ofNat 34 := by
  unfold escape
  cases hlkp : shortEscapes.lookup c with
  | some e => exact ⟨Char.ofNat 92, [e], rfl, by decide⟩
  | none =>
    simp only
    split
    · exact ⟨Char.ofNat 92, _, rfl, by decide⟩
    · rename_i hpln
      simp only [Bool.or_eq_true, not_or, Bool.not_eq_true] at hpln
      exact ⟨Char.ofNat c, [], rfl, ofNat_ne (n := 34) h hpln.2 rfl (plain_of_lookup hlkp).1⟩

theorem escapes_readable {cs cs' : List Nat} (hcs : ∀ c ∈ cs, c < 0x110000)
    (hcs' : ∀ c ∈ cs', c < 0x110000) {rest rest' : List Char}
    (h : cs.flatMap escape ++ Char.ofNat 34 :: rest = cs'.flatMap escape ++ Char.ofNat 34 :: rest') :
    cs = cs' ∧ rest = rest' := by
  induction cs generalizing cs' with
  | nil =>
    cases cs' with
    | nil => exact ⟨rfl, (List.cons.inj h).2⟩
    | cons c' =>
      obtain ⟨x, text, hx, hne⟩ := escape_opens (hcs' c' (mem_cons_self ..))
      simp only [flatMap_cons, hx, cons_append] at h
      exact absurd (List.cons.inj h).1.symm hne
  | cons c cs ih =>
    cases cs' with
    | nil =>
      obtain ⟨x, text, hx, hne⟩ := escape_opens (hcs c (mem_cons_self ..))
      simp only [flatMap_cons, hx, cons_append] at h
      exact absurd (List.cons.inj h).1 hne
    | cons =>
      obtain ⟨hc, htl⟩ := forall_mem_cons.mp hcs
      obtain ⟨hc', htl'⟩ := forall_mem_cons.mp hcs'
      simp only [flatMap_cons, append_assoc] at h
      have hrd := congrArg unescape h
      rw [unescape_escape hc, unescape_escape hc'] at hrd
      obtain ⟨rfl, htai⟩ := Prod.mk.inj (Option.some.inj hrd)
      obtain ⟨rfl, rfl⟩ := ih htl htl' htai
      exact ⟨rfl, rfl⟩

/-- **Strings are written so that they can be read back.** -/
def quoting : Quoting JsString where
  quote := quote
  opens := fun _ => ⟨_, rfl⟩
  readable := by
    intro s s' rest rest' h
    simp only [quote, cons_append, append_assoc, nil_append] at h
    obtain ⟨hcodes, hrest⟩ := escapes_readable (codePoints_lt s) (codePoints_lt s')
      (List.cons.inj h).2
    exact ⟨codePoints_injective hcodes, hrest⟩

end JsString

end AiNet.Core
