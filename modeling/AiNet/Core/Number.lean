import Mathlib.Data.List.TakeWhile
import Mathlib.Data.Nat.Find
import Mathlib.Algebra.Group.Nat.Defs

/-!
# Whole numbers in texts

`Number(text)` of JavaScript, as far as it is a whole number that is not negative: a decimal literal with
a point or an exponent, or a hexadecimal, octal or binary one, is rounded to the nearest double. The
digits of a number that is not too large for a double to count give this number back.
-/

namespace AiNet.Core

open List

/-! ## Doubles -/

/-- The nearest whole number to a quotient; in the middle, the even one. -/
def roundHalfEven (num den : Nat) : Nat :=
  let quotient := num / den
  let remainder := num % den
  if 2 * remainder < den then quotient
  else if den < 2 * remainder then quotient + 1
  else if quotient % 2 = 0 then quotient
  else quotient + 1

/-- The double nearest to a quotient, if it is whole. A double has 53 bits, and at most 1074 after the
point. -/
def wholeDouble (num den : Nat) : Option Nat :=
  if num < den * 2 ^ 53 then
    let bits := Nat.findGreatest (fun bits => num * 2 ^ bits < den * 2 ^ 53) 1074
    let scaled := roundHalfEven (num * 2 ^ bits) den
    if scaled % 2 ^ bits = 0 then some (scaled / 2 ^ bits) else none
  else
    let bits := Nat.log2 (num / den) - 52
    let value := roundHalfEven num (den * 2 ^ bits) * 2 ^ bits
    if value < 2 ^ 1024 then some value else none

theorem roundHalfEven_one (n : Nat) : roundHalfEven n 1 = n := by
  unfold roundHalfEven
  simp [Nat.mod_one]

/-- **Doubles count to 2⁵³.** -/
theorem wholeDouble_one {n : Nat} (h : n ≤ 2 ^ 53) : wholeDouble n 1 = some n := by
  unfold wholeDouble
  rcases Nat.lt_or_eq_of_le h with hlt | rfl
  · rw [if_pos (by omega)]
    dsimp only
    rw [roundHalfEven_one, if_pos (Nat.mul_mod_left _ _), Nat.mul_div_cancel _ (Nat.two_pow_pos _)]
  · rw [if_neg (by omega), show Nat.log2 (2 ^ 53 / 1) - 52 = 1 from rfl]
    dsimp only
    rewrite [show roundHalfEven (2 ^ 53) (1 * 2 ^ 1) * 2 ^ 1 = 2 ^ 53 from rfl]
    exact if_pos (Nat.pow_lt_pow_right Nat.one_lt_two (by decide : 53 < 1024))

/-! ## Texts -/

/-- `WhiteSpace` and `LineTerminator`. -/
def isSpace (c : Char) : Bool :=
  let n := c.toNat
  decide (9 ≤ n ∧ n ≤ 13) || decide (0x2000 ≤ n ∧ n ≤ 0x200A) ||
    [0x20, 0xA0, 0x1680, 0x2028, 0x2029, 0x202F, 0x205F, 0x3000, 0xFEFF].contains n

def trim (text : List Char) : List Char :=
  ((text.dropWhile isSpace).reverse.dropWhile isSpace).reverse

/-- The value of a digit, of any base up to 16. -/
def digitValue (c : Char) : Nat :=
  if c.isDigit then c.toNat - '0'.toNat
  else if 'a'.toNat ≤ c.toNat then c.toNat - 'a'.toNat + 10
  else c.toNat - 'A'.toNat + 10

def isDigitOf (base : Nat) (c : Char) : Bool :=
  (c.isDigit || decide ('a' ≤ c ∧ c ≤ 'f') || decide ('A' ≤ c ∧ c ≤ 'F')) && decide (digitValue c < base)

/-- A literal without a sign, after `0x`, `0o` or `0b`. -/
def nonDecimal (base : Nat) (digits : List Char) : Option Nat :=
  if digits ≠ [] ∧ digits.all (isDigitOf base) = true then
    wholeDouble (digits.foldl (fun value c => value * base + digitValue c) 0) 1
  else none

/-- A sign, and what follows it. -/
def signed : List Char → Bool × List Char
  | '+' :: rest => (false, rest)
  | '-' :: rest => (true, rest)
  | text => (false, text)

/-- The exponent after the digits. -/
def exponentPart : List Char → Option Int
  | [] => some 0
  | c :: rest =>
    let (negative, digits) := signed rest
    if (c = 'e' ∨ c = 'E') ∧ digits ≠ [] ∧ digits.all Char.isDigit = true then
      some (if negative then -(Nat.ofDigitChars 10 digits 0 : Int) else Nat.ofDigitChars 10 digits 0)
    else none

/-- A decimal literal without a sign. `Infinity` is not whole. -/
def decimalLiteral (text : List Char) : Option Nat :=
  let whole := text.takeWhile Char.isDigit
  let (fraction, rest) :=
    match text.dropWhile Char.isDigit with
    | '.' :: rest => (rest.takeWhile Char.isDigit, rest.dropWhile Char.isDigit)
    | rest => ([], rest)
  if whole = [] ∧ fraction = [] then none
  else
    (exponentPart rest).bind fun exponent =>
      let digits := Nat.ofDigitChars 10 (whole ++ fraction) 0
      let power := exponent - fraction.length
      wholeDouble (digits * 10 ^ power.toNat) (10 ^ (-power).toNat)

/-- `Number(text)`, if `Number.isInteger` holds of it and it is at least 0. -/
def wholeNumber (text : String) : Option Nat :=
  match trim text.toList with
  | [] => some 0
  | '0' :: 'x' :: digits | '0' :: 'X' :: digits => nonDecimal 16 digits
  | '0' :: 'o' :: digits | '0' :: 'O' :: digits => nonDecimal 8 digits
  | '0' :: 'b' :: digits | '0' :: 'B' :: digits => nonDecimal 2 digits
  | text =>
    let (negative, literal) := signed text
    (decimalLiteral literal).filter fun value => !negative || decide (value = 0)

/-! ## The digits of a number -/

theorem isSpace_of_isDigit {c : Char} (h : c.isDigit = true) : isSpace c = false := by
  have hbo : 48 ≤ c.toNat ∧ c.toNat ≤ 57 := Char.isDigit_iff_toNat.mp h
  unfold isSpace
  generalize c.toNat = n at hbo
  dsimp only
  simp only [Bool.or_eq_false_iff, decide_eq_false_iff_not, contains_eq_mem, mem_cons,
    not_mem_nil, or_false]
  omega

theorem trim_digits {text : List Char} (h : ∀ c ∈ text, c.isDigit = true) : trim text = text := by
  have hno : ∀ {l : List Char}, (∀ c ∈ l, c.isDigit = true) → l.dropWhile isSpace = l := by
    intro l hl
    cases l with
    | nil => rfl
    | cons c =>
      rw [dropWhile_cons_of_neg]
      rw [isSpace_of_isDigit (hl c mem_cons_self)]
      exact Bool.false_ne_true
  unfold trim
  rw [hno h, hno fun c hc => h c (mem_reverse.mp hc), reverse_reverse]

theorem signed_digits {text : List Char} (h : ∀ c ∈ text, c.isDigit = true) : signed text = (false, text) := by
  unfold signed
  split
  · have hdig := h '+' mem_cons_self
    cases hdig
  · have hdig := h '-' mem_cons_self
    cases hdig
  · rfl

theorem decimalLiteral_digits {text : List Char} (h : ∀ c ∈ text, c.isDigit = true) (hne : text ≠ []) :
    decimalLiteral text = wholeDouble (Nat.ofDigitChars 10 text 0) 1 := by
  unfold decimalLiteral
  rw [takeWhile_eq_self_iff.mpr h, dropWhile_eq_nil_iff.mpr h]
  dsimp only
  rw [if_neg (by simp [hne])]
  simp [exponentPart]

/-- **The digits of a number that doubles count to give it back.** -/
theorem wholeNumber_toString {n : Nat} (h : n ≤ 2 ^ 53) : wholeNumber (toString n) = some n := by
  have hls : (toString n).toList = Nat.toDigits 10 n := Nat.toList_repr
  have hdgs : ∀ c ∈ Nat.toDigits 10 n, c.isDigit = true := fun c hc =>
    Nat.isDigit_of_mem_toDigits (by decide) (by decide) hc
  have hne : Nat.toDigits 10 n ≠ [] := Nat.toDigits_ne_nil
  have hli := decimalLiteral_digits hdgs hne
  rw [Nat.ofDigitChars_ten_toDigits, wholeDouble_one h] at hli
  unfold wholeNumber
  rw [hls, trim_digits hdgs]
  generalize Nat.toDigits 10 n = text at hdgs hne hli
  have hno : ∀ {c d : Char} {rest : List Char}, text = c :: d :: rest → d.isDigit = false → False := by
    intro c d rest htx hd
    have hdig := hdgs d (by rw [htx]; simp)
    rw [hd] at hdig
    cases hdig
  split
  · exact absurd rfl hne
  · exact (hno rfl (by decide)).elim
  · exact (hno rfl (by decide)).elim
  · exact (hno rfl (by decide)).elim
  · exact (hno rfl (by decide)).elim
  · exact (hno rfl (by decide)).elim
  · exact (hno rfl (by decide)).elim
  · rw [signed_digits hdgs]
    dsimp only
    rw [hli]
    rfl

end AiNet.Core
