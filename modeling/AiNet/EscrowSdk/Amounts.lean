import AiNet.EscrowSdk.Payment

/-!
# Amounts as texts

The backend and the SDK each write stroops as a decimal text, and the reconciliation and the SDK each read one. Both
write the same, and both read the whole number of stroops of any decimal text.
-/

namespace AiNet.EscrowSdk

open Core List Option Nat

def padStart (length : Nat) (text : Text) : Text := replicate (length - text.length) '0' ++ text

def padEnd (length : Nat) (text : Text) : Text := text ++ replicate (length - text.length) '0'

/-- The SDK writes all digits and puts the point before the last seven. -/
def stroopsToXlm (stroops : Int) : Text :=
  let text := padStart 8 (toString stroops).toList
  text.take (text.length - 7) ++ '.' :: text.drop (text.length - 7)

/-- The backend writes the quotient and the remainder. -/
def Backend.stroopsToXlm (stroops : Int) : Text :=
  (toString (stroops.tdiv 10000000)).toList ++ '.' :: padStart 7 (toString (stroops.tmod 10000000)).toList

def xlmStringToStroops (amount : Text) : Option Int :=
  let whole := amount.takeWhile (· ≠ '.')
  let frac := (amount.dropWhile (· ≠ '.')).tail.takeWhile (· ≠ '.')
  let padded := (padEnd 7 frac).take 7
  (bigInt whole).bind fun whole => (bigInt (if padded = [] then ['0'] else padded)).map fun frac =>
    whole * 10000000 + frac

/-- A decimal text without a sign. -/
structure Decimal where
  whole : Text
  fraction : Option Text
  digits : ∀ c ∈ whole ++ fraction.getD [], c.isDigit = true

def Decimal.text (d : Decimal) : Text := d.whole ++ d.fraction.elim [] ('.' :: ·)

/-- What it stands for in stroops, rounded down. -/
def Decimal.stroops (d : Decimal) : Nat :=
  ofDigitChars 10 (d.whole ++ d.fraction.getD []) 0 * 10000000 / 10 ^ (d.fraction.getD []).length

variable {text : Text} {n k : Nat}

/-! ## Reading -/

theorem digits_eq (h : ∀ c ∈ text, c.isDigit = true) (hne : text ≠ []) :
    digits 10 text = some (ofDigitChars 10 text 0 : Int) := by
  have hval : ∀ c ∈ text, digitValue c = c.toNat - 48 ∧ digitValue c < 10 := by
    intro c hc
    have hbo : 48 ≤ c.toNat ∧ c.toNat ≤ 57 := Char.isDigit_iff_toNat.mp (h c hc)
    have heq : digitValue c = c.toNat - 48 := if_pos (h c hc)
    exact ⟨heq, by omega⟩
  unfold digits
  rw [if_pos ⟨hne, all_eq_true.mpr fun c hc => by simp [isDigitOf, h c hc, (hval c hc).2]⟩, ofDigitChars_eq_foldl]
  refine congrArg _ (congrArg _ (foldl_ext _ _ _ fun value c hc => ?_))
  rw [(hval c hc).1, mul_comm]
  rfl

theorem bigInt_digits (h : ∀ c ∈ text, c.isDigit = true) : bigInt text = some (ofDigitChars 10 text 0 : Int) := by
  unfold bigInt
  rw [trim_digits h]
  have hno : ∀ {c : Char} {rest : Text}, text = '0' :: c :: rest → c.isDigit = false → False := by
    intro c rest htx hc
    have hdig := h c (by simp [htx])
    rw [hc] at hdig
    cases hdig
  split
  · rfl
  · exact (hno rfl (by decide)).elim
  · exact (hno rfl (by decide)).elim
  · exact (hno rfl (by decide)).elim
  · exact (hno rfl (by decide)).elim
  · exact (hno rfl (by decide)).elim
  · exact (hno rfl (by decide)).elim
  · rename_i hne _ _ _ _ _ _
    rw [signed_digits h]
    dsimp only
    rw [digits_eq h hne]
    rfl

theorem ofDigitChars_lt (h : ∀ c ∈ text, c.isDigit = true) : ofDigitChars 10 text 0 < 10 ^ text.length := by
  induction text with
  | nil => simp
  | cons c rest ih =>
    have hbo : 48 ≤ c.toNat ∧ c.toNat ≤ 57 := Char.isDigit_iff_toNat.mp (h c mem_cons_self)
    have hlt := ih fun d hd => h d (mem_cons_of_mem c hd)
    rw [ofDigitChars_cons, ofDigitChars_eq_ofDigitChars_zero, length_cons, pow_succ]
    have hle : 10 ^ rest.length * (10 * 0 + (c.toNat - 48)) ≤ 10 ^ rest.length * 9 := mul_le_mul_left _ (by omega)
    exact lt_of_lt_of_le (add_lt_add_of_le_of_lt hle hlt) (by omega)

theorem ofDigitChars_pad (h : ∀ c ∈ text, c.isDigit = true) :
    Nat.ofDigitChars 10 ((padEnd 7 text).take 7) 0 = Nat.ofDigitChars 10 text 0 * 10000000 / 10 ^ text.length := by
  rcases Nat.le_total text.length 7 with hle | hge
  · have hlen : (padEnd 7 text).length ≤ 7 := by simp [padEnd, hle]
    rw [take_of_length_le hlen, padEnd, Nat.ofDigitChars_append, Nat.ofDigitChars_replicate_zero]
    have hpow : 10000000 = 10 ^ text.length * 10 ^ (7 - text.length) := by
      rw [← Nat.pow_add, Nat.add_sub_of_le hle]
    rw [hpow, Nat.mul_left_comm, Nat.mul_div_cancel_left _ (Nat.pow_pos (by decide)), Nat.mul_comm]
  · have hno : padEnd 7 text = text := by simp [padEnd, Nat.sub_eq_zero_of_le hge]
    have hlt := ofDigitChars_lt fun c hc => h c (mem_of_mem_drop (i := 7) hc)
    have hpow : 10 ^ text.length = 10000000 * 10 ^ (text.drop 7).length := by
      rw [length_drop, show 10000000 = 10 ^ 7 by rfl, ← Nat.pow_add, Nat.add_sub_of_le hge]
    rw [hno, hpow, Nat.mul_comm _ 10000000, Nat.mul_div_mul_left _ _ (by decide)]
    have hval : Nat.ofDigitChars 10 text 0 = 10 ^ (text.drop 7).length * Nat.ofDigitChars 10 (text.take 7) 0 +
        Nat.ofDigitChars 10 (text.drop 7) 0 := by
      rw [← Nat.ofDigitChars_eq_ofDigitChars_zero, ← Nat.ofDigitChars_append, take_append_drop]
    rw [hval, Nat.mul_add_div (Nat.pow_pos (by decide)), Nat.div_eq_of_lt hlt, Nat.add_zero]

theorem ne_point (h : ∀ c ∈ text, c.isDigit = true) : ∀ c ∈ text, decide (c ≠ '.') = true := by
  intro c hc
  refine decide_eq_true fun hpt => ?_
  have hdig := h c hc
  rw [hpt] at hdig
  cases hdig

theorem take_padEnd (text : Text) : (padEnd 7 text).take 7 = text.take 7 ++ replicate (7 - (text.take 7).length) '0' := by
  unfold padEnd
  rw [take_append, take_replicate, length_take, min_self]
  congr 2
  omega

/-- **Both parsers read a decimal text**, rounded down to a stroop. -/
theorem read_decimal (d : Decimal) : xlmToStroops d.text = some (d.stroops : Int) ∧
    xlmStringToStroops d.text = some (d.stroops : Int) := by
  obtain ⟨whole, fraction, hdgs⟩ := d
  have hwhl : ∀ c ∈ whole, c.isDigit = true := fun c hc => hdgs c (mem_append_left _ hc)
  have hfr : ∀ c ∈ fraction.getD [], c.isDigit = true := fun c hc => hdgs c (mem_append_right _ hc)
  have hpt := ne_point hwhl
  have hval : Decimal.stroops ⟨whole, fraction, hdgs⟩ = Nat.ofDigitChars 10 whole 0 * 10000000 +
      Nat.ofDigitChars 10 ((padEnd 7 (fraction.getD [])).take 7) 0 := by
    rw [ofDigitChars_pad hfr, Decimal.stroops, Nat.ofDigitChars_append, Nat.ofDigitChars_eq_ofDigitChars_zero,
      Nat.add_mul, Nat.mul_assoc, Nat.mul_add_div (Nat.pow_pos (by decide))]
  rw [hval]
  unfold xlmToStroops xlmStringToStroops Decimal.text
  dsimp only
  rw [Int.natCast_add, Int.natCast_mul]
  cases fraction with
  | none =>
    rw [Option.elim_none, append_nil, takeWhile_eq_self_iff.mpr hpt, dropWhile_eq_nil_iff.mpr hpt, bigInt_digits hwhl]
    have hz : (Nat.ofDigitChars 10 ((padEnd 7 []).take 7) 0 : Int) = 0 := by decide
    rw [getD_none, hz, Int.add_zero]
    exact ⟨rfl, congrArg some (Int.add_zero _)⟩
  | some frac =>
    rw [getD_some] at hfr ⊢
    have hpad : ∀ c ∈ (padEnd 7 frac).take 7, c.isDigit = true := by
      intro c hc
      rcases mem_append.mp (mem_of_mem_take hc) with hin | hin
      · exact hfr c hin
      · rw [eq_of_mem_replicate hin]
        rfl
    have hne : (padEnd 7 frac).take 7 ≠ [] := by
      rw [take_padEnd]
      cases frac with
      | nil | cons => simp
    rw [Option.elim_some, takeWhile_append_of_pos hpt, dropWhile_append_of_pos hpt, takeWhile_cons_of_neg (by decide),
      dropWhile_cons_of_neg (by decide), append_nil, bigInt_digits hwhl]
    simp only [tail_cons, takeWhile_eq_self_iff.mpr (ne_point hfr), ← take_padEnd, if_neg hne, bigInt_digits hpad]
    exact ⟨rfl, rfl⟩

/-! ## Writing -/

/-- The last digits of a number. -/
def lastDigits : Nat → Nat → Text
  | 0, _ => []
  | k + 1, n => lastDigits k (n / 10) ++ [(n % 10).digitChar]

theorem length_lastDigits : (lastDigits k n).length = k := by
  induction k generalizing n with
  | zero => rfl
  | succ k ih => rw [lastDigits, length_append, ih, length_singleton]

theorem padStart_succ : padStart (k + 1) (Nat.toDigits 10 n) = Nat.toDigits 10 (n / 10 ^ k) ++ lastDigits k n := by
  induction k generalizing n with
  | zero =>
    have hlen : 1 - (Nat.toDigits 10 n).length = 0 := Nat.sub_eq_zero_of_le Nat.length_toDigits_pos
    simp [padStart, lastDigits, hlen]
  | succ k ih =>
    have hla : padStart (k + 2) (Nat.toDigits 10 n) = padStart (k + 1) (Nat.toDigits 10 (n / 10)) ++ [(n % 10).digitChar] := by
      by_cases hten : n < 10
      · rw [Nat.toDigits_of_lt_base hten, Nat.div_eq_of_lt hten, Nat.toDigits_zero, Nat.mod_eq_of_lt hten]
        simp [padStart, replicate_succ']
      · rw [Nat.toDigits_of_base_le (by decide) (Nat.not_lt.mp hten)]
        simp [padStart]
    rw [hla, ih, Nat.div_div_eq_div_mul, ← Nat.pow_succ', append_assoc, lastDigits]

theorem padStart_toDigits (h : n < 10 ^ k) (hpos : 0 < k) : padStart k (toDigits 10 n) = lastDigits k n := by
  have hlen := (length_toDigits_le_iff (by decide) hpos).mpr h
  have hall := padStart_succ (k := k) (n := n)
  rw [div_eq_of_lt h, toDigits_zero, padStart, succ_sub hlen, replicate_succ] at hall
  exact (cons.inj hall).2

theorem lastDigits_mod : lastDigits k (n % 10 ^ k) = lastDigits k n := by
  induction k generalizing n with
  | zero => rfl
  | succ k ih =>
    have hmod : n % 10 ^ (k + 1) % 10 = n % 10 := mod_mod_of_dvd n (pow_succ' ▸ dvd_mul_right 10 (10 ^ k))
    rw [lastDigits, hmod, pow_succ', mod_mul_right_div_self, ih, lastDigits]

/-- What is written, as a decimal text. -/
def written (stroops : Nat) : Decimal where
  whole := toDigits 10 (stroops / 10000000)
  fraction := some (padStart 7 (toDigits 10 (stroops % 10000000)))
  digits := by
    intro c hc
    rcases mem_append.mp hc with hin | hin
    · exact isDigit_of_mem_toDigits (by decide) (by decide) hin
    · rcases mem_append.mp hin with hin | hin
      · rw [eq_of_mem_replicate hin]
        rfl
      · exact isDigit_of_mem_toDigits (by decide) (by decide) hin

theorem written_backend (stroops : Nat) : Backend.stroopsToXlm stroops = (written stroops).text := by
  have hls : ∀ n : Nat, (toString (n : Int)).toList = toDigits 10 n := fun n => toList_repr
  have hdiv : (stroops : Int).tdiv 10000000 = (stroops / 10000000 : Nat) := rfl
  have hmod : (stroops : Int).tmod 10000000 = (stroops % 10000000 : Nat) := rfl
  unfold Backend.stroopsToXlm
  rw [hdiv, hmod, hls, hls]
  rfl

theorem lastDigits_seven (stroops : Nat) :
    padStart 7 (toDigits 10 (stroops % 10000000)) = lastDigits 7 stroops :=
  (padStart_toDigits (k := 7) (mod_lt _ (by decide)) (by decide)).trans (lastDigits_mod (k := 7))

theorem stroops_written (stroops : Nat) : (written stroops).stroops = stroops := by
  have hlen := congrArg length (lastDigits_seven stroops)
  rw [length_lastDigits] at hlen
  unfold Decimal.stroops written
  dsimp only [getD_some]
  rw [hlen]
  refine (Nat.mul_div_cancel _ (show 0 < 10000000 by decide)).trans ?_
  rw [Nat.ofDigitChars_append, Nat.ofDigitChars_eq_ofDigitChars_zero, hlen, padStart, Nat.ofDigitChars_append,
    Nat.ofDigitChars_replicate_zero, Nat.mul_zero, Nat.ofDigitChars_ten_toDigits, Nat.ofDigitChars_ten_toDigits]
  exact Nat.div_add_mod stroops 10000000

theorem written_sdk (stroops : Nat) : stroopsToXlm stroops = (written stroops).text := by
  have hls : (toString (stroops : Int)).toList = Nat.toDigits 10 stroops := Nat.toList_repr
  unfold stroopsToXlm Decimal.text written
  dsimp only [Option.elim_some]
  rw [hls, padStart_succ, length_append, length_lastDigits, Nat.add_sub_cancel, lastDigits_seven, take_left, drop_left]
  rfl

/--
**The conversions agree.** Both write the same text for any amount, from which both parsers read the amount; and both
read any decimal text as the same amount.
-/
theorem conversions_agree : (∀ stroops : Nat, Backend.stroopsToXlm stroops = stroopsToXlm stroops ∧
    xlmToStroops (stroopsToXlm stroops) = some (stroops : Int) ∧
      xlmStringToStroops (stroopsToXlm stroops) = some (stroops : Int)) ∧
    ∀ d : Decimal, xlmToStroops d.text = some (d.stroops : Int) ∧ xlmStringToStroops d.text = some (d.stroops : Int) := by
  refine ⟨fun stroops => ?_, read_decimal⟩
  have hrd := read_decimal (written stroops)
  rw [stroops_written, ← written_sdk] at hrd
  exact ⟨(written_backend stroops).trans (written_sdk stroops).symm, hrd⟩

end AiNet.EscrowSdk
