import AiNet.AgentRegistry.Discovery
import AiNet.Core.SemVer

/-!
# What a version may look like

`parse_version` reads a version byte by byte and checks every digit for overflow. `parseVersion_iff`
says which byte strings it accepts, and as which version.
-/

namespace AiNet.AgentRegistry

open Core AiNet.Core.SemVer List Nat

/-- A part of a version: digits, with a value that fits. -/
structure IsPart (text : List UInt8) : Prop where
  nonempty : text ≠ []
  digits : ∀ b ∈ text, isDigit b = true
  fits : decimal text ≤ u32Max

/-- A number in decimal. -/
def render (n : Nat) : List UInt8 := (toDigits 10 n).map ascii

/-- A version in its canonical form. -/
def AgentVersion.render (v : AgentVersion) : List UInt8 :=
  AgentRegistry.render v.major ++ ascii '.' ::
    (AgentRegistry.render v.minor ++ ascii '.' :: AgentRegistry.render v.patch)

namespace VersionParser

variable {s s' e : VersionParser} {b : UInt8} {text : List UInt8}

/-- The part that is being read. -/
def part (s : VersionParser) : Nat :=
  match s.partIdx with
  | 0 => s.version.major
  | 1 => s.version.minor
  | _ => s.version.patch

def withPart (s : VersionParser) (n : Nat) : VersionParser :=
  match s.partIdx with
  | 0 => { s with version := { s.version with major := n }, digitSeen := true }
  | 1 => { s with version := { s.version with minor := n }, digitSeen := true }
  | _ => { s with version := { s.version with patch := n }, digitSeen := true }

/-- The parser after a dot. -/
def next (s : VersionParser) : VersionParser := { s with partIdx := s.partIdx + 1, digitSeen := false }

theorem part_withPart (s : VersionParser) (n : Nat) : (s.withPart n).part = n := by
  rcases s with ⟨version, _ | _ | partIdx, digitSeen⟩
  all_goals rfl

theorem withPart_withPart (s : VersionParser) (m n : Nat) :
    (s.withPart m).withPart n = s.withPart n := by
  rcases s with ⟨version, _ | _ | partIdx, digitSeen⟩
  all_goals rfl

theorem withPart_fields (s : VersionParser) (n : Nat) :
    (s.withPart n).partIdx = s.partIdx ∧ (s.withPart n).digitSeen = true := by
  rcases s with ⟨version, _ | _ | partIdx, digitSeen⟩
  all_goals exact ⟨rfl, rfl⟩

/-! ## One byte -/

theorem digit_eq_ok {n : Nat} :
    s.digit n = .ok s' ↔ s.part * 10 + n ≤ u32Max ∧ s' = s.withPart (s.part * 10 + n) := by
  have hdig : s.digit n = (okOr (checked32 (s.part * 10 + n)) .invalidVersion).map s.withPart := by
    rcases s with ⟨version, _ | _ | partIdx, digitSeen⟩
    all_goals
      unfold VersionParser.digit part
      dsimp only
      cases checked32 _ with
      | none | some => rfl
  rw [hdig]
  by_cases hft : s.part * 10 + n ≤ u32Max
  · rw [checked32, if_pos hft]
    exact ⟨fun h => ⟨hft, (Except.ok.inj h).symm⟩, fun h => congrArg _ h.2.symm⟩
  · rw [checked32, if_neg hft]
    exact ⟨nofun, fun h => absurd h.1 hft⟩

theorem byte_digit_eq_ok (hb : isDigit b = true) : s.byte b = .ok s' ↔
    s.part * 10 + SemVer.digit b ≤ u32Max ∧ s' = s.withPart (s.part * 10 + SemVer.digit b) := by
  have hdig : 48 ≤ b.toNat ∧ b.toNat ≤ 57 := of_decide_eq_true hb
  have hdot : b ≠ 46 := by
    rintro rfl
    exact absurd hdig.1 (by decide)
  have hby : s.byte b = s.digit (SemVer.digit b) := by
    unfold VersionParser.byte
    rw [if_neg hdot]
    exact if_pos hdig
  rw [hby, digit_eq_ok]

theorem byte_dot_eq_ok : s.byte 46 = .ok s' ↔ s.digitSeen = true ∧ s.partIdx < 2 ∧ s' = s.next := by
  unfold VersionParser.byte next
  rw [if_pos rfl]
  simp only [bind_eq_ok, failIf_eq_ok, pure_eq_ok, exists_and_left, exists_const, not_or,
    Bool.not_eq_false, not_le, and_assoc, eq_comm (a := s')]

theorem byte_cases (h : s.byte b = .ok s') : isDigit b = true ∨ b = 46 := by
  unfold VersionParser.byte at h
  split at h
  · rename_i hdot
    exact Or.inr hdot
  · split at h
    · rename_i hdig
      exact Or.inl (decide_eq_true hdig)
    · cases h

/-! ## One part -/

theorem decimal_cons (text : List UInt8) (n : Nat) :
    text.foldl (fun value b => value * 10 + SemVer.digit b) n = n * 10 ^ text.length + decimal text := by
  induction text generalizing n with
  | nil => simp [decimal]
  | cons b text ih =>
    rw [decimal, foldl_cons, foldl_cons, ih, ih (0 * 10 + SemVer.digit b), length_cons]
    ring

theorem foldlM_digits_eq_ok (hne : text ≠ []) (hdgs : ∀ b ∈ text, isDigit b = true) :
    text.foldlM VersionParser.byte s = .ok s' ↔ s.part * 10 ^ text.length + decimal text ≤ u32Max ∧
        s' = s.withPart (s.part * 10 ^ text.length + decimal text) := by
  rw [← decimal_cons]
  induction text generalizing s with
  | nil => exact absurd rfl hne
  | cons b text ih =>
    obtain ⟨hb, hrst⟩ := forall_mem_cons.mp hdgs
    rw [foldlM_cons, foldl_cons, bind_eq_ok]
    simp only [byte_digit_eq_ok hb]
    by_cases htx : text = []
    · rw [htx]
      simp only [foldlM_nil, pure_eq_ok, foldl_nil]
      constructor
      · rintro ⟨_, h, rfl⟩
        exact h
      · intro h
        exact ⟨s', h, rfl⟩
    · constructor
      · rintro ⟨_, ⟨_, rfl⟩, h⟩
        rwa [ih htx hrst, part_withPart, withPart_withPart] at h
      · intro h
        refine ⟨_, ⟨?_, rfl⟩, ?_⟩
        · -- the value only grows
          have hgrw := decimal_cons text (s.part * 10 + SemVer.digit b)
          have hpow := Nat.le_mul_of_pos_right (s.part * 10 + SemVer.digit b)
            (Nat.pow_pos (a := 10) (n := text.length) (by omega))
          omega
        · rwa [ih htx hrst, part_withPart, withPart_withPart]

theorem exists_part (hsn : s.digitSeen = false) (hpa : s.part = 0)
    (h : text.foldlM VersionParser.byte s = .ok e) (hend : e.digitSeen = true) :
    ∃ xs, IsPart xs ∧ (text = xs ∧ e = s.withPart (decimal xs) ∨ ∃ rest, text = xs ++ 46 :: rest ∧
      s.partIdx < 2 ∧ rest.foldlM VersionParser.byte (s.withPart (decimal xs)).next = .ok e) := by
  have hspl := takeWhile_append_dropWhile (p := isDigit) (l := text)
  have hdgs : ∀ b ∈ text.takeWhile isDigit, isDigit b = true := 
    List.all_eq_true.mp all_takeWhile
  rw [← hspl, foldlM_append, bind_eq_ok] at h
  obtain ⟨s₁, hrd, hrst⟩ := h
  -- what follows the digits is a dot, if anything
  have haf : text.dropWhile isDigit = [] ∧ e = s₁ ∨ ∃ rest, text.dropWhile isDigit = 46 :: rest ∧
      s₁.digitSeen = true ∧ s₁.partIdx < 2 ∧ rest.foldlM VersionParser.byte s₁.next = .ok e := by
    cases hdr : text.dropWhile isDigit with
    | nil =>
      rw [hdr, foldlM_nil, pure_eq_ok] at hrst
      exact Or.inl ⟨rfl, hrst.symm⟩
    | cons b rest =>
      rw [hdr, foldlM_cons, bind_eq_ok] at hrst
      obtain ⟨s₂, hby, hrst⟩ := hrst
      have hb : isDigit b = false := by
        have hhe := head_dropWhile_not isDigit (l := text) (hdr ▸ cons_ne_nil b rest)
        simp only [hdr] at hhe
        exact hhe
      rcases byte_cases hby with hdig | rfl
      · rw [hb] at hdig
        cases hdig
      · obtain ⟨hs, hidx, rfl⟩ := byte_dot_eq_ok.mp hby
        exact Or.inr ⟨rest, rfl, hs, hidx, hrst⟩
  have hne : text.takeWhile isDigit ≠ [] := by
    intro hnil
    rw [hnil, foldlM_nil, pure_eq_ok] at hrd
    rcases haf with ⟨_, rfl⟩ | ⟨_, _, hs, _⟩
    · rw [← hrd, hsn] at hend
      cases hend
    · rw [← hrd, hsn] at hs
      cases hs
  rw [foldlM_digits_eq_ok hne hdgs, hpa, zero_mul, zero_add] at hrd
  obtain ⟨hft, rfl⟩ := hrd
  refine ⟨_, ⟨hne, hdgs, hft⟩, ?_⟩
  rcases haf with ⟨hnil, he⟩ | ⟨rest, hco, _, hidx, hrst⟩
  · rw [hnil, append_nil] at hspl
    exact Or.inl ⟨hspl.symm, he⟩
  · rw [hco] at hspl
    exact Or.inr ⟨rest, hspl.symm, (withPart_fields s _).1 ▸ hidx, hrst⟩

end VersionParser

/-! ## The canonical form -/

theorem render_isPart {n : Nat} (h : n ≤ u32Max) :
    IsPart (render n) ∧ decimal (render n) = n ∧ (render n).length ≤ 10 := by
  have hdig : ∀ c ∈ toDigits 10 n, 48 ≤ c.toNat ∧ c.toNat ≤ 57 ∧ (ascii c).toNat = c.toNat := by
    intro c hc
    have hc := isDigit_of_mem_toDigits (b := 10) (by omega) (le_refl 10) hc
    rw [Char.isDigit_iff_toNat] at hc
    have hsma : (ascii c).toNat = c.toNat % 256 := rfl
    have hlo : 48 ≤ c.toNat := hc.1
    have hhi : c.toNat ≤ 57 := hc.2
    omega
  have hval : decimal (render n) = n := by
    have hfo : decimal (render n) = ofDigitChars 10 (toDigits 10 n) 0 := by
      rw [render, decimal, foldl_map, ofDigitChars_eq_foldl]
      refine foldl_ext _ _ _ ?_
      intro value c hc
      obtain ⟨_, _, hsm⟩ := hdig c hc
      rw [digit, hsm, mul_comm]
      rfl
    rw [hfo, ofDigitChars_ten_toDigits]
  refine ⟨⟨?_, ?_, hval.trans_le h⟩, hval, ?_⟩
  · rw [render, ne_eq, map_eq_nil_iff]
    exact toDigits_ne_nil
  · intro b hb
    obtain ⟨c, hc, rfl⟩ := List.mem_map.mp hb
    obtain ⟨hlo, hhi, hsm⟩ := hdig c hc
    rw [isDigit, hsm]
    exact decide_eq_true ⟨hlo, hhi⟩
  · rw [render, length_map, length_toDigits_le_iff (by omega) (by omega)]
    have hmax : u32Max = 2 ^ 32 - 1 := rfl
    omega

/--
**What a version may look like.** A byte string is accepted exactly if it has 5 to 32 bytes and is three
parts between dots, and it is read as their values; so every version is read back from its canonical form.
-/
theorem parseVersion_iff :
    (∀ (text : List UInt8) (v : AgentVersion), parseVersion text = .ok v ↔
      (5 ≤ text.length ∧ text.length ≤ 32) ∧ ∃ major minor patch, IsPart major ∧ IsPart minor ∧
        IsPart patch ∧ text = major ++ ascii '.' :: (minor ++ ascii '.' :: patch) ∧
          v = ⟨decimal major, decimal minor, decimal patch⟩) ∧
      ∀ major minor patch : UInt32,
        parseVersion (AgentVersion.render ⟨major.toNat, minor.toNat, patch.toNat⟩) =
          .ok ⟨major.toNat, minor.toNat, patch.toNat⟩ := by
  have hpar : ∀ (text : List UInt8) (v : AgentVersion), parseVersion text = .ok v ↔
      (5 ≤ text.length ∧ text.length ≤ 32) ∧ ∃ major minor patch, IsPart major ∧ IsPart minor ∧
        IsPart patch ∧ text = major ++ ascii '.' :: (minor ++ ascii '.' :: patch) ∧
          v = ⟨decimal major, decimal minor, decimal patch⟩ := by
    intro text v
    have hok : parseVersion text = .ok v ↔ (5 ≤ text.length ∧ text.length ≤ 32) ∧
        ∃ s, text.foldlM VersionParser.byte ⟨⟨0, 0, 0⟩, 0, false⟩ = .ok s ∧
          (s.partIdx = 2 ∧ s.digitSeen = true) ∧ s.version = v := by
      unfold parseVersion
      simp only [bind_eq_ok, failIf_eq_ok, pure_eq_ok, exists_and_left, exists_const, not_or, not_lt,
        ne_eq, not_not, Bool.not_eq_false]
    rw [hok]
    refine and_congr Iff.rfl ?_
    constructor
    · rintro ⟨s, hrun, ⟨hidx, hsn⟩, rfl⟩
      obtain ⟨major, hmaj, ⟨_, rfl⟩ | ⟨rest, rfl, _, hrun⟩⟩ :=
        VersionParser.exists_part rfl rfl hrun hsn
      · cases hidx
      obtain ⟨minor, hmin, ⟨_, rfl⟩ | ⟨rest, rfl, _, hrun⟩⟩ :=
        VersionParser.exists_part rfl rfl hrun hsn
      · cases hidx
      obtain ⟨patch, hpat, ⟨rfl, rfl⟩ | ⟨rest, rfl, hlt, _⟩⟩ :=
        VersionParser.exists_part rfl rfl hrun hsn
      · exact ⟨major, minor, rest, hmaj, hmin, hpat, rfl, rfl⟩
      · exact absurd hlt (lt_irrefl 2)
    · rintro ⟨major, minor, patch, hmaj, hmin, hpat, rfl, rfl⟩
      have hrd : ∀ {s : VersionParser} {xs : List UInt8}, s.part = 0 → IsPart xs →
          xs.foldlM VersionParser.byte s = .ok (s.withPart (decimal xs)) := by
        intro s xs hpa hxs
        rw [VersionParser.foldlM_digits_eq_ok hxs.nonempty hxs.digits, hpa, zero_mul, zero_add]
        exact ⟨hxs.fits, rfl⟩
      refine ⟨⟨⟨decimal major, decimal minor, decimal patch⟩, 2, true⟩, ?_, ⟨rfl, rfl⟩, rfl⟩
      simp only [foldlM_append, foldlM_cons, bind_eq_ok]
      exact ⟨_, hrd rfl hmaj, _, VersionParser.byte_dot_eq_ok.mpr ⟨rfl, zero_lt_two, rfl⟩, _,
        hrd rfl hmin, _, VersionParser.byte_dot_eq_ok.mpr ⟨rfl, one_lt_two, rfl⟩,
        hrd rfl hpat⟩
  refine ⟨hpar, fun major minor patch => (hpar _ _).mpr ?_⟩
  have hft : ∀ n : UInt32, n.toNat ≤ u32Max := fun n => le_of_lt_succ n.toNat_lt
  obtain ⟨hmaj, hvm, hlm⟩ := render_isPart (hft major)
  obtain ⟨hmin, hvn, hln⟩ := render_isPart (hft minor)
  obtain ⟨hpat, hvp, hlp⟩ := render_isPart (hft patch)
  have hpos := fun {xs : List UInt8} (h : IsPart xs) => length_pos_iff.mpr h.nonempty
  refine ⟨?_, _, _, _, hmaj, hmin, hpat, rfl, ?_⟩
  · have h1 := hpos hmaj
    have h2 := hpos hmin
    have h3 := hpos hpat
    simp only [AgentVersion.render, length_append, length_cons]
    omega
  · rw [hvm, hvn, hvp]

end AiNet.AgentRegistry
