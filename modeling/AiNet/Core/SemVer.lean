import Mathlib.Data.List.Basic

/-!
# Precedence of version tags

A version tag is a dotted list of numbers, then possibly a pre-release after a hyphen and
build metadata after a plus. Precedence compares the numbers one by one, a missing one
counting as zero; then a release comes after its pre-releases, and two pre-releases are
compared identifier by identifier: numbers by value, other identifiers bytewise, a number
before anything else, and a list before its continuations. Build metadata does not count.

Tags are byte strings and numbers have no width here.
-/

namespace AiNet.Core.SemVer

/-- The byte of an ASCII character. -/
def ascii (c : Char) : UInt8 := c.toUInt8

def isDigit (b : UInt8) : Bool := decide (48 ≤ b.toNat ∧ b.toNat ≤ 57)

def isLetter (b : UInt8) : Bool :=
  decide (65 ≤ b.toNat ∧ b.toNat ≤ 90 ∨ 97 ≤ b.toNat ∧ b.toNat ≤ 122)

/-- The value of a digit. -/
def digit (b : UInt8) : Nat := b.toNat - 48

/-- The value of a string of digits. -/
def decimal (text : List UInt8) : Nat := text.foldl (fun value b => value * 10 + digit b) 0

/-- What precedes the first separator, and what follows it. -/
def splitFirst (sep : UInt8) (bytes : List UInt8) : List UInt8 × Option (List UInt8) :=
  match bytes.findIdx? (· == sep) with
  | some i => (bytes.take i, some (bytes.drop (i + 1)))
  | none => (bytes, none)

/-- An identifier of a pre-release. -/
inductive Identifier where
  | numeric (value : Nat)
  | alphanumeric (text : List UInt8)
  deriving DecidableEq

/-- A non-empty string of digits is a number. -/
def Identifier.ofText (text : List UInt8) : Identifier :=
  if text ≠ [] ∧ text.all isDigit = true then .numeric (decimal text) else .alphanumeric text

/-- Numbers by value, texts bytewise, numbers first. -/
def Identifier.order : Identifier → Identifier → Ordering
  | .numeric m, .numeric n => compare m n
  | .numeric _, .alphanumeric _ => .lt
  | .alphanumeric _, .numeric _ => .gt
  | .alphanumeric x, .alphanumeric y => compare x y

/-- A version, without its build metadata. -/
structure Version where
  core : List Nat
  /-- Empty for a release. -/
  pre : List Identifier
  deriving DecidableEq

/-- What a tag says. -/
def Version.ofTag (tag : List UInt8) : Version :=
  let (core, pre) := splitFirst (ascii '-') (splitFirst (ascii '+') tag).1
  { core := (core.splitOn (ascii '.')).map decimal
    pre := (pre.map fun pre => (pre.splitOn (ascii '.')).map Identifier.ofText).getD [] }

/-- Number by number; the shorter list is continued by zeros. -/
def orderCore (a b : List Nat) : Ordering :=
  (List.range (max a.length b.length)).foldr
    (fun i rest => (compare (a.getD i 0) (b.getD i 0)).then rest) .eq

/-- A release after its pre-releases, and these identifier by identifier. -/
def orderPre (a b : List Identifier) : Ordering :=
  if a = [] then if b = [] then .eq else .gt
  else if b = [] then .lt else a.compareLex Identifier.order b

def Version.order (a b : Version) : Ordering := (orderCore a.core b.core).then (orderPre a.pre b.pre)

/-- The second tag has strictly higher precedence than the first. -/
def Precedes (a b : List UInt8) : Prop := (Version.ofTag b).order (Version.ofTag a) = .gt

instance (a b : List UInt8) : Decidable (Precedes a b) := inferInstanceAs (Decidable (_ = _))

theorem compareLex_map {α β : Type} {f : α → α → Ordering} {g : β → β → Ordering} {h : α → β} :
    ∀ {xs ys : List α}, (∀ x ∈ xs, ∀ y ∈ ys, f x y = g (h x) (h y)) →
      xs.compareLex f ys = (xs.map h).compareLex g (ys.map h) := by
  intro xs
  induction xs with
  | nil =>
    intro ys _
    cases ys with
    | nil | cons => rfl
  | cons x xs ih =>
    intro ys heq
    cases ys with
    | nil => rfl
    | cons y =>
      rw [List.map_cons, List.map_cons, List.compareLex_cons_cons, List.compareLex_cons_cons,
        heq x List.mem_cons_self y List.mem_cons_self, ih]
      intro x' hx y' hy
      exact heq x' (List.mem_cons_of_mem x hx) y' (List.mem_cons_of_mem y hy)

end AiNet.Core.SemVer
