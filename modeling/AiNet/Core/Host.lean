import Mathlib.Data.List.Forall2

/-!
# Fallible invocations

A contract invocation either commits or leaves no trace: it fails with one of the
contract's own error codes, or the host traps. `Outcome` is that result. A body is
written as a `do` block over `Except`, and every proof about it starts by inverting
the block: `bind_eq_ok` peels one statement off a successful run, and the `_eq_ok`
lemmas below say what each kind of guard lets through.

Loops over a list are `List.foldlM`; the two rules at the end are the induction over
such a loop, once for what a successful run preserves and once for why it succeeds.
-/

namespace AiNet.Core

open List

section

/-- Why an invocation did not commit. -/
inductive Fault (ε : Type) where
  /-- The contract returned one of its error codes. -/
  | error (e : ε)
  /-- The host trapped: a missing signature, a failed transfer, an arithmetic panic. -/
  | trap
  deriving DecidableEq

/-- The result of an invocation. -/
abbrev Outcome (ε α : Type) := Except (Fault ε) α

variable {ε α β : Type}

/-- Return the error code `e` when `p` holds. -/
def failIf (p : Prop) [Decidable p] (e : ε) : Outcome ε Unit :=
  if p then .error (.error e) else .ok ()

/-- Trap unless `p` holds. -/
def trapUnless (p : Prop) [Decidable p] : Outcome ε Unit :=
  if p then .ok () else .error .trap

/-- Unwrap an optional value, or return the error code `e`. -/
def okOr (o : Option α) (e : ε) : Outcome ε α :=
  match o with
  | some a => .ok a
  | none => .error (.error e)

/-- Unwrap an optional value, or trap. -/
def orTrap (o : Option α) : Outcome ε α :=
  match o with
  | some a => .ok a
  | none => .error .trap

@[simp] theorem bind_eq_ok {φ : Type} {x : Except φ α} {f : α → Except φ β} {b : β} :
    (x >>= f) = .ok b ↔ ∃ a, x = .ok a ∧ f a = .ok b := by
  cases x with
  | error =>
    constructor
    · intro h; cases h
    · rintro ⟨_, h, _⟩; cases h
  | ok a =>
    constructor
    · intro h; exact ⟨a, rfl, h⟩
    · rintro ⟨_, h, h'⟩; cases h; exact h'

@[simp] theorem pure_eq_ok {φ : Type} {a b : α} :
    (pure a : Except φ α) = .ok b ↔ a = b := by
  constructor
  · intro h; cases h; rfl
  · intro h; rw [h]; rfl

theorem bind_snd_eq_ok {φ : Type} {x : Except φ (α × β)} {b : β} :
    (x >>= fun result => pure result.2) = .ok b ↔ ∃ a, x = .ok (a, b) := by
  rw [bind_eq_ok]
  constructor
  · intro h
    obtain ⟨⟨a, b'⟩, hx, hb⟩ := h
    exact ⟨a, pure_eq_ok.mp hb ▸ hx⟩
  · intro h
    obtain ⟨a, hx⟩ := h
    exact ⟨(a, b), hx, rfl⟩

theorem toOption_eq_some {φ : Type} {x : Except φ α} {a : α} :
    x.toOption = some a ↔ x = .ok a := by
  cases x with
  | error | ok => simp [Except.toOption]

theorem exists_ok_of_toOption {φ : Type} {x : Except φ α} (h : x.toOption.isSome = true) :
    ∃ a, x = .ok a := by
  obtain ⟨a, ha⟩ := Option.isSome_iff_exists.mp h
  exact ⟨a, toOption_eq_some.mp ha⟩

theorem exists_bind_pure {φ : Type} {x : Except φ α} {g : α → β} :
    (∃ b, (x >>= fun a => pure (g a)) = .ok b) ↔ ∃ a, x = .ok a := by
  constructor
  · rintro ⟨b, h⟩
    obtain ⟨a, ha, -⟩ := bind_eq_ok.mp h
    exact ⟨a, ha⟩
  · rintro ⟨a, ha⟩
    exact ⟨g a, bind_eq_ok.mpr ⟨a, ha, rfl⟩⟩

@[simp] theorem failIf_eq_ok {p : Prop} [Decidable p] {e : ε} {u : Unit} :
    failIf p e = .ok u ↔ ¬ p := by
  unfold failIf
  by_cases h : p <;> simp [h]

@[simp] theorem trapUnless_eq_ok {p : Prop} [Decidable p] {u : Unit} :
    (trapUnless p : Outcome ε Unit) = .ok u ↔ p := by
  unfold trapUnless
  by_cases h : p <;> simp [h]

@[simp] theorem okOr_eq_ok {o : Option α} {e : ε} {a : α} :
    okOr o e = .ok a ↔ o = some a := by
  cases o <;> simp [okOr]

@[simp] theorem orTrap_eq_ok {o : Option α} {a : α} :
    (orTrap o : Outcome ε α) = .ok a ↔ o = some a := by
  cases o <;> simp [orTrap]

/-! ## Loops -/

/--
**What a loop keeps true.** `P rest b` relates the elements still to process to the accumulator;
it is carried from the whole list to the empty one.
-/
theorem foldlM_rest {φ : Type} {f : β → α → Except φ β} (P : List α → β → Prop)
    (hs : ∀ a rest c c', P (a :: rest) c → f c a = .ok c' → P rest c') :
    ∀ {l : List α} {b b' : β}, P l b → l.foldlM f b = .ok b' → P [] b' := by
  intro l
  induction l with
  | nil =>
    intro b b' hP h
    rw [foldlM_nil, pure_eq_ok] at h
    exact h ▸ hP
  | cons a rest ih =>
    intro b b' hP h
    rw [foldlM_cons, bind_eq_ok] at h
    obtain ⟨c, hc, hrst⟩ := h
    exact ih (hs a rest b c hP hc) hrst

theorem foldlM_preserves {φ : Type} {f : β → α → Except φ β} {l : List α} {b b' : β}
    (P : β → Prop) (h : l.foldlM f b = .ok b') (h0 : P b)
    (hs : ∀ a c c', a ∈ l → P c → f c a = .ok c' → P c') : P b' := by
  have hrst : ∀ a rest c c', (a :: rest ⊆ l ∧ P c) → f c a = .ok c' → rest ⊆ l ∧ P c' := by
    intro a rest c c' ⟨hsub, hP⟩ hc
    exact ⟨fun x hx => hsub (mem_cons_of_mem a hx), hs a c c' (hsub mem_cons_self) hP hc⟩
  exact (foldlM_rest (fun rest c => rest ⊆ l ∧ P c) hrst ⟨fun _ hx => hx, h0⟩ h).2

/--
**When a loop succeeds**: exactly when every element is good, if that is what decides each
iteration from any accumulator the loop can bring to it.
-/
theorem foldlM_ok_iff {φ : Type} {f : β → α → Except φ β} (P : List α → β → Prop)
    (good : α → Prop) (hok : ∀ a rest c, P (a :: rest) c → ((∃ c', f c a = .ok c') ↔ good a))
    (hs : ∀ a rest c c', P (a :: rest) c → f c a = .ok c' → P rest c') :
    ∀ {l : List α} {b : β}, P l b → ((∃ b', l.foldlM f b = .ok b') ↔ ∀ a ∈ l, good a) := by
  intro l
  induction l with
  | nil =>
    intro b _
    refine ⟨fun _ a ha => absurd ha not_mem_nil, fun _ => ⟨b, rfl⟩⟩
  | cons a rest ih =>
    intro b hP
    simp only [foldlM_cons, bind_eq_ok, forall_mem_cons]
    constructor
    · rintro ⟨b', c, hc, hrst⟩
      exact ⟨(hok a rest b hP).mp ⟨c, hc⟩, (ih (hs a rest b c hP hc)).mp ⟨b', hrst⟩⟩
    · rintro ⟨ha, hall⟩
      obtain ⟨c, hc⟩ := (hok a rest b hP).mpr ha
      obtain ⟨b', hrst⟩ := (ih (hs a rest b c hP hc)).mpr hall
      exact ⟨b', c, hc, hrst⟩

theorem mapM_eq_ok {φ : Type} {f : α → Except φ β} {l : List α} {l' : List β} :
    l.mapM f = .ok l' ↔ List.Forall₂ (fun a b => f a = .ok b) l l' := by
  induction l generalizing l' with
  | nil =>
    rw [mapM_nil, pure_eq_ok, forall₂_nil_left_iff]
    exact eq_comm
  | cons a l ih =>
    simp only [mapM_cons, bind_eq_ok, pure_eq_ok, forall₂_cons_left_iff, ih]
    constructor
    · rintro ⟨b, hb, rest, hrst, rfl⟩
      exact ⟨b, rest, hb, hrst, rfl⟩
    · rintro ⟨b, rest, hb, hrst, rfl⟩
      exact ⟨b, hb, rest, hrst, rfl⟩

theorem exists_mapM_ok {φ : Type} {f : α → Except φ β} {l : List α} :
    (∃ l', l.mapM f = .ok l') ↔ ∀ a ∈ l, ∃ b, f a = .ok b := by
  induction l with
  | nil => exact ⟨fun _ a ha => absurd ha not_mem_nil, fun _ => ⟨[], rfl⟩⟩
  | cons a l ih =>
    rw [forall_mem_cons, ← ih]
    simp only [mapM_cons, bind_eq_ok, pure_eq_ok]
    constructor
    · rintro ⟨l', b, hb, rest, hrst, rfl⟩
      exact ⟨⟨b, hb⟩, rest, hrst⟩
    · rintro ⟨⟨b, hb⟩, rest, hrst⟩
      exact ⟨b :: rest, b, hb, rest, hrst, rfl⟩

end

/-!
## The contract host

What a contract is given by the chain it runs on: its own address, hashing, and the
wire format of the values it hashes. None of these is computed by the contract, so
they are parameters.

Authorisation is per call. An account authorises a call by signing it; the contract's
own address never authorises one, because a contract address authorises only calls
that contract makes itself, and no contract modelled here calls its own entry points.
-/

/-- `BytesN<n>`: byte strings of a fixed length. -/
structure BytesN (n : Nat) where
  /-- The bytes. -/
  bytes : List UInt8
  /-- There are `n` of them. -/
  length_eq : bytes.length = n
  deriving DecidableEq

/-- All bytes zero. -/
def BytesN.zero (n : Nat) : BytesN n := ⟨replicate n 0, length_replicate⟩

/-- All bytes the same. -/
def BytesN.fill (n : Nat) (byte : UInt8) : BytesN n := ⟨replicate n byte, length_replicate⟩

/-- The first bytes, with zeros after them if there are too few. -/
def BytesN.pad (n : Nat) (bytes : List UInt8) : BytesN n :=
  ⟨(bytes ++ replicate n 0).take n, by
    rw [length_take, length_append, length_replicate]
    exact Nat.min_eq_left (Nat.le_add_left n _)⟩

/-- The XDR encodings (`to_xdr`) of the host's value types. -/
structure Xdr (Addr Sym : Type) where
  /-- A string, given by its bytes. -/
  string : List UInt8 → List UInt8
  /-- An address. -/
  address : Addr → List UInt8
  /-- A symbol. -/
  symbol : Sym → List UInt8
  /-- A 128-bit integer. -/
  i128 : Int → List UInt8
  /-- A byte string. -/
  bytes : List UInt8 → List UInt8

/-- The part of the environment that is fixed for a deployed contract. -/
structure Host (Addr Sym : Type) where
  /-- `env.current_contract_address()`. -/
  self : Addr
  /-- `env.crypto().sha256`. -/
  sha256 : List UInt8 → BytesN 32
  /-- The wire format. -/
  xdr : Xdr Addr Sym

/-- How a cross-contract call that is allowed to fail came back. -/
inductive Invoked where
  /-- The callee returned. -/
  | returned
  /-- The callee failed with one of its error codes. -/
  | contractError (code : Nat)
  /-- The call was aborted by the host. -/
  | aborted
  deriving DecidableEq

/-- How a call comes back to a caller that sees it fail, where `code` numbers the callee's errors. -/
def invoked {ε α : Type} (code : ε → Nat) : Outcome ε α → Invoked
  | .ok _ => .returned
  | .error (.error e) => .contractError (code e)
  | .error .trap => .aborted

theorem invoked_eq_returned {ε α : Type} {code : ε → Nat} {x : Outcome ε α} :
    invoked code x = .returned ↔ ∃ a, x = .ok a := by
  cases x with
  | ok a => exact ⟨fun _ => ⟨a, rfl⟩, fun _ => rfl⟩
  | error fault =>
    refine ⟨fun h => ?_, fun h => ?_⟩
    · cases fault with
      | error | trap => cases h
    · obtain ⟨a, ha⟩ := h
      cases ha

/-- The pairwise comparison by which contracts reject a list with repeated entries. -/
def hasDuplicate {α : Type} [DecidableEq α] : List α → Bool
  | [] => false
  | a :: others => others.contains a || hasDuplicate others

/-- `addr.require_auth()`, where `signed` are the accounts that signed the call. -/
def requireAuth {Addr Sym ε : Type} [DecidableEq Addr] (host : Host Addr Sym)
    (signed : Addr → Bool) (addr : Addr) : Outcome ε Unit :=
  trapUnless (addr ≠ host.self ∧ signed addr = true)

@[simp] theorem requireAuth_eq_ok {Addr Sym ε : Type} [DecidableEq Addr]
    {host : Host Addr Sym} {signed : Addr → Bool} {addr : Addr} {u : Unit} :
    (requireAuth host signed addr : Outcome ε Unit) = .ok u ↔ addr ≠ host.self ∧ signed addr = true :=
  trapUnless_eq_ok

end AiNet.Core
