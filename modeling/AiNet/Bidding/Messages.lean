import AiNet.Bidding.Contract

/-!
# Messages that are signed or committed to

A bridge proof of the registry is signed, and a bid is committed to, by the hash of several values in a row.
No two tuples of values give the same bytes: what a message starts with can be read off it, and so on.
-/

namespace AiNet.Core

variable {α Addr Sym : Type}

/-- Values are encoded one to one, and no encoding is the start of another. -/
structure Coded (valid : α → Prop) (encode : α → List UInt8) : Prop where
  injective : ∀ x y, valid x → valid y → encode x = encode y → x = y
  prefixFree : ∀ x y, valid x → valid y → encode x <+: encode y → encode x = encode y

section Coded

variable {valid : α → Prop} {encode : α → List UInt8}

theorem Coded.peel (h : Coded valid encode) {x y : α} {s t : List UInt8} (hx : valid x) (hy : valid y)
    (heq : encode x ++ s = encode y ++ t) : x = y ∧ s = t := by
  have hsm : encode x = encode y := by
    rcases List.prefix_or_prefix_of_prefix ⟨s, heq⟩ (List.prefix_append (encode y) t) with hxy | hyx
    · exact h.prefixFree x y hx hy hxy
    · exact (h.prefixFree y x hy hx hyx).symm
  rw [hsm] at heq
  exact ⟨h.injective x y hx hy hsm, List.append_cancel_left heq⟩

theorem coded_of_peel (h : ∀ x y s t, valid x → valid y → encode x ++ s = encode y ++ t → x = y) :
    Coded valid encode where
  injective x y hx hy heq := h x y [] [] hx hy (congrArg (· ++ []) heq)
  prefixFree x y hx hy hsta := by
    obtain ⟨t, ht⟩ := hsta
    rw [h x y t [] hx hy (ht.trans (List.append_nil _).symm)]

end Coded

theorem coded_toBeBytes (width : Nat) : Coded (· < 256 ^ width) (toBeBytes width) := by
  refine coded_of_peel fun n m s t hn hm heq => ?_
  have hlen : (toBeBytes width n).length = (toBeBytes width m).length := by
    rw [length_toBeBytes, length_toBeBytes]
  exact toBeBytes_injective hn hm (List.append_inj heq hlen).1

theorem coded_bytes (n : Nat) : Coded (fun _ => True) (BytesN.bytes (n := n)) := by
  refine coded_of_peel fun x y s t _ _ heq => ?_
  have hbyt := (List.append_inj heq (x.length_eq.trans y.length_eq.symm)).1
  obtain ⟨_, _⟩ := x
  cases hbyt
  rfl

/-- The wire format of the host, on the values that its types hold. -/
structure Xdr.Coded (xdr : Xdr Addr Sym) : Prop where
  string : Core.Coded (fun bytes => bytes.length ≤ u32Max) xdr.string
  address : Core.Coded (fun _ => True) xdr.address
  symbol : Core.Coded (fun _ => True) xdr.symbol
  i128 : Core.Coded (fun n => i128Min ≤ n ∧ n ≤ i128Max) xdr.i128
  bytes : Core.Coded (fun bytes => bytes.length ≤ u32Max) xdr.bytes

/-- Two messages with one hash. -/
def Collide (sha256 : List UInt8 → BytesN 32) (m m' : List UInt8) : Prop := m ≠ m' ∧ sha256 m = sha256 m'

end AiNet.Core

namespace AiNet.AgentRegistry

open Core List

variable {Addr Sym : Type}

def domainTag : String := "ai-net.agent-registry.bridge.v1"

inductive TargetChain where
  | evm (chainId : UInt32)
  | solana

def TargetChain.bytes : TargetChain → List UInt8
  | .evm chainId => 1 :: toBeBytes 4 chainId.toNat
  | .solana => 2 :: toBeBytes 4 0

/-- What a bridge proof asserts. -/
structure Assertion (Sym : Type) where
  agentId : Sym
  stellarPubkey : BytesN 32
  targetChain : TargetChain
  issuedAt : UInt64
  expiry : UInt64

def canonicalMessage (xdr : Xdr Addr Sym) (p : Assertion Sym) : List UInt8 :=
  domainTag.toUTF8.toList ++ (toBeBytes 4 (xdr.symbol p.agentId).length ++ (xdr.symbol p.agentId ++
    (p.targetChain.bytes ++ (p.stellarPubkey.bytes ++
      (toBeBytes 8 p.issuedAt.toNat ++ toBeBytes 8 p.expiry.toNat)))))

def digestOf (host : Host Addr Sym) (p : Assertion Sym) : BytesN 32 :=
  host.sha256 (canonicalMessage host.xdr p)

theorem coded_targetChain : Coded (fun _ => True) TargetChain.bytes := by
  refine coded_of_peel fun x y s t _ _ heq => ?_
  cases x with
  | evm n =>
    cases y with
    | evm m =>
      have hpe := (coded_toBeBytes 4).peel n.toNat_lt m.toNat_lt (List.cons.inj heq).2
      rw [UInt32.toNat_inj.mp hpe.1]
    | solana => cases (List.cons.inj heq).1
  | solana =>
    cases y with
    | evm => cases (List.cons.inj heq).1
    | solana => rfl

theorem canonicalMessage_injective {xdr : Xdr Addr Sym} (hxdr : xdr.Coded) {p p' : Assertion Sym}
    (h : canonicalMessage xdr p = canonicalMessage xdr p') : p = p' := by
  have hle : (toBeBytes 4 (xdr.symbol p.agentId).length).length =
      (toBeBytes 4 (xdr.symbol p'.agentId).length).length := by
    rw [length_toBeBytes, length_toBeBytes]
  have h := (append_inj (append_cancel_left h) hle).2
  obtain ⟨hagt, h⟩ := hxdr.symbol.peel trivial trivial h
  obtain ⟨hchn, h⟩ := coded_targetChain.peel trivial trivial h
  obtain ⟨hkey, h⟩ := (coded_bytes 32).peel trivial trivial h
  obtain ⟨hiss, h⟩ := (coded_toBeBytes 8).peel p.issuedAt.toNat_lt p'.issuedAt.toNat_lt h
  have hexy := (coded_toBeBytes 8).injective _ _ p.expiry.toNat_lt p'.expiry.toNat_lt h
  obtain ⟨_, _, _, _, _⟩ := p
  cases hagt
  cases hchn
  cases hkey
  cases UInt64.toNat_inj.mp hiss
  cases UInt64.toNat_inj.mp hexy
  rfl

end AiNet.AgentRegistry

namespace AiNet.Bidding

open Core AiNet.AgentRegistry List

variable {Addr Sym τ : Type}

/-- What a bid is committed to with. -/
structure Opening (Addr Sym : Type) where
  contract : Addr
  taskId : Sym
  bidder : Addr
  price : Int
  terms : List UInt8
  salt : BytesN 32
  price_fits : i128Min ≤ price ∧ price ≤ i128Max
  terms_fit : terms.length ≤ u32Max

/-- The bytes that `compute_commitment` hashes. -/
def preimage (xdr : Xdr Addr Sym) (o : Opening Addr Sym) : List UInt8 :=
  xdr.string commitmentDomain.toUTF8.toList ++ xdr.address o.contract ++ xdr.symbol o.taskId ++
    xdr.address o.bidder ++ xdr.i128 o.price ++ xdr.string o.terms ++ xdr.bytes o.salt.bytes

/-- The commitment that a deployed contract recomputes. -/
def Opening.commitment (env : Env Addr Sym τ) (o : Opening Addr Sym) : BytesN 32 :=
  computeCommitment { env with self := o.contract } o.taskId o.bidder o.price o.terms o.salt

theorem preimage_injective {xdr : Xdr Addr Sym} (hxdr : xdr.Coded) {o o' : Opening Addr Sym}
    (h : preimage xdr o = preimage xdr o') : o = o' := by
  have hsa : ∀ salt : BytesN 32, salt.bytes.length ≤ u32Max := by
    intro salt
    rw [salt.length_eq]
    decide
  simp only [preimage, append_assoc] at h
  have h := append_cancel_left h
  obtain ⟨hco, h⟩ := hxdr.address.peel trivial trivial h
  obtain ⟨htk, h⟩ := hxdr.symbol.peel trivial trivial h
  obtain ⟨hbi, h⟩ := hxdr.address.peel trivial trivial h
  obtain ⟨hprc, h⟩ := hxdr.i128.peel o.price_fits o'.price_fits h
  obtain ⟨htrm, h⟩ := hxdr.string.peel o.terms_fit o'.terms_fit h
  have hsa := hxdr.bytes.injective _ _ (hsa o.salt) (hsa o'.salt) h
  have hsa := (coded_bytes 32).injective _ _ trivial trivial hsa
  obtain ⟨_, _, _, _, _, _, _, _⟩ := o
  cases hco
  cases htk
  cases hbi
  cases hprc
  cases htrm
  cases hsa
  rfl

/--
**No message has two meanings.** Different assertions are signed as different bytes, different bids committed
to as different bytes; so a digest or a commitment fits two of them only where the hash collides.
-/
theorem messages_unambiguous (env : Env Addr Sym τ) (hxdr : env.xdr.Coded) :
    ((∀ p p', canonicalMessage env.xdr p = canonicalMessage env.xdr p' → p = p') ∧
      ∀ o o', preimage env.xdr o = preimage env.xdr o' → o = o') ∧
    (∀ p p', digestOf env.toHost p = digestOf env.toHost p' →
      p = p' ∨ Collide env.sha256 (canonicalMessage env.xdr p) (canonicalMessage env.xdr p')) ∧
      ∀ o o' : Opening Addr Sym, o.commitment env = o'.commitment env →
        o = o' ∨ Collide env.sha256 (preimage env.xdr o) (preimage env.xdr o') := by
  refine ⟨⟨fun p p' => canonicalMessage_injective hxdr, fun o o' => preimage_injective hxdr⟩,
    fun p p' h => ?_, fun o o' h => ?_⟩
  · by_cases hme : canonicalMessage env.xdr p = canonicalMessage env.xdr p'
    · exact .inl (canonicalMessage_injective hxdr hme)
    · exact .inr ⟨hme, h⟩
  · by_cases hme : preimage env.xdr o = preimage env.xdr o'
    · exact .inl (preimage_injective hxdr hme)
    · exact .inr ⟨hme, h⟩

/-! ## Example -/

namespace Sample

/-- A tag, the length, and the bytes filled up to a multiple of four. -/
def varying (tag : Nat) (bytes : List UInt8) : List UInt8 :=
  toBeBytes 4 tag ++ (toBeBytes 4 bytes.length ++ (bytes ++ List.replicate ((4 - bytes.length % 4) % 4) 0))

/-- The wire format of the network; addresses are those of contracts. -/
def wire : Xdr (BytesN 32) { text : List UInt8 // text.length ≤ 32 } where
  string := varying 14
  address a := toBeBytes 4 18 ++ (toBeBytes 4 1 ++ a.bytes)
  symbol text := varying 15 text.1
  i128 n := toBeBytes 4 10 ++ toBeBytes 16 (n % 2 ^ 128).toNat
  bytes := varying 13

theorem varying_inj {tag : Nat} {x y s t : List UInt8} (hx : x.length ≤ u32Max) (hy : y.length ≤ u32Max)
    (heq : varying tag x ++ s = varying tag y ++ t) : x = y := by
  simp only [varying, append_assoc] at heq
  have hlen := (coded_toBeBytes 4).peel (Nat.lt_succ_of_le hx) (Nat.lt_succ_of_le hy)
    (append_cancel_left heq)
  exact (append_inj hlen.2 hlen.1).1

theorem wire_coded : wire.Coded where
  string := coded_of_peel fun _ _ _ _ hx hy heq => varying_inj hx hy heq
  bytes := coded_of_peel fun _ _ _ _ hx hy heq => varying_inj hx hy heq
  symbol := coded_of_peel fun x y _ _ _ _ heq =>
    Subtype.ext (varying_inj (x.2.trans (by decide)) (y.2.trans (by decide)) heq)
  address := by
    refine coded_of_peel fun x y s t _ _ heq => ?_
    simp only [wire, append_assoc] at heq
    exact ((coded_bytes 32).peel trivial trivial (append_cancel_left (append_cancel_left heq))).1
  i128 := by
    refine coded_of_peel fun n m s t hn hm heq => ?_
    simp only [wire, append_assoc] at heq
    have hnn : ∀ n : Int, 0 ≤ n % 2 ^ 128 ∧ n % 2 ^ 128 < 2 ^ 128 := fun n => by omega
    have hft : ∀ n : Int, (n % 2 ^ 128).toNat < 256 ^ 16 := fun n => by have := hnn n; omega
    have hmod := ((coded_toBeBytes 16).peel (hft n) (hft m) (append_cancel_left heq)).1
    have hmin : i128Min = -2 ^ 127 := rfl
    have hmax : i128Max = 2 ^ 127 - 1 := rfl
    have h1 := hnn n
    have h2 := hnn m
    omega

def network : Env (BytesN 32) { text : List UInt8 // text.length ≤ 32 } (Token.Ledger (BytesN 32)) where
  self := BytesN.zero 32
  sha256 := BytesN.pad 32
  xdr := wire
  token := Token.ledger fun _ => 7

end Sample

/-- The proofs of one agent for two chains are signed as different bytes. -/
theorem messages_two_chains :
    canonicalMessage Sample.wire ⟨⟨[97], by decide⟩, BytesN.zero 32, .evm 1, 0, 10⟩ ≠
      canonicalMessage Sample.wire ⟨⟨[97], by decide⟩, BytesN.zero 32, .evm 56, 0, 10⟩ := by
  intro h
  have hsm := (messages_unambiguous Sample.network Sample.wire_coded).1.1 _ _ h
  cases hsm

end AiNet.Bidding
