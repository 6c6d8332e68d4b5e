import AiNet.Core.Json
import AiNet.Core.UniqueTable
import AiNet.Core.Transition

/-!
# The canonical text of a payload

Both sides of an ownership proof hash a payload, so its text must not depend on how the object was
built. `canonicalJson` leaves out undefined members and puts the others in the order of their keys.
`jsonEqual_of_canonicalJson`: nothing else is lost, payloads with the same text are equal as JSON.
-/

namespace AiNet.AgentSignature

open Core List

/-- A payload. Of numbers, the finite ones have a text; the members of an object stand in some order. -/
inductive JsValue where
  | undefined
  | null
  | boolean (b : Bool)
  | number (n : NumberText)
  | nonFinite
  | string (s : JsString)
  | array (items : List JsValue)
  | object (members : List (JsString × JsValue))

namespace JsValue

def isUndefined : JsValue → Bool
  | .undefined => true
  | _ => false

mutual

/-- Deterministic JSON with sorted object keys. -/
def canonicalJson : JsValue → List Char
  | .undefined => "null".toList
  | .null => "null".toList
  | .boolean true => "true".toList
  | .boolean false => "false".toList
  | .number n => n.text
  -- `JSON.stringify` has no text for these
  | .nonFinite => "null".toList
  | .string s => s.quote
  | .array items => '[' :: (joinComma (canonicalItems items) ++ [']'])
  | .object members =>
    -- the texts are made before the sort, which looks at the keys only
    Char.ofNat 123 ::
      (joinComma (((canonicalEntries members).insertionSort fun e e' => e.1 ≤ e'.1).map fun e =>
        e.1.quote ++ ':' :: e.2) ++ [Char.ofNat 125])

def canonicalItems : List JsValue → List (List Char)
  | [] => []
  | item :: items => canonicalJson item :: canonicalItems items

def canonicalEntries : List (JsString × JsValue) → List (JsString × List Char)
  | [] => []
  | (key, value) :: members =>
    if value.isUndefined then canonicalEntries members
    else (key, canonicalJson value) :: canonicalEntries members

end

/-! ## The value that is written -/

mutual

/-- The JSON value of a payload: undefined members are not there, what has no text is null. -/
def toJson : JsValue → Json JsString
  | .undefined => .null
  | .null => .null
  | .boolean b => .bool b
  | .number n => .number n
  | .nonFinite => .null
  | .string s => .string s
  | .array items => .array (toJsonItems items)
  | .object members => .object (toJsonMembers members)

def toJsonItems : List JsValue → List (Json JsString)
  | [] => []
  | item :: items => toJson item :: toJsonItems items

def toJsonMembers : List (JsString × JsValue) → List (JsString × Json JsString)
  | [] => []
  | (key, value) :: members =>
    if value.isUndefined then toJsonMembers members
    else (key, toJson value) :: toJsonMembers members

end

/-- Equal as JSON: the order of keys and undefined members do not count, the order of arrays does. -/
def JsonEqual (v w : JsValue) : Prop := Json.Similar v.toJson w.toJson

section Canonical

/-- The order of keys: by code units. -/
abbrev keyLe (key key' : JsString) : Prop := key ≤ key'

theorem renderMembers_sort (members : List (JsString × Json JsString)) :
    Json.renderMembers JsString.quoting
        (members.insertionSort fun m m' => keyLe m.1 m'.1) =
      ((members.map fun m => (m.1, Json.render JsString.quoting m.2)).insertionSort
        fun e e' => keyLe e.1 e'.1).map fun e => e.1.quote ++ ':' :: e.2 := by
  rw [Json.renderMembers_eq, ← map_insertionSort (fun m m' : JsString × Json JsString => keyLe m.1 m'.1)
    (fun e e' : JsString × List Char => keyLe e.1 e'.1) _ members fun _ _ _ _ => Iff.rfl, List.map_map]
  rfl

mutual

/-- **The canonical text is that of the JSON value with its members sorted.** -/
theorem canonicalJson_eq : ∀ v : JsValue,
    canonicalJson v = Json.render JsString.quoting (Json.sorted keyLe v.toJson)
  | .undefined => by simp only [canonicalJson, toJson, Json.sorted, Json.render]
  | .null => by simp only [canonicalJson, toJson, Json.sorted, Json.render]
  | .boolean true => by simp only [canonicalJson, toJson, Json.sorted, Json.render]
  | .boolean false => by simp only [canonicalJson, toJson, Json.sorted, Json.render]
  | .number n => by simp only [canonicalJson, toJson, Json.sorted, Json.render]
  | .nonFinite => by simp only [canonicalJson, toJson, Json.sorted, Json.render]
  | .string s => by
    simp only [canonicalJson, toJson, Json.sorted, Json.render]
    rfl
  | .array items => by
    simp only [canonicalJson, toJson, Json.sorted, Json.render]
    rw [canonicalItems_eq items]
  | .object members => by
    simp only [canonicalJson, toJson, Json.sorted, Json.render]
    rw [canonicalEntries_eq members, renderMembers_sort]

theorem canonicalItems_eq : ∀ items : List JsValue, canonicalItems items =
    Json.renderItems JsString.quoting (Json.sortedItems keyLe (toJsonItems items))
  | [] => by simp only [canonicalItems, toJsonItems, Json.sortedItems, Json.renderItems]
  | item :: items => by
    simp only [canonicalItems, toJsonItems, Json.sortedItems, Json.renderItems]
    rw [canonicalJson_eq item, canonicalItems_eq items]

theorem canonicalEntries_eq : ∀ members : List (JsString × JsValue), canonicalEntries members =
    (Json.sortedMembers keyLe (toJsonMembers members)).map fun m =>
      (m.1, Json.render JsString.quoting m.2)
  | [] => by simp only [canonicalEntries, toJsonMembers, Json.sortedMembers, map_nil]
  | (key, value) :: members => by
    simp only [canonicalEntries, toJsonMembers]
    split
    · exact canonicalEntries_eq members
    · simp only [Json.sortedMembers, map_cons]
      rw [canonicalJson_eq value, canonicalEntries_eq members]

end

/-- **Payloads with the same canonical text are equal as JSON.** -/
theorem jsonEqual_of_canonicalJson {v w : JsValue} (h : canonicalJson v = canonicalJson w) :
    JsonEqual v w := by
  rw [canonicalJson_eq, canonicalJson_eq] at h
  exact Json.similar_of_render_sorted keyLe JsString.quoting h

/-- Keys are sorted, and an undefined member is left out: the text is `{"a":[],"b":null}`. -/
example : canonicalJson (.object [([98], .null), ([97], .array []), ([99], .undefined)]) =
    [123, 34, 97, 34, 58, 91, 93, 44, 34, 98, 34, 58, 110, 117, 108, 108, 125].map Char.ofNat := by
  decide

end Canonical

end JsValue

/-!
## Agent ownership proofs

`issueAgentChallenge` mints a single-use nonce for a purpose, a public key and the hash of a payload;
`verifyAgentOwnership` burns the nonce that a request presents, checks that it was issued for this
request and that the signature of the canonical message verifies. Both run without an `await`, so a
call is one step.

SHA-256 and the signature check of the Stellar SDK are parameters. A step may assume two things: the
nonce that is drawn was never drawn before, and a signature that verifies was made by the holder of
the key.
-/

/-- Keys, nonces, messages and header values. -/
abbrev Text := List Char

/-- Routes that require an ownership proof. -/
inductive AgentAuthPurpose
  | register | heartbeat | delete
deriving DecidableEq

def AgentAuthPurpose.text : AgentAuthPurpose → Text
  | .register => "register".toList
  | .heartbeat => "heartbeat".toList
  | .delete => "delete".toList

/-- What is not under the control of this module. -/
structure Crypto where
  /-- The digest of a text in UTF-8. -/
  sha256 : Text → List UInt8
  /-- `Keypair.fromPublicKey(publicKey).verify(message, signature)`; none where it throws. -/
  verify : Text → Text → List UInt8 → Option Bool

/-! ## Hashes and messages -/

/-- `digest("hex")`. -/
def toHex (bytes : List UInt8) : Text :=
  bytes.flatMap fun b => [Nat.digitChar (b.toNat / 16), Nat.digitChar (b.toNat % 16)]

/-- SHA-256 (hex) of the canonical form of `payload`. -/
def hashAgentPayload (c : Crypto) (payload : JsValue) : Text := toHex (c.sha256 payload.canonicalJson)

def agentAuthScheme : Text := "ai-net:agent-auth:v1".toList

/-- The canonical string an agent signs: newline-joined. -/
def buildAgentAuthMessage (purpose : AgentAuthPurpose) (publicKey challenge payloadHash : Text) : Text :=
  agentAuthScheme ++ '\n' :: (purpose.text ++ '\n' :: (publicKey ++ '\n' ::
    (challenge ++ '\n' :: payloadHash)))

/-! ## Signatures -/

def isHexDigit (c : Char) : Bool :=
  c.isDigit || decide (c ∈ "abcdefABCDEF".toList)

def hexDigitValue (c : Char) : Nat :=
  if c.isDigit then c.toNat - 48 else if c.isLower then c.toNat - 87 else c.toNat - 55

/-- `Buffer.from(_, "hex")`, of a text of hex digits and even length. -/
def fromHex : Text → List UInt8
  | c :: c' :: rest => UInt8.ofNat (hexDigitValue c * 16 + hexDigitValue c') :: fromHex rest
  | _ => []

def base64Chars : Text := "ABCDEFGHIJKLMNOPQRSTUVWXYZabcdefghijklmnopqrstuvwxyz0123456789+/".toList

def base64Digit (n : Nat) : Char := base64Chars[n]?.getD 'A'

/-- The value of a digit, also of one of the URL alphabet. -/
def base64Value (c : Char) : Option Nat :=
  if c = '-' then some 62 else if c = '_' then some 63 else base64Chars.idxOf? c

/-- The bytes of a sequence of base64 digits; what does not fill a byte is dropped. -/
def fromSextets : List Nat → List UInt8
  | a :: b :: c :: d :: rest =>
    UInt8.ofNat (a * 4 + b / 16) :: UInt8.ofNat (b % 16 * 16 + c / 4) :: UInt8.ofNat (c % 4 * 64 + d) ::
      fromSextets rest
  | [a, b, c] => [UInt8.ofNat (a * 4 + b / 16), UInt8.ofNat (b % 16 * 16 + c / 4)]
  | [a, b] => [UInt8.ofNat (a * 4 + b / 16)]
  | _ => []

/-- `Buffer.from(_, "base64")`: up to the padding, without the characters that are no digits. -/
def fromBase64 (text : Text) : List UInt8 :=
  fromSextets ((text.takeWhile fun c => decide (c ≠ '=')).filterMap base64Value)

/-- `toString("base64")` without the padding. -/
def toBase64 : List UInt8 → Text
  | a :: b :: c :: rest =>
    base64Digit (a.toNat / 4) :: base64Digit (a.toNat % 4 * 16 + b.toNat / 16) ::
      base64Digit (b.toNat % 16 * 4 + c.toNat / 64) :: base64Digit (c.toNat % 64) :: toBase64 rest
  | [a, b] =>
    [base64Digit (a.toNat / 4), base64Digit (a.toNat % 4 * 16 + b.toNat / 16),
      base64Digit (b.toNat % 16 * 4)]
  | [a] => [base64Digit (a.toNat / 4), base64Digit (a.toNat % 4 * 16)]
  | [] => []

/-- `replace(/=+$/, "")`. -/
def withoutPadding (text : Text) : Text := (text.reverse.dropWhile fun c => decide (c = '=')).reverse

/-- Base64 and hex are accepted. Anything else is a malformed proof, not a failed one. -/
def decodeSignature (signature : Text) : Option (List UInt8) :=
  if signature ≠ [] ∧ signature.all isHexDigit ∧ signature.length % 2 = 0 then
    some (fromHex signature)
  else
    let decoded := fromBase64 signature
    if decoded = [] then none
    -- reject strings that are not valid base64 rather than silently truncating
    else if toBase64 decoded = withoutPadding signature then some decoded
    else none

/-! ## The challenge store -/

/-- A nonce: 24 random bytes in the URL alphabet of base64. -/
structure Nonce where
  text : Text
  length : text.length = 32
  chars : ∀ c ∈ text, c.isAlphanum ∨ c = '-' ∨ c = '_'
deriving DecidableEq

structure PendingChallenge where
  publicKey : Text
  purpose : AgentAuthPurpose
  payloadHash : Text
  agentId : Option Text
  expiresAtMs : Nat
deriving DecidableEq

/-- The map of outstanding challenges, in the order of their insertion. -/
abbrev Pending := UniqueTable (Prod.fst : Text × PendingChallenge → Text)

/-- Hard cap on outstanding challenges. -/
def maxPendingChallenges : Nat := 10000

def pruneExpired (now : Nat) (pending : Pending) : Pending :=
  pending.keep fun row => !decide (row.2.expiresAtMs ≤ now)

/-- While there is no room, the oldest entry goes. -/
def evictOldest : List (Text × PendingChallenge) → List (Text × PendingChallenge)
  | [] => []
  | row :: rows =>
    if maxPendingChallenges ≤ (row :: rows).length then evictOldest rows else row :: rows

theorem evictOldest_suffix (rows : List (Text × PendingChallenge)) : evictOldest rows <:+ rows := by
  induction rows with
  | nil => exact suffix_refl _
  | cons row rows ih =>
    unfold evictOldest
    split
    · exact ih.trans (suffix_cons row rows)
    · exact suffix_refl _

def evict (pending : Pending) : Pending where
  rows := evictOldest pending.rows
  keys := pending.keys.sublist ((evictOldest_suffix pending.rows).sublist.map _)

/-- `pending.set`: an entry that is there keeps its place. -/
def setPending (pending : Pending) (nonce : Text) (entry : PendingChallenge) : Pending :=
  (pending.insert (nonce, entry)).getD
    (pending.update (fun row => if row.1 = nonce then (row.1, entry) else row) fun row => by
      split <;> rfl)

/-! ## The two calls -/

structure IssueChallengeInput where
  purpose : AgentAuthPurpose
  publicKey : Text
  payload : JsValue
  agentId : Option Text

/-- What the caller gets: the nonce, the message to sign, and until when. -/
structure AgentChallenge where
  challenge : Text
  message : Text
  expiresAtMs : Nat

/-- Mint a single-use nonce and return the exact message to sign. -/
def issueAgentChallenge (c : Crypto) (now ttlMs : Nat) (nonce : Text) (input : IssueChallengeInput)
    (pending : Pending) : AgentChallenge × Pending :=
  let pending := evict (pruneExpired now pending)
  let expiresAtMs := now + ttlMs
  let payloadHash := hashAgentPayload c input.payload
  let message := buildAgentAuthMessage input.purpose input.publicKey nonce payloadHash
  (⟨nonce, message, expiresAtMs⟩, setPending pending nonce
      ⟨input.publicKey, input.purpose, payloadHash, input.agentId, expiresAtMs⟩)

/-- A request header: absent, or with one value or several. -/
inductive Header
  | absent
  | one (value : Text)
  | several (values : List Text)

structure Request where
  challenge : Header
  signature : Header

def readHeader : Header → Option Text
  | .absent => none
  | .one value => if value = [] then none else some value
  | .several [] => none
  | .several (value :: _) => if value = [] then none else some value

inductive AgentAuthCode
  | challengeInvalid | signatureInvalid
deriving DecidableEq

/-- Ownership proof failed: a 401. -/
structure AgentAuthError where
  message : String
  code : AgentAuthCode
  header : Option String
  reason : Option String
  purpose : AgentAuthPurpose
  correlationId : Option Text
deriving DecidableEq

structure VerifyAgentOwnershipInput extends IssueChallengeInput where
  correlationId : Option Text

/-- The entry was made for this request. -/
def bound (c : Crypto) (entry : PendingChallenge) (input : VerifyAgentOwnershipInput) : Bool :=
  decide (entry.purpose = input.purpose) && decide (entry.publicKey = input.publicKey) &&
    decide (entry.payloadHash = hashAgentPayload c input.payload) &&
    (match entry.agentId with
      | none => true
      | some agentId => decide (agentId = input.agentId.getD []))

/-- The message that a call verifies the signature of. -/
def VerifyAgentOwnershipInput.message (c : Crypto) (input : VerifyAgentOwnershipInput)
    (challenge : Text) : Text :=
  buildAgentAuthMessage input.purpose input.publicKey challenge (hashAgentPayload c input.payload)

/-- The checks of the entry that was found for the presented nonce. -/
def checkEntry (c : Crypto) (now : Nat) (challenge signature : Text) (input : VerifyAgentOwnershipInput)
    (entry : PendingChallenge) : Except AgentAuthError Unit :=
  if entry.expiresAtMs ≤ now then
    .error ⟨"Agent challenge expired", .challengeInvalid, none, some "expired", input.purpose,
      input.correlationId⟩
  else if bound c entry input then
    match decodeSignature signature with
    | none => .error ⟨"Agent signature is not valid base64 or hex", .signatureInvalid, none, none,
        input.purpose, input.correlationId⟩
    | some signatureBytes =>
      if (c.verify input.publicKey (input.message c challenge) signatureBytes).getD false then .ok ()
      else .error ⟨"Agent signature does not match the claimed Stellar public key", .signatureInvalid,
        none, some "signature_mismatch", input.purpose, input.correlationId⟩
  else .error ⟨"Agent challenge was not issued for this request", .challengeInvalid, none,
    some "binding_mismatch", input.purpose, input.correlationId⟩

/-- Verify an agent's ownership proof for the current request. -/
def verifyAgentOwnership (c : Crypto) (now : Nat) (req : Request) (input : VerifyAgentOwnershipInput)
    (pending : Pending) : Except AgentAuthError Unit × Pending :=
  match readHeader req.challenge with
  | none => (.error ⟨"Missing agent challenge", .challengeInvalid, some "x-challenge", none,
      input.purpose, input.correlationId⟩, pending)
  | some challenge =>
    match readHeader req.signature with
    | none => (.error ⟨"Missing agent signature", .signatureInvalid, some "x-signature", none,
        input.purpose, input.correlationId⟩, pending)
    | some signature =>
      match pending.find challenge with
      | none => (.error ⟨"Unknown or already-used agent challenge", .challengeInvalid, none,
          some "unknown_or_used", input.purpose, input.correlationId⟩, pending)
      -- the nonce is burnt on presentation
      | some (_, entry) => (checkEntry c now challenge signature input entry,
          pending.keep fun row => !decide (row.1 = challenge))

/-! ## Runs -/

/-- A challenge that was issued, and what for. -/
structure Issued where
  input : IssueChallengeInput
  challenge : AgentChallenge

/-- A call of `verifyAgentOwnership` that returned normally. -/
structure Accepted where
  challenge : Text
  input : VerifyAgentOwnershipInput
  clock : Nat

/-- The store of the process, and what has happened so far. -/
structure State where
  clock : Nat
  pending : Pending
  issued : List Issued
  /-- The challenges that were burnt by a presentation. -/
  burnt : List Text
  /-- The challenges that were evicted, each with the key of the challenge it made room for. -/
  displaced : List (Text × Text)
  accepted : List Accepted
  /-- The messages that the holder of a key has signed. -/
  signed : List (Text × Text)

inductive Event
  | issueAgentChallenge (input : IssueChallengeInput) (nonce : Nonce) (ttlMs : Nat)
  | sign (publicKey message : Text)
  | verifyAgentOwnership (req : Request) (input : VerifyAgentOwnershipInput)
  | tick (clock : Nat)

def Request.presents (req : Request) : Option Text :=
  match readHeader req.signature with
  | none => none
  | some _ => readHeader req.challenge

/-- Only the holder of a key makes a signature that verifies. -/
def Unforged (c : Crypto) (signed : List (Text × Text)) (req : Request)
    (input : VerifyAgentOwnershipInput) : Prop :=
  ∀ challenge ∈ readHeader req.challenge, ∀ signature ∈ readHeader req.signature,
    ∀ bytes ∈ decodeSignature signature,
      c.verify input.publicKey (input.message c challenge) bytes = some true →
        (input.publicKey, input.message c challenge) ∈ signed

instance (c : Crypto) (signed : List (Text × Text)) (req : Request) (input : VerifyAgentOwnershipInput) :
    Decidable (Unforged c signed req input) := by
  unfold Unforged
  infer_instance

/-- The entries that the eviction of an issue takes away. -/
def evicted (now : Nat) (pending : Pending) : List (Text × PendingChallenge) :=
  (pruneExpired now pending).rows.filter fun row =>
    decide (row ∉ (evict (pruneExpired now pending)).rows)

def State.step (c : Crypto) (s : State) : Event → Option State
  | .issueAgentChallenge input nonce ttlMs =>
    if nonce.text ∉ s.issued.map (fun issued => issued.challenge.challenge) then
      let (challenge, pending) := issueAgentChallenge c s.clock ttlMs nonce.text input s.pending
      some { s with
        pending := pending
        issued := s.issued ++ [⟨input, challenge⟩]
        displaced := s.displaced ++
          (evicted s.clock s.pending).map fun row => (row.1, input.publicKey) }
    else none
  | .sign publicKey message => some { s with signed := s.signed ++ [(publicKey, message)] }
  | .verifyAgentOwnership req input =>
    if Unforged c s.signed req input then
      let (result, pending) := verifyAgentOwnership c s.clock req input s.pending
      some { s with
        pending := pending
        burnt := s.burnt ++ (req.presents.filter fun challenge => (s.pending.find challenge).isSome).toList
        accepted := s.accepted ++
          (match result, req.presents with
            | .ok (), some challenge => [⟨challenge, input, s.clock⟩]
            | _, _ => []) }
    else none
  | .tick clock => if s.clock ≤ clock then some { s with clock := clock } else none

/-- Calls of any parties in any order, from an empty store. -/
def agentAuth (c : Crypto) : System State Event where
  start := fun s => s.pending = .empty _ ∧ s.issued = [] ∧ s.burnt = [] ∧ s.displaced = [] ∧
    s.accepted = [] ∧ s.signed = []
  step := State.step c

end AiNet.AgentSignature
