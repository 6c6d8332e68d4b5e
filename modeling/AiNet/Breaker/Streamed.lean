import AiNet.Breaker.Failover
import AiNet.Core.Number
import AiNet.Core.Json

/-!
# Streamed answers

A provider streams lines, and the network cuts their bytes where it likes. The client carries the bytes of a character
over to the next chunk, but not the rest of a line: each chunk is split on its own, and the buffer for what is left stays
empty. So a stream is read as it was sent if and only if the parts of each line, read one by one, give what the line does.
-/

namespace AiNet.Breaker.Streamed

open Core List

abbrev Text := List Char

abbrev Bytes := List UInt8

/-! ## The decoder -/

/-- `decoder.decode` with `stream`, on UTF-8: the bytes of a character that is not complete are kept. -/
def decode : Bytes → Bytes → Text × Bytes
  | pending, [] => ([], pending)
  | pending, byte :: bytes =>
    match (pending ++ [byte]).toByteArray.utf8DecodeChar? 0 with
    | none => decode (pending ++ [byte]) bytes
    | some c =>
      let (text, pending) := decode [] bytes
      (c :: text, pending)

def decodeChunks : Bytes → List Bytes → List Text
  | _, [] => []
  | pending, chunk :: chunks =>
    let (text, pending) := decode pending chunk
    text :: decodeChunks pending chunks

/-- The decoder skips a byte order mark. -/
def withoutMark : Text → Text
  | [] => []
  | c :: text => if c.toNat = 0xFEFF then text else c :: text

def skipMark : List Text → List Text
  | [] => []
  | [] :: texts => [] :: skipMark texts
  | text :: texts => withoutMark text :: texts

def encode (text : Text) : Bytes := text.flatMap String.utf8EncodeChar

theorem decode_append (pending bytes more : Bytes) : decode pending (bytes ++ more) =
    ((decode pending bytes).1 ++ (decode (decode pending bytes).2 more).1,
      (decode (decode pending bytes).2 more).2) := by
  fun_induction decode pending bytes with
  | case1 => rfl
  | case2 pending byte bytes hnone ih =>
    rw [cons_append, decode, hnone]
    exact ih
  | case3 pending byte bytes c hsome text rest hdec ih =>
    rw [cons_append, decode, hsome]
    simp only [ih, hdec, cons_append]

theorem flatten_decodeChunks (pending : Bytes) (chunks : List Bytes) :
    (decodeChunks pending chunks).flatten = (decode pending chunks.flatten).1 := by
  induction chunks generalizing pending with
  | nil => rfl
  | cons chunk chunks ih =>
    rw [decodeChunks, flatten_cons, flatten_cons, decode_append]
    exact congrArg _ (ih _)

/-- The bytes of a character are one only when they are complete. -/
theorem decodeChar_of_cut {c : Char} {bytes rest : Bytes} (h : bytes ++ rest = String.utf8EncodeChar c)
    (hrest : rest ≠ []) : bytes.toByteArray.utf8DecodeChar? 0 = none := by
  by_contra hdec
  obtain ⟨d, hd⟩ := Option.ne_none_iff_exists'.mp hdec
  have hall := ByteArray.utf8DecodeChar?_append_eq_some hd rest.toByteArray
  rw [← List.toByteArray_append, h] at hall
  have hc := ByteArray.utf8DecodeChar?_utf8EncodeChar_append (c := c) (b := .empty)
  rw [ByteArray.append_empty, hall] at hc
  obtain rfl := Option.some.inj hc
  have hle := ByteArray.le_size_of_utf8DecodeChar?_eq_some hd
  have hlen := congrArg length h
  rw [length_append, String.length_utf8EncodeChar] at hlen
  have hpos := length_pos_iff.mpr hrest
  rw [List.size_toByteArray] at hle
  omega

theorem decode_char {c : Char} {pending bytes : Bytes} (more : Bytes) (hne : bytes ≠ [])
    (h : pending ++ bytes = String.utf8EncodeChar c) :
    decode pending (bytes ++ more) = (c :: (decode [] more).1, (decode [] more).2) := by
  induction bytes generalizing pending with
  | nil => exact absurd rfl hne
  | cons byte bytes ih =>
    rw [cons_append, decode]
    by_cases hlast : bytes = []
    · subst hlast
      have hc := ByteArray.utf8DecodeChar?_utf8EncodeChar_append (c := c) (b := .empty)
      rw [ByteArray.append_empty] at hc
      rw [h, hc]
      rfl
    · rw [append_cons] at h
      rw [decodeChar_of_cut h hlast]
      exact ih hlast h

theorem decode_encode (text : Text) : decode [] (encode text) = (text, []) := by
  induction text with
  | nil => rfl
  | cons c text ih =>
    have hch := @decode_char c [] _ (encode text) (String.utf8EncodeChar_ne_nil (c := c)) rfl
    rw [ih] at hch
    exact hch

theorem flatten_skipMark (texts : List Text) : (skipMark texts).flatten = withoutMark texts.flatten := by
  fun_induction skipMark texts with
  | case1 => rfl
  | case2 texts ih => exact ih
  | case3 text texts hne =>
    cases text with
    | nil => exact (hne rfl).elim
    | cons c text =>
      simp only [flatten_cons, cons_append, withoutMark]
      split <;> rfl

/-! ## Tags -/

section

variable {α β : Type} (f g : α → List β)

/-- What the elements of a list give, each with the number of its element. -/
def tagged (n : Nat) (as : List α) : List (Nat × β) := (as.zipIdx n).flatMap fun a => (f a.1).map (a.2, ·)

variable {n : Nat} {a : α} {as : List α}

theorem tagged_cons : tagged f n (a :: as) = (f a).map (n, ·) ++ tagged f (n + 1) as := rfl

theorem tagged_map {γ : Type} (k : γ → α) {cs : List γ} : tagged f n (cs.map k) = tagged (fun c => f (k c)) n cs := by
  induction cs generalizing n with
  | nil => rfl
  | cons c cs ih => rw [map_cons, tagged_cons, tagged_cons, ih]

theorem filter_tagged {m : Nat} (h : m < n) : (tagged f n as).filter (fun t => t.1 = m) = [] := by
  induction as generalizing n with
  | nil => rfl
  | cons a as ih =>
    rw [tagged_cons, filter_append, ih (by omega), append_nil, filter_eq_nil_iff]
    intro t ht
    obtain ⟨b, -, rfl⟩ := mem_map.mp ht
    simp only [decide_eq_true_eq]
    omega

/-- The tags tell which element gives what. -/
theorem tagged_eq_iff : tagged f n as = tagged g n as ↔ ∀ a ∈ as, f a = g a := by
  induction as generalizing n with
  | nil => exact iff_of_true rfl nofun
  | cons a as ih =>
    rw [tagged_cons, tagged_cons, forall_mem_cons, ← ih (n := n + 1)]
    constructor
    · intro heq
      have hfst : ∀ (k : α → List β), ((k a).map (n, ·)).filter (fun t => t.1 = n) = (k a).map (n, ·) := by
        intro k
        rw [filter_eq_self]
        intro t ht
        obtain ⟨b, -, rfl⟩ := mem_map.mp ht
        exact decide_eq_true rfl
      have hmap := congrArg (filter fun t => t.1 = n) heq
      rw [filter_append, filter_append, hfst, hfst, filter_tagged f n.lt_succ_self, filter_tagged g n.lt_succ_self,
        append_nil, append_nil] at hmap
      rw [hmap] at heq
      exact ⟨map_injective_iff.mpr (Prod.mk_right_injective n) hmap, append_cancel_left heq⟩
    · rintro ⟨ha, has⟩
      rw [ha, has]

end

/-! ## The attempts -/

section

variable (parse : Text → Option (Json JsString))

def member (key : String) : Json JsString → Option (Json JsString)
  | .object members => members.lookup (.ofText key.toList)
  | _ => none

/-- `choices?.[0]`. -/
def first : Json JsString → Option (Json JsString)
  | .array items => items.head?
  | json => member "0" json

/-- The delta of a data frame; any other line has none. -/
def readDelta (line : Text) : Option JsString := do
  guard ("data: ".toList <+: line)
  let payload := trim (line.drop 6)
  guard (payload ≠ "[DONE]".toList)
  let parsed ← parse payload
  match ← (((member "choices" parsed).bind first).bind (member "delta")).bind (member "content") with
  | .string delta => if delta = [] then none else some delta
  | _ => none

/-- What lines give, each delta with the number of the line it stands in. -/
def readLines (number : Nat) (lines : List Text) : List (Nat × JsString) :=
  tagged (fun line => (readDelta parse line).toList) number lines

/-- The loop over the chunks. What is left of a chunk is a line, too, and the next chunk goes on with that line. -/
def readChunks : Nat → List Text → List (Nat × JsString)
  | _, [] => []
  | number, text :: texts =>
    let lines := text.splitOn '\n'
    readLines parse number lines ++ readChunks (number + (lines.length - 1)) texts

/-- What a provider sends, and how it arrives. -/
structure Body where
  text : Text
  chunks : List Bytes
  flatten_eq : chunks.flatten = encode text

inductive Attempt where
  | completed (body : Body)
  | failed (chunks : List Bytes) (error : Failover.FetchError)

def deltas (chunks : List Bytes) : List (Nat × JsString) :=
  readChunks parse 0 (skipMark (decodeChunks [] chunks))

/-- What the caller is given. The deltas of an attempt that fails are dropped, and its handler reads `keyHealth`. -/
def stream : List Attempt → List (Nat × JsString)
  | [] => []
  | .completed body :: _ => deltas parse body.chunks
  | .failed _ error :: rest => match Failover.keyHealth with
    | none => []
    | some _ => if Failover.shouldFailoverToNextProvider error then stream rest else []

/-! ## What was sent -/

def frames (text : Text) : List (Nat × JsString) := readLines parse 0 ((withoutMark text).splitOn '\n')

/-- The parts of the first lines of a text, whose last line goes on. -/
def joinParts : List Text → List (List Text) → List (List Text)
  | [], lines => lines
  | [part], lines => lines.modifyHead (part :: ·)
  | part :: parts, lines => [part] :: joinParts parts lines

/-- The lines of a text that comes in pieces, each with its parts. -/
def lineParts : List Text → List (List Text)
  | [] => [[]]
  | text :: texts => joinParts (text.splitOn '\n') (lineParts texts)

def partDeltas (parts : List Text) : List JsString := parts.flatMap fun part => (readDelta parse part).toList

/-- The parts of each line give what the line does: its delta, if it has one, and no other. -/
def Intact (chunks : List Bytes) : Prop :=
  ∀ parts ∈ lineParts (skipMark (decodeChunks [] chunks)),
    partDeltas parse parts = (readDelta parse parts.flatten).toList

theorem flatten_joinParts {text rest : Text} {lines : List (List Text)} (h : lines.map flatten = rest.splitOn '\n') :
    (joinParts (text.splitOn '\n') lines).map flatten = (text ++ rest).splitOn '\n' := by
  obtain ⟨line, lines, rfl⟩ := exists_cons_of_ne_nil (show lines ≠ [] by
    rintro rfl
    exact splitOn_ne_nil _ _ h.symm)
  induction text with
  | nil => exact h
  | cons c text ih =>
    obtain ⟨part, parts, hsplit⟩ := exists_cons_of_ne_nil (splitOn_ne_nil '\n' text)
    rw [cons_append, splitOn_cons_eq_if_modifyHead, splitOn_cons_eq_if_modifyHead, ← ih, hsplit]
    split
    · rfl
    · cases parts with
      | nil | cons => rfl

theorem flatten_lineParts (texts : List Text) : (lineParts texts).map flatten = texts.flatten.splitOn '\n' := by
  induction texts with
  | nil => rfl
  | cons text texts ih => exact flatten_joinParts ih

theorem lineParts_ne (texts : List Text) : lineParts texts ≠ [] := fun h => by
  have hmap := flatten_lineParts texts
  rw [h] at hmap
  exact splitOn_ne_nil _ _ hmap.symm

theorem tagged_joinParts {number : Nat} {parts : List Text} {lines : List (List Text)} (hparts : parts ≠ [])
    (hlines : lines ≠ []) : tagged (partDeltas parse) number (joinParts parts lines) =
      readLines parse number parts ++ tagged (partDeltas parse) (number + (parts.length - 1)) lines := by
  fun_induction joinParts parts lines generalizing number with
  | case1 => exact absurd rfl hparts
  | case2 part lines =>
    obtain ⟨line, lines, rfl⟩ := exists_cons_of_ne_nil hlines
    simp [readLines, partDeltas, tagged]
  | case3 part parts lines hne ih =>
    have hpos := length_pos_iff.mpr hne
    have hlen : number + ((part :: parts).length - 1) = number + 1 + (parts.length - 1) := by
      rw [length_cons]
      omega
    have hone : partDeltas parse [part] = (readDelta parse part).toList := flatMap_singleton _ _
    rw [hlen, tagged_cons, ih hne hlines, hone]
    exact (append_assoc _ _ _).symm

theorem readChunks_eq (number : Nat) (texts : List Text) :
    readChunks parse number texts = tagged (partDeltas parse) number (lineParts texts) := by
  induction texts generalizing number with
  | nil => rfl
  | cons text texts ih =>
    rw [readChunks, ih]
    exact (tagged_joinParts parse (splitOn_ne_nil _ _) (lineParts_ne texts)).symm

theorem deltas_eq_iff (body : Body) : deltas parse body.chunks = frames parse body.text ↔ Intact parse body.chunks := by
  have htext : (skipMark (decodeChunks [] body.chunks)).flatten = withoutMark body.text := by
    rw [flatten_skipMark, flatten_decodeChunks, body.flatten_eq, decode_encode]
  unfold deltas frames readLines
  rw [readChunks_eq, ← htext, ← flatten_lineParts, tagged_map, tagged_eq_iff]
  rfl

/--
**What a completed attempt hands over is what was sent if and only if each line arrives intact**, and nothing of a
failed attempt is handed over.
-/
theorem stream_exact_iff (rest : List Attempt) :
    (∀ body, stream parse (.completed body :: rest) = frames parse body.text ↔ Intact parse body.chunks) ∧
      ∀ chunks error, stream parse (.failed chunks error :: rest) = [] :=
  ⟨deltas_eq_iff parse, fun _ _ => rfl⟩

end

def frameText : Text := "\x7b\"choices\":[\x7b\"delta\":\x7b\"content\":\"hi\"\x7d\x7d]\x7d".toList

def frameJson : Json JsString :=
  .object [(.ofText "choices".toList, .array [.object [(.ofText "delta".toList,
    .object [(.ofText "content".toList, .string (.ofText "hi".toList))])]])]

def parseFrame (text : Text) : Option (Json JsString) := if text = frameText then some frameJson else none

/-- A frame that comes in two chunks is lost. -/
theorem not_intact : ∃ body : Body, body.text = "data: ".toList ++ frameText ++ ['\n'] ∧
    stream parseFrame [.completed body] = [] ∧ frames parseFrame body.text = [(0, .ofText "hi".toList)] := by
  let text := "data: ".toList ++ frameText ++ ['\n']
  exact ⟨⟨text, [(encode text).take 9, (encode text).drop 9], by decide⟩, rfl, by decide,
    by decide⟩

end AiNet.Breaker.Streamed
