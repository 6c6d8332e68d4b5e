import AiNet.AgentSignature.Calls
import AiNet.Core.HashChain
import Mathlib.Data.Char
import Mathlib.Data.List.Lex

/-!
# The admin audit log

Every entry stores the hash of the entry before it, and its own, over its fields and that one. `verify` walks
the table from the oldest row on. Rows without a hash, from before the chain existed, may precede it; and the
first row of the chain is its anchor, since pruning removes the oldest rows.
-/

namespace AiNet.Audit

open Core AiNet.AgentSignature List Option

/-- The `prevHash` of the first chained entry ever written. -/
def genesisAuditHash : Text := List.replicate 64 '0'

structure HashedFields where
  id : Int
  /-- `at`, a column that is compared as a text. -/
  writtenAt : Text
  actor : Text
  action : Text
  target : Option Text
  statusCode : Int
  requestId : Option Text
  details : Option Text
deriving DecidableEq

/-- A stored row. -/
structure AuditChainRow extends HashedFields where
  prevHash : Option Text
  hash : Option Text
deriving DecidableEq

/-- Fields the caller supplies when appending. -/
structure AuditAppendInput where
  writtenAt : Text
  actor : Text
  action : Text
  target : Option Text
  statusCode : Int
  requestId : Option Text
  details : Option Text

structure AuditChainVerification where
  valid : Bool
  firstBrokenAt : Option Text
  checked : Nat
  legacyRows : Nat
deriving DecidableEq

/-- The rows in the order of their ids. -/
structure AuditTable where
  rows : List AuditChainRow
  sorted : rows.Pairwise fun row row' => row.id < row'.id

/-! ## Hashes -/

def textValue (text : Text) : Json JsString := .string (JsString.ofText text)

def nullable : Option Text → Json JsString
  | some text => textValue text
  | none => .null

def canonical (fields : HashedFields) (prevHash : Text) : Json JsString :=
  .array
    [ textValue prevHash, .number (.ofInt fields.id), textValue fields.writtenAt, textValue fields.actor,
      textValue fields.action,
      nullable fields.target,
      .number (.ofInt fields.statusCode),
      nullable fields.requestId,
      nullable fields.details ]

variable (sha256 : Text → List UInt8)

def computeAuditHash (fields : HashedFields) (prevHash : Text) : Text :=
  toHex (sha256 (Json.render JsString.quoting (canonical fields prevHash)))

/-! ## Appending -/

/-- The row that an entry becomes, after the head of the table. -/
def newRow (head : Option AuditChainRow) (input : AuditAppendInput) : AuditChainRow :=
  let fields : HashedFields :=
    { id := (head.map fun row => row.id).getD 0 + 1
      writtenAt := input.writtenAt
      actor := input.actor
      action := input.action
      target := input.target
      statusCode := input.statusCode
      requestId := input.requestId
      details := input.details }
  let prevHash := (head.bind AuditChainRow.hash).getD genesisAuditHash
  { fields with prevHash := some prevHash, hash := some (computeAuditHash sha256 fields prevHash) }

theorem id_le_of_getLast? {rows : List AuditChainRow}
    (h : rows.Pairwise fun row row' => row.id < row'.id) {head : AuditChainRow}
    (hhe : rows.getLast? = some head) {row : AuditChainRow} (hrow : row ∈ rows) : row.id ≤ head.id := by
  obtain ⟨before, rfl⟩ := List.getLast?_eq_some_iff.mp hhe
  rcases mem_append.mp hrow with hbf | hla
  · have hlt := (pairwise_append.mp h).2.2 row hbf head (mem_singleton_self _)
    omega
  · rw [mem_singleton.mp hla]

/-- Append an entry, linking it to the current head. -/
def append (t : AuditTable) (input : AuditAppendInput) : AuditTable where
  rows := t.rows ++ [newRow sha256 t.rows.getLast? input]
  sorted := by
    refine pairwise_append.mpr ⟨t.sorted, pairwise_singleton _ _, ?_⟩
    intro row hrow new hnew
    rw [mem_singleton.mp hnew]
    cases hhead : t.rows.getLast? with
    | none =>
      rw [List.getLast?_eq_none_iff.mp hhead] at hrow
      exact absurd hrow not_mem_nil
    | some head =>
      have hle := id_le_of_getLast? t.sorted hhead hrow
      show row.id < head.id + 1
      omega

/-! ## Pruning -/

/--
Delete entries older than `retentionDays`, if it is finite and positive. The time of the cutoff is written by
`toISOString`, which throws beyond the range of dates.
-/
def pruneAdminAuditLog (toISOString : Rat → Option Text) (retentionDays : Option Rat) (now : Int)
    (t : AuditTable) : Option (AuditTable × Nat) :=
  match retentionDays with
  | none => some (t, 0)
  | some retentionDays =>
    if retentionDays ≤ 0 then some (t, 0)
    else (toISOString (now - retentionDays * (24 * 60 * 60 * 1000))).map fun cutoff =>
      (⟨t.rows.filter fun row => !decide (row.writtenAt < cutoff), t.sorted.filter _⟩,
        t.rows.countP fun row => decide (row.writtenAt < cutoff))

/-! ## Verification -/

def brokenAt (row : AuditChainRow) (checked legacyRows : Nat) : AuditChainVerification :=
  ⟨false, some (NumberText.ofInt row.id).text, checked, legacyRows⟩

/-- The loop over the rows, with the hash of the chained row before. -/
def verifyRows : List AuditChainRow → Option Text → Nat → Nat → AuditChainVerification
  | [], _, checked, legacyRows => ⟨true, none, checked, legacyRows⟩
  | row :: rows, previousHash, checked, legacyRows =>
    match row.hash with
    | none =>
      if previousHash.isSome then brokenAt row checked legacyRows
      else verifyRows rows previousHash checked (legacyRows + 1)
    | some hash =>
      match row.prevHash with
      | none => brokenAt row checked legacyRows
      | some prevHash =>
        if previousHash.any (fun previous => decide (prevHash ≠ previous)) ||
            decide (computeAuditHash sha256 row.toHashedFields prevHash ≠ hash) then
          brokenAt row checked legacyRows
        else verifyRows rows (some hash) (checked + 1) legacyRows

/-- Walk the chain oldest-first and recompute every hash. -/
def verify (t : AuditTable) : AuditChainVerification := verifyRows sha256 t.rows none 0 0

example : verify sha256 ⟨[], .nil⟩ = ⟨true, none, 0, 0⟩ := by rw [verify, verifyRows]

/-! ## The log among its writers -/

structure State where
  table : AuditTable
  /-- The rows that were appended since the chain began, pruned ones included. -/
  chain : List AuditChainRow

inductive Event
  | append (input : AuditAppendInput)
  | prune (retentionDays : Option Rat) (now : Int)

def State.append (s : State) (input : AuditAppendInput) : State where
  table := Audit.append sha256 s.table input
  chain :=
    let head := s.table.rows.getLast?
    -- after a row without a hash, or none at all, the chain begins
    (if head.any fun row => row.hash.isSome then s.chain else []) ++ [newRow sha256 head input]

/-- The log of a database that may hold rows from before the chain existed. -/
def system (toISOString : Rat → Option Text) : System State Event where
  start s := (∀ row ∈ s.table.rows, row.hash = none) ∧
    s.table.rows.Pairwise (fun row row' => row.writtenAt ≤ row'.writtenAt) ∧ s.chain = []
  step s
    | .append input => some (s.append sha256 input)
    | .prune retentionDays now =>
      (pruneAdminAuditLog toISOString retentionDays now s.table).map fun pruned =>
        { s with table := pruned.1 }

/-- Entries are appended at times that do not decrease. -/
def InOrder (s : State) : Event → Prop
  | .append input => ∀ row ∈ s.table.rows, row.writtenAt ≤ input.writtenAt
  | .prune _ _ => True

/-!
## Tampering with the audit log

A table that verifies is a list of rows without a hash, and after it a chain (`verifyRows_valid`,
`verifyRows_chain`). Appending and pruning keep this shape (`sound_reachable`), so no false alarm is raised.
Where the digest binds, the newest row determines the chain before it, as far back as it goes: of the rows
that carry a hash, a table that verifies has the last ones that were appended. The rows before it, and where
it begins, are not covered.
-/

/-- No two texts have the same digest, and none has the one that stands for no row. -/
structure CollisionFree : Prop where
  injective : ∀ text text', sha256 text = sha256 text' → text = text'
  nonzero : ∀ text, toHex (sha256 text) ≠ genesisAuditHash

/-- The row carries the hash of its own fields. -/
def Sealed (row : AuditChainRow) : Prop :=
  ∃ prevHash, row.prevHash = some prevHash ∧
    row.hash = some (computeAuditHash sha256 row.toHashedFields prevHash)

/-- Sealed rows, each with the hash of the one before. -/
structure Chain (rows : List AuditChainRow) : Prop where
  isSealed : ∀ row ∈ rows, Sealed sha256 row
  linked : Linked AuditChainRow.prevHash AuditChainRow.hash rows

variable {sha256}

/-! ## What a hash is taken over -/

theorem textValue_injective {text text' : Text} (h : textValue text = textValue text') : text = text' :=
  JsString.ofText_injective (Json.string.inj h)

theorem nullable_injective {text text' : Option Text} (h : nullable text = nullable text') :
    text = text' := by
  cases text with
  | none =>
    cases text' with
    | none => rfl
    | some => cases h
  | some =>
    cases text' with
    | none => cases h
    | some => exact congrArg some (textValue_injective h)

theorem canonical_injective {fields fields' : HashedFields} {prevHash prevHash' : Text}
    (h : canonical fields prevHash = canonical fields' prevHash') : fields = fields' ∧ prevHash = prevHash' := by
  have hite := Json.array.inj h
  simp only [List.cons.injEq, and_true] at hite
  obtain ⟨hpr, hid, hat, hact, hac, htgt, hst, hreq, hde⟩ := hite
  refine ⟨?_, textValue_injective hpr⟩
  cases fields
  cases fields'
  obtain rfl := NumberText.ofInt_injective (Json.number.inj hid)
  obtain rfl := textValue_injective hat
  obtain rfl := textValue_injective hact
  obtain rfl := textValue_injective hac
  obtain rfl := nullable_injective htgt
  obtain rfl := NumberText.ofInt_injective (Json.number.inj hst)
  obtain rfl := nullable_injective hreq
  obtain rfl := nullable_injective hde
  rfl

/-- **A hash determines its row.** -/
theorem CollisionFree.binding (h : CollisionFree sha256) {rows rows' : List AuditChainRow}
    (hrw : ∀ row ∈ rows, Sealed sha256 row) (hrw' : ∀ row ∈ rows', Sealed sha256 row) :
    Binding AuditChainRow.hash rows rows' := by
  intro row hrow row' hrow' hsm
  obtain ⟨prevHash, hpr, hsh⟩ := hrw row hrow
  obtain ⟨prevHash', hpr', hsh'⟩ := hrw' row' hrow'
  have hdi : computeAuditHash sha256 row.toHashedFields prevHash =
      computeAuditHash sha256 row'.toHashedFields prevHash' := by
    refine some.inj ?_
    rw [← hsh, ← hsh', hsm]
  have htx := Json.render_injective _ (h.injective _ _ (toHex_injective hdi))
  obtain ⟨hfi, hpre⟩ := canonical_injective htx
  obtain ⟨fields, prev, hash⟩ := row
  obtain ⟨fields', prev', hash'⟩ := row'
  dsimp only at hpr hpr' hfi hsm
  rw [hpr, hpr', hpre, hfi, hsm]

variable {row : AuditChainRow}

theorem CollisionFree.hash_ne_genesis (h : CollisionFree sha256)
    (hrow : Sealed sha256 row) : row.hash ≠ some genesisAuditHash := by
  obtain ⟨prevHash, -, hsh⟩ := hrow
  rw [hsh]
  exact fun heq => h.nonzero _ (some.inj heq)

/-! ## Chains -/

theorem chain_nil : Chain sha256 [] := ⟨fun _ h => absurd h not_mem_nil, linked_nil⟩

theorem Chain.of_suffix {rows rows' : List AuditChainRow} (h : Chain sha256 rows) (hsfx : rows' <:+ rows) :
    Chain sha256 rows' :=
  ⟨fun row hrow => h.isSealed row (hsfx.subset hrow), h.linked.of_suffix hsfx⟩

variable {rows : List AuditChainRow}

theorem Chain.cons_iff : Chain sha256 (row :: rows) ↔
    Sealed sha256 row ∧ Chain sha256 rows ∧ ∀ next, rows.head? = some next → next.prevHash = row.hash := by
  constructor
  · intro h
    refine ⟨h.isSealed row mem_cons_self, h.of_suffix (suffix_cons row rows), ?_⟩
    intro next hnx
    exact List.IsChain.rel_head? h.linked hnx
  · intro ⟨hrow, hrw, hnx⟩
    refine ⟨forall_mem_cons.mpr ⟨hrow, hrw.isSealed⟩, ?_⟩
    exact List.IsChain.cons hrw.linked fun next hmem => hnx next hmem

/-! ## Verification -/

variable {checked legacyRows : Nat}

theorem verifyRows_some {previous : Text} (h : Chain sha256 rows)
    (hfst : ∀ row, rows.head? = some row → row.prevHash = some previous) :
    verifyRows sha256 rows (some previous) checked legacyRows =
      ⟨true, none, checked + rows.length, legacyRows⟩ := by
  induction rows generalizing previous checked with
  | nil => rfl
  | cons row rows ih =>
    obtain ⟨⟨prevHash, hpr, hsh⟩, hrw, hnx⟩ := Chain.cons_iff.mp h
    have hpre : prevHash = previous := some.inj (hpr.symm.trans (hfst row rfl))
    rw [verifyRows, hsh, hpr]
    dsimp only
    rw [if_neg (by simp [hpre]), ih hrw fun next hmem => (hnx next hmem).trans hsh,
      length_cons, Nat.add_assoc, Nat.add_comm 1]

/-- **No false alarm**: rows without a hash, and a chain after them, verify. -/
theorem verifyRows_chain {legacy rows : List AuditChainRow} {legacyRows : Nat}
    (hleg : ∀ row ∈ legacy, row.hash = none) (h : Chain sha256 rows) :
    verifyRows sha256 (legacy ++ rows) none 0 legacyRows =
      ⟨true, none, rows.length, legacyRows + legacy.length⟩ := by
  induction legacy generalizing legacyRows with
  | nil =>
    cases rows with
    | nil => rfl
    | cons row =>
      obtain ⟨⟨prevHash, hpr, hsh⟩, hrw, hnx⟩ := Chain.cons_iff.mp h
      rw [nil_append, verifyRows, hsh, hpr]
      dsimp only
      -- the first row of the chain is compared with itself only
      rw [if_neg (by simp), verifyRows_some hrw fun next hmem => (hnx next hmem).trans hsh,
        length_cons, Nat.zero_add, Nat.add_comm 1]
      rfl
  | cons row legacy ih =>
    rw [cons_append, verifyRows, hleg row mem_cons_self]
    dsimp only
    rw [isSome_none, if_neg Bool.false_ne_true,
      ih fun row' hmem => hleg row' (mem_cons_of_mem _ hmem), length_cons]
    rw [show legacyRows + 1 + legacy.length = legacyRows + (legacy.length + 1) by omega]

theorem passed_of_valid {previous : Option Text} {hash : Text} (hsh : row.hash = some hash)
    (h : (verifyRows sha256 (row :: rows) previous checked legacyRows).valid = true) :
    Sealed sha256 row ∧ (∀ previousHash, previous = some previousHash → row.prevHash = some previousHash) ∧
      (verifyRows sha256 rows (some hash) (checked + 1) legacyRows).valid = true := by
  rw [verifyRows, hsh] at h
  dsimp only at h
  cases hpr : row.prevHash with
  | none =>
    rw [hpr] at h
    cases h
  | some prevHash =>
    rw [hpr] at h
    dsimp only at h
    split at h
    · cases h
    · rename_i hbr
      rw [Bool.or_eq_true, not_or] at hbr
      have hdi : computeAuditHash sha256 row.toHashedFields prevHash = hash := by
        simpa using hbr.2
      refine ⟨⟨prevHash, hpr, ?_⟩, fun previousHash hpre => ?_, h⟩
      · rw [hsh, hdi]
      · rw [hpre] at hbr
        simpa using hbr.1

theorem chain_of_verifyRows {previous : Text}
    (h : (verifyRows sha256 rows (some previous) checked legacyRows).valid = true) :
    Chain sha256 rows ∧ ∀ row, rows.head? = some row → row.prevHash = some previous := by
  induction rows generalizing previous checked with
  | nil => exact ⟨chain_nil, fun row hrow => by cases hrow⟩
  | cons row rows ih =>
    cases hsh : row.hash with
    | none =>
      rw [verifyRows, hsh] at h
      cases h
    | some =>
      obtain ⟨hsld, hnam, hrst⟩ := passed_of_valid hsh h
      obtain ⟨hrw, hnx⟩ := ih hrst
      rw [← hsh] at hnx
      refine ⟨Chain.cons_iff.mpr ⟨hsld, hrw, hnx⟩, fun first hfst => ?_⟩
      rw [← some.inj hfst]
      exact hnam previous rfl

/-- **What verifies is rows without a hash, and a chain after them.** -/
theorem chain_of_valid {legacyRows : Nat} (h : (verifyRows sha256 rows none 0 legacyRows).valid = true) :
    ∃ legacy chained, rows = legacy ++ chained ∧ (∀ row ∈ legacy, row.hash = none) ∧
      Chain sha256 chained := by
  induction rows generalizing legacyRows with
  | nil => exact ⟨[], [], rfl, fun _ hrow => absurd hrow not_mem_nil, chain_nil⟩
  | cons row rows ih =>
    cases hsh : row.hash with
    | none =>
      rw [verifyRows, hsh] at h
      obtain ⟨legacy, chained, rfl, hleg, hch⟩ := ih h
      exact ⟨row :: legacy, chained, rfl, forall_mem_cons.mpr ⟨hsh, hleg⟩, hch⟩
    | some =>
      obtain ⟨hsld, -, hrst⟩ := passed_of_valid hsh h
      obtain ⟨hrw, hnx⟩ := chain_of_verifyRows hrst
      rw [← hsh] at hnx
      exact ⟨[], row :: rows, rfl, fun _ hrow => absurd hrow not_mem_nil,
        Chain.cons_iff.mpr ⟨hsld, hrw, hnx⟩⟩

/-! ## Runs -/

/-- What the log keeps: the rows with a hash are the last ones that were appended. -/
structure Sound (sha256 : Text → List UInt8) (s : State) : Prop where
  timed : s.table.rows.Pairwise fun row row' => row.writtenAt ≤ row'.writtenAt
  shape : ∃ legacy kept, s.table.rows = legacy ++ kept ∧ (∀ row ∈ legacy, row.hash = none) ∧
    kept <:+ s.chain
  chain : Chain sha256 s.chain
  begins : ∀ row, s.chain.head? = some row → row.prevHash = some genesisAuditHash

variable {toISOString : Rat → Option Text} {s s' : State}

theorem sound_start (h : (system sha256 toISOString).start s) : Sound sha256 s := by
  obtain ⟨hleg, htim, hchn⟩ := h
  refine ⟨htim, ⟨s.table.rows, [], (append_nil _).symm, hleg, nil_suffix⟩, ?_, ?_⟩
  · rw [hchn]
    exact chain_nil
  · rw [hchn]
    intro row hrow
    cases hrow

theorem newRow_sealed (head : Option AuditChainRow) (input : AuditAppendInput) :
    Sealed sha256 (newRow sha256 head input) := ⟨_, rfl, rfl⟩

theorem Sound.ends (h : Sound sha256 s) (hrow : s.table.rows.getLast? = some row)
    (hsh : row.hash ≠ none) : ∃ before, s.chain = before ++ [row] := by
  obtain ⟨legacy, kept, hrw, hleg, hkpt⟩ := h.shape
  rw [hrw] at hrow
  rcases eq_nil_or_concat kept with rfl | ⟨kept, last, rfl⟩
  · rw [append_nil] at hrow
    exact absurd (hleg row (mem_of_getLast? hrow)) hsh
  · rw [concat_eq_append, ← append_assoc, List.getLast?_concat] at hrow
    cases hrow
    obtain ⟨before, hbf⟩ := hkpt
    rw [concat_eq_append, ← append_assoc] at hbf
    exact ⟨_, hbf.symm⟩

variable {input : AuditAppendInput}

theorem Sound.timed_append (h : Sound sha256 s)
    (hinp : ∀ row ∈ s.table.rows, row.writtenAt ≤ input.writtenAt) :
    (s.append sha256 input).table.rows.Pairwise fun row row' => row.writtenAt ≤ row'.writtenAt := by
  refine pairwise_append.mpr ⟨h.timed, pairwise_singleton _ _, fun row hrow new hnew => ?_⟩
  rw [mem_singleton.mp hnew]
  exact hinp row hrow

theorem Sound.append_chained (h : Sound sha256 s)
    (hinp : ∀ row ∈ s.table.rows, row.writtenAt ≤ input.writtenAt) {head : AuditChainRow} {hash : Text}
    (hhe : s.table.rows.getLast? = some head) (hsh : head.hash = some hash) :
    Sound sha256 (s.append sha256 input) := by
  obtain ⟨legacy, kept, hrw, hleg, hkpt⟩ := h.shape
  have hso : head.hash ≠ none := by
    rw [hsh]
    exact some_ne_none hash
  obtain ⟨before, hbf⟩ := h.ends hhe hso
  have hrow : (newRow sha256 (some head) input).prevHash = some hash := by
    show some (((some head).bind AuditChainRow.hash).getD genesisAuditHash) = some hash
    rw [bind_some, hsh, getD_some]
  have htab : (s.append sha256 input).table.rows = s.table.rows ++ [newRow sha256 (some head) input] := by
    rw [← hhe]
    rfl
  have hchn : (s.append sha256 input).chain = s.chain ++ [newRow sha256 (some head) input] := by
    have hany : ((some head).any fun row : AuditChainRow => row.hash.isSome) = true := by
      rw [any_some, hsh]
      rfl
    rw [State.append, hhe]
    dsimp only
    rw [if_pos hany]
  refine ⟨h.timed_append hinp, ⟨legacy, kept ++ [newRow sha256 (some head) input], ?_, hleg, ?_⟩, ?_, ?_⟩
  · rw [htab, hrw, append_assoc]
  · obtain ⟨t, ht⟩ := hkpt
    rw [hchn, ← ht, append_assoc]
    exact suffix_append _ _
  · rw [hchn]
    refine ⟨fun row hmem => ?_, h.chain.linked.snoc fun last hla => ?_⟩
    · rcases mem_append.mp hmem with hold | hnew
      · exact h.chain.isSealed row hold
      · rw [mem_singleton.mp hnew]
        exact newRow_sealed _ _
    · -- the row names the hash of the head, which is the last row of the chain
      rw [hbf, List.getLast?_concat] at hla
      rw [hrow, ← some.inj hla, hsh]
  · rw [hchn]
    intro row hfst
    refine h.begins row ?_
    rw [hbf] at hfst ⊢
    cases before with
    | nil | cons => exact hfst

theorem Sound.append_begins (h : Sound sha256 s)
    (hinp : ∀ row ∈ s.table.rows, row.writtenAt ≤ input.writtenAt)
    (hhe : s.table.rows.getLast?.bind AuditChainRow.hash = none) :
    Sound sha256 (s.append sha256 input) := by
  obtain ⟨legacy, kept, hrw, hleg, hkpt⟩ := h.shape
  have hall : ∀ row ∈ s.table.rows, row.hash = none := by
    rcases eq_nil_or_concat kept with rfl | ⟨kept, last, rfl⟩
    · rw [hrw, append_nil]
      exact hleg
    · -- the last row would carry a hash
      rw [hrw, concat_eq_append, ← append_assoc, List.getLast?_concat] at hhe
      obtain ⟨prevHash, -, hsh⟩ := h.chain.isSealed last (hkpt.subset (by simp))
      rw [bind_some, hsh] at hhe
      cases hhe
  have hchn : (s.append sha256 input).chain = [newRow sha256 s.table.rows.getLast? input] := by
    have hany : ¬(s.table.rows.getLast?.any fun row => row.hash.isSome) = true := by
      cases hla : s.table.rows.getLast? with
      | none => exact Bool.false_ne_true
      | some =>
        rw [hla, bind_some] at hhe
        rw [any_some, hhe]
        exact Bool.false_ne_true
    rw [State.append]
    dsimp only
    rw [if_neg hany, nil_append]
  refine ⟨h.timed_append hinp, ⟨s.table.rows, (s.append sha256 input).chain, ?_, hall, suffix_refl _⟩,
    ?_, ?_⟩
  · rw [hchn]
    rfl
  · rw [hchn]
    refine ⟨fun row hmem => ?_, isChain_singleton _⟩
    rw [mem_singleton.mp hmem]
    exact newRow_sealed _ _
  · rw [hchn]
    intro row hrow
    rw [← some.inj hrow]
    show some ((s.table.rows.getLast?.bind AuditChainRow.hash).getD genesisAuditHash) = _
    rw [hhe, getD_none]

theorem suffix_of_cutoff (h : rows.Pairwise fun row row' => row.writtenAt ≤ row'.writtenAt) (cutoff : Text) :
    rows.filter (fun row => !decide (row.writtenAt < cutoff)) <:+ rows := by
  induction rows with
  | nil => exact suffix_refl _
  | cons row rows ih =>
    obtain ⟨hfst, hrst⟩ := pairwise_cons.mp h
    by_cases hold : row.writtenAt < cutoff
    · rw [filter_cons_of_neg (by simp [hold])]
      exact (ih hrst).trans (suffix_cons row rows)
    · rw [filter_eq_self.mpr]
      intro row' hrow'
      have hle : cutoff ≤ row'.writtenAt := by
        rcases mem_cons.mp hrow' with rfl | hltr
        · exact not_lt.mp hold
        · exact le_trans (not_lt.mp hold) (hfst row' hltr)
      simpa using hle

theorem Sound.prune (h : Sound sha256 s) (hsfx : rows <:+ s.table.rows)
    (hsrt : rows.Pairwise fun row row' => row.id < row'.id) :
    Sound sha256 { s with table := ⟨rows, hsrt⟩ } := by
  obtain ⟨legacy, kept, hrw, hleg, hkpt⟩ := h.shape
  refine ⟨h.timed.sublist hsfx.sublist, ?_, h.chain, h.begins⟩
  rw [hrw] at hsfx
  obtain ⟨removed, hrmv⟩ := hsfx
  rcases append_eq_append_iff.mp hrmv with ⟨more, hmo, hrst⟩ | ⟨more, hmo, hrst⟩
  · refine ⟨more, kept, hrst, fun row hrow => hleg row ?_, hkpt⟩
    rw [hmo]
    exact mem_append_right _ hrow
  · refine ⟨[], rows, rfl, fun row hrow => absurd hrow not_mem_nil, ?_⟩
    exact List.IsSuffix.trans ⟨more, hrst.symm⟩ hkpt

theorem Sound.step (h : Sound sha256 s) {e : Event} (hord : InOrder s e)
    (hs : (system sha256 toISOString).step s e = some s') : Sound sha256 s' := by
  cases e with
  | append =>
    cases hs
    cases hhe : s.table.rows.getLast?.bind AuditChainRow.hash with
    | none => exact h.append_begins hord hhe
    | some =>
      obtain ⟨head, hla, hsh⟩ := bind_eq_some_iff.mp hhe
      exact h.append_chained hord hla hsh
  | prune retentionDays =>
    obtain ⟨pruned, hpr, rfl⟩ := map_eq_some_iff.mp hs
    cases retentionDays with
    | none =>
      cases hpr
      exact h
    | some =>
      rw [pruneAdminAuditLog] at hpr
      split at hpr
      · cases hpr
        exact h
      · obtain ⟨cutoff, -, rfl⟩ := map_eq_some_iff.mp hpr
        exact h.prune (suffix_of_cutoff h.timed cutoff) _

theorem sound_reachable (h : (system sha256 toISOString).Reachable InOrder s) : Sound sha256 s :=
  h.invariant (fun _ hsta => sound_start hsta) fun _ _ _ _ hord hsnd hs =>
    hsnd.step hord hs

/-! ## Evidence -/

/-- **What shares the newest row and verifies** has, of the rows with a hash, the last ones of the chain. -/
theorem Sound.evidence (h : Sound sha256 s) (hfr : CollisionFree sha256) {t : AuditTable}
    (hne : t.rows.getLast? = s.table.rows.getLast?) (hval : (verify sha256 t).valid = true) :
    ∃ legacy kept, t.rows = legacy ++ kept ∧ (∀ row ∈ legacy, row.hash = none) ∧ kept <:+ s.chain ∧
      verify sha256 t = ⟨true, none, kept.length, legacy.length⟩ := by
  obtain ⟨legacy, chained, hrw, hleg, hch⟩ := chain_of_valid hval
  refine ⟨legacy, chained, hrw, hleg, ?_, ?_⟩
  · rcases eq_nil_or_concat chained with rfl | ⟨before, row, rfl⟩
    · exact nil_suffix
    · rw [concat_eq_append] at hrw hch ⊢
      rw [hrw, ← append_assoc, List.getLast?_concat] at hne
      obtain ⟨prevHash, -, hsh⟩ := hch.isSealed row (by simp)
      have hso : row.hash ≠ none := by
        rw [hsh]
        exact some_ne_none _
      obtain ⟨before', hbf'⟩ := h.ends hne.symm hso
      have hchn := h.chain
      have hbe := h.begins
      rw [hbf'] at hchn hbe ⊢
      have hbi : Binding AuditChainRow.hash before' before :=
        hfr.binding (fun row hrow => hchn.isSealed row (mem_append_left _ hrow))
          fun row hrow => hch.isSealed row (mem_append_left _ hrow)
      have hsfx : before <:+ before' :=
        hchn.linked.suffix_of_anchored hch.linked hbi hbe fun row hrow =>
          hfr.hash_ne_genesis (hch.isSealed row (mem_append_left _ hrow))
      obtain ⟨removed, rfl⟩ := hsfx
      exact ⟨removed, (append_assoc ..).symm⟩
  · rw [verify, hrw, verifyRows_chain hleg hch, Nat.zero_add]

/--
**The log is evidence of its hashed rows.** Every table that is reached verifies. One that shares its newest
row and verifies is rows without a hash, which are counted, and after them the last ones of the rows that were
appended since the chain began.
-/
theorem audit_evident (hfree : CollisionFree sha256) (h : (system sha256 toISOString).Reachable InOrder s) :
    (verify sha256 s.table).valid = true ∧
      ∀ t : AuditTable, t.rows.getLast? = s.table.rows.getLast? → (verify sha256 t).valid = true →
        ∃ legacy kept, t.rows = legacy ++ kept ∧ (∀ row ∈ legacy, row.hash = none) ∧ kept <:+ s.chain ∧
          verify sha256 t = ⟨true, none, kept.length, legacy.length⟩ := by
  have hsnd := sound_reachable h
  refine ⟨?_, fun t hne hval => hsnd.evidence hfree hne hval⟩
  obtain ⟨legacy, kept, hrw, hleg, hkpt⟩ := hsnd.shape
  rw [verify, hrw, verifyRows_chain hleg (hsnd.chain.of_suffix hkpt)]

/-! ## Runs of it -/

section Sample

def disabling : AuditAppendInput where
  writtenAt := "2026-10-01T00:00:00.000Z".toList
  actor := "ops".toList
  action := "POST /api/admin/agents/a1/disable".toList
  target := some "a1".toList
  statusCode := 200
  requestId := none
  details := none

def reading : AuditAppendInput where
  writtenAt := "2026-10-02T00:00:00.000Z".toList
  actor := "ops".toList
  action := "GET /api/admin/audit".toList
  target := none
  statusCode := 200
  requestId := none
  details := none

/-- The text that is hashed for the first entry. -/
def disablingText : Text :=
  ("[\"0000000000000000000000000000000000000000000000000000000000000000\",1," ++
    "\"2026-10-01T00:00:00.000Z\",\"ops\",\"POST /api/admin/agents/a1/disable\",\"a1\",200,null,null]").toList

def disablingDigest : List UInt8 :=
  [ 0x34, 0x2e, 0x5e, 0xd2, 0x7c, 0x91, 0x8d, 0x33, 0x79, 0x74, 0x4c, 0x7d, 0xbb, 0x98, 0xf7, 0x17,
    0x12, 0x11, 0x7d, 0x57, 0x3b, 0xe3, 0xe5, 0xbf, 0xf0, 0x81, 0x43, 0xc3, 0xf1, 0xfd, 0xea, 0x50 ]

def readingText : Text :=
  ("[\"342e5ed27c918d3379744c7dbb98f71712117d573be3e5bff08143c3f1fdea50\",2," ++
    "\"2026-10-02T00:00:00.000Z\",\"ops\",\"GET /api/admin/audit\",null,200,null,null]").toList

def readingDigest : List UInt8 :=
  [ 0x68, 0x07, 0xdd, 0xe4, 0x5f, 0xe2, 0xd9, 0xf4, 0x38, 0xb2, 0x2b, 0xd3, 0xbe, 0xbc, 0x9d, 0x15,
    0x10, 0x83, 0x83, 0xee, 0x04, 0x7b, 0x0c, 0x13, 0x95, 0xa7, 0xc8, 0x0e, 0x14, 0x8e, 0x28, 0x7e ]

/-- Three bytes for each character, after one more. -/
def spelled (text : Text) : List UInt8 :=
  0 :: text.flatMap fun c =>
    [UInt8.ofNat (c.toNat / 65536), UInt8.ofNat (c.toNat / 256 % 256), UInt8.ofNat (c.toNat % 256)]

/-- SHA-256 of the two texts; of any other text a list of bytes that no digest is. -/
def sampleSha256 (text : Text) : List UInt8 :=
  if text = disablingText then disablingDigest
  else if text = readingText then readingDigest
  else spelled text

theorem length_spelled (text : Text) : (spelled text).length = 3 * text.length + 1 := by
  unfold spelled
  rw [length_cons]
  induction text with
  | nil => rfl
  | cons =>
    rw [flatMap_cons, length_append, length_cons]
    simp only [length_cons, length_nil]
    omega

theorem spelled_injective {text text' : Text} (h : spelled text = spelled text') : text = text' := by
  have hrst := (List.cons.inj h).2
  clear h
  induction text generalizing text' with
  | nil =>
    cases text' with
    | nil => rfl
    | cons => cases hrst
  | cons c text ih =>
    cases text' with
    | nil => cases hrst
    | cons c' =>
      simp only [flatMap_cons, cons_append, nil_append, List.cons.injEq] at hrst
      obtain ⟨hhi, hmi, hlow, hrst⟩ := hrst
      have hhi := congrArg UInt8.toNat hhi
      have hmi := congrArg UInt8.toNat hmi
      have hlow := congrArg UInt8.toNat hlow
      simp only [UInt8.toNat_ofNat'] at hhi hmi hlow
      have hc : c.toNat < 0xD800 ∨ 0xDFFF < c.toNat ∧ c.toNat < 0x110000 := c.valid
      have hc' : c'.toNat < 0xD800 ∨ 0xDFFF < c'.toNat ∧ c'.toNat < 0x110000 := c'.valid
      have hsm : c.toNat = c'.toNat := by omega
      rw [Char.toNat_inj.mp hsm, ih hrst]

theorem length_toHex (bytes : List UInt8) : (toHex bytes).length = 2 * bytes.length := by
  unfold toHex
  rw [length_flatMap]
  simp only [length_cons, length_nil, map_const', sum_replicate_nat]
  omega

theorem sampleSha256_eq (text : Text) : (sampleSha256 text = spelled text) ∨
    (text = disablingText ∧ sampleSha256 text = disablingDigest) ∨
      (text = readingText ∧ sampleSha256 text = readingDigest) := by
  unfold sampleSha256
  by_cases hfst : text = disablingText
  · exact .inr (.inl ⟨hfst, if_pos hfst⟩)
  · rw [if_neg hfst]
    by_cases hsec : text = readingText
    · exact .inr (.inr ⟨hsec, if_pos hsec⟩)
    · exact .inl (if_neg hsec)

theorem collisionFree_sample : CollisionFree sampleSha256 := by
  have hne : disablingDigest ≠ readingDigest := by decide
  have hle : disablingDigest.length = 32 ∧ readingDigest.length = 32 := ⟨rfl, rfl⟩
  have hsp : ∀ text, spelled text ≠ disablingDigest ∧ spelled text ≠ readingDigest := by
    intro text
    have hlen := length_spelled text
    constructor
    · intro h
      rw [h] at hlen
      omega
    · intro h
      rw [h] at hlen
      omega
  refine ⟨fun text text' h => ?_, fun text h => ?_⟩
  · rcases sampleSha256_eq text with hs | ⟨ht, hs⟩ | ⟨ht, hs⟩
    · rcases sampleSha256_eq text' with hs' | ⟨-, hs'⟩ | ⟨-, hs'⟩
      · exact spelled_injective (hs.symm.trans (h.trans hs'))
      · exact absurd (hs.symm.trans (h.trans hs')) (hsp text).1
      · exact absurd (hs.symm.trans (h.trans hs')) (hsp text).2
    · rcases sampleSha256_eq text' with hs' | ⟨ht', hs'⟩ | ⟨-, hs'⟩
      · exact absurd (hs'.symm.trans (h.symm.trans hs)) (hsp text').1
      · rw [ht, ht']
      · exact absurd (hs.symm.trans (h.trans hs')) hne
    · rcases sampleSha256_eq text' with hs' | ⟨-, hs'⟩ | ⟨ht', hs'⟩
      · exact absurd (hs'.symm.trans (h.symm.trans hs)) (hsp text').2
      · exact absurd (hs'.symm.trans (h.symm.trans hs)) hne
      · rw [ht, ht']
  · have hlen : 2 * (sampleSha256 text).length = 64 := by
      rw [← length_toHex, h]
      rfl
    rcases sampleSha256_eq text with hs | ⟨-, hs⟩ | ⟨-, hs⟩
    · rw [hs, length_spelled] at hlen
      omega
    · rw [hs] at h
      exact absurd h (by decide)
    · rw [hs] at h
      exact absurd h (by decide)

def emptyLog : State := ⟨⟨[], List.Pairwise.nil⟩, []⟩

theorem start_emptyLog (toISOString : Rat → Option Text) : (system sampleSha256 toISOString).start emptyLog :=
  ⟨fun _ hrow => absurd hrow not_mem_nil, List.Pairwise.nil, rfl⟩

instance (s : State) (e : Event) : Decidable (InOrder s e) := by
  unfold InOrder
  split
  · infer_instance
  · exact .isTrue trivial

/-- The first entry again, by somebody else and without a hash. -/
def rewritten : AuditChainRow where
  id := 1
  writtenAt := disabling.writtenAt
  actor := "mallory".toList
  action := disabling.action
  target := disabling.target
  statusCode := disabling.statusCode
  requestId := none
  details := none
  prevHash := none
  hash := none

theorem exists_rewritten : ∃ s, (system sampleSha256 fun _ => none).Reachable InOrder s ∧
    s.table.rows.length = 2 ∧ rewritten ∉ s.table.rows ∧ ∃ t : AuditTable, t.rows = rewritten :: s.table.rows.drop 1 ∧
      t.rows.getLast? = s.table.rows.getLast? ∧ (verify sampleSha256 t).valid = true := by
  have hpl : ((system sampleSha256 fun _ => none).play InOrder [.append disabling, .append reading]
      emptyLog).any (fun s => decide (s.table.rows.length = 2 ∧ rewritten ∉ s.table.rows ∧
        (rewritten :: s.table.rows.drop 1).Pairwise (fun row row' => row.id < row'.id) ∧
        (rewritten :: s.table.rows.drop 1).getLast? = s.table.rows.getLast? ∧
        (verifyRows sampleSha256 (rewritten :: s.table.rows.drop 1) none 0 0).valid = true)) = true := by
    unfold sampleSha256 disablingText readingText
    rw [String.toList_append, String.toList_append, String.toList_ofList, String.toList_ofList,
      String.toList_ofList, String.toList_ofList]
    decide +kernel
  obtain ⟨s, hs, hlen, hnew, hsrt, hla, hval⟩ := System.exists_reachable (start_emptyLog _) hpl
  exact ⟨s, hs, hlen, hnew, ⟨_, hsrt⟩, rfl, hla, hval⟩

end Sample

/-- The log with the two entries. -/
theorem audit_evident_sample : ∃ s : State, s.table.rows.length = 2 ∧
    (verify sampleSha256 s.table).valid = true ∧
      ∀ t : AuditTable, t.rows.getLast? = s.table.rows.getLast? → (verify sampleSha256 t).valid = true →
        ∃ legacy kept, t.rows = legacy ++ kept ∧ (∀ row ∈ legacy, row.hash = none) ∧ kept <:+ s.chain ∧
          verify sampleSha256 t = ⟨true, none, kept.length, legacy.length⟩ := by
  obtain ⟨s, hs, hlen, -⟩ := exists_rewritten
  exact ⟨s, hlen, audit_evident collisionFree_sample hs⟩

/-- **A rewritten row that verifies**: without a hash it counts as one from before the chain. -/
theorem rewritten_verifies : ∃ sha256 : Text → List UInt8, CollisionFree sha256 ∧
    ∃ s, (system sha256 fun _ => none).Reachable InOrder s ∧
      ¬((verify sha256 s.table).valid = true ∧ ∀ t : AuditTable,
        t.rows.getLast? = s.table.rows.getLast? → (verify sha256 t).valid = true →
          ∃ n, t.rows = s.table.rows.drop n) := by
  obtain ⟨s, hs, -, hnew, t, hrw, hla, hval⟩ := exists_rewritten
  refine ⟨sampleSha256, collisionFree_sample, s, hs, fun hall => ?_⟩
  obtain ⟨n, hn⟩ := hall.2 t hla hval
  have hmem : rewritten ∈ s.table.rows.drop n := by
    rw [← hn, hrw]
    exact mem_cons_self
  exact hnew (mem_of_mem_drop hmem)

end AiNet.Audit
