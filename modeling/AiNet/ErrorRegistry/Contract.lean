import AiNet.Core.Host
import AiNet.Core.Machine
import AiNet.Core.Storage
import AiNet.Core.Transition
import Mathlib.Data.List.Sort

/-!
# The entry points of `error_registry`

Error reports with a time to live, a list of all their ids, and one list of ids per error
code. An expired report stays until a clean-up takes it out, in batches. Versions and
upgrades, rent extension and the events are left out: nothing here reads them back. What
the source has as a first, unfinished body of `require_admin` is its `read_admin`.
-/

namespace AiNet.ErrorRegistry

open Core List Option Storage

section

/-! ## Types -/

def maxTtlSeconds : Nat := 7776000
def maxCleanupBatch : Nat := 100
def defaultCleanupBatch : Nat := 50
def maxCodeIndexSize : Nat := 500

/-- The error codes the modelled functions return. -/
inductive Error where
  | alreadyExists | invalidTtl | ttlOverflow | contractPaused | alreadyInitialized
  | notInitialized | maxCapacityReached
  deriving DecidableEq

/-- The 32 bytes that name a report. -/
abbrev ErrorId := BytesN 32

structure ErrorRecord (Sym : Type) where
  errorCode : Nat
  message : Sym
  agentId : Sym
  createdAt : Nat
  expiresAt : Nat
  deriving DecidableEq

structure CleanupStats where
  scanned : Nat
  removed : Nat
  remaining : Nat
  deriving DecidableEq

/-- The contract's storage, and the ledger's clock. -/
structure World (Addr Sym : Type) where
  /-- `env.ledger().timestamp()`. -/
  now : Nat
  admin : Option Addr
  paused : Bool
  records : Storage ErrorId (ErrorRecord Sym)
  codeIndex : Storage Nat (List ErrorId)
  allErrorIds : Option (List ErrorId)

/-- The contract as deployed, before any call. -/
def World.init {Addr Sym : Type} (now : Nat) : World Addr Sym where
  now := now
  admin := none
  paused := false
  records := ∅
  codeIndex := ∅
  allErrorIds := none

variable {Addr Sym : Type} [DecidableEq Addr]
  (host : Host Addr Sym) (signed : Addr → Bool)

/-! ## Helpers -/

def requireAdmin (w : World Addr Sym) : Outcome Error Addr := do
  let admin ← okOr w.admin .notInitialized
  requireAuth host signed admin
  pure admin

def requireNotPaused (w : World Addr Sym) : Outcome Error Unit :=
  failIf (w.paused = true) .contractPaused

def validateTtl (ttlSeconds : Nat) : Outcome Error Unit :=
  failIf (ttlSeconds = 0 ∨ maxTtlSeconds < ttlSeconds) .invalidTtl

def isActive (now : Nat) (record : ErrorRecord Sym) : Bool := decide (now ≤ record.expiresAt)

def resolveBatch (maxBatch : Nat) : Nat :=
  if maxBatch = 0 then defaultCleanupBatch
  else if maxCleanupBatch < maxBatch then maxCleanupBatch
  else maxBatch

def readCodeIndex (w : World Addr Sym) (errorCode : Nat) : List ErrorId :=
  (w.codeIndex.get errorCode).getD []

/-- The stored list of all ids, empty where nothing is stored. -/
def readAllErrorIds (w : World Addr Sym) : List ErrorId := w.allErrorIds.getD []

/-! ## Administration -/

def initializeContract (admin : Addr) (w : World Addr Sym) :
    Outcome Error (World Addr Sym) := do
  failIf (w.admin.isSome = true) .alreadyInitialized
  requireAuth host signed admin
  pure { w with admin := some admin, paused := false }

def pause (w : World Addr Sym) : Outcome Error (World Addr Sym) := do
  let _ ← requireAdmin host signed w
  pure { w with paused := true }

def unpause (w : World Addr Sym) : Outcome Error (World Addr Sym) := do
  let _ ← requireAdmin host signed w
  pure { w with paused := false }

/-! ## Reports -/

/-- `submit_error` asks for no signature. -/
def submitError (errorId : ErrorId) (errorCode : Nat) (message agentId : Sym) (ttlSeconds : Nat)
    (w : World Addr Sym) : Outcome Error (World Addr Sym) := do
  requireNotPaused w
  validateTtl ttlSeconds
  failIf (w.records.has errorId = true) .alreadyExists
  let expiresAt ← okOr (checked64 (w.now + ttlSeconds)) .ttlOverflow
  let record : ErrorRecord Sym :=
    { errorCode := errorCode
      message := message
      agentId := agentId
      createdAt := w.now
      expiresAt := expiresAt }
  let codeIds := readCodeIndex w errorCode
  failIf (maxCodeIndexSize ≤ codeIds.length) .maxCapacityReached
  pure { w with
    codeIndex := w.codeIndex.set errorCode (codeIds ++ [errorId])
    allErrorIds := some (readAllErrorIds w ++ [errorId])
    records := w.records.set errorId record }

def getError (w : World Addr Sym) (errorId : ErrorId) : Option (ErrorRecord Sym) :=
  (w.records.get errorId).filter fun record => isActive w.now record

def getErrorsByCode (w : World Addr Sym) (errorCode : Nat) : List (ErrorRecord Sym) :=
  (readCodeIndex w errorCode).filterMap fun id =>
    (w.records.get id).filter fun record => isActive w.now record

def countActiveByCode (w : World Addr Sym) (errorCode : Nat) : Nat :=
  (getErrorsByCode w errorCode).length

/-! ## Clean-up -/

/-- What the loop of `cleanup_expired_errors` carries. -/
structure Sweep (Sym : Type) where
  records : Storage ErrorId (ErrorRecord Sym)
  keptIds : List ErrorId
  removedByCode : Storage Nat (List ErrorId)
  scanned : Nat
  removed : Nat

/-- One pass of the loop; the counters stay below the length of the list, a `u32`. -/
def Sweep.visit (now batch : Nat) (s : Sweep Sym) (id : ErrorId) : Sweep Sym :=
  if batch ≤ s.removed then { s with keptIds := s.keptIds ++ [id] }
  else
    match s.records.get id with
    | some record =>
      if isActive now record = true then
        { s with scanned := s.scanned + 1, keptIds := s.keptIds ++ [id] }
      else
        { s with
          scanned := s.scanned + 1
          records := s.records.remove id
          removedByCode := s.removedByCode.set record.errorCode
            ((s.removedByCode.get record.errorCode).getD [] ++ [id])
          removed := s.removed + 1 }
    | none => { s with scanned := s.scanned + 1, removed := s.removed + 1 }

/-- The pass of `apply_code_index_removals` for one code. -/
def applyCodeRemoval (removedByCode : Storage Nat (List ErrorId))
    (codeIndex : Storage Nat (List ErrorId)) (code : Nat) : Storage Nat (List ErrorId) :=
  let toRemove := (removedByCode.get code).getD []
  let updated := ((codeIndex.get code).getD []).filter fun id => !toRemove.contains id
  if updated = [] then codeIndex.remove code else codeIndex.set code updated

/-- `apply_code_index_removals`; the keys of a host map come in ascending order. -/
def applyCodeIndexRemovals (codeIndex removedByCode : Storage Nat (List ErrorId)) :
    Storage Nat (List ErrorId) :=
  (removedByCode.keys.insertionSort (· ≤ ·)).foldl (applyCodeRemoval removedByCode) codeIndex

/-- `cleanup_expired_errors`: anybody may call it, also while the contract is paused. -/
def cleanupExpiredErrors (maxBatch : Nat) (w : World Addr Sym) :
    World Addr Sym × CleanupStats :=
  let s := (readAllErrorIds w).foldl (Sweep.visit w.now (resolveBatch maxBatch))
    { records := w.records, keptIds := [], removedByCode := ∅, scanned := 0, removed := 0 }
  ({ w with
      records := s.records
      codeIndex := applyCodeIndexRemovals w.codeIndex s.removedByCode
      allErrorIds := if s.keptIds = [] then none else some s.keptIds },
    { scanned := s.scanned, removed := s.removed, remaining := s.keptIds.length })

/-! ## The contract as a transition system -/

/-- The state-changing entry points and their arguments. -/
inductive Op (Addr Sym : Type) where
  | initializeContract (admin : Addr)
  | pause
  | unpause
  | submitError (errorId : ErrorId) (errorCode : Nat) (message agentId : Sym) (ttlSeconds : Nat)
  | cleanupExpiredErrors (maxBatch : Nat)

/-- One call of an entry point. -/
def exec : Op Addr Sym → World Addr Sym → Outcome Error (World Addr Sym)
  | .initializeContract admin => initializeContract host signed admin
  | .pause => pause host signed
  | .unpause => unpause host signed
  | .submitError errorId errorCode message agentId ttlSeconds =>
    submitError errorId errorCode message agentId ttlSeconds
  | .cleanupExpiredErrors maxBatch => fun w => pure (cleanupExpiredErrors maxBatch w).1

/-- What can happen in a run. -/
inductive Event (Addr Sym : Type) where
  /-- A ledger closes; calls from now on see this timestamp. -/
  | close (timestamp : Nat)
  /-- A call of the contract, with the accounts that signed it. -/
  | invoke (signed : Addr → Bool) (op : Op Addr Sym)

/-- The contract among its callers, as deployed at any time. -/
def system : System (World Addr Sym) (Event Addr Sym) where
  start w := ∃ now, w = World.init now
  step w
    | .close timestamp => some { w with now := timestamp }
    | .invoke signed op => (exec host signed op w).toOption

theorem start_init (now : Nat) :
    (system host).start (World.init now : World Addr Sym) := ⟨now, rfl⟩

theorem step_invoke {host : Host Addr Sym} {w w' : World Addr Sym}
    {signed : Addr → Bool} {op : Op Addr Sym} :
    (system host).step w (.invoke signed op) = some w' ↔ exec host signed op w = .ok w' :=
  toOption_eq_some

end

/-!
## What the index lists say

The list of all ids and the lists per code are kept beside the records. They are exact
when each lists, once, the ids of the records it is about.
-/

variable {Addr Sym : Type} {w w' : World Addr Sym}

/-- The index lists agree with the records. -/
structure Indexed (w : World Addr Sym) : Prop where
  allNodup : (readAllErrorIds w).Nodup
  all : ∀ id, id ∈ readAllErrorIds w ↔ ∃ record, w.records.get id = some record
  codeNodup : ∀ errorCode, (readCodeIndex w errorCode).Nodup
  code : ∀ errorCode id, id ∈ readCodeIndex w errorCode ↔
    ∃ record, w.records.get id = some record ∧ record.errorCode = errorCode

theorem Indexed.init (now : Nat) : Indexed (World.init now : World Addr Sym) where
  allNodup := nodup_nil
  all := fun id => by
    refine ⟨fun h => absurd h not_mem_nil, fun h => ?_⟩
    obtain ⟨_, h⟩ := h
    cases h
  codeNodup := fun errorCode => nodup_nil
  code := fun errorCode id => by
    refine ⟨fun h => absurd h not_mem_nil, fun h => ?_⟩
    obtain ⟨_, h, _⟩ := h
    cases h

theorem Indexed.congr (h : Indexed w) (hrcs : w'.records = w.records)
    (hco : w'.codeIndex = w.codeIndex) (hall : w'.allErrorIds = w.allErrorIds) : Indexed w' := by
  obtain ⟨hao, haf, hcoN, hcf⟩ := h
  refine ⟨?_, ?_, ?_, ?_⟩
  · unfold readAllErrorIds
    rw [hall]
    exact hao
  · unfold readAllErrorIds
    rw [hall, hrcs]
    exact haf
  · unfold readCodeIndex
    rw [hco]
    exact hcoN
  · unfold readCodeIndex
    rw [hco, hrcs]
    exact hcf

/-! ## Submission -/

theorem submitError_ok {errorId : ErrorId} {errorCode : Nat} {message agentId : Sym}
    {ttlSeconds : Nat} (h : submitError errorId errorCode message agentId ttlSeconds w = .ok w') :
    w.records.get errorId = none ∧ ∃ record : ErrorRecord Sym, record.errorCode = errorCode ∧ w' = { w with
        codeIndex := w.codeIndex.set errorCode (readCodeIndex w errorCode ++ [errorId])
        allErrorIds := some (readAllErrorIds w ++ [errorId])
        records := w.records.set errorId record } := by
  unfold submitError at h
  simp only [bind_eq_ok, failIf_eq_ok, pure_eq_ok, Bool.not_eq_true, has_eq_false] at h
  obtain ⟨_, _, _, _, _, hfr, _, _, _, _, rfl⟩ := h
  exact ⟨hfr, _, rfl, rfl⟩

theorem Indexed.submit (h : Indexed w) {errorId : ErrorId} {record : ErrorRecord Sym}
    (hfr : w.records.get errorId = none) :
    Indexed { w with
      codeIndex := w.codeIndex.set record.errorCode
        (readCodeIndex w record.errorCode ++ [errorId])
      allErrorIds := some (readAllErrorIds w ++ [errorId])
      records := w.records.set errorId record } := by
  have hun : errorId ∉ readAllErrorIds w := by
    intro hmem
    obtain ⟨_, hsto⟩ := (h.all errorId).mp hmem
    rw [hfr] at hsto
    cases hsto
  have huo : ∀ errorCode, errorId ∉ readCodeIndex w errorCode := by
    intro errorCode hmem
    obtain ⟨_, hsto, _⟩ := (h.code errorCode errorId).mp hmem
    rw [hfr] at hsto
    cases hsto
  refine ⟨?_, ?_, ?_, ?_⟩
  · exact nodup_append.mpr ⟨h.allNodup, nodup_singleton errorId,
      fun a ha b hb => by rw [mem_singleton.mp hb]; exact fun he => hun (he ▸ ha)⟩
  · intro id
    rw [get_set]
    unfold readAllErrorIds
    rw [getD_some, mem_append, mem_singleton]
    by_cases hid : id = errorId
    · rw [if_pos hid]
      exact ⟨fun _ => ⟨record, rfl⟩, fun _ => .inr hid⟩
    · rw [if_neg hid, or_iff_left hid]
      exact h.all id
  · intro errorCode
    unfold readCodeIndex
    rw [get_set]
    split
    · rename_i hco
      rw [getD_some]
      exact nodup_append.mpr ⟨h.codeNodup record.errorCode, nodup_singleton errorId, fun a ha b hb => by
          rw [mem_singleton.mp hb]
          exact fun he => huo record.errorCode (he ▸ ha)⟩
    · exact h.codeNodup errorCode
  · intro errorCode id
    have hold := h.code errorCode id
    unfold readCodeIndex at hold ⊢
    rw [get_set, get_set]
    by_cases hid : id = errorId
    · -- the new report is listed under its code, and was listed nowhere
      rw [if_pos hid]
      by_cases hco : errorCode = record.errorCode
      · rw [if_pos hco, getD_some, mem_append, mem_singleton]
        exact ⟨fun _ => ⟨record, rfl, hco.symm⟩, fun _ => .inr hid⟩
      · rw [if_neg hco]
        refine ⟨fun hmem => absurd (hid ▸ hmem) (huo errorCode), fun hnew => ?_⟩
        obtain ⟨_, hrec, hnew⟩ := hnew
        cases hrec
        exact absurd hnew.symm hco
    · rw [if_neg hid]
      by_cases hco : errorCode = record.errorCode
      · rw [if_pos hco, getD_some, mem_append, mem_singleton, or_iff_left hid, ← hco]
        exact hold
      · rw [if_neg hco]
        exact hold

/-! ## Reading by code -/

theorem map_filter_any {K V : Type} (f : K → Option V) (q : V → Bool) (l : List K) :
    (l.filter fun k => (f k).any q).map f = (l.filterMap fun k => (f k).filter q).map some := by
  induction l with
  | nil => rfl
  | cons k l ih =>
    rw [filter_cons, filterMap_cons]
    cases hk : f k with
    | none => exact ih
    | some v =>
      rw [any_some, filter_some]
      cases q v with
      | true =>
        rw [if_pos rfl, if_pos rfl, map_cons, map_cons, hk, ih]
      | false =>
        rw [if_neg Bool.false_ne_true, if_neg Bool.false_ne_true]
        exact ih

/-- **The reports of a code**: those of the unexpired ids of that code, each once. -/
theorem getErrorsByCode_eq (h : Indexed w) (errorCode : Nat) : ∃ ids : List ErrorId, ids.Nodup ∧
    (∀ id, id ∈ ids ↔ ∃ record, w.records.get id = some record ∧ record.errorCode = errorCode ∧
      w.now ≤ record.expiresAt) ∧
    ids.map w.records.get = (getErrorsByCode w errorCode).map some := by
  let p : ErrorId → Bool := fun id => (w.records.get id).any fun record => isActive w.now record
  refine ⟨(readCodeIndex w errorCode).filter p, (h.codeNodup errorCode).filter p, ?_, ?_⟩
  · intro id
    rw [mem_filter, h.code]
    refine ⟨fun hid => ?_, fun hid => ?_⟩
    · obtain ⟨⟨record, hrec, hco⟩, hact⟩ := hid
      dsimp only [p] at hact
      rw [hrec] at hact
      exact ⟨record, hrec, hco, of_decide_eq_true hact⟩
    · obtain ⟨record, hrec, hco, hact⟩ := hid
      refine ⟨⟨record, hrec, hco⟩, ?_⟩
      dsimp only [p]
      rw [hrec]
      exact decide_eq_true hact
  · exact map_filter_any w.records.get (isActive w.now) (readCodeIndex w errorCode)

end AiNet.ErrorRegistry
