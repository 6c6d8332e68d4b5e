import AiNet.Core.UniqueTable
import Mathlib.Data.List.Sort
import Mathlib.Data.Rat.Defs
import Mathlib.Algebra.Order.Ring.Unbundled.Rat

/-!
# The agents table

One row for each agent id. `upsert` is what registrations, heartbeats, operators and the registry sync
all write through: it replaces every column but the reputation and the stale mark. Timestamps are
milliseconds, their ISO texts are ordered in the same way.
-/

namespace AiNet.Agents

open Core List Option UniqueTable

abbrev Text := List Char

inductive Status
  | online | offline
deriving DecidableEq

/-- What callers hand to `upsert`, and read from `findById`. -/
structure AgentRecord where
  id : Text
  capabilities : List Text
  pricingXLM : Rat
  endpoint : Text
  stellarPublicKey : Text
  reputationScore : Rat
  lastSeenAt : Nat
  status : Status
  bondAmountXLM : Option Rat
  tasksCompleted : Option Nat
  tasksFailed : Option Nat
  lastActiveAt : Option Nat
deriving DecidableEq

/-- A row. `staleSince` is the grace-period clock of the watchdog. -/
structure AgentRow where
  id : Text
  capabilities : List Text
  pricingXLM : Rat
  endpoint : Text
  stellarPublicKey : Text
  reputationScore : Rat
  lastSeenAt : Nat
  status : Status
  bondAmountXLM : Rat
  tasksCompleted : Nat
  tasksFailed : Nat
  lastActiveAt : Nat
  staleSince : Option Nat
deriving DecidableEq

abbrev AgentDb := UniqueTable AgentRow.id

def AgentRow.toRecord (row : AgentRow) : AgentRecord where
  id := row.id
  capabilities := row.capabilities
  pricingXLM := row.pricingXLM
  endpoint := row.endpoint
  stellarPublicKey := row.stellarPublicKey
  reputationScore := row.reputationScore
  lastSeenAt := row.lastSeenAt
  status := row.status
  bondAmountXLM := some row.bondAmountXLM
  tasksCompleted := some row.tasksCompleted
  tasksFailed := some row.tasksFailed
  lastActiveAt := some row.lastActiveAt

def AgentRecord.newRow (agent : AgentRecord) : AgentRow where
  id := agent.id
  capabilities := agent.capabilities
  pricingXLM := agent.pricingXLM
  endpoint := agent.endpoint
  stellarPublicKey := agent.stellarPublicKey
  reputationScore := max 0 (min 5 agent.reputationScore)
  lastSeenAt := agent.lastSeenAt
  status := agent.status
  bondAmountXLM := agent.bondAmountXLM.getD 0
  tasksCompleted := agent.tasksCompleted.getD 0
  tasksFailed := agent.tasksFailed.getD 0
  lastActiveAt := agent.lastActiveAt.getD agent.lastSeenAt
  staleSince := none

/-- The row of a conflict on the id: the reputation and the stale mark stay. -/
def AgentRecord.onto (agent : AgentRecord) (row : AgentRow) : AgentRow :=
  { agent.newRow with
    id := row.id
    reputationScore := row.reputationScore
    staleSince := row.staleSince }

section Operations

variable (db : AgentDb)

def upsert (agent : AgentRecord) : AgentDb :=
  (db.insert agent.newRow).getD
    (db.update (fun row => if row.id = agent.id then agent.onto row else row) fun row => by
      split <;> rfl)

def findById (id : Text) : Option AgentRecord := (db.find id).map AgentRow.toRecord

def delete (id : Text) : AgentDb := db.keep fun row => !decide (row.id = id)

def updateWhere (id : Text) (f : AgentRow → AgentRow) (hf : ∀ row, (f row).id = row.id) : AgentDb :=
  db.update (fun row => if row.id = id then f row else row) fun row => by
    split
    · exact hf row
    · rfl

def updateLastSeen (now : Nat) (agentId : Text) : AgentDb :=
  updateWhere db agentId (fun row => { row with lastSeenAt := now, status := .online }) fun _ => rfl

/-- A second miss does not re-arm the grace clock. -/
def markStale (agentId : Text) (staleSince : Nat) : AgentDb :=
  updateWhere db agentId
    (fun row => { row with staleSince := some (row.staleSince.getD staleSince), status := .offline })
    fun _ => rfl

def clearStale (agentId : Text) : AgentDb :=
  updateWhere db agentId (fun row => { row with staleSince := none, status := .online }) fun _ => rfl

def getStaleSince (agentId : Text) : Option Nat := (db.find agentId).bind AgentRow.staleSince

/-- The order of the marks, the oldest first. -/
def staleBefore (row row' : AgentRow) : Prop := row.staleSince.getD 0 ≤ row'.staleSince.getD 0

instance : DecidableRel staleBefore := fun _ _ => inferInstanceAs (Decidable (_ ≤ _))

def listStaleAgents : List AgentRow :=
  (db.rows.filter fun row => row.staleSince.isSome).insertionSort staleBefore

/-- Every online agent. The pages are drained before anything is written. -/
def listAllOnline : List AgentRow := db.rows.filter fun row => decide (row.status = .online)

/-- Read a row, and write it back changed: an agent that is not there is left out. -/
def amend (id : Text) (f : AgentRecord → AgentRecord) : AgentDb :=
  match findById db id with
  | none => db
  | some existing => upsert db (f existing)

end Operations

/-! ## What is found -/

section Find

variable {db : AgentDb}

theorem find_upsert (agent : AgentRecord) (k : Text) : (upsert db agent).find k =
    if agent.id = k then some (((db.find k).map agent.onto).getD agent.newRow) else db.find k := by
  unfold upsert
  cases hin : db.insert agent.newRow with
  | some =>
    rw [getD_some, find_insert hin]
    by_cases hk : agent.id = k
    · have hfr : db.find k = none := by
        refine find_eq_none.mpr fun row hrow heq => ?_
        exact (insert_eq_some hin).2 row hrow (heq.trans hk.symm)
      rw [if_pos (show agent.newRow.id = k from hk), if_pos hk, hfr]
      rfl
    · rw [if_neg (show ¬agent.newRow.id = k from hk), if_neg hk]
  | none =>
    rw [getD_none, find_update]
    cases hfi : db.find k with
    | none =>
      split
      · rename_i hk
        obtain ⟨row, hrow, heq⟩ := insert_eq_none.mp hin
        exact absurd (heq.trans hk) (find_eq_none.mp hfi row hrow)
      · rfl
    | some row =>
      obtain ⟨_, rfl⟩ := find_eq_some.mp hfi
      simp only [map_some, getD_some]
      split
      · rename_i hk
        rw [if_pos hk.symm]
      · rename_i hk
        rw [if_neg fun heq => hk heq.symm]

theorem find_delete (id k : Text) : (delete db id).find k = if id = k then none else db.find k := by
  split
  · rename_i hk
    refine find_eq_none.mpr fun row hrow heq => ?_
    have hkpt := (mem_keep.mp hrow).2
    rw [heq, hk] at hkpt
    simp at hkpt
  · rename_i hk
    cases hfi : db.find k with
    | none =>
      refine find_eq_none.mpr fun row hrow => ?_
      exact find_eq_none.mp hfi row (mem_keep.mp hrow).1
    | some =>
      obtain ⟨hrow, hkey⟩ := find_eq_some.mp hfi
      refine find_eq_some.mpr ⟨mem_keep.mpr ⟨hrow, ?_⟩, hkey⟩
      rw [hkey]
      simpa using fun heq : k = id => hk heq.symm

theorem find_updateWhere {id : Text} {f : AgentRow → AgentRow} {hf : ∀ row, (f row).id = row.id}
    (k : Text) : (updateWhere db id f hf).find k = if id = k then (db.find k).map f else db.find k := by
  unfold updateWhere
  rw [find_update]
  cases hfi : db.find k with
  | none =>
    split
    · rfl
    · rfl
  | some row =>
    obtain ⟨_, rfl⟩ := find_eq_some.mp hfi
    simp only [map_some]
    split
    · rename_i hk
      rw [if_pos hk.symm]
    · rename_i hk
      rw [if_neg fun heq => hk heq.symm]

theorem find_amend {id : Text} {f : AgentRecord → AgentRecord} (hf : ∀ agent, (f agent).id = agent.id)
    (k : Text) : (amend db id f).find k =
      if id = k then (db.find k).map fun row => (f row.toRecord).onto row else db.find k := by
  unfold amend findById
  cases hfi : db.find id with
  | none =>
    simp only [map_none]
    by_cases hk : id = k
    · rw [if_pos hk, ← hk, hfi]
      rfl
    · rw [if_neg hk]
  | some row =>
    have hid : row.toRecord.id = id := (find_eq_some.mp hfi).2
    simp only [map_some]
    rw [find_upsert, hf]
    by_cases hk : id = k
    · rw [if_pos (hid.trans hk), if_pos hk, ← hk, hfi]
      rfl
    · rw [if_neg fun heq => hk (hid.symm.trans heq), if_neg hk]

theorem mem_listStaleAgents {row : AgentRow} : row ∈ listStaleAgents db ↔
    row ∈ db.rows ∧ row.staleSince.isSome := by
  unfold listStaleAgents
  rw [mem_insertionSort, mem_filter]

theorem mem_listAllOnline {row : AgentRow} : row ∈ listAllOnline db ↔
    row ∈ db.rows ∧ row.status = .online := by
  unfold listAllOnline
  rw [mem_filter, decide_eq_true_eq]

end Find

end AiNet.Agents
