import AiNet.Core.Transition
import AiNet.Events.EventArchive
import Mathlib.Data.List.Dedup

/-!
# The summaries of compacted tasks

A compaction also writes a summary for each node that has live rows, over the one that is there. It is
the aggregate of those rows alone: the summary of a node that was summarised before forgets what the
archive still has. A restart is a new bus, which may give a number of the archive again; the archive
ignores such a row and the summary counts it.
-/

namespace AiNet.Events

open Core List Option Function System UniqueTable

variable {τ : Type} [DecidableEq τ]

/-! ## Summaries -/

/-- The columns that the events alone determine. -/
structure SummaryAggregate where
  eventCount : Nat
  counts : List Nat
  firstOccurredAt : Nat
  lastOccurredAt : Nat
  finalTaskSeq : Nat
  deriving DecidableEq

structure TaskEventSummary extends SummaryAggregate where
  durationMs : Nat
  terminalStatus : String
  compactedAt : Nat

/-- The types with a column, in the order of the columns. -/
def countedTypes : List String :=
  ["TaskCreated", "NodeStarted", "NodeCompleted", "NodeFailed", "PaymentLocked", "PaymentReleased",
    "TaskCompleted", "TaskFailed"]

/-- `aggregateStmt`, of one group. -/
def aggregate (rows : List (EventRow τ)) : SummaryAggregate where
  eventCount := rows.length
  counts := countedTypes.map fun type => rows.countP fun r => decide (r.type = type)
  firstOccurredAt := (rows.map EventRow.occurredAt).min?.getD 0
  lastOccurredAt := (rows.map EventRow.occurredAt).max?.getD 0
  finalTaskSeq := (rows.map EventRow.taskSeq).max?.getD 0

/-- The row that `upsertSummaryStmt` writes. -/
def summaryRow (terminalStatus : String) (archivedAt : Nat) (agg : SummaryAggregate) : TaskEventSummary :=
  { agg with
    durationMs := agg.lastOccurredAt - agg.firstOccurredAt
    terminalStatus := terminalStatus
    compactedAt := archivedAt }

/-- The bus, the database, and the table `task_event_summary`. -/
structure SummaryDb (τ : Type) where
  counters : Counters τ
  db : EventDb τ
  summaries : τ × String → Option TaskEventSummary

inductive SummaryEvent (τ : Type) where
  | emit (event : DAGEvent τ)
  | restart
  | compactTask (taskId : τ) (terminalStatus : String) (archivedAt : Nat) (stillCompacting : Bool)

namespace SummaryDb

variable (s : SummaryDb τ)

/-- The summaries after those of a task: a group for each value of the node column. -/
def upsertSummaries (taskId : τ) (terminalStatus : String) (archivedAt : Nat) :
    τ × String → Option TaskEventSummary :=
  let rows := s.db.store.ofTask taskId
  (rows.map EventRow.nodeId).dedup.foldl (fun summaries nodeId =>
    update summaries (taskId, nodeId.getD taskLevelNodeId)
      (some (summaryRow terminalStatus archivedAt
        (aggregate (rows.filter fun r => decide (r.nodeId = nodeId)))))) s.summaries

def step : SummaryEvent τ → Option (SummaryDb τ)
  | .emit event =>
    let (counters, store) := emit s.counters s.db.store event
    some { s with counters := counters, db := { s.db with store := store } }
  | .restart => some { s with counters := rehydrate s.db.store }
  | .compactTask taskId terminalStatus archivedAt stillCompacting =>
    (s.db.compactTask taskId archivedAt stillCompacting).map fun (db, outcome) =>
      { s with
        db := db
        summaries :=
          if outcome.compacted then s.upsertSummaries taskId terminalStatus archivedAt
          else s.summaries }

def system : System (SummaryDb τ) (SummaryEvent τ) where
  start s := s = ⟨fun _ => none, ⟨⟨empty _, 0⟩, empty _⟩, fun _ => none⟩
  step := step

def firstTime : SummaryEvent τ → Bool
  | .compactTask taskId _ _ _ => (s.db.store.ofTask taskId).all fun r => s.db.archive.rows.all fun a =>
    decide (a.taskId = taskId → a.taskSeq ≠ r.taskSeq ∧ a.nodeId ≠ r.nodeId.getD taskLevelNodeId)
  | _ => true

def archived (taskId : τ) (nodeId : String) : List (ArchivedRow τ) :=
  s.db.archive.rows.filter fun a => decide (a.taskId = taskId ∧ a.nodeId = nodeId)

def Described : Prop := ∀ taskId nodeId,
  (s.summaries (taskId, nodeId)).map TaskEventSummary.toSummaryAggregate =
    if s.archived taskId nodeId = [] then none
    else some (aggregate ((s.archived taskId nodeId).map ArchivedRow.event))

end SummaryDb

/-! ## What a compaction keeps -/

section

variable {α κ β : Type} [DecidableEq κ] {key : α → κ} {value : α → β} {as : List α}

theorem foldl_update_of_ne {k : κ} (h : ∀ a ∈ as, key a ≠ k) (f : κ → β) :
    as.foldl (fun f a => update f (key a) (value a)) f k = f k := by
  induction as generalizing f with
  | nil => rfl
  | cons a rest ih =>
    rw [foldl_cons, ih fun b hb => h b (mem_cons_of_mem a hb)]
    exact update_of_ne (h a mem_cons_self).symm _ _

theorem foldl_update_of_mem {a : α} (ha : a ∈ as) (h : ∀ b ∈ as, key b = key a → b = a) (f : κ → β) :
    as.foldl (fun f a => update f (key a) (value a)) f (key a) = value a := by
  induction as generalizing f with
  | nil => cases ha
  | cons b rest ih =>
    have hrst := fun c hc => h c (mem_cons_of_mem b hc)
    by_cases hmem : a ∈ rest
    · exact ih hmem hrst _
    · obtain rfl := (mem_cons.mp ha).resolve_right hmem
      rw [foldl_cons, foldl_update_of_ne fun c hc heq => hmem (hrst c hc heq ▸ hc)]
      exact update_self ..

end

namespace SummaryDb

variable {s s' : SummaryDb τ}

/-- What every step keeps. The bus leaves no node id empty. -/
structure Sound (s : SummaryDb τ) : Prop where
  nodes : ∀ r ∈ s.db.store.events.rows, r.nodeId ≠ some taskLevelNodeId
  described : s.Described

theorem Sound.compacted (h : s.Sound) {taskId : τ} {terminalStatus : String} {archivedAt : Nat}
    (hfst : ∀ r ∈ s.db.store.ofTask taskId, ∀ a ∈ s.db.archive.rows, a.taskId = taskId →
      a.taskSeq ≠ r.taskSeq ∧ a.nodeId ≠ r.nodeId.getD taskLevelNodeId) :
    Sound ⟨s.counters, s.db.compacted taskId archivedAt,
      s.upsertSummaries taskId terminalStatus archivedAt⟩ := by
  have hnod : ∀ r ∈ s.db.store.ofTask taskId, r.nodeId ≠ some taskLevelNodeId :=
    fun r hr => h.nodes r (mem_ofTask.mp hr).1
  refine ⟨fun r hr => h.nodes r (mem_keep.mp hr).1, fun taskId' nodeId => ?_⟩
  have hrw : (s.db.compacted taskId archivedAt).archive.rows =
      s.db.archive.rows ++ (s.db.store.ofTask taskId).map (EventRow.archived archivedAt) := by
    refine rows_insertAll ?_ ?_
    · intro x hx a ha heq
      obtain ⟨r, hr, rfl⟩ := List.mem_map.mp hx
      obtain ⟨htk, hseq⟩ := Prod.mk.inj heq
      exact (hfst r hr a ha (htk.trans (mem_ofTask.mp hr).2)).1 hseq
    · rw [List.map_map]
      exact s.db.store.events.keys.sublist (filter_sublist.map _)
  unfold archived
  dsimp only
  rw [hrw, filter_append]
  by_cases hlv : ∃ r ∈ s.db.store.ofTask taskId, (taskId, r.nodeId.getD taskLevelNodeId) = (taskId', nodeId)
  · obtain ⟨r, hr, heq⟩ := hlv
    cases heq
    have hold : s.archived taskId (r.nodeId.getD taskLevelNodeId) = [] := by
      refine filter_eq_nil_iff.mpr fun a ha heq => ?_
      exact (hfst r hr a ha (of_decide_eq_true heq).1).2 (of_decide_eq_true heq).2
    -- the rows of the node are those of its group
    have hsm : ∀ r' ∈ s.db.store.ofTask taskId,
        r'.nodeId.getD taskLevelNodeId = r.nodeId.getD taskLevelNodeId → r'.nodeId = r.nodeId := by
      intro r' hr' heq
      have hne := hnod r hr
      have hne' := hnod r' hr'
      revert heq hne hne'
      cases r.nodeId <;> cases r'.nodeId <;> grind [Option.getD]
    have hgro : (((s.db.store.ofTask taskId).map (EventRow.archived archivedAt)).filter fun a =>
        decide (a.taskId = taskId ∧ a.nodeId = r.nodeId.getD taskLevelNodeId)).map ArchivedRow.event =
          (s.db.store.ofTask taskId).filter fun r' => decide (r'.nodeId = r.nodeId) := by
      rw [List.filter_map, List.map_map]
      refine (map_congr_left fun r' hr' =>
        event_archived archivedAt (hnod r' (mem_of_mem_filter hr'))).trans ?_
      rw [List.map_id']
      refine filter_congr fun r' hr' => ?_
      rw [Function.comp_apply, decide_eq_decide]
      exact ⟨fun heq => hsm r' hr' heq.2, fun heq => ⟨(mem_ofTask.mp hr').2, congrArg (Option.getD · _) heq⟩⟩
    have hval : s.upsertSummaries taskId terminalStatus archivedAt
        (taskId, r.nodeId.getD taskLevelNodeId) = some (summaryRow terminalStatus archivedAt
          (aggregate ((s.db.store.ofTask taskId).filter fun r' => decide (r'.nodeId = r.nodeId)))) :=
      foldl_update_of_mem (mem_dedup.mpr (List.mem_map_of_mem hr)) (fun nodeId hno heq => by
        obtain ⟨r', hr', rfl⟩ := List.mem_map.mp (mem_dedup.mp hno)
        exact hsm r' hr' (Prod.mk.inj heq).2) s.summaries
    unfold archived at hold
    rw [hval, hold, nil_append, if_neg ?_, hgro]
    · rfl
    · intro hnon
      rw [hnon, map_nil, eq_comm, filter_eq_nil_iff] at hgro
      exact hgro r hr (decide_eq_true rfl)
  · have hnew : (((s.db.store.ofTask taskId).map (EventRow.archived archivedAt)).filter fun a =>
        decide (a.taskId = taskId' ∧ a.nodeId = nodeId)) = [] := by
      refine filter_eq_nil_iff.mpr fun a ha heq => hlv ?_
      obtain ⟨r, hr, rfl⟩ := List.mem_map.mp ha
      obtain ⟨htk, hno⟩ := of_decide_eq_true heq
      exact ⟨r, hr, Prod.ext ((mem_ofTask.mp hr).2.symm.trans htk) hno⟩
    rw [hnew, append_nil]
    refine Eq.trans (congrArg _ (foldl_update_of_ne (fun o ho heq => hlv ?_) s.summaries))
      (h.described taskId' nodeId)
    obtain ⟨r, hr, rfl⟩ := List.mem_map.mp (mem_dedup.mp ho)
    exact ⟨r, hr, heq⟩

theorem Sound.step (h : s.Sound) {e : SummaryEvent τ} (hfst : s.firstTime e = true)
    (hst : s.step e = some s') : s'.Sound := by
  cases e with
  | restart => cases hst; exact ⟨h.nodes, h.described⟩
  | emit event =>
    cases hst
    refine ⟨?_, h.described⟩
    unfold EventStore.append
    dsimp only
    cases hins : s.db.store.events.insert (s.db.store.row
        (dagEventToAppEvent event ((s.counters event.taskId).getD 0))) with
    | none => exact h.nodes
    | some events =>
      intro r hr
      rw [map_some, getD_some, (insert_eq_some hins).1, mem_append, mem_singleton] at hr
      rcases hr with hold | rfl
      · exact h.nodes r hold
      · exact nodeId_row _ _ _
  | compactTask taskId terminalStatus archivedAt stillCompacting =>
    obtain ⟨⟨db, outcome⟩, hcpt, rfl⟩ := map_eq_some_iff.mp hst
    unfold firstTime at hfst
    simp only [List.all_eq_true, decide_eq_true_eq] at hfst
    unfold EventDb.compactTask at hcpt
    dsimp only at hcpt
    obtain ⟨_, hcpt⟩ := ite_none_left_eq_some.mp hcpt
    split at hcpt
    · cases hcpt
      exact ⟨h.nodes, h.described⟩
    · obtain ⟨_, hcpt⟩ := ite_none_left_eq_some.mp hcpt
      obtain ⟨_, hcpt⟩ := ite_none_left_eq_some.mp hcpt
      cases hcpt
      exact h.compacted hfst

/--
**The summaries describe the archive as long as no node is compacted twice.** If every compaction of a run
meets only nodes and numbers that the archive does not have for the task, then each summary is the
aggregate of all archived events of its node, in every state of the run.
-/
theorem described_of_firstTime {s : SummaryDb τ}
    (h : system.Reachable (fun s e => s.firstTime e = true) s) : s.Described := by
  refine (h.invariant (I := Sound) ?_ fun _ _ _ _ hfst hs hst => hs.step hfst hst).described
  rintro s rfl
  exact ⟨fun r hr => (not_mem_nil hr).elim, fun _ _ => rfl⟩

/-- Nothing has happened. -/
def Sample.empty : SummaryDb Nat :=
  ⟨fun _ => none, ⟨⟨UniqueTable.empty _, 0⟩, UniqueTable.empty _⟩, fun _ => none⟩

def Sample.started (nodeId : String) : SummaryEvent Nat := .emit ⟨"node_started", 0, some nodeId, 5, none⟩

/-- Two nodes, compacted one after the other. -/
theorem described_two_nodes : ∃ s : SummaryDb Nat,
    system.Reachable (fun s e => s.firstTime e = true) s ∧ s.db.archive.rows.length = 2 ∧ s.Described := by
  have hpl : (system.play (fun (s : SummaryDb Nat) e => s.firstTime e = true)
      [Sample.started "a", .compactTask 0 "failed" 9 true, Sample.started "b",
        .compactTask 0 "completed" 9 true] Sample.empty).any
          (fun s => decide (s.db.archive.rows.length = 2)) = true := by
    decide
  obtain ⟨s, hs, hlen⟩ := System.exists_reachable (S := system) rfl hpl
  exact ⟨s, hs, hlen, described_of_firstTime hs⟩

/-- A node that runs again after its task was compacted: its summary has the second event only. -/
theorem retried_forgotten : ∃ s : SummaryDb Nat, system.Reachable (fun _ _ => True) s ∧
    (s.archived 0 "a").length = 2 ∧ ¬ s.Described := by
  have hpl : (system.play (fun (_ : SummaryDb Nat) _ => True)
      [Sample.started "a", .compactTask 0 "failed" 9 true, Sample.started "a",
        .compactTask 0 "completed" 9 true] Sample.empty).any
          (fun s => decide ((s.archived 0 "a").length = 2 ∧
            (s.summaries (0, "a")).map (fun row => row.eventCount) = some 1)) = true := by
    decide
  obtain ⟨s, hs, htwo, hone⟩ := System.exists_reachable (S := system) rfl hpl
  refine ⟨s, hs, htwo, fun h => ?_⟩
  have heq := congrArg (Option.map SummaryAggregate.eventCount) (h 0 "a")
  rw [Option.map_map, if_neg (by rw [← length_eq_zero_iff, htwo]; decide)] at heq
  have hcnt : some 1 = some (s.archived 0 "a").length := by
    simpa [aggregate] using hone.symm.trans heq
  rw [htwo] at hcnt
  cases hcnt

end SummaryDb

end AiNet.Events
