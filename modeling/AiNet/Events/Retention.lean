import AiNet.Coordinator.Execution
import AiNet.Core.Ranking
import AiNet.Events.DayFiles
import Mathlib.Data.Prod.Lex
import Mathlib.Order.Monotone.Basic

/-!
# Retention

A pass of the retention service takes a batch of tasks with old events, those whose old events are the
oldest first, and compacts the finished ones among them: those that ended in the event stream and
in the tasks database. The pseudo-task of the agent monitor is left out.

The query that selects the batch filters the events before it groups them. So a task counts as old by
its first events, and a batch of unfinished tasks is selected again by every pass.
-/

namespace AiNet.Events

open Core List UniqueTable
open AiNet.Coordinator (TaskStatus)

variable {τ : Type} [LinearOrder τ]

structure CompactionCandidate (τ : Type) where
  taskId : τ
  lastOccurredAt : Nat
  lastEventType : String
  eventCount : Nat
  deriving DecidableEq

/-- The order of candidates. Groups come in the order of their tasks, which is kept among equal times. -/
def CompactionCandidate.key (c : CompactionCandidate τ) : ℕ ×ₗ τ := toLex (c.lastOccurredAt, c.taskId)

namespace EventStore

variable (store : EventStore τ)

/-- The type of the event with the highest number. -/
def lastEventType (taskId : τ) : String :=
  (((store.ofTask taskId).insertionSort fun r r' => r'.taskSeq ≤ r.taskSeq).head?.map
    EventRow.type).getD ""

def oldOfTask (cutoff : Nat) (taskId : τ) : List (EventRow τ) :=
  (store.ofTask taskId).filter fun r => decide (r.occurredAt < cutoff)

def candidate (cutoff : Nat) (taskId : τ) : CompactionCandidate τ where
  taskId := taskId
  lastOccurredAt := ((store.oldOfTask cutoff taskId).map EventRow.occurredAt).max?.getD 0
  lastEventType := store.lastEventType taskId
  eventCount := (store.oldOfTask cutoff taskId).length

/-- The groups of the query. -/
def candidates (systemTaskId : τ) (cutoff : Nat) : List (CompactionCandidate τ) :=
  ((store.events.rows.filter fun r =>
    decide (r.occurredAt < cutoff) && decide (r.taskId ≠ systemTaskId)).map
      EventRow.taskId).dedup.map (store.candidate cutoff)

def findCompactionCandidates (systemTaskId : τ) (cutoff limit : Nat) : List (CompactionCandidate τ) :=
  (ranked CompactionCandidate.key (store.candidates systemTaskId cutoff)).take limit

end EventStore

/-- `TERMINAL_EVENT_TYPES` has it. -/
def hasTerminalLastEvent (lastEventType : String) : Bool :=
  ["TaskCompleted", "TaskFailed"].contains lastEventType

def isTerminalTaskStatus (status : Option TaskStatus) : Bool := status.any TaskStatus.terminal

structure EventRetentionStats where
  ranAt : Nat
  retentionDays : Nat
  cutoff : Nat
  candidates : Nat
  skipped : Nat
  compactedTasks : Nat
  eventsArchived : Nat
  eventsPurged : Nat
  summariesWritten : Nat
  failedTasks : Nat
  deriving DecidableEq

def emptyStats (ranAt retentionDays cutoff : Nat) : EventRetentionStats :=
  ⟨ranAt, retentionDays, cutoff, 0, 0, 0, 0, 0, 0, 0⟩

structure EventRetentionService (τ : Type) where
  retentionDays : Nat
  batchTasks : Nat
  enabled : Bool
  stopped : Bool
  running : Bool
  getTaskStatus : τ → Option TaskStatus

namespace EventRetentionService

variable (service : EventRetentionService τ) (systemTaskId : τ)

def cutoff (now : Nat) : Nat := now - service.retentionDays * msPerDay

def visit (archivedAt : Nat) (pass : EventDb τ × EventRetentionStats) (c : CompactionCandidate τ) :
    EventDb τ × EventRetentionStats :=
  let (db, stats) := pass
  if !hasTerminalLastEvent c.lastEventType then (db, { stats with skipped := stats.skipped + 1 })
  else if !isTerminalTaskStatus (service.getTaskStatus c.taskId) then
    (db, { stats with skipped := stats.skipped + 1 })
  else
    -- the status is read again in the transaction
    match db.compactTask c.taskId archivedAt (isTerminalTaskStatus (service.getTaskStatus c.taskId)) with
    | none => (db, { stats with failedTasks := stats.failedTasks + 1 })
    | some (db', outcome) =>
      if !outcome.compacted then (db', { stats with skipped := stats.skipped + 1 })
      else
        (db', { stats with
          compactedTasks := stats.compactedTasks + 1
          eventsArchived := stats.eventsArchived + outcome.eventsArchived
          eventsPurged := stats.eventsPurged + outcome.eventsPurged
          summariesWritten := stats.summariesWritten + outcome.summariesWritten })

/-- `run`, at a time of the service's clock and a time of the process's. -/
def run (db : EventDb τ) (now clock : Nat) : EventDb τ × EventRetentionStats :=
  let cutoff := service.cutoff now
  let stats := emptyStats clock service.retentionDays cutoff
  if !service.enabled || service.stopped || service.running then (db, stats)
  else
    let candidates := db.store.findCompactionCandidates systemTaskId cutoff service.batchTasks
    candidates.foldl (service.visit clock) (db, { stats with candidates := candidates.length })

/-- The database after `n` passes at the given times. -/
def passes (db : EventDb τ) (nows clocks : Nat → Nat) : Nat → EventDb τ
  | 0 => db
  | n + 1 => (service.run systemTaskId (passes db nows clocks n) (nows n) (clocks n)).1

end EventRetentionService

/-! ## Tasks and their events -/

variable {service : EventRetentionService τ} {systemTaskId : τ} {store store' : EventStore τ}
  {db : EventDb τ} {taskId : τ} {cutoff cutoff' now clock : Nat} {c : CompactionCandidate τ}

/-- A candidate that a pass compacts. -/
def CompactionCandidate.finished (service : EventRetentionService τ) (c : CompactionCandidate τ) : Bool :=
  hasTerminalLastEvent c.lastEventType && isTerminalTaskStatus (service.getTaskStatus c.taskId)

/-- A task that is finished: it ended in the event stream and in the tasks database. -/
def EventRetentionService.finished (service : EventRetentionService τ) (store : EventStore τ)
    (taskId : τ) : Bool :=
  hasTerminalLastEvent (store.lastEventType taskId) && isTerminalTaskStatus (service.getTaskStatus taskId)

theorem finished_candidate (cutoff : Nat) : (store.candidate cutoff taskId).finished service = service.finished store taskId :=
  rfl

theorem lastEventType_congr (h : store'.ofTask taskId = store.ofTask taskId) :
    store'.lastEventType taskId = store.lastEventType taskId := by
  unfold EventStore.lastEventType
  rw [h]

theorem finished_congr (h : store'.ofTask taskId = store.ofTask taskId) :
    service.finished store' taskId = service.finished store taskId := by
  unfold EventRetentionService.finished
  rw [lastEventType_congr h]

theorem candidate_congr (h : store'.ofTask taskId = store.ofTask taskId) :
    store'.candidate cutoff taskId = store.candidate cutoff taskId := by
  unfold EventStore.candidate EventStore.oldOfTask
  rw [lastEventType_congr h, h]

theorem candidate_cutoff (h : ∀ r ∈ store.ofTask taskId, (r.occurredAt < cutoff ↔ r.occurredAt < cutoff')) :
    store.candidate cutoff taskId = store.candidate cutoff' taskId := by
  have hold : store.oldOfTask cutoff taskId = store.oldOfTask cutoff' taskId := by
    unfold EventStore.oldOfTask
    refine filter_congr fun r hr => ?_
    rw [decide_eq_decide]
    exact h r hr
  unfold EventStore.candidate
  rw [hold]

theorem mem_candidates : c ∈ store.candidates systemTaskId cutoff ↔ c.taskId ≠ systemTaskId ∧
    (∃ r ∈ store.ofTask c.taskId, r.occurredAt < cutoff) ∧ c = store.candidate cutoff c.taskId := by
  unfold EventStore.candidates
  simp only [List.mem_map, mem_dedup, mem_filter, Bool.and_eq_true, decide_eq_true_eq]
  constructor
  · intro ⟨taskId, ⟨r, ⟨hr, hold, hsys⟩, htk⟩, hc⟩
    subst hc
    refine ⟨?_, ⟨r, mem_ofTask.mpr ⟨hr, htk⟩, hold⟩, rfl⟩
    rw [← htk] at *
    exact hsys
  · intro ⟨hsys, ⟨r, hr, hold⟩, hc⟩
    obtain ⟨hlv, htk⟩ := mem_ofTask.mp hr
    refine ⟨c.taskId, ⟨r, ⟨hlv, hold, ?_⟩, htk⟩, hc.symm⟩
    rw [htk]
    exact hsys

theorem candidate_mem (hsys : taskId ≠ systemTaskId)
    (hold : ∃ r ∈ store.ofTask taskId, r.occurredAt < cutoff) :
    store.candidate cutoff taskId ∈ store.candidates systemTaskId cutoff :=
  mem_candidates.mpr ⟨hsys, hold, rfl⟩

/-- **No two candidates rank the same.** -/
theorem keys_candidates (store : EventStore τ) (systemTaskId : τ) (cutoff : Nat) :
    ((store.candidates systemTaskId cutoff).map CompactionCandidate.key).Nodup := by
  unfold EventStore.candidates
  rw [List.map_map]
  refine (nodup_dedup _).map fun taskId taskId' heq => ?_
  have hlex : (toLex ((store.candidate cutoff taskId).lastOccurredAt, taskId) : ℕ ×ₗ τ) =
      toLex ((store.candidate cutoff taskId').lastOccurredAt, taskId') := heq
  exact (Prod.mk.inj (toLex.injective hlex)).2

theorem le_lastOccurredAt {r : EventRow τ} (hr : r ∈ store.ofTask taskId) (hold : r.occurredAt < cutoff) :
    r.occurredAt ≤ (store.candidate cutoff taskId).lastOccurredAt := by
  have hmem : r.occurredAt ∈ (store.oldOfTask cutoff taskId).map EventRow.occurredAt :=
    List.mem_map_of_mem (mem_filter.mpr ⟨hr, decide_eq_true hold⟩)
  unfold EventStore.candidate
  dsimp only
  cases hmax : ((store.oldOfTask cutoff taskId).map EventRow.occurredAt).max? with
  | none =>
    rw [List.max?_eq_none_iff] at hmax
    rw [hmax] at hmem
    cases hmem
  | some => exact (List.max?_eq_some_iff.mp hmax).2 _ hmem

theorem lastOccurredAt_lt (hold : ∃ r ∈ store.ofTask taskId, r.occurredAt < cutoff) :
    (store.candidate cutoff taskId).lastOccurredAt < cutoff := by
  obtain ⟨r, hr, hlt⟩ := hold
  unfold EventStore.candidate
  dsimp only
  cases hmax : ((store.oldOfTask cutoff taskId).map EventRow.occurredAt).max? with
  | none => exact (Nat.zero_le _).trans_lt hlt
  | some =>
    obtain ⟨r', hr', rfl⟩ := List.mem_map.mp (List.max?_eq_some_iff.mp hmax).1
    exact of_decide_eq_true (mem_filter.mp hr').2

/-! ## One pass -/

theorem rows_visit (service : EventRetentionService τ) (archivedAt : Nat)
    (pass : EventDb τ × EventRetentionStats) (c : CompactionCandidate τ) :
    (service.visit archivedAt pass c).1.store.events.rows =
      pass.1.store.events.rows.filter fun r => !(c.finished service && decide (r.taskId = c.taskId)) := by
  obtain ⟨db, stats⟩ := pass
  unfold EventRetentionService.visit CompactionCandidate.finished
  dsimp only
  cases hla : hasTerminalLastEvent c.lastEventType with
  | false => simp
  | true =>
    cases hst : isTerminalTaskStatus (service.getTaskStatus c.taskId) with
    | false => simp
    | true =>
      have heq := compactTask_eq db c.taskId archivedAt
      have hkpt : (db.store.events.keep fun r => decide (r.taskId ≠ c.taskId)).rows =
          db.store.events.rows.filter fun r => !(true && true && decide (r.taskId = c.taskId)) := by
        unfold keep
        dsimp only
        refine filter_congr fun r _ => ?_
        simp
      rw [if_neg (by simp), if_neg (by simp), ← hkpt]
      cases hcpt : db.compactTask c.taskId archivedAt true with
      | none =>
        rw [hcpt] at heq
        cases heq
      | some result =>
        obtain ⟨db', outcome⟩ := result
        rw [hcpt] at heq
        obtain rfl := Option.some.inj heq
        dsimp only
        -- the outcome decides what is counted only
        split
        all_goals
          dsimp only
          by_cases hno : (db.store.ofTask c.taskId).length = 0
          · rw [if_pos hno, hkpt]
            refine (filter_eq_self.mpr fun r hr => ?_).symm
            have hoth : r.taskId ≠ c.taskId := by
              intro htk
              have hmem := mem_ofTask.mpr ⟨hr, htk⟩
              rw [length_eq_zero_iff.mp hno] at hmem
              cases hmem
            simp [hoth]
          · rw [if_neg hno]
            rfl

def swept (service : EventRetentionService τ) (cs : List (CompactionCandidate τ)) (taskId : τ) : Bool :=
  cs.any fun c => c.finished service && decide (taskId = c.taskId)

theorem rows_visits (service : EventRetentionService τ) (archivedAt : Nat)
    (pass : EventDb τ × EventRetentionStats) (cs : List (CompactionCandidate τ)) :
    (cs.foldl (service.visit archivedAt) pass).1.store.events.rows =
      pass.1.store.events.rows.filter fun r => !swept service cs r.taskId := by
  unfold swept
  induction cs generalizing pass with
  | nil => simp
  | cons c rest ih =>
    rw [foldl_cons, ih, rows_visit, List.filter_filter]
    refine filter_congr fun r _ => ?_
    rw [any_cons, Bool.not_or, Bool.and_comm]

/-- A pass of a service that is enabled and idle. -/
def EventRetentionService.active (service : EventRetentionService τ) : Bool :=
  service.enabled && !service.stopped && !service.running

def EventRetentionService.compacts (service : EventRetentionService τ) (systemTaskId : τ)
    (store : EventStore τ) (now : Nat) (taskId : τ) : Bool :=
  swept service (store.findCompactionCandidates systemTaskId (service.cutoff now) service.batchTasks) taskId

theorem rows_run (hact : service.active = true) :
    (service.run systemTaskId db now clock).1.store.events.rows =
      db.store.events.rows.filter fun r => !service.compacts systemTaskId db.store now r.taskId := by
  have hfla : (!service.enabled || service.stopped || service.running) = false := by
    unfold EventRetentionService.active at hact
    revert hact
    cases service.enabled <;> cases service.stopped <;> cases service.running <;> simp
  unfold EventRetentionService.run
  dsimp only
  rw [hfla]
  exact rows_visits service clock _ _

theorem ofTask_run (hact : service.active = true) (taskId : τ) :
    (service.run systemTaskId db now clock).1.store.ofTask taskId =
      if service.compacts systemTaskId db.store now taskId then [] else db.store.ofTask taskId := by
  unfold EventStore.ofTask
  rw [rows_run hact, List.filter_filter]
  split
  · rename_i hcps
    rw [filter_eq_nil_iff]
    intro r _ hr
    rw [Bool.and_eq_true, decide_eq_true_eq] at hr
    rw [hr.1, hcps] at hr
    exact Bool.false_ne_true hr.2
  · rename_i hcps
    refine filter_congr fun r _ => ?_
    by_cases htk : r.taskId = taskId
    · simp [htk, hcps]
    · simp [htk]

/-- **A pass compacts a task if it is finished, has an old event, and ranks in the batch.** -/
theorem compacts_iff : service.compacts systemTaskId store now taskId = true ↔
    (taskId ≠ systemTaskId ∧ ∃ r ∈ store.ofTask taskId, r.occurredAt < service.cutoff now) ∧
      service.finished store taskId = true ∧
      ahead CompactionCandidate.key (store.candidates systemTaskId (service.cutoff now))
        (store.candidate (service.cutoff now) taskId) < service.batchTasks := by
  unfold EventRetentionService.compacts swept EventStore.findCompactionCandidates
  simp only [List.any_eq_true, Bool.and_eq_true, decide_eq_true_eq]
  constructor
  · intro ⟨c, hc, hfin, htk⟩
    subst htk
    have hmem := mem_of_mem_take_ranked hc
    obtain ⟨hsys, hold, hsf⟩ := mem_candidates.mp hmem
    have hahd := (mem_take_ranked (keys_candidates _ _ _) hmem).mp hc
    rw [hsf] at hfin hahd
    exact ⟨⟨hsys, hold⟩, hfin, hahd⟩
  · intro ⟨⟨hsys, hold⟩, hfin, hahd⟩
    exact ⟨_, (mem_take_ranked (keys_candidates _ _ _) (candidate_mem hsys hold)).mpr hahd, hfin, rfl⟩

end AiNet.Events

/-!
## What passes of the retention service do

A pass leaves each task as it was, or finished and gone. It takes only tasks without recent events
when no task in its batch has both old and recent ones. Over many passes every finished old task goes,
unless a whole batch of unfinished candidates ranks before it each time: the unfinished ones stay, and
at least one of the others goes with each pass.
-/

namespace AiNet.Events

open Core List

variable {τ : Type} [LinearOrder τ] {service : EventRetentionService τ} {systemTaskId : τ}
  {store store' store'' : EventStore τ} {db : EventDb τ} {taskId : τ} {cutoff cutoff' : Nat}
  {nows clocks : Nat → Nat} {c : CompactionCandidate τ}

def Remains (service : EventRetentionService τ) (store store' : EventStore τ) : Prop :=
  ∀ taskId, store'.ofTask taskId = store.ofTask taskId ∨
    store'.ofTask taskId = [] ∧ service.finished store taskId = true

theorem Remains.trans (h : Remains service store store') (h' : Remains service store' store'') :
    Remains service store store'' := by
  intro taskId
  rcases h taskId with hsm | ⟨hgn, hfin⟩
  · rcases h' taskId with hsm' | ⟨hgn', hfin'⟩
    · exact .inl (hsm'.trans hsm)
    · rw [finished_congr hsm] at hfin'
      exact .inr ⟨hgn', hfin'⟩
  · rcases h' taskId with hsm' | ⟨hgn', _⟩
    · exact .inr ⟨hsm'.trans hgn, hfin⟩
    · exact .inr ⟨hgn', hfin⟩

theorem remains_run (hact : service.active = true) (systemTaskId : τ) (db : EventDb τ)
    (now clock : Nat) : Remains service db.store (service.run systemTaskId db now clock).1.store := by
  intro taskId
  rw [ofTask_run hact]
  split
  · rename_i hcps
    exact .inr ⟨rfl, (compacts_iff.mp hcps).2.1⟩
  · exact .inl rfl

theorem remains_passes (hact : service.active = true) (systemTaskId : τ) (db : EventDb τ)
    (nows clocks : Nat → Nat) (n : Nat) :
    Remains service db.store (service.passes systemTaskId db nows clocks n).store := by
  induction n with
  | zero => exact fun _ => .inl rfl
  | succ n ih => exact ih.trans (remains_run hact _ _ _ _)

theorem Remains.unfinished (h : Remains service store store')
    (hunf : service.finished store taskId = false) : store'.ofTask taskId = store.ofTask taskId := by
  rcases h taskId with hsm | ⟨_, hfin⟩
  · exact hsm
  · rw [hunf] at hfin
    cases hfin

theorem Remains.left (h : Remains service store store') (hlf : store'.ofTask taskId ≠ []) :
    store'.ofTask taskId = store.ofTask taskId := by
  rcases h taskId with hsm | ⟨hgn, _⟩
  · exact hsm
  · exact absurd hgn hlf

theorem ofTask_ne_nil (h : service.finished store taskId = true) : store.ofTask taskId ≠ [] := by
  intro hno
  unfold EventRetentionService.finished EventStore.lastEventType at h
  rw [hno] at h
  have hla : hasTerminalLastEvent "" = true := (Bool.and_eq_true_iff.mp h).1
  exact absurd hla (by decide)

/-! ## The window -/

/-- What a pass compacts is finished and has no event at or after the cutoff. -/
def OnlyOld (service : EventRetentionService τ) (systemTaskId : τ) (db : EventDb τ) (now clock : Nat) :
    Prop :=
  ∀ taskId, db.store.ofTask taskId ≠ [] →
    (service.run systemTaskId db now clock).1.store.ofTask taskId = [] →
    service.finished db.store taskId = true ∧
      ∀ r ∈ db.store.ofTask taskId, r.occurredAt < service.cutoff now

/-- A finished task with events on both sides of the cutoff ranks behind the batch. -/
def NoneSplit (service : EventRetentionService τ) (systemTaskId : τ) (store : EventStore τ) (now : Nat) :
    Prop :=
  ∀ taskId, taskId ≠ systemTaskId → service.finished store taskId = true →
    (∃ r ∈ store.ofTask taskId, r.occurredAt < service.cutoff now) →
    (∃ r ∈ store.ofTask taskId, service.cutoff now ≤ r.occurredAt) →
    service.batchTasks ≤ ahead CompactionCandidate.key (store.candidates systemTaskId (service.cutoff now))
      (store.candidate (service.cutoff now) taskId)

theorem onlyOld_iff (hact : service.active = true) (systemTaskId : τ) (db : EventDb τ)
    (now clock : Nat) : OnlyOld service systemTaskId db now clock ↔
      NoneSplit service systemTaskId db.store now := by
  constructor
  · intro h taskId hsys hfin hold ⟨r, hr, hre⟩
    by_contra hbat
    have hcps := compacts_iff.mpr ⟨⟨hsys, hold⟩, hfin, Nat.not_le.mp hbat⟩
    have hgn : (service.run systemTaskId db now clock).1.store.ofTask taskId = [] := by
      rw [ofTask_run hact, if_pos hcps]
    have hlt := (h taskId (ne_nil_of_mem hr) hgn).2 r hr
    omega
  · intro h taskId hlv hgn
    rw [ofTask_run hact] at hgn
    split at hgn
    · rename_i hcps
      obtain ⟨⟨hsys, hold⟩, hfin, hbat⟩ := compacts_iff.mp hcps
      refine ⟨hfin, fun r hr => ?_⟩
      by_contra hre
      have hle := h taskId hsys hfin hold ⟨r, hr, Nat.not_lt.mp hre⟩
      omega
    · exact absurd hgn hlv

/-! ## Progress -/

/-- The unfinished candidates that rank before a task. -/
def blocking (service : EventRetentionService τ) (systemTaskId : τ) (store : EventStore τ) (cutoff : Nat)
    (taskId : τ) : Nat :=
  (store.candidates systemTaskId cutoff).countP fun c =>
    !c.finished service && decide (c.key < (store.candidate cutoff taskId).key)

def AllBefore (store : EventStore τ) (cutoff : Nat) (taskId : τ) : Prop :=
  ∀ r ∈ store.ofTask taskId, r.occurredAt < cutoff

theorem AllBefore.candidate (h : AllBefore store cutoff taskId) (hle : cutoff ≤ cutoff') :
    store.candidate cutoff' taskId = store.candidate cutoff taskId := by
  refine candidate_cutoff fun r hr => ?_
  have hlt := h r hr
  constructor
  · intro _
    exact hlt
  · intro _
    omega

/-- **Later no other candidate blocks a task**, in what is left of the store. -/
theorem blocking_le (systemTaskId : τ) (h : Remains service store store') (hsf : store'.ofTask taskId = store.ofTask taskId)
    (hlv : store.ofTask taskId ≠ []) (hbf : AllBefore store cutoff taskId) (hle : cutoff ≤ cutoff') :
    blocking service systemTaskId store' cutoff' taskId ≤
      blocking service systemTaskId store cutoff taskId := by
  have hnd : (store'.candidates systemTaskId cutoff').Nodup := (keys_candidates _ _ _).of_map
  refine countP_le_of_mem hnd fun c hc hbl => ?_
  obtain ⟨hsys, ⟨r, hr, hold⟩, hca⟩ := mem_candidates.mp hc
  rw [Bool.and_eq_true, Bool.not_eq_true', decide_eq_true_eq] at hbl
  obtain ⟨hunf, hlt⟩ := hbl
  have hsm := h.left (ne_nil_of_mem hr)
  rw [candidate_congr hsf, hbf.candidate hle] at hlt
  -- the old events of the candidate are not later than those of the task
  have hla : c.lastOccurredAt < cutoff := by
    obtain ⟨r', hr'⟩ := exists_mem_of_ne_nil _ hlv
    have hsf := lastOccurredAt_lt ⟨r', hr', hbf r' hr'⟩
    have hkey : c.lastOccurredAt ≤ (store.candidate cutoff taskId).lastOccurredAt := by
      rcases Prod.Lex.toLex_lt_toLex.mp hlt with hlt | ⟨heq, _⟩
      · exact hlt.le
      · exact heq.le
    omega
  have heq : store.candidate cutoff' c.taskId = store.candidate cutoff c.taskId := by
    refine candidate_cutoff fun r' hr' => ?_
    constructor
    · intro hold'
      rw [← hsm] at hr'
      have hbd := le_lastOccurredAt hr' hold'
      rw [← hca] at hbd
      omega
    · intro hlt'
      omega
  have hc' : c = store.candidate cutoff c.taskId := by
    rw [← heq, ← candidate_congr hsm]
    exact hca
  refine ⟨mem_candidates.mpr ⟨hsys, ⟨r, hsm ▸ hr, ?_⟩, hc'⟩, ?_⟩
  · have hbd := le_lastOccurredAt hr hold
    rw [← hca] at hbd
    omega
  · rw [hunf, decide_eq_true hlt]
    rfl

/-- **A pass that is not blocked takes the task, or another.** -/
theorem run_decreases (hact : service.active = true) {now : Nat} (clock : Nat) (hsys : taskId ≠ systemTaskId)
    (hfin : service.finished db.store taskId = true)
    (hbf : AllBefore db.store (service.cutoff now) taskId)
    (hfew : blocking service systemTaskId db.store (service.cutoff now) taskId < service.batchTasks) :
    (service.run systemTaskId db now clock).1.store.ofTask taskId = [] ∨
      (service.run systemTaskId db now clock).1.store.events.rows.length < db.store.events.rows.length := by
  have hold : ∃ r ∈ db.store.ofTask taskId, r.occurredAt < service.cutoff now := by
    obtain ⟨r, hr⟩ := exists_mem_of_ne_nil _ (ofTask_ne_nil hfin)
    exact ⟨r, hr, hbf r hr⟩
  have hmem := candidate_mem hsys hold
  rcases taken_or_served (keys_candidates _ _ _) hmem hfew with htkn | ⟨c, hc, hsrv⟩
  · left
    have hahd := (mem_take_ranked (keys_candidates _ _ _) hmem).mp htkn
    rw [ofTask_run hact, if_pos (compacts_iff.mpr ⟨⟨hsys, hold⟩, hfin, hahd⟩)]
  · right
    have hca := mem_of_mem_take_ranked hc
    obtain ⟨hoth, ⟨r, hr, hlt⟩, hsf⟩ := mem_candidates.mp hca
    have hahd := (mem_take_ranked (keys_candidates _ _ _) hca).mp hc
    rw [hsf] at hsrv hahd
    have hcps := compacts_iff.mpr ⟨⟨hoth, ⟨r, hr, hlt⟩⟩, hsrv, hahd⟩
    obtain ⟨hlv, htk⟩ := mem_ofTask.mp hr
    rw [rows_run hact]
    refine length_filter_lt_length_iff_exists.mpr ⟨r, hlv, ?_⟩
    rw [htk, hcps]
    simp

/-- Every finished task whose events are all old at the first pass is compacted by some pass. -/
def Progress (service : EventRetentionService τ) (systemTaskId : τ) (db : EventDb τ)
    (nows clocks : Nat → Nat) : Prop :=
  ∀ taskId, taskId ≠ systemTaskId → service.finished db.store taskId = true →
    AllBefore db.store (service.cutoff (nows 0)) taskId →
    ∃ n, (service.passes systemTaskId db nows clocks n).store.ofTask taskId = []

/-- At some pass fewer unfinished candidates than the batch rank before it. -/
def NoneStarved (service : EventRetentionService τ) (systemTaskId : τ) (store : EventStore τ)
    (nows : Nat → Nat) : Prop :=
  ∀ taskId, taskId ≠ systemTaskId → service.finished store taskId = true →
    AllBefore store (service.cutoff (nows 0)) taskId →
    ∃ n, blocking service systemTaskId store (service.cutoff (nows n)) taskId < service.batchTasks

omit [LinearOrder τ] in
theorem cutoff_mono (service : EventRetentionService τ) (hmo : Monotone nows) {i j : Nat} (h : i ≤ j) :
    service.cutoff (nows i) ≤ service.cutoff (nows j) := by
  have hle := hmo h
  unfold EventRetentionService.cutoff
  omega

theorem AllBefore.mono (h : AllBefore store cutoff taskId) (hle : cutoff ≤ cutoff') :
    AllBefore store cutoff' taskId := by
  intro r hr
  exact (h r hr).trans_le hle

theorem AllBefore.congr (h : AllBefore store cutoff taskId)
    (hsf : store'.ofTask taskId = store.ofTask taskId) : AllBefore store' cutoff taskId := by
  intro r hr
  rw [hsf] at hr
  exact h r hr

theorem progress_of_noneStarved (hact : service.active = true) (hmo : Monotone nows)
    (h : NoneStarved service systemTaskId db.store nows) :
    Progress service systemTaskId db nows clocks := by
  intro taskId hsys hfin hbf
  obtain ⟨i, hfew⟩ := h taskId hsys hfin hbf
  by_contra hnev
  simp only [not_exists] at hnev
  -- so the table shrinks for ever
  have hsh : ∀ k, (service.passes systemTaskId db nows clocks (i + k)).store.events.rows.length + k ≤
      (service.passes systemTaskId db nows clocks i).store.events.rows.length := by
    intro k
    induction k with
    | zero => exact Nat.le_refl _
    | succ k =>
      have hre := remains_passes hact systemTaskId db nows clocks (i + k)
      have hsf := hre.left (hnev (i + k))
      have hbf' := hbf.mono (cutoff_mono service hmo (Nat.zero_le i))
      have hcu := cutoff_mono service hmo (Nat.le_add_right i k)
      have hbl := blocking_le systemTaskId hre hsf
        (ofTask_ne_nil hfin) hbf' hcu
      rcases run_decreases hact (clocks (i + k)) hsys
        ((finished_congr hsf).trans hfin) ((hbf'.mono hcu).congr hsf)
        (hbl.trans_lt hfew) with hgn | hle
      · exact absurd hgn (hnev (i + k + 1))
      · have hnx : (service.passes systemTaskId db nows clocks (i + (k + 1))).store.events.rows.length <
            (service.passes systemTaskId db nows clocks (i + k)).store.events.rows.length := hle
        omega
  have hla := hsh ((service.passes systemTaskId db nows clocks i).store.events.rows.length + 1)
  omega

theorem noneStarved_of_progress (hact : service.active = true)
    (h : Progress service systemTaskId db nows clocks) :
    NoneStarved service systemTaskId db.store nows := by
  intro taskId hsys hfin hbf
  obtain ⟨n, hgn⟩ := h taskId hsys hfin hbf
  induction n with
  | zero => exact absurd hgn (ofTask_ne_nil hfin)
  | succ n ih =>
    by_cases hear : (service.passes systemTaskId db nows clocks n).store.ofTask taskId = []
    · exact ih hear
    · -- this pass compacts the task, so the unfinished candidates before it are fewer than the batch
      have hre := remains_passes hact systemTaskId db nows clocks n
      have hsf := hre.left hear
      have hrun : (service.run systemTaskId (service.passes systemTaskId db nows clocks n) (nows n)
          (clocks n)).1.store.ofTask taskId = [] := hgn
      rw [ofTask_run hact] at hrun
      split at hrun
      · rename_i hcps
        have hahd := (compacts_iff.mp hcps).2.2
        refine ⟨n, lt_of_le_of_lt ?_ hahd⟩
        refine countP_le_of_mem (keys_candidates _ _ _).of_map fun c hc hbl => ?_
        rw [Bool.and_eq_true, Bool.not_eq_true', decide_eq_true_eq] at hbl
        obtain ⟨hoth, hold, hca⟩ := mem_candidates.mp hc
        have hunf : service.finished db.store c.taskId = false := by
          rw [← finished_candidate (service.cutoff (nows n)), ← hca]
          exact hbl.1
        have hsm := hre.unfinished hunf
        refine ⟨mem_candidates.mpr ⟨hoth, hsm ▸ hold, ?_⟩, ?_⟩
        · rw [candidate_congr hsm]
          exact hca
        · rw [candidate_congr hsf]
          exact decide_eq_true hbl.2
      · exact absurd hrun hear

/--
**When retention respects the window and makes progress.** A pass compacts only finished tasks without
recent events if and only if no finished task in its batch has both old and recent ones. And if no events
arrive, passes at later and later times compact every old finished task if and only if for each of
them, at some pass, fewer unfinished candidates than the batch rank before it.
-/
theorem retention_iff (service : EventRetentionService τ) (systemTaskId : τ) (db : EventDb τ)
    (hactive : service.active = true) :
    (∀ now clock, OnlyOld service systemTaskId db now clock ↔ NoneSplit service systemTaskId db.store now) ∧
    ∀ nows clocks : Nat → Nat, Monotone nows → (Progress service systemTaskId db nows clocks ↔
        NoneStarved service systemTaskId db.store nows) := by
  constructor
  · intro now clock
    exact onlyOld_iff hactive systemTaskId db now clock
  · intro nows clocks hmo
    constructor
    · intro h
      exact noneStarved_of_progress hactive h
    · intro h
      exact progress_of_noneStarved hactive hmo h

/-! ## Examples -/

namespace Sample

def days (n : Nat) : Nat := n * msPerDay

def event (taskSeq : Nat) (type : String) (taskId day : Nat) : EventRow Nat :=
  ⟨taskSeq + 1, taskSeq, 2, type, taskId, none, days day, none⟩

def tableOf (rows : List (EventRow Nat)) : EventDb Nat :=
  ⟨⟨(UniqueTable.empty _).insertAll rows, rows.length⟩, UniqueTable.empty _⟩

/-- Task 1 runs, and the others are completed. The batch is one task. -/
def retention : EventRetentionService Nat where
  retentionDays := 30
  batchTasks := 1
  enabled := true
  stopped := false
  running := false
  getTaskStatus := fun taskId => some (if taskId = 1 then .running else .completed)

/-- A completed task, with a running task that is newer. -/
def inWindow : EventDb Nat :=
  tableOf [event 0 "NodeStarted" 1 3, event 0 "NodeStarted" 2 1, event 1 "TaskCompleted" 2 2]

/-- The running task is older. -/
def starving : EventDb Nat := tableOf [event 0 "NodeStarted" 1 1, event 0 "TaskCompleted" 2 2]

/-- A task that began long ago and was completed yesterday. -/
def recent : EventDb Nat := tableOf [event 0 "NodeStarted" 2 1, event 1 "TaskCompleted" 2 99]

end Sample

/-- A pass of day 100 compacts the task, and so the passes do. -/
theorem retention_once :
    OnlyOld Sample.retention 0 Sample.inWindow (Sample.days 100) 7 ∧
      Progress Sample.retention 0 Sample.inWindow (fun _ => Sample.days 100) (fun _ => 7) := by
  have hiff := retention_iff Sample.retention 0 Sample.inWindow rfl
  have htas : ∀ taskId, Sample.retention.finished Sample.inWindow.store taskId = true → taskId = 2 := by
    intro taskId hfin
    by_contra hoth
    obtain ⟨r, hr⟩ := exists_mem_of_ne_nil _ (ofTask_ne_nil hfin)
    obtain ⟨hlv, rfl⟩ := mem_ofTask.mp hr
    have hall : ∀ r ∈ Sample.inWindow.store.events.rows, r.taskId = 1 ∨ r.taskId = 2 := by decide
    rcases hall r hlv with htk | htk
    · rw [htk] at hfin
      exact absurd hfin (by decide)
    · exact hoth htk
  constructor
  · refine (hiff.1 (Sample.days 100) 7).mpr fun taskId _ hfin _ ⟨r, hr, hre⟩ => ?_
    obtain rfl := htas taskId hfin
    have hall : ∀ r ∈ Sample.inWindow.store.ofTask 2,
        r.occurredAt < Sample.retention.cutoff (Sample.days 100) := by decide
    have hlt := hall r hr
    omega
  · refine (hiff.2 (fun _ => Sample.days 100) (fun _ => 7) monotone_const).mpr fun taskId _ hfin _ => ?_
    obtain rfl := htas taskId hfin
    exact ⟨0, by decide⟩

/--
The pass compacts the task that was completed yesterday. And the running task takes up the batch of
every pass, so the completed one is never compacted.
-/
theorem recent_and_starved :
    ¬OnlyOld Sample.retention 0 Sample.recent (Sample.days 100) 7 ∧
      ¬Progress Sample.retention 0 Sample.starving (fun _ => Sample.days 100) (fun _ => 7) := by
  constructor
  · intro h
    have hold := (h 2 (by decide) (by decide)).2
    exact absurd hold (by decide)
  · intro h
    have hfew := noneStarved_of_progress (by decide) h 2 (by decide) (by decide) ?_
    · obtain ⟨_, hfew⟩ := hfew
      exact absurd hfew (by decide)
    · have hall : ∀ r ∈ Sample.starving.store.ofTask 2,
          r.occurredAt < Sample.retention.cutoff (Sample.days 100) := by decide
      exact hall

end AiNet.Events
