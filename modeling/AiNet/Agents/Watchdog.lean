import AiNet.Agents.AgentDb
import AiNet.Core.Transition

/-!
# The heartbeat watchdog

A tick has two phases. The first one marks every online agent that has been silent for an interval and
takes it offline. The second one goes through the marked agents: one that was heard again is recovered,
one whose mark is older than the grace period is evicted. Before an eviction the tick awaits `onEvict`,
if there is one; the rows it goes through are those it read when it began.

The timer starts no tick while one is running, but operators can force one, so several may be under way.
Alerts, log lines and published events are left out: nothing here reads them.
-/

namespace AiNet.Agents

open Core List Option UniqueTable

structure WatchdogOptions where
  intervalMs : Nat
  gracePeriodMinutes : Nat
  /-- On-chain state is reconciled before an agent is deleted. -/
  onEvict : Bool
  intervalPos : 0 < intervalMs
  gracePos : 0 < gracePeriodMinutes

def WatchdogOptions.graceMs (o : WatchdogOptions) : Nat := o.gracePeriodMinutes * 60000

namespace Watchdog

/-! ## A tick -/

section Tick

variable (o : WatchdogOptions) (nowMs : Nat)

/-- Phase 1 for one agent that was online: only a first miss starts the grace clock. -/
def detectOne (db : AgentDb) (agent : AgentRow) : AgentDb :=
  if nowMs - agent.lastSeenAt < o.intervalMs then db
  else if (getStaleSince db agent.id).isSome then db
  else markStale db agent.id nowMs

def detect (db : AgentDb) : AgentDb := (listAllOnline db).foldl (detectOne o nowMs) db

/-- What phase 2 makes of a marked agent. -/
inductive Verdict
  | clearedConcurrently | recovered | insideGrace | evict

/-- The mark is read again, the last heartbeat is the one that was read with the list. -/
def verdict (db : AgentDb) (agent : AgentRow) : Verdict :=
  match getStaleSince db agent.id with
  | none => .clearedConcurrently
  | some firstMissedMs =>
    if nowMs - agent.lastSeenAt ≤ o.intervalMs then .recovered
    else if nowMs - firstMissedMs < o.graceMs then .insideGrace
    else .evict

/-- A tick that has begun: it awaits `onEvict` for an agent, with others to come, or is done. -/
inductive TickRun
  | awaiting (nowMs : Nat) (agent : AgentRow) (rest : List AgentRow)
  | done
deriving DecidableEq

/-- Phase 2, up to the next `await`. -/
def settle : List AgentRow → AgentDb → AgentDb × TickRun
  | [], db => (db, .done)
  | agent :: rest, db =>
    match verdict o nowMs db agent with
    | .clearedConcurrently => settle rest db
    | .recovered => settle rest (clearStale db agent.id)
    | .insideGrace => settle rest db
    | .evict =>
      if o.onEvict then (db, .awaiting nowMs agent rest)
      else settle rest (delete db agent.id)

end Tick

/-! ## Runs -/

structure State where
  clock : Nat
  db : AgentDb
  ticks : List TickRun

/-- The body of a registration. -/
structure Registration where
  agentId : Text
  capabilities : List Text
  pricingXLM : Rat
  endpoint : Text
  stellarPublicKey : Text
deriving DecidableEq

def Registration.record (data : Registration) (now : Nat) : AgentRecord where
  id := data.agentId
  capabilities := data.capabilities
  pricingXLM := data.pricingXLM
  endpoint := data.endpoint
  stellarPublicKey := data.stellarPublicKey
  reputationScore := 0
  lastSeenAt := now
  status := .online
  bondAmountXLM := none
  tasksCompleted := none
  tasksFailed := none
  lastActiveAt := none

/-- The heartbeat route: the row is read and written in one go. -/
def heartbeat (db : AgentDb) (now : Nat) (id : Text) : AgentDb :=
  match findById db id with
  | none => db
  | some agent => upsert db { agent with lastSeenAt := now, status := .online }

inductive Event
  | tick
  /-- `onEvict` returns to a tick, or throws. -/
  | settled (i : Nat) (failed : Bool)
  | heartbeat (id : Text)
  | updateLastSeen (id : Text)
  | register (data : Registration)
  | pass (clock : Nat)

def State.step (o : WatchdogOptions) (s : State) : Event → Option State
  | .tick =>
    let db := detect o s.clock s.db
    let (db, run) := settle o s.clock (listStaleAgents db) db
    some { s with db := db, ticks := s.ticks ++ [run] }
  -- a failure is alerted and does not stop the eviction
  | .settled i _ =>
    match s.ticks[i]? with
    | some (.awaiting nowMs agent rest) =>
      let (db, run) := settle o nowMs rest (delete s.db agent.id)
      some { s with db := db, ticks := s.ticks.set i run }
    | some .done => none
    | none => none
  | .heartbeat id => some { s with db := Watchdog.heartbeat s.db s.clock id }
  | .updateLastSeen id => some { s with db := Agents.updateLastSeen s.db s.clock id }
  | .register data => some { s with db := upsert s.db (data.record s.clock) }
  | .pass clock => if s.clock ≤ clock then some { s with clock := clock } else none

/-- Ticks, heartbeats and registrations in any order, from an empty table. -/
def watchdog (o : WatchdogOptions) : System State Event where
  start := fun s => s.db = .empty _ ∧ s.ticks = []
  step := State.step o

def Event.hears : Event → Option Text
  | .tick => none
  | .settled _ _ => none
  | .heartbeat id => some id
  | .updateLastSeen id => some id
  | .register data => some data.agentId
  | .pass _ => none

/-! ## What a tick does to one agent -/

section Views

variable {o : WatchdogOptions} {t : Nat} {db : AgentDb} {a : Text} {row : AgentRow}

/-- The row of an agent that missed its heartbeat, after phase 1. -/
def marked (o : WatchdogOptions) (t : Nat) (row : AgentRow) : AgentRow :=
  if row.status = .online ∧ o.intervalMs ≤ t - row.lastSeenAt ∧ row.staleSince = none then
    { row with staleSince := some t, status := .offline }
  else row

def cleared (row : AgentRow) : AgentRow := { row with staleSince := none, status := .online }

theorem getStaleSince_of_find (h : db.find a = some row) : getStaleSince db a = row.staleSince := by
  rw [getStaleSince, h]
  rfl

variable {agent : AgentRow}

theorem find_detectOne_ne (h : agent.id ≠ a) :
    (detectOne o t db agent).find a = db.find a := by
  unfold detectOne
  split
  · rfl
  · split
    · rfl
    · rw [markStale, find_updateWhere, if_neg h]

variable {agents : List AgentRow}

theorem find_detects_ne (h : ∀ agent ∈ agents, agent.id ≠ a) :
    (agents.foldl (detectOne o t) db).find a = db.find a := by
  induction agents generalizing db with
  | nil => rfl
  | cons agent agents ih =>
    rw [foldl_cons, ih fun agent' h' => h agent' (mem_cons_of_mem _ h'),
      find_detectOne_ne (h agent (mem_cons_self ..))]

theorem find_detectOne_self (h : db.find a = some row) (honl : row.status = .online) :
    (detectOne o t db row).find a = some (marked o t row) := by
  obtain ⟨_, rfl⟩ := find_eq_some.mp h
  unfold detectOne marked
  rw [getStaleSince_of_find h]
  split
  · rename_i hfr
    rw [if_neg fun hmk => Nat.not_lt_of_le hmk.2.1 hfr, h]
  · rename_i hsil
    cases hsle : row.staleSince with
    | some m =>
      rw [if_pos (show (some m).isSome = true from rfl), if_neg fun hmk => some_ne_none m hmk.2.2, h]
    | none =>
      rw [if_neg (by simp), if_pos ⟨honl, Nat.le_of_not_lt hsil, rfl⟩, markStale,
        find_updateWhere, if_pos rfl, h, map_some, hsle]
      rfl

/-- **Phase 1 marks the silent agents that are online and not marked.** -/
theorem find_detect (o : WatchdogOptions) (t : Nat) (db : AgentDb) (a : Text) :
    (detect o t db).find a = (db.find a).map (marked o t) := by
  unfold detect
  cases hfi : db.find a with
  | none =>
    rw [find_detects_ne, hfi]
    · rfl
    · intro agent hagt
      exact find_eq_none.mp hfi agent (mem_listAllOnline.mp hagt).1
  | some row =>
    obtain ⟨hrow, hkey⟩ := find_eq_some.mp hfi
    cases hst : row.status with
    | offline =>
      rw [find_detects_ne, hfi, map_some, marked, if_neg]
      · rintro ⟨honl, _⟩
        rw [hst] at honl
        cases honl
      · intro agent hagt heq
        obtain ⟨hmem, honl⟩ := mem_listAllOnline.mp hagt
        rw [unique hmem hrow (heq.trans hkey.symm), hst] at honl
        cases honl
    | online =>
      have hmem : row ∈ listAllOnline db := mem_listAllOnline.mpr ⟨hrow, hst⟩
      obtain ⟨before, after, hspl⟩ := append_of_mem hmem
      have hnd : ((listAllOnline db).map AgentRow.id).Nodup :=
        db.keys.sublist (filter_sublist.map _)
      rw [hspl, map_append, map_cons, nodup_append] at hnd
      obtain ⟨_, hco, hdi⟩ := hnd
      have hbf : ∀ agent ∈ before, agent.id ≠ a := by
        intro agent hagt heq
        refine hdi _ (List.mem_map_of_mem hagt) _ (mem_cons_self ..) ?_
        rw [heq, hkey]
      have haf : ∀ agent ∈ after, agent.id ≠ a := by
        intro agent hagt heq
        refine (nodup_cons.mp hco).1 ?_
        rw [hkey, ← heq]
        exact List.mem_map_of_mem hagt
      rw [hspl, foldl_append, foldl_cons, find_detects_ne haf]
      exact find_detectOne_self ((find_detects_ne hbf).trans hfi) hst

/-- How phase 2 changes the row of an agent, with a list of rows it has read. -/
inductive Changed (o : WatchdogOptions) (t : Nat) (agents : List AgentRow) (a : Text) :
    Option AgentRow → Option AgentRow → Prop
  | same (found : Option AgentRow) : Changed o t agents a found found
  | cleared {row agent : AgentRow} : agent ∈ agents → agent.id = a →
      t - agent.lastSeenAt ≤ o.intervalMs → Changed o t agents a (some row) (some (cleared row))
  | deleted {row agent : AgentRow} {m : Nat} : agent ∈ agents → agent.id = a →
      o.intervalMs < t - agent.lastSeenAt → row.staleSince = some m → o.graceMs ≤ t - m →
      o.onEvict = false → Changed o t agents a (some row) none

theorem Changed.weaken {found found' : Option AgentRow}
    (h : Changed o t agents a found found') : Changed o t (agent :: agents) a found found' := by
  cases h with
  | same => exact .same _
  | cleared hmem hkey hfr => exact .cleared (mem_cons_of_mem _ hmem) hkey hfr
  | deleted hmem hkey hsil hmk hgrc hevi =>
    exact .deleted (mem_cons_of_mem _ hmem) hkey hsil hmk hgrc hevi

theorem Changed.of_cleared {found : Option AgentRow}
    (h : Changed o t agents a (some (Watchdog.cleared row)) found) :
    found = some (Watchdog.cleared row) := by
  cases h with
  | same | cleared => rfl
  | deleted _ _ _ hmk => cases hmk

theorem Changed.of_deleted {found : Option AgentRow} (h : Changed o t agents a none found) : found = none := by
  cases h with
  | same => rfl

theorem find_clearStale (id : Text) : (clearStale db id).find a =
    if id = a then (db.find a).map cleared else db.find a := find_updateWhere a

theorem of_verdict (o : WatchdogOptions) (t : Nat) (db : AgentDb) (agent : AgentRow) :
    match verdict o t db agent with
    | .clearedConcurrently => getStaleSince db agent.id = none
    | .recovered => (∃ m, getStaleSince db agent.id = some m) ∧ t - agent.lastSeenAt ≤ o.intervalMs
    | .insideGrace => o.intervalMs < t - agent.lastSeenAt ∧
        ∃ m, getStaleSince db agent.id = some m ∧ t - m < o.graceMs
    | .evict => o.intervalMs < t - agent.lastSeenAt ∧
        ∃ m, getStaleSince db agent.id = some m ∧ o.graceMs ≤ t - m := by
  unfold verdict
  cases hsle : getStaleSince db agent.id with
  | none => rfl
  | some m =>
    by_cases hfr : t - agent.lastSeenAt ≤ o.intervalMs
    · simp only [if_pos hfr]
      exact ⟨⟨m, rfl⟩, hfr⟩
    · by_cases hgrc : t - m < o.graceMs
      · simp only [if_neg hfr, if_pos hgrc]
        exact ⟨Nat.lt_of_not_le hfr, m, rfl, hgrc⟩
      · simp only [if_neg hfr, if_neg hgrc]
        exact ⟨Nat.lt_of_not_le hfr, m, rfl, Nat.le_of_not_lt hgrc⟩

theorem find_of_getStaleSince {m : Nat} (h : getStaleSince db a = some m) :
    ∃ row, db.find a = some row ∧ row.staleSince = some m := bind_eq_some_iff.mp h

/-- **Phase 2 leaves a row alone, clears its mark or deletes it.** -/
theorem settle_changed (o : WatchdogOptions) (t : Nat) (a : Text) (agents : List AgentRow)
    (db : AgentDb) : Changed o t agents a (db.find a) ((settle o t agents db).1.find a) := by
  induction agents generalizing db with
  | nil => exact .same _
  | cons agent agents ih =>
    unfold settle
    have hvdt := of_verdict o t db agent
    cases hv : verdict o t db agent with
    | clearedConcurrently | insideGrace => exact (ih db).weaken
    | recovered =>
      rw [hv] at hvdt
      obtain ⟨⟨m, hm⟩, hfr⟩ := hvdt
      have hrst := ih (clearStale db agent.id)
      rw [find_clearStale] at hrst
      split at hrst
      · rename_i hkey
        obtain ⟨row, hrow, _⟩ := find_of_getStaleSince hm
        rw [hkey] at hrow
        rw [hrow, map_some] at hrst
        rw [hrow, hrst.of_cleared]
        exact .cleared (mem_cons_self ..) hkey hfr
      · exact hrst.weaken
    | evict =>
      rw [hv] at hvdt
      obtain ⟨hsil, m, hm, hgrc⟩ := hvdt
      simp only
      split
      · exact .same _
      · rename_i hevi
        have hrst := ih (delete db agent.id)
        rw [find_delete] at hrst
        split at hrst
        · rename_i hkey
          obtain ⟨row, hrow, hmk⟩ := find_of_getStaleSince hm
          rw [hkey] at hrow
          rw [hrow, hrst.of_deleted]
          exact .deleted (mem_cons_self ..) hkey hsil hmk hgrc
            (Bool.eq_false_iff.mpr hevi)
        · exact hrst.weaken

theorem settle_awaiting {agents rest : List AgentRow} {t' : Nat} {db' : AgentDb}
    (h : settle o t agents db = (db', .awaiting t' agent rest)) :
    t' = t ∧ o.onEvict = true ∧ (agent :: rest) <:+ agents := by
  induction agents generalizing db with
  | nil => cases (Prod.mk.inj h).2
  | cons first agents ih =>
    unfold settle at h
    have hltr : ∀ {db : AgentDb}, settle o t agents db = (db', .awaiting t' agent rest) →
        t' = t ∧ o.onEvict = true ∧ (agent :: rest) <:+ first :: agents := by
      intro db h
      obtain ⟨htm, hevi, hsfx⟩ := ih h
      exact ⟨htm, hevi, hsfx.trans (suffix_cons first agents)⟩
    split at h
    · exact hltr h
    · exact hltr h
    · exact hltr h
    · split at h
      · rename_i hevi
        obtain ⟨rfl, rfl, rfl⟩ := TickRun.awaiting.inj (Prod.mk.inj h).2
        exact ⟨rfl, hevi, suffix_refl _⟩
      · exact hltr h

end Views

/-- A tick every minute, ten minutes of grace, and the registry is asked before an eviction. -/
def byDefault : WatchdogOptions := ⟨60000, 10, true, Nat.succ_pos _, Nat.succ_pos _⟩

end Watchdog

end AiNet.Agents
