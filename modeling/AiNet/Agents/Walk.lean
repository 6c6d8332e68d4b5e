import AiNet.Agents.AgentDb
import AiNet.Core.Keyset
import AiNet.Core.Transition
import Mathlib.Data.Char
import Mathlib.Data.List.Lex
import Mathlib.Data.Prod.Lex

/-!
# Walking the agents page by page

Pages go by (lastSeenAt, id), both falling, and a heartbeat changes the first. An agent that it moves past the cursor
between two pages is missed, one that comes back behind it is returned again. `walk_exact`: a walk whose writes are all
`Steady` returns every agent that it began with once.
-/

namespace AiNet.Agents.Walk

open Core List Option OrderDual System UniqueTable

/-- What `encodeCursor` writes and `decodeCursor` reads back, in the order of the listing. -/
abbrev Cursor := (Nat ×ₗ Text)ᵒᵈ

def cursorOf (row : AgentRow) : Cursor := toDual (toLex (row.lastSeenAt, row.id))

def listCursor (db : AgentDb) (cursor : Option Cursor) (limit : Option Int) : Except String (Page AgentRecord Cursor) :=
  let limit := limit.getD 20
  if limit < 1 ∨ 100 < limit then .error "limit must be an integer between 1 and 100"
  else if cursor.any fun c => (ofLex (ofDual c)).2.isEmpty then .error "Invalid agent cursor"
  else
    let found := page cursorOf db.rows cursor limit.toNat
    .ok ⟨found.items.map AgentRow.toRecord, found.nextCursor⟩

/-- `MAX(0.0, MIN(5.0, reputationScore + ?))` -/
def AgentRow.rated (row : AgentRow) (delta : Rat) : AgentRow :=
  { row with reputationScore := max 0 (min 5 (row.reputationScore + delta)) }

def updateReputation (db : AgentDb) (id : Text) (delta : Rat) : AgentDb :=
  updateWhere db id (fun row => AgentRow.rated row delta) fun _ => rfl

inductive Outcome
  | success | failure
deriving DecidableEq

def updateReputationWithStats (db : AgentDb) (now : Nat) (id : Text) (delta : Rat) (outcome : Option Outcome) : AgentDb :=
  updateWhere db id (fun row => { AgentRow.rated row delta with
    tasksCompleted := if outcome = some .success then row.tasksCompleted + 1 else row.tasksCompleted
    tasksFailed := if outcome = some .failure then row.tasksFailed + 1 else row.tasksFailed
    lastActiveAt := now
    lastSeenAt := now }) fun _ => rfl

inductive Event
  | listCursor (limit : Option Int)
  | updateLastSeen (now : Nat) (agentId : Text)
  | upsert (agent : AgentRecord)
  | updateReputation (id : Text) (delta : Rat)
  | updateReputationWithStats (now : Nat) (id : Text) (delta : Rat) (outcome : Option Outcome)

def Event.write (db : AgentDb) : Event → AgentDb
  | .listCursor _ => db
  | .updateLastSeen now agentId => Agents.updateLastSeen db now agentId
  | .upsert agent => Agents.upsert db agent
  | .updateReputation id delta => Walk.updateReputation db id delta
  | .updateReputationWithStats now id delta outcome => Walk.updateReputationWithStats db now id delta outcome

/-- The table, and a walk over it: who was there when it began, and who has been returned. -/
structure State where
  db : AgentDb
  present : List Text
  cursor : Option Cursor
  ended : Bool
  returned : List Text

def State.read (s : State) (found : Page AgentRecord Cursor) : State :=
  { s with
    cursor := found.nextCursor
    ended := found.nextCursor.isNone
    returned := s.returned ++ found.items.map AgentRecord.id }

def walk : System State Event where
  start s := s.present = s.db.rows.map AgentRow.id ∧ s.cursor = none ∧ s.ended = false ∧ s.returned = []
  step s e := match e with
    | .listCursor limit => if s.ended then none else (listCursor s.db s.cursor limit).toOption.map s.read
    | e => some { s with db := e.write s.db }

/-- The agent whose `lastSeenAt` is set, and its new value. -/
def Event.sees : Event → Option (Text × Nat)
  | .updateLastSeen now id | .updateReputationWithStats now id _ _ => some (id, now)
  | .upsert agent => some (agent.id, agent.lastSeenAt)
  | _ => none

/-- While there is a cursor, an agent that was there when the walk began stays on its side of it. -/
def Steady (s : State) (e : Event) : Prop :=
  ∀ seen ∈ e.sees, seen.1 ∈ s.present → ∀ c ∈ s.cursor, ∀ row ∈ s.db.find seen.1,
    c < cursorOf { row with lastSeenAt := seen.2 } ↔ c < cursorOf row

local instance : LawfulBEq Text := inferInstance

instance (s : State) (e : Event) : Decidable (Steady s e) := by
  unfold Steady
  infer_instance

variable {s s' : State} {e : Event} {db : AgentDb} {k : Text} {row : AgentRow}

/-- An agent keeps its place, or is seen. -/
def Placed (e : Event) (k : Text) (row row' : AgentRow) : Prop :=
  cursorOf row' = cursorOf row ∨ ∃ seen ∈ e.sees, seen.1 = k ∧ cursorOf row' = cursorOf { row with lastSeenAt := seen.2 }

theorem placed_where {id : Text} {f : AgentRow → AgentRow} (h : db.find k = some row) (hf : ∀ row, (f row).id = row.id)
    (hpla : Placed e id row (f row)) : ∃ row', (updateWhere db id f hf).find k = some row' ∧ Placed e k row row' := by
  rw [find_updateWhere, h]
  split
  · rename_i hk
    exact ⟨f row, rfl, hk ▸ hpla⟩
  · exact ⟨row, rfl, .inl rfl⟩

theorem placed_write (h : db.find k = some row) : ∃ row', (e.write db).find k = some row' ∧ Placed e k row row' := by
  cases e with
  | listCursor => exact ⟨row, h, .inl rfl⟩
  | updateReputation => exact placed_where h (fun _ => by rfl) (.inl rfl)
  | updateLastSeen | updateReputationWithStats => exact placed_where h (fun _ => by rfl) (.inr ⟨_, rfl, rfl, rfl⟩)
  | upsert agent =>
    refine ⟨if agent.id = k then agent.onto row else row, ?_, ?_⟩
    · exact (find_upsert agent k).trans (by rw [h, apply_ite some]; rfl)
    · split
      · exact .inr ⟨_, rfl, ‹_›, rfl⟩
      · exact .inl rfl

theorem keys_nodup (db : AgentDb) : (db.rows.map cursorOf).Nodup := by
  refine Nodup.of_map (fun c => (ofLex (ofDual c)).2) ?_
  rw [List.map_map]
  exact db.keys

/-- An agent is behind the walk. -/
def State.Passed (s : State) (row : AgentRow) : Prop := s.ended = true ∨ ∃ c ∈ s.cursor, cursorOf row ≤ c

/-- **The walk so far**: who is behind it has been returned once, and who is ahead not at all. -/
def Exact (s : State) : Prop :=
  ∀ k ∈ s.present, ∃ row, s.db.find k = some row ∧ (s.Passed row → s.returned.count k = 1) ∧
    (¬s.Passed row → s.returned.count k = 0)

theorem exact_read {limit : Option Int} {found : Page AgentRecord Cursor} (hgo : s.ended = false)
    (h : listCursor s.db s.cursor limit = .ok found) (hI : Exact s) : Exact (s.read found) := by
  unfold listCursor at h
  dsimp only at h
  split at h
  · cases h
  · rename_i hlim
    split at h
    · cases h
    · obtain rfl := Except.ok.inj h
      have hpos : 0 < (limit.getD 20).toNat := by omega
      generalize (limit.getD 20).toNat = n at hpos
      intro k hk
      obtain ⟨row, hfi, hpsd, hahe⟩ := hI k hk
      obtain ⟨hrow, rfl⟩ := find_eq_some.mp hfi
      have hmem := @mem_page _ _ _ _ _ s.cursor _ row (keys_nodup s.db) hpos
      have hcnt := @count_page _ _ _ cursorOf _ s.cursor n _ _ _ _ _ _ s.db.keys hrow
      refine ⟨row, hfi, ?_⟩
      simp only [State.Passed, hgo, Bool.false_eq_true, false_or] at hpsd hahe
      simp only [State.read, State.Passed, count_append, List.map_map]
      rw [show AgentRecord.id ∘ AgentRow.toRecord = AgentRow.id from rfl, hcnt]
      by_cases hps : ∃ c ∈ s.cursor, cursorOf row ≤ c
      · obtain ⟨c, hc, hle⟩ := hps
        rw [if_neg fun hin => hle.not_gt ((hmem.mp hin).2.1 c hc), hpsd ⟨c, hc, hle⟩]
        refine ⟨fun _ => rfl, fun hno => absurd ?_ hno⟩
        cases hnx : (page cursorOf s.db.rows s.cursor n).nextCursor with
        | none => exact .inl rfl
        | some =>
          obtain ⟨last, hla, rfl⟩ := of_nextCursor hnx
          exact .inr ⟨_, rfl, hle.trans (((mem_page (keys_nodup s.db) hpos).mp hla).2.1 c hc).le⟩
      · rw [hahe hps]
        have hin : row ∈ (page cursorOf s.db.rows s.cursor n).items ↔
            (page cursorOf s.db.rows s.cursor n).nextCursor.isNone = true ∨
              ∃ c ∈ (page cursorOf s.db.rows s.cursor n).nextCursor, cursorOf row ≤ c := by
          rw [hmem, and_iff_right hrow, and_iff_right (by simpa using hps)]
          cases (page cursorOf s.db.rows s.cursor n).nextCursor with
          | none | some => simp
        rw [← hin]
        exact ⟨fun h => by rw [if_pos h], fun h => by rw [if_neg h]⟩

theorem exact_write (hg : Steady s e) (hI : Exact s) : Exact { s with db := e.write s.db } := by
  intro k hk
  obtain ⟨row, hfi, hpsd, hahe⟩ := hI k hk
  obtain ⟨row', hfi', hpla⟩ := placed_write (e := e) hfi
  have hsd : State.Passed { s with db := e.write s.db } row' ↔ s.Passed row := by
    refine or_congr_right (exists_congr fun c => and_congr_right fun hc => ?_)
    rw [← not_lt, ← not_lt, not_iff_not]
    rcases hpla with heq | ⟨seen, hseen, rfl, heq⟩
    · rw [heq]
    · exact heq ▸ hg seen hseen hk c hc row hfi
  exact ⟨row', hfi', fun h => hpsd (hsd.mp h), fun h => hahe (hsd.not.mp h)⟩

theorem exact_step (hg : Steady s e) (hI : Exact s) (h : walk.step s e = some s') : Exact s' := by
  cases e with
  | listCursor limit =>
    simp only [walk, ite_none_left_eq_some, Bool.not_eq_true, map_eq_some_iff] at h
    obtain ⟨hgo, found, hok, rfl⟩ := h
    cases hls : listCursor s.db s.cursor limit with
    | error =>
      rw [hls] at hok
      cases hok
    | ok =>
      rw [hls] at hok
      exact exact_read hgo (hls.trans (by rw [some.inj hok])) hI
  | _ =>
    cases h
    exact exact_write hg hI

theorem exact_start (h : walk.start s) : Exact s := by
  obtain ⟨hpres, hcur, hend, hret⟩ := h
  intro k hk
  rw [hpres] at hk
  obtain ⟨row, hrow, rfl⟩ := mem_map.mp hk
  refine ⟨row, find_eq_some.mpr ⟨hrow, rfl⟩, fun hps => ?_, fun _ => by rw [hret]; rfl⟩
  simp [State.Passed, hcur, hend] at hps

/--
**A walk whose writes are steady is exact.** It returns nobody twice who was there when it began, and when it ends it
has returned each of them.
-/
theorem walk_exact (h : walk.Reachable Steady s) (hk : k ∈ s.present) :
    s.returned.count k ≤ 1 ∧ (s.ended = true → s.returned.count k = 1) := by
  obtain ⟨row, -, hpsd, hahe⟩ := h.invariant (I := Exact) (fun _ => exact_start) (fun s e s' _ => exact_step) k hk
  refine ⟨?_, fun hend => hpsd (.inl hend)⟩
  by_cases hps : s.Passed row
  · exact (hpsd hps).le
  · rw [hahe hps]
    exact Nat.zero_le 1

namespace Sample

def seen (id : Char) (lastSeenAt : Nat) : AgentRow :=
  ⟨[id], [], 1, [], [], 2, lastSeenAt, .online, 0, 0, 0, lastSeenAt, none⟩

/-- A walk over two agents, the first of which was seen last. -/
def start : State := ⟨⟨[seen 'a' 2, seen 'b' 1], by decide⟩, [['a'], ['b']], none, false, []⟩

theorem start_ok : walk.start start := ⟨rfl, rfl, rfl, rfl⟩

end Sample

theorem walk_exact_two : ∃ s, walk.Reachable Steady s ∧ s.ended = true ∧ s.returned.count ['b'] = 1 := by
  have hpl : (walk.play Steady [.listCursor (some 1), .updateLastSeen 3 ['a'], .listCursor none] Sample.start).any
      (fun s => decide (s.ended = true ∧ ['b'] ∈ s.present)) = true := by decide
  obtain ⟨s, hs, hend⟩ := exists_reachable Sample.start_ok hpl
  exact ⟨s, hs, hend.1, (walk_exact hs hend.2).2 hend.1⟩

/-- **The second agent is seen after the first page, and missed.** -/
theorem seen_between_pages : ∃ s, walk.Reachable (fun _ _ => True) s ∧ s.ended = true ∧ ['b'] ∈ s.present ∧
    s.returned.count ['b'] = 0 := by
  have hpl : (walk.play (fun _ _ => True) [.listCursor (some 1), .updateLastSeen 3 ['b'], .listCursor (some 1)] Sample.start).any
      (fun s => decide (s.ended = true ∧ ['b'] ∈ s.present ∧ s.returned.count ['b'] = 0)) = true := by decide
  exact exists_reachable Sample.start_ok hpl

end AiNet.Agents.Walk
