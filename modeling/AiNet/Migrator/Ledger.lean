import Mathlib.Data.List.Sort
import Mathlib.Data.List.TakeWhile
import AiNet.Core.Transition

/-!
# Migrations and their ledger

The script of a migration and its row in `schema_migrations` are one transaction, and a script that fails ends the run.
`rollback` takes the last rows with `slice(-steps)`; that is all of them where `steps` is zero.
-/

namespace AiNet.Migrator

open Core List Option

inductive Direction where
  | up
  | down
  deriving DecidableEq

/-- A file whose name fits the pattern; others are skipped. -/
structure MigrationFile where
  version : Nat
  name : String
  direction : Direction
  sql : String

structure Migration where
  version : Nat
  name : String
  upSql : String
  downSql : String
  checksum : String

/-- The Map of the up files throws on a version that comes again; that of the down files keeps the last. -/
def loadMigrations (checksumOf : String → String) (files : List MigrationFile) : Option (List Migration) :=
  let ups := files.filter fun f => decide (f.direction = .up)
  let downSql version := (files.reverse.find? fun f => decide (f.direction = .down ∧ f.version = version)).map
    MigrationFile.sql
  if (ups.map MigrationFile.version).Nodup then
    (ups.mapM fun f => (downSql f.version).map fun sql => ⟨f.version, f.name, f.sql, sql, checksumOf f.sql⟩).map
      fun migrations => migrations.insertionSort fun m m' => m.version ≤ m'.version
  else none

structure AppliedMigrationRow where
  version : Nat
  name : String
  checksum : String

def Migration.row (m : Migration) : AppliedMigrationRow := ⟨m.version, m.name, m.checksum⟩

/-- The rows of `schema_migrations`, and the scripts that took effect, the last one first. -/
structure Database where
  rows : List AppliedMigrationRow
  effects : List (Nat × Direction)

def Database.apply (db : Database) (m : Migration) : Database := ⟨db.rows ++ [m.row], (m.version, .up) :: db.effects⟩

def Database.revert (db : Database) (version : Nat) : Database :=
  ⟨db.rows.filter fun row => decide (row.version ≠ version), (version, .down) :: db.effects⟩

variable (migrations : List Migration) (fails : Nat → Bool) (db : Database)

def getAppliedMigrations : List AppliedMigrationRow := db.rows.insertionSort fun r r' => r.version ≤ r'.version

def getPendingMigrations : List Migration :=
  migrations.filter fun m => decide (m.version ∉ (getAppliedMigrations db).map AppliedMigrationRow.version)

/-- A row whose checksum is not that of the file. -/
def drifted : Bool :=
  (getAppliedMigrations db).any fun row =>
    (migrations.find? fun m => decide (m.version = row.version)).any fun m => decide (m.checksum ≠ row.checksum)

/-- Apply what is there, up to a script that fails; the second part says that none did. -/
def applyAll (db : Database) : List Migration → Database × Bool
  | [] => (db, true)
  | m :: rest => if fails m.version then (db, false) else applyAll (db.apply m) rest

def migrateToLatest : Database × Bool :=
  if drifted migrations db then (db, false) else applyAll fails db (getPendingMigrations migrations db)

/-- `array.slice(start)`. -/
def slice {α : Type} (l : List α) (start : Int) : List α :=
  if start < 0 then l.drop (l.length - start.natAbs) else l.drop start.natAbs

def revertAll (db : Database) : List AppliedMigrationRow → Database × Bool
  | [] => (db, true)
  | row :: rest =>
    if (migrations.any fun m => decide (m.version = row.version)) && !fails row.version then
      revertAll (db.revert row.version) rest
    else (db, false)

def rollback (steps : Nat) : Database × Bool :=
  revertAll migrations fails db (slice (getAppliedMigrations db) (-steps)).reverse

/-- A call, with the versions whose script fails in it. -/
inductive Event where
  | migrateToLatest (fails : Nat → Bool)
  | rollback (steps : Nat) (fails : Nat → Bool)

def step (db : Database) : Event → Option Database
  | .migrateToLatest fails => some (migrateToLatest migrations fails db).1
  | .rollback steps fails => some (rollback migrations fails db steps).1

def system : System Database Event where
  start db := db = ⟨[], []⟩
  step := step migrations

variable {migrations fails db} {db' : Database}

/-- The rows are those of the migrations whose up script took effect last, once each. -/
structure Database.InStep (migrations : List Migration) (db : Database) : Prop where
  nodup : (db.rows.map AppliedMigrationRow.version).Nodup
  rows : ∀ row, row ∈ db.rows ↔ ∃ m ∈ migrations, m.row = row ∧
    db.effects.find? (fun e => decide (e.1 = m.version)) = some (m.version, .up)

/-- What `loadMigrations` returns, in the order of the versions. -/
abbrev Ordered (migrations : List Migration) : Prop := migrations.Pairwise fun m m' => m.version < m'.version

theorem map_of_mapM {α β γ : Type} {f : α → Option β} {g : α → γ} {g' : β → γ}
    (hf : ∀ a b, f a = some b → g' b = g a) {l : List α} {l' : List β} (h : l.mapM f = some l') :
    l'.map g' = l.map g := by
  induction l generalizing l' with
  | nil =>
    cases h
    rfl
  | cons a l ih =>
    rw [mapM_cons] at h
    obtain ⟨b, hb, h⟩ := bind_eq_some_iff.mp h
    obtain ⟨rest, hrest, h⟩ := bind_eq_some_iff.mp h
    cases h
    rw [map_cons, map_cons, hf a b hb, ih hrest]

theorem ordered_load {checksumOf : String → String} {files : List MigrationFile}
    (h : loadMigrations checksumOf files = some migrations) : Ordered migrations := by
  obtain ⟨hnd, h⟩ := ite_none_right_eq_some.mp h
  obtain ⟨loaded, hld, rfl⟩ := map_eq_some_iff.mp h
  have hver : loaded.map Migration.version =
      (files.filter fun f => decide (f.direction = .up)).map MigrationFile.version := by
    refine map_of_mapM (fun f m hm => ?_) hld
    obtain ⟨sql, -, rfl⟩ := map_eq_some_iff.mp hm
    rfl
  have hle : Std.Total fun m m' : Migration => m.version ≤ m'.version := ⟨fun m m' => le_total ..⟩
  have htr : IsTrans Migration fun m m' => m.version ≤ m'.version := ⟨fun _ _ _ => le_trans⟩
  have hsorted := pairwise_insertionSort (fun m m' : Migration => m.version ≤ m'.version) loaded
  have hnodup := ((perm_insertionSort (fun m m' : Migration => m.version ≤ m'.version) loaded).map
    Migration.version).nodup_iff.mpr (hver ▸ hnd)
  exact (hsorted.and (pairwise_map.mp hnodup)).imp fun h => lt_of_le_of_ne h.1 h.2

/-- Where a run stands: a first part of the migrations is applied, in the order of the rows. -/
structure Database.At (db : Database) (done rest : List Migration) : Prop where
  rows : db.rows = done.map Migration.row
  up : ∀ m ∈ done, db.effects.find? (fun e => decide (e.1 = m.version)) = some (m.version, .up)
  down : ∀ m ∈ rest, db.effects.find? (fun e => decide (e.1 = m.version)) ≠ some (m.version, .up)

variable {done rest : List Migration} {m : Migration}

theorem Ordered.ne (ho : Ordered (done ++ m :: rest)) {m' : Migration} (hm' : m' ∈ done ++ rest) :
    m.version ≠ m'.version := by
  have hno := pairwise_append.mp ho
  rcases mem_append.mp hm' with hm' | hm'
  · exact (hno.2.2 m' hm' m mem_cons_self).ne'
  · exact (rel_of_pairwise_cons hno.2.1 hm').ne

theorem Database.At.apply (h : db.At done (m :: rest)) (ho : Ordered (done ++ m :: rest)) :
    (db.apply m).At (done ++ [m]) rest := by
  refine ⟨?_, fun m' hm' => ?_, fun m' hm' => ?_⟩
  · rw [map_append, ← h.rows]
    rfl
  · rcases mem_append.mp hm' with hm' | hm'
    · exact (find?_cons_of_neg (by simpa using ho.ne (mem_append_left _ hm'))).trans (h.up m' hm')
    · rw [mem_singleton.mp hm']
      exact find?_cons_of_pos (by simp)
  · exact fun hup => h.down m' (mem_cons_of_mem _ hm')
      ((find?_cons_of_neg (by simpa using ho.ne (mem_append_right _ hm'))).symm.trans hup)

theorem Database.At.revert (h : db.At (done ++ [m]) rest) (ho : Ordered (done ++ m :: rest)) :
    (db.revert m.version).At done (m :: rest) := by
  refine ⟨?_, fun m' hm' => ?_, fun m' hm' hup => ?_⟩
  · have hall : (done.map Migration.row).filter (fun row => decide (row.version ≠ m.version)) = done.map Migration.row :=
      filter_eq_self.mpr fun row hrow => by
        obtain ⟨m', hm', rfl⟩ := List.mem_map.mp hrow
        exact decide_eq_true (ho.ne (mem_append_left _ hm')).symm
    rw [Database.revert, h.rows, map_append, filter_append, hall]
    simp [Migration.row]
  · exact (find?_cons_of_neg (by simpa using ho.ne (mem_append_left _ hm'))).trans (h.up m' (mem_append_left _ hm'))
  · rcases mem_cons.mp hm' with rfl | hm'
    · rw [Database.revert, find?_cons_of_pos (by simp)] at hup
      cases (Prod.mk.inj (some.inj hup)).2
    · exact h.down m' hm' ((find?_cons_of_neg (by simpa using ho.ne (mem_append_right _ hm'))).symm.trans hup)

theorem Database.At.run_up (h : db.At done rest) (ho : Ordered (done ++ rest)) :
    ∃ left, (applyAll fails db rest).1.At (done ++ rest.takeWhile fun m => !fails m.version) left ∧
      done ++ rest = (done ++ rest.takeWhile fun m => !fails m.version) ++ left ∧
      (applyAll fails db rest).1.effects =
        ((rest.takeWhile fun m => !fails m.version).map fun m => (m.version, Direction.up)).reverse ++ db.effects := by
  induction rest generalizing db done with
  | nil => exact ⟨[], by simpa [applyAll] using h, by simp, rfl⟩
  | cons m rest ih =>
    rw [applyAll]
    split
    · next hf => exact ⟨m :: rest, by simpa [hf] using h, by simp [hf], by simp [hf]⟩
    · next hf =>
      obtain ⟨left, hat, heq, heff⟩ := ih (h.apply ho) (by simpa using ho)
      rw [takeWhile_cons_of_pos (by simpa using hf)]
      refine ⟨left, by simpa using hat, by simpa using heq, ?_⟩
      rw [heff, Database.apply, map_cons, reverse_cons, append_assoc, singleton_append]

theorem Database.At.run_down {undo : List Migration} (h : db.At (done ++ undo.reverse) rest)
    (hsplit : migrations = done ++ undo.reverse ++ rest) (ho : Ordered migrations) :
    ∃ done' rest', migrations = done' ++ rest' ∧ (revertAll migrations fails db (undo.map Migration.row)).1.At done' rest' ∧
      (revertAll migrations fails db (undo.map Migration.row)).1.effects =
        (((undo.map Migration.row).takeWhile fun row => !fails row.version).map
          fun row => (row.version, Direction.down)).reverse ++ db.effects := by
  induction undo generalizing db rest with
  | nil => exact ⟨_, rest, hsplit, h, rfl⟩
  | cons m undo ih =>
    have hmem : (migrations.any fun m' => decide (m'.version = m.row.version)) = true :=
      any_eq_true.mpr ⟨m, by simp [hsplit], decide_eq_true rfl⟩
    have hre : done ++ (m :: undo).reverse = done ++ undo.reverse ++ [m] := by simp
    rw [map_cons, revertAll, hmem, Bool.true_and]
    split
    · next hf =>
      have hsplit' : migrations = done ++ undo.reverse ++ m :: rest := by simp [hsplit]
      obtain ⟨done', rest', heq, hat, heff⟩ := ih ((hre ▸ h).revert (hsplit' ▸ ho)) hsplit'
      rw [takeWhile_cons_of_pos (p := fun row : AppliedMigrationRow => !fails row.version) hf]
      refine ⟨done', rest', heq, hat, heff.trans ?_⟩
      rw [Database.revert, map_cons, reverse_cons, append_assoc, singleton_append]
      rfl
    · next hf =>
      rw [takeWhile_cons_of_neg (p := fun row : AppliedMigrationRow => !fails row.version) hf]
      exact ⟨_, rest, hsplit, h, rfl⟩

theorem Database.At.applied (h : db.At done rest) (ho : Ordered (done ++ rest)) : getAppliedMigrations db = db.rows := by
  have hle := (pairwise_append.mp ho).1
  rw [getAppliedMigrations, h.rows]
  exact Pairwise.insertionSort_eq (pairwise_map.mpr (hle.imp fun h => h.le))

theorem Database.At.pending (h : db.At done rest) (ho : Ordered (done ++ rest)) :
    getPendingMigrations (done ++ rest) db = rest := by
  have hno := pairwise_append.mp ho
  rw [getPendingMigrations, h.applied ho, h.rows, filter_append, filter_eq_nil_iff.mpr, nil_append, filter_eq_self]
  · intro m hm
    refine decide_eq_true fun hver => ?_
    obtain ⟨row, hrow, heq⟩ := List.mem_map.mp hver
    obtain ⟨m', hm', rfl⟩ := List.mem_map.mp hrow
    exact (hno.2.2 m' hm' m hm).ne heq
  · intro m hm
    simpa using ⟨m, hm, rfl⟩

theorem Database.At.not_drifted (h : db.At done rest) (ho : Ordered (done ++ rest)) :
    drifted (done ++ rest) db = false := by
  rw [drifted, h.applied ho, h.rows, List.any_eq_false]
  intro row hrow
  obtain ⟨m, hm, rfl⟩ := List.mem_map.mp hrow
  rw [Option.any_eq_true]
  rintro ⟨m', hf, hne⟩
  obtain ⟨before, after, rfl⟩ := append_of_mem hm
  have hm' := mem_of_find?_eq_some hf
  rw [append_assoc, cons_append] at ho hm'
  rcases eq_or_ne m' m with rfl | hm
  · simp [Migration.row] at hne
  · have hver := of_decide_eq_true (find?_some (p := fun m' : Migration => decide (m'.version = m.version)) hf)
    exact ho.ne (by simpa [hm] using hm') hver.symm

theorem Database.At.inStep (h : db.At done rest) (ho : Ordered (done ++ rest)) : db.InStep (done ++ rest) := by
  refine ⟨?_, fun row => ⟨fun hrow => ?_, ?_⟩⟩
  · rw [h.rows, List.map_map]
    exact pairwise_map.mpr ((pairwise_append.mp ho).1.imp fun h => h.ne)
  · rw [h.rows] at hrow
    obtain ⟨m, hm, rfl⟩ := List.mem_map.mp hrow
    exact ⟨m, mem_append_left _ hm, rfl, h.up m hm⟩
  · rintro ⟨m, hm, rfl, hup⟩
    rw [h.rows]
    exact mem_map_of_mem ((mem_append.mp hm).resolve_right fun hm => h.down m hm hup)

/-- What a call is to do: to run, up to one that fails, the missing scripts or those of the newest rows. -/
def Kept (migrations : List Migration) (db db' : Database) : Event → Prop
  | .migrateToLatest fails =>
    (getPendingMigrations migrations db).Pairwise (fun m m' => m.version < m'.version) ∧
      db'.effects = (((getPendingMigrations migrations db).takeWhile fun m => !fails m.version).map
        fun m => (m.version, Direction.up)).reverse ++ db.effects ∧
      ((∀ m ∈ getPendingMigrations migrations db, fails m.version = false) →
        ∀ fails', migrateToLatest migrations fails' db' = (db', true))
  | .rollback steps fails =>
    db'.effects = (((db.rows.reverse.take steps).takeWhile fun row => !fails row.version).map
      fun row => (row.version, Direction.down)).reverse ++ db.effects

/-- A number of steps that is not zero, or nothing to roll back, or a newest script that fails. -/
def Event.Allowed (db : Database) : Event → Prop
  | .migrateToLatest _ => True
  | .rollback steps fails => steps = 0 → ∀ row ∈ db.rows.getLast?, fails row.version = true

theorem Database.At.latest (h : db.At done rest) (ho : Ordered (done ++ rest)) :
    migrateToLatest (done ++ rest) fails db = applyAll fails db rest := by
  rw [migrateToLatest, h.not_drifted ho, h.pending ho]
  rfl

theorem Database.At.rolled (h : db.At done rest) (ho : Ordered (done ++ rest)) (steps : Nat) :
    ∃ done' rest', done ++ rest = done' ++ rest' ∧ (rollback (done ++ rest) fails db steps).1.At done' rest' ∧
      (rollback (done ++ rest) fails db steps).1.effects =
        (((db.rows.reverse.take (if steps = 0 then db.rows.length else steps)).takeWhile
          fun row => !fails row.version).map fun row => (row.version, Direction.down)).reverse ++ db.effects := by
  generalize hk : (if steps = 0 then db.rows.length else steps) = k
  have hslice : (slice (getAppliedMigrations db) (-steps)).reverse = (done.reverse.take k).map Migration.row := by
    rw [map_take, map_reverse, ← h.rows, slice, h.applied ho, ← hk]
    rcases Nat.eq_zero_or_pos steps with rfl | hpos
    · rw [if_pos rfl, ← length_reverse, take_length]
      rfl
    · rw [if_pos (by omega), if_neg (by omega), take_reverse, Int.natAbs_neg, Int.natAbs_natCast]
  have hdone : done = (done.reverse.drop k).reverse ++ (done.reverse.take k).reverse := by
    rw [← reverse_append, take_append_drop, reverse_reverse]
  have hnew : db.rows.reverse.take k = (done.reverse.take k).map Migration.row := by
    rw [map_take, map_reverse, ← h.rows]
  rw [rollback, hslice, hnew]
  exact Database.At.run_down (hdone ▸ h) (by rw [← hdone]) ho

theorem at_of_reachable (ho : Ordered migrations) (h : (system migrations).Reachable (fun _ _ => True) db) :
    ∃ done rest, migrations = done ++ rest ∧ db.At done rest := by
  refine h.invariant (I := fun db => ∃ done rest, migrations = done ++ rest ∧ db.At done rest)
    (fun db hstart => ?_) (fun db e db' _ _ hI hs => ?_)
  · cases hstart
    exact ⟨[], migrations, rfl, rfl, nofun, nofun⟩
  · obtain ⟨done, rest, rfl, hat⟩ := hI
    cases e with
    | migrateToLatest fails =>
      obtain rfl := some.inj hs
      obtain ⟨left, hat', heq, -⟩ := @Database.At.run_up fails _ _ _ hat ho
      rw [hat.latest ho]
      exact ⟨_, left, heq, hat'⟩
    | rollback steps fails =>
      obtain rfl := some.inj hs
      obtain ⟨done', rest', heq, hat', -⟩ := @Database.At.rolled fails _ _ _ hat ho steps
      exact ⟨done', rest', heq, hat'⟩

/-- **Rows and effects agree in every run; a call does what it is to do unless it rolls back no steps.** -/
theorem ledger_in_step_iff {checksumOf : String → String} {files : List MigrationFile}
    (hload : loadMigrations checksumOf files = some migrations)
    (h : (system migrations).Reachable (fun _ _ => True) db) :
    db.InStep migrations ∧ ∀ e db', (system migrations).step db e = some db' →
      (Kept migrations db db' e ↔ e.Allowed db) := by
  have ho := ordered_load hload
  obtain ⟨done, rest, rfl, hat⟩ := at_of_reachable ho h
  refine ⟨hat.inStep ho, fun e db' hs => ?_⟩
  cases e with
  | migrateToLatest fails =>
    obtain rfl := some.inj hs
    obtain ⟨left, hat', heq, heff⟩ := @Database.At.run_up fails _ _ _ hat ho
    rw [Kept, hat.pending ho, hat.latest ho]
    refine iff_of_true ⟨(pairwise_append.mp ho).2.1, heff, fun hall fails' => ?_⟩ trivial
    rw [takeWhile_eq_self_iff.mpr fun m hm => by rw [hall m hm]; rfl] at hat' heq
    obtain rfl := append_right_eq_self.mp heq.symm
    have hlatest := @Database.At.latest fails' _ _ _ hat' (heq ▸ ho)
    rwa [append_nil] at hlatest
  | rollback steps fails =>
    obtain rfl := some.inj hs
    obtain ⟨done', rest', -, -, heff⟩ := @Database.At.rolled fails _ _ _ hat ho steps
    dsimp only [Kept, Event.Allowed]
    rw [heff, append_left_inj]
    rcases Nat.eq_zero_or_pos steps with rfl | hpos
    · rcases eq_nil_or_concat db.rows with hr | ⟨before, row, hr⟩
      · simp [hr]
      · cases hf : fails row.version <;> simp [hr, hf]
    · rw [if_neg (by omega)]
      exact iff_of_true rfl fun hz => absurd hz (by omega)

namespace Sample

def files : List MigrationFile :=
  [⟨2, "b", .up, "B"⟩, ⟨1, "a", .down, "drop A"⟩, ⟨2, "b", .down, "drop B"⟩, ⟨1, "a", .up, "A"⟩]

def loaded : List Migration := [⟨1, "a", "A", "drop A", "A"⟩, ⟨2, "b", "B", "drop B", "B"⟩]

/-- Both are applied. -/
def latest : Database := ⟨loaded.map Migration.row, [(2, .up), (1, .up)]⟩

theorem reachable : (system loaded).Reachable (fun _ _ => True) latest := by
  have hpl : (system loaded).play (fun _ _ => True) [.migrateToLatest (· == 2), .migrateToLatest fun _ => false] ⟨[], []⟩ =
      some latest := rfl
  exact System.reachable_of_play rfl hpl

end Sample

/-- Once the script of the second one failed. -/
theorem ledger_in_step_once : Sample.latest.InStep Sample.loaded ∧
    ∀ e db', (system Sample.loaded).step Sample.latest e = some db' →
      (Kept Sample.loaded Sample.latest db' e ↔ e.Allowed Sample.latest) :=
  @ledger_in_step_iff _ _ id Sample.files rfl Sample.reachable

/-- No steps of two are both. -/
theorem no_steps_revert_all : ¬∀ db, (system Sample.loaded).Reachable (fun _ _ => True) db →
    ∀ e db', (system Sample.loaded).step db e = some db' → Kept Sample.loaded db db' e := by
  intro hall
  have hkept := hall Sample.latest Sample.reachable (.rollback 0 fun _ => false) _ rfl
  exact absurd (congrArg length hkept) (by decide)

end AiNet.Migrator
