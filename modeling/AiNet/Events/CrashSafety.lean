import AiNet.Core.Transition
import AiNet.Events.DayFiles

/-!
# Crashes of the cold tier

A day's file is replaced in four operations, and the rows are deleted from SQLite after them. A crash
between two of them loses nothing and is made good by the next cycle, but for one: the data file
is renamed into place before its checksum is written. A crash between these leaves a file that does not
verify, whose rows cannot be read, and every later cycle throws at its day.
-/

namespace AiNet.Events

open Core List Option UniqueTable

variable {τ δ : Type} [DecidableEq τ] [Ord τ] [DecidableEq δ]

inductive ColdEvent (τ : Type) where
  | compact (row : ArchivedRow τ)
  | archiveDay (day : Nat)
  | crash (day n : Nat)
  | runCycle (now : Nat)
  | restoreRange (fromDay toDay : Nat)

section System

variable (sha256 : List (ArchivedRow τ) → δ) (options : EventColdArchiveOptions)

/-- A row of a file has this task and number. -/
def Tiers.filesHave (s : Tiers τ δ) (key : τ × Nat) : Bool :=
  (Tiers.restorable sha256 s.files (listArchivedDays s.files)).any fun rows =>
    rows.any fun x => decide (x.key = key)

/-- Compaction archives rows of new events. -/
def coldStep (s : Tiers τ δ) : ColdEvent τ → Option (Tiers τ δ)
  | .compact row =>
    if s.filesHave sha256 row.key then none
    else some { s with db := { s.db with archive := s.db.archive.insertOrIgnore row } }
  | .archiveDay day => some (s.archiveDay sha256 day).1
  | .crash day n => some (s.crash sha256 day n)
  | .runCycle now => some (s.runCycle sha256 options now).1
  | .restoreRange fromDay toDay => (s.restoreRange sha256 fromDay toDay).map Prod.fst

/-- Any archived rows, and no files. -/
def coldSystem : System (Tiers τ δ) (ColdEvent τ) where
  start s := s.files = ∅
  step := coldStep sha256 options

/-- The crash comes when the data file is renamed and its checksum, which is another, is not written. -/
def Tiers.interrupted (s : Tiers τ δ) (day n : Nat) : Bool :=
  decide (n = 3) && (s.toWrite sha256 day).any fun rows =>
    decide (checksumOf s.files day ≠ some (sha256 rows))

def uninterrupted (s : Tiers τ δ) : ColdEvent τ → Bool
  | .crash day n => !s.interrupted sha256 day n
  | _ => true

end System

variable {sha256 : List (ArchivedRow τ) → δ} {options : EventColdArchiveOptions} {s s' : Tiers τ δ}
  {x : ArchivedRow τ} {day n now : Nat} {e : ColdEvent τ}

/-! ## After a crash -/

theorem toWrite_eq_some {rows : List (ArchivedRow τ)} :
    s.toWrite sha256 day = some rows ↔ s.rowsOfDay day ≠ [] ∧
      ∃ existing, readDayFile sha256 s.files day = some existing ∧
        rows = mergeRows existing (s.rowsOfDay day) := by
  unfold Tiers.toWrite
  rw [ite_none_left_eq_some, map_eq_some_iff]
  refine and_congr_right fun _ => ?_
  constructor
  · intro ⟨existing, hexi, h⟩
    exact ⟨existing, hexi, h.symm⟩
  · intro ⟨existing, hexi, h⟩
    exact ⟨existing, hexi, h.symm⟩

/-- **A crash elsewhere leaves every row where it can be read, and every file verified.** -/
theorem sound_crash (hs : s.Sound sha256) (hsf : s.interrupted sha256 day n = false) :
    (s.crash sha256 day n).Sound sha256 ∧
      ∀ x, (s.crash sha256 day n).Stored sha256 x ↔ s.Stored sha256 x := by
  unfold Tiers.crash
  cases hwte : s.toWrite sha256 day with
  | none => exact ⟨hs, fun x => .rfl⟩
  | some =>
    dsimp only
    obtain ⟨_, existing, hexi, rfl⟩ := toWrite_eq_some.mp hwte
    have hrd := readDayFile_writeUpTo sha256 s.files day (mergeRows existing (s.rowsOfDay day)) n
    have hots : ∀ d ≠ day, (writeUpTo sha256 s.files day
        (mergeRows existing (s.rowsOfDay day)) n).get d = s.files.get d := fun d hd => get_runs_ne _ hd
    have hsum : ¬(n = 3 ∧ checksumOf s.files day ≠
        some (sha256 (mergeRows existing (s.rowsOfDay day)))) := by
      intro ⟨hn, hsum⟩
      unfold Tiers.interrupted at hsf
      rw [hwte, any_some, decide_eq_true hn, decide_eq_true hsum] at hsf
      cases hsf
    rw [if_neg hsum] at hrd
    unfold writeUpTo at hrd hots
    generalize ((writeDayFile sha256 (mergeRows existing (s.rowsOfDay day))).take n).foldl
      (fun files op => op.run files day) s.files = files at hrd hots
    -- the day reads as before, or has the archived rows too
    have hfld : (∀ d, ∃ rows, readDayFile sha256 files d = some rows ∧ ∀ x ∈ rows, x.day = d) ∧
        ∀ x, (Tiers.mk s.db files).Stored sha256 x ↔ s.Stored sha256 x := by
      by_cases hn : n < 3
      · rw [if_pos hn] at hrd
        have hsm : ∀ d, readDayFile sha256 files d = readDayFile sha256 s.files d := by
          intro d
          by_cases hd : d = day
          · rw [hd]
            exact hrd
          · exact readDayFile_congr (hots d hd)
        constructor
        · intro d
          rw [hsm]
          exact hs.reads d
        · intro x
          unfold Tiers.Stored Tiers.Filed
          simp only [hsm]
      · rw [if_neg hn] at hrd
        obtain ⟨hrds, hfld⟩ := reads_written hs hexi hots hrd
        refine ⟨hrds, fun x => ?_⟩
        have hx := hfld x
        unfold Tiers.Stored
        constructor
        · intro h
          rcases h with harc | h
          · exact .inl harc
          · rcases hx.mp h with h | h
            · exact .inr h
            · exact .inl h.1
        · intro h
          rcases h with harc | h
          · exact .inl harc
          · exact .inr (hx.mpr (.inl h))
    refine ⟨⟨hfld.1, fun x y hx hy => ?_⟩, hfld.2⟩
    exact hs.coherent x y ((hfld.2 x).mp hx) ((hfld.2 y).mp hy)

theorem archiveDay_other (sha256 : List (ArchivedRow τ) → δ) {d : Nat} (hd : d ≠ day) :
    (s.archiveDay sha256 d).1.files.get day = s.files.get day ∧
      (s.archiveDay sha256 d).1.rowsOfDay day = s.rowsOfDay day := by
  have hfil : ∀ rows, ((writeDayFile sha256 rows).foldl (fun files op => op.run files d) s.files).get
      day = s.files.get day := fun rows => get_runs_ne _ (Ne.symm hd)
  unfold Tiers.archiveDay
  dsimp only
  split
  · exact ⟨rfl, rfl⟩
  · split
    · exact ⟨rfl, rfl⟩
    · split
      · exact ⟨hfil _, rfl⟩
      · split
        · exact ⟨hfil _, rfl⟩
        · refine ⟨hfil _, ?_⟩
          unfold Tiers.rowsOfDay keep
          dsimp only
          rw [List.filter_filter]
          refine filter_congr fun x _ => ?_
          by_cases hx : x.day = day
          · simp [hx, Ne.symm hd]
          · simp [hx]

/-- **A day whose file does not verify stops the loop.** -/
theorem archiveDays_stuck {days : List Nat} (hday : day ∈ days)
    (hrd : readDayFile sha256 s.files day = none) (hrw : s.rowsOfDay day ≠ []) :
    (s.archiveDays sha256 days).2 = none := by
  induction days generalizing s with
  | nil => cases hday
  | cons d rest ih =>
    unfold Tiers.archiveDays
    by_cases hd : d = day
    · have hth : s.archiveDay sha256 d = (s, none) := by
        unfold Tiers.archiveDay
        rw [hd, if_neg hrw, hrd]
      rw [hth]
    · have hrst : day ∈ rest := by
        rcases mem_cons.mp hday with rfl | hrst
        · exact absurd rfl hd
        · exact hrst
      obtain ⟨hget, hsm⟩ := archiveDay_other sha256 (s := s) hd
      have hstu := ih (s := (s.archiveDay sha256 d).1) hrst
        ((readDayFile_congr hget).trans hrd) (by rw [hsm]; exact hrw)
      generalize s.archiveDay sha256 d = first at hstu
      obtain ⟨s₁, moved⟩ := first
      cases moved with
      | none => rfl
      | some =>
        dsimp only at hstu ⊢
        rw [hstu]
        rfl

/-! ## The next cycle -/

/-- A cycle succeeds, and moves every row of a complete old day, unless the day has expired. -/
def Recovers (sha256 : List (ArchivedRow τ) → δ) (options : EventColdArchiveOptions) (now : Nat)
    (s : Tiers τ δ) : Prop :=
  (∃ stats, (s.runCycle sha256 options now).2 = some stats) ∧
    ∀ x ∈ s.db.archive.rows, x.day < hotDay options now →
      x ∉ (s.runCycle sha256 options now).1.db.archive.rows ∧
      (coldDay options now ≤ x.day → (s.runCycle sha256 options now).1.Filed sha256 x)

theorem recovers_of_sound (hs : s.Sound sha256) (options : EventColdArchiveOptions) (now : Nat) :
    Recovers sha256 options now s := by
  obtain ⟨hsts, hcy⟩ := cycled_runCycle hs options now
  refine ⟨hsts, fun x hx hold => ⟨fun hlf => ?_, fun hkpt => ?_⟩⟩
  · have hge := ((hcy.archive x).mp hlf).2
    omega
  · exact (hcy.filed x).mpr ⟨.inr ⟨hx, hold⟩, hkpt⟩

theorem not_recovers (options : EventColdArchiveOptions)
    (hin : s.interrupted sha256 day n = true) :
    ∃ now, ¬Recovers sha256 options now (s.crash sha256 day n) := by
  unfold Tiers.interrupted at hin
  rw [Bool.and_eq_true, decide_eq_true_eq] at hin
  obtain ⟨rfl, hany⟩ := hin
  obtain ⟨merged, hwte, hsum⟩ := (Option.any_eq_true _ _).mp hany
  obtain ⟨hrw, existing, hexi, hme⟩ := toWrite_eq_some.mp hwte
  have hrd := readDayFile_writeUpTo sha256 s.files day merged 3
  rw [if_neg (by omega), if_pos ⟨rfl, of_decide_eq_true hsum⟩] at hrd
  refine ⟨(day + 1 + options.hotRetentionDays) * msPerDay, fun ⟨⟨stats, hsts⟩, _⟩ => ?_⟩
  unfold Tiers.crash at hsts
  rw [hwte] at hsts
  -- the day is among the candidates of the cycle
  have hca : day ∈ Tiers.candidateDays (Tiers.mk s.db (writeUpTo sha256 s.files day merged 3))
      (Tiers.cutoffDayStart options ((day + 1 + options.hotRetentionDays) * msPerDay)) := by
    obtain ⟨x, hx⟩ := exists_mem_of_ne_nil _ hrw
    obtain ⟨harc, hday⟩ := mem_rowsOfDay.mp hx
    refine mem_candidateDays.mpr ⟨x, harc, ?_, hday⟩
    have hhot : utcDayOf ((day + 1 + options.hotRetentionDays) * msPerDay -
        options.hotRetentionDays * msPerDay) = day + 1 := by
      unfold utcDayOf
      rw [← Nat.sub_mul, Nat.add_sub_cancel]
      exact Nat.mul_div_cancel _ (by decide)
    unfold Tiers.cutoffDayStart
    rw [hhot]
    exact day_lt_iff.mp (by omega)
  have hstu := archiveDays_stuck (s := Tiers.mk s.db (writeUpTo sha256 s.files day merged 3))
    hca hrd hrw
  unfold Tiers.runCycle at hsts
  unfold writeUpTo at hstu
  dsimp only at hsts
  split at hsts
  · cases hsts
  · rename_i hres
    rw [hres] at hstu
    cases hstu

/-! ## Runs -/

omit [Ord τ] in
theorem sound_compact (hs : s.Sound sha256) {row : ArchivedRow τ}
    (hfr : s.filesHave sha256 row.key = false) :
    Tiers.Sound sha256 { s with db := { s.db with archive := s.db.archive.insertOrIgnore row } } where
  reads := hs.reads
  coherent := by
    obtain ⟨rows, hrw, hmem⟩ := restorable_eq hs (listArchivedDays s.files)
    have hnew : ∀ y, s.Filed sha256 y → y.key ≠ row.key := by
      intro y hfld hkey
      unfold Tiers.filesHave at hfr
      rw [hrw, any_some, List.any_eq_false] at hfr
      exact hfr y ((hmem y).mpr ⟨hfld, hs.day_listed hfld⟩) (decide_eq_true hkey)
    have hsto : ∀ y, Tiers.Stored sha256
        { s with db := { s.db with archive := s.db.archive.insertOrIgnore row } } y →
        y ∈ (s.db.archive.insertOrIgnore row).rows ∨ s.Filed sha256 y := fun y hy => hy
    intro x y hx hy hkey
    have hcss : ∀ z, z ∈ (s.db.archive.insertOrIgnore row).rows ∨ s.Filed sha256 z →
        s.Stored sha256 z ∨ z = row ∧ ∀ y, s.Stored sha256 y → y.key ≠ row.key := by
      intro z hz
      rcases hz with hz | hz
      · rcases rows_insertOrIgnore s.db.archive row with ⟨hrw, _⟩ | ⟨hrw, hfr⟩
        · rw [hrw] at hz
          exact .inl (.inl hz)
        · rw [hrw] at hz
          rcases mem_append.mp hz with hold | hsf
          · exact .inl (.inl hold)
          · refine .inr ⟨mem_singleton.mp hsf, fun y hy => ?_⟩
            rcases hy with harc | hfld
            · exact hfr y harc
            · exact hnew y hfld
      · exact .inl (.inr hz)
    rcases hcss x (hsto x hx) with hxo | ⟨hxr, hxn⟩
    · rcases hcss y (hsto y hy) with hyo | ⟨hyr, hyn⟩
      · exact hs.coherent x y hxo hyo hkey
      · rw [hyr] at hkey
        exact absurd hkey (hyn x hxo)
    · rcases hcss y (hsto y hy) with hyo | ⟨hyr, _⟩
      · rw [hxr] at hkey
        exact absurd hkey.symm (hxn y hyo)
      · rw [hxr, hyr]

theorem sound_reachable_cold
    (h : (coldSystem sha256 options).Reachable (fun s e => uninterrupted sha256 s e = true) s) :
    s.Sound sha256 := by
  refine System.Reachable.invariant (I := Tiers.Sound sha256) ?_ ?_ h
  · intro s hsta
    have hrd : ∀ day, readDayFile sha256 s.files day = some [] := by
      intro day
      rw [show s.files = ∅ from hsta]
      rfl
    refine ⟨fun day => ⟨[], hrd day, fun x hx => (by cases hx)⟩, fun x y hx hy hkey => ?_⟩
    have harc : ∀ z, s.Stored sha256 z → z ∈ s.db.archive.rows := by
      intro z hz
      rcases hz with hz | ⟨day, rows, hrw, hz⟩
      · exact hz
      · rw [hrd] at hrw
        cases hrw
        cases hz
    exact unique (harc x hx) (harc y hy) hkey
  · intro s e s' _ hsf hs hst
    unfold coldSystem coldStep at hst
    cases e with
    | compact =>
      obtain ⟨hfr, hst⟩ := ite_none_left_eq_some.mp hst
      cases hst
      exact sound_compact hs (Bool.eq_false_iff.mpr hfr)
    | archiveDay day =>
      cases hst
      exact (moved_archiveDay hs day).2.sound hs
    | crash day n =>
      cases hst
      have hsf' : s.interrupted sha256 day n = false := by
        simpa [uninterrupted] using hsf
      exact (sound_crash hs hsf').1
    | runCycle now =>
      cases hst
      exact (cycled_runCycle hs options now).2.sound hs
    | restoreRange fromDay toDay =>
      obtain ⟨result, hres, rfl⟩ := map_eq_some_iff.mp hst
      obtain ⟨s₁, n, heq, hrst⟩ := restored_restoreRange hs fromDay toDay
      cases hres.symm.trans heq
      exact hrst.sound hs

/-- A crash of a day leaves every row readable, and whatever the time, the next cycle recovers. -/
def CrashSafe (sha256 : List (ArchivedRow τ) → δ) (options : EventColdArchiveOptions) (s : Tiers τ δ)
    (day n : Nat) : Prop :=
  (∀ x, s.Stored sha256 x → (s.crash sha256 day n).Stored sha256 x) ∧
    ∀ now, Recovers sha256 options now (s.crash sha256 day n)

/-- A cycle and a restore: the moved rows that have not expired, and those moved before, are back, and
doing either again changes nothing. -/
def RoundTrip (sha256 : List (ArchivedRow τ) → δ) (options : EventColdArchiveOptions) (s : Tiers τ δ)
    (now fromDay toDay : Nat) : Prop :=
  ∃ stats s₁ s₂ n, s.runCycle sha256 options now = (s₁, some stats) ∧
    s₁.restoreRange sha256 fromDay toDay = some (s₂, n) ∧
    (∀ x, x ∈ s₁.db.archive.rows ↔ x ∈ s.db.archive.rows ∧ hotDay options now ≤ x.day) ∧
    (∀ x, x ∈ s₂.db.archive.rows ↔ x ∈ s₁.db.archive.rows ∨
      ((s.Filed sha256 x ∨ x ∈ s.db.archive.rows ∧ x.day < hotDay options now) ∧
        coldDay options now ≤ x.day) ∧ fromDay ≤ x.day ∧ x.day ≤ toDay) ∧
    s₁.runCycle sha256 options now = (s₁, some ⟨0, 0, 0⟩) ∧
    s₂.restoreRange sha256 fromDay toDay = some (s₂, 0)

/--
**When the cold tier survives a crash.** From any archived rows, in every run of compactions, cycles,
restores and crashes that miss that one moment: a crash of any day at any point leaves every row readable
and the next cycle moves every complete old day, if and only if it is not at that moment, between a data
file and a checksum that the file does not have yet. Without a crash, a cycle and a restore give the
moved rows back, and doing either again changes nothing.
-/
theorem crash_safe_iff (sha256 : List (ArchivedRow τ) → δ) (options : EventColdArchiveOptions)
    {s : Tiers τ δ}
    (h : (coldSystem sha256 options).Reachable (fun s e => uninterrupted sha256 s e = true) s) :
    (∀ day n, CrashSafe sha256 options s day n ↔ s.interrupted sha256 day n = false) ∧
      ∀ now fromDay toDay, RoundTrip sha256 options s now fromDay toDay := by
  have hs := sound_reachable_cold h
  constructor
  · intro day n
    constructor
    · intro ⟨_, hre⟩
      rw [Bool.eq_false_iff]
      intro hin
      obtain ⟨now, hnot⟩ := not_recovers options hin
      exact hnot (hre now)
    · intro hsf
      obtain ⟨hsnd, hsto⟩ := sound_crash hs hsf
      exact ⟨fun x hx => (hsto x).mpr hx, fun now => recovers_of_sound hsnd options now⟩
  · intro now fromDay toDay
    obtain ⟨⟨stats, hsts⟩, hcy⟩ := cycled_runCycle hs options now
    obtain ⟨s₂, n, heq, hrst⟩ := restored_restoreRange (hcy.sound hs) fromDay toDay
    refine ⟨stats, _, s₂, n, Prod.ext rfl hsts, heq, hcy.archive, fun x => ?_,
      runCycle_again hcy, restoreRange_again (hcy.sound hs) hrst⟩
    rw [hrst.archive, hcy.filed]

/-! ## Examples -/

namespace Sample

/-- Two rows of the first day. -/
def first : ArchivedRow Nat := ⟨1, 0, 2, "TaskCompleted", 7, "", 1000, none, 5000⟩

def second : ArchivedRow Nat := ⟨2, 0, 2, "TaskFailed", 8, "", 2000, none, 6000⟩

/-- The checksum of a file is what is in it. -/
def contents (rows : List (ArchivedRow Nat)) : List (ArchivedRow Nat) := rows

def window : EventColdArchiveOptions := ⟨1, 365⟩

def archived : Tiers Nat (List (ArchivedRow Nat)) :=
  ⟨⟨⟨empty _, 2⟩, (empty _).insertOrIgnore first⟩, ∅⟩

def merging : Tiers Nat (List (ArchivedRow Nat)) :=
  let moved := (archived.archiveDay contents 0).1
  { moved with db := { moved.db with archive := moved.db.archive.insertOrIgnore second } }

end Sample

/-- A crash before the rename. -/
theorem crash_safe_once :
    CrashSafe Sample.contents Sample.window Sample.merging 0 2 ∧
      RoundTrip Sample.contents Sample.window Sample.merging (3 * msPerDay) 0 0 := by
  have hrch : (coldSystem Sample.contents Sample.window).Reachable
      (fun s e => uninterrupted Sample.contents s e = true) Sample.merging := by
    have hsta : (coldSystem Sample.contents Sample.window).Reachable
        (fun s e => uninterrupted Sample.contents s e = true) Sample.archived := .init rfl
    have hmv := hsta.tail (e := .archiveDay 0) rfl rfl
    refine hmv.tail (e := .compact Sample.second) rfl ?_
    unfold coldSystem coldStep
    dsimp only
    rw [if_neg (by decide)]
    rfl
  have hsf := crash_safe_iff Sample.contents Sample.window hrch
  exact ⟨(hsf.1 0 2).mpr (by decide), hsf.2 (3 * msPerDay) 0 0⟩

/--
A crash between the rename and the checksum: the next cycle throws. If the day had a file before, the
row that was only there can no longer be read.
-/
theorem crash_unsafe :
    ¬CrashSafe Sample.contents Sample.window Sample.archived 0 3 ∧
      Sample.merging.Stored Sample.contents Sample.first ∧
      ¬(Sample.merging.crash Sample.contents 0 3).Stored Sample.contents Sample.first := by
  refine ⟨fun ⟨_, hre⟩ => ?_, .inr ⟨0, [Sample.first], by decide, mem_cons_self⟩, ?_⟩
  · have hth : ((Sample.archived.crash Sample.contents 0 3).runCycle Sample.contents Sample.window
        (3 * msPerDay)).2 = none := by decide
    obtain ⟨stats, hsts⟩ := (hre (3 * msPerDay)).1
    rw [hth] at hsts
    cases hsts
  · intro h
    rcases h with harc | ⟨day, rows, hrw, hfi⟩
    · exact absurd harc (by decide)
    · by_cases hday : day = 0
      · rw [hday] at hrw
        exact absurd hrw (by rw [show readDayFile Sample.contents _ 0 = none by decide]; simp)
      · -- there is no other directory
        have hget : (Sample.merging.crash Sample.contents 0 3).files.get day = none := by
          unfold Storage.get
          rw [AList.lookup_eq_none]
          intro hmem
          have hke : (Sample.merging.crash Sample.contents 0 3).files.keys = [0] := by decide
          rw [AList.mem_keys, hke, mem_singleton] at hmem
          exact hday hmem
        unfold readDayFile at hrw
        rw [hget] at hrw
        cases hrw
        cases hfi

end AiNet.Events
