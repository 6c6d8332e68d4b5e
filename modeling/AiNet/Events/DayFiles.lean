import AiNet.Core.Storage
import AiNet.Events.EventArchive

/-!
# The cold tier

Archived rows that are old enough move to one file for each UTC day, with its checksum in a file
beside it. A file is the rows in it, and the checksum is that of the bytes, which the rows determine;
`sha256` stands for both. A file is written under another name and renamed, and then its checksum
is written: each of these is one operation of the file system. The rows are deleted from SQLite after
the file was read back. A function that throws has its transaction rolled back.

The clock is in milliseconds, and a day is the number of days since the epoch.
-/

namespace AiNet.Events

open Core List Option Storage UniqueTable

section

variable {τ δ : Type} [DecidableEq τ] [Ord τ] [DecidableEq δ]

def msPerDay : Nat := 24 * 60 * 60 * 1000

def utcDayOf (time : Nat) : Nat := time / msPerDay

def ArchivedRow.day (r : ArchivedRow τ) : Nat := utcDayOf r.occurredAt

/-- The directory of a day: the file being written, the data file, and its checksum. -/
structure DayDir (τ δ : Type) where
  tmp : Option (List (ArchivedRow τ))
  data : Option (List (ArchivedRow τ))
  checksum : Option δ
  deriving DecidableEq

/-- The event database, and the directories under the archive root. -/
structure Tiers (τ δ : Type) where
  db : EventDb τ
  files : Storage Nat (DayDir τ δ)

structure EventColdArchiveOptions where
  hotRetentionDays : Nat
  coldRetentionDays : Nat

structure ColdArchiveCycleStats where
  daysArchived : Nat
  eventsArchived : Nat
  daysPurged : Nat
  deriving DecidableEq

/-- One operation of the file system in the directory of a day. -/
inductive FileOp (τ δ : Type) where
  | mkdir
  | writeTmp (rows : List (ArchivedRow τ))
  | rename
  | writeChecksum (checksum : δ)

omit [DecidableEq τ] [Ord τ] [DecidableEq δ] in
def FileOp.run (files : Storage Nat (DayDir τ δ)) (day : Nat) (op : FileOp τ δ) :
    Storage Nat (DayDir τ δ) :=
  let dir := (files.get day).getD ⟨none, none, none⟩
  files.set day <| match op with
    | .mkdir => dir
    | .writeTmp rows => { dir with tmp := some rows }
    | .rename => { dir with tmp := none, data := dir.tmp }
    | .writeChecksum checksum => { dir with checksum := some checksum }

/-! ## Day files -/

section Files

variable (sha256 : List (ArchivedRow τ) → δ)

/-- `readDayFile`: `none` where it throws. -/
def readDayFile (files : Storage Nat (DayDir τ δ)) (day : Nat) : Option (List (ArchivedRow τ)) :=
  match (files.get day).bind DayDir.data with
  | none => some []
  | some rows =>
    if ((files.get day).bind DayDir.checksum) = some (sha256 rows) then some rows else none

/-- What `writeDayFile` does before it reads the file back. -/
def writeDayFile (rows : List (ArchivedRow τ)) : List (FileOp τ δ) :=
  [.mkdir, .writeTmp rows, .rename, .writeChecksum (sha256 rows)]

/-- The order of rows in a file: by time, task and number. -/
def ArchivedRow.compare (a b : ArchivedRow τ) : Ordering :=
  (Ord.compare a.occurredAt b.occurredAt).then
    ((Ord.compare a.taskId b.taskId).then (Ord.compare a.taskSeq b.taskSeq))

def mergeRows (existing incoming : List (ArchivedRow τ)) : List (ArchivedRow τ) :=
  ((empty ArchivedRow.key).insertAll (existing ++ incoming)).rows.insertionSort
    fun a b => a.compare b ≠ .gt

namespace Tiers

variable (s : Tiers τ δ)

def rowsOfDay (day : Nat) : List (ArchivedRow τ) :=
  s.db.archive.rows.filter fun r => decide (r.day = day)

/-- The rows that `archiveDay` writes, if it gets so far. -/
def toWrite (day : Nat) : Option (List (ArchivedRow τ)) :=
  if s.rowsOfDay day = [] then none
  else (readDayFile sha256 s.files day).map fun existing => mergeRows existing (s.rowsOfDay day)

/-- `archiveDay`: how many rows moved, or `none` where it throws. -/
def archiveDay (day : Nat) : Tiers τ δ × Option Nat :=
  let rows := s.rowsOfDay day
  if rows = [] then (s, some 0)
  else
    match readDayFile sha256 s.files day with
    | none => (s, none)
    | some existing =>
      let merged := mergeRows existing rows
      let files := (writeDayFile sha256 merged).foldl (fun files op => op.run files day) s.files
      match readDayFile sha256 files day with
      | none => ({ s with files := files }, none)
      | some readBack =>
        if readBack.length ≠ merged.length then ({ s with files := files }, none)
        else
          let archive := s.db.archive.keep fun r => decide (r.day ≠ day)
          (⟨{ s.db with archive := archive }, files⟩, some rows.length)

/-- A crash of `archiveDay` after `n` operations of the file system: SQLite rolls back. -/
def crash (day n : Nat) : Tiers τ δ :=
  match s.toWrite sha256 day with
  | none => s
  | some merged =>
    { s with
      files := ((writeDayFile sha256 merged).take n).foldl (fun files op => op.run files day) s.files }

end Tiers

/-! ## A cycle -/

def listArchivedDays (files : Storage Nat (DayDir τ δ)) : List Nat := files.keys.insertionSort (· ≤ ·)

/-- `purgeExpired`: the loop stops at the first day that is kept. -/
def purgeExpired (coldCutoffDay : Nat) (files : Storage Nat (DayDir τ δ)) : Storage Nat (DayDir τ δ) × Nat :=
  let expired := (listArchivedDays files).takeWhile fun day => decide (day < coldCutoffDay)
  (expired.foldl remove files, expired.length)

namespace Tiers

/-- The loop of `runCycle`: `none` where a day throws, which ends it. -/
def archiveDays : Tiers τ δ → List Nat → Tiers τ δ × Option (Nat × Nat)
  | s, [] => (s, some (0, 0))
  | s, day :: days =>
    match s.archiveDay sha256 day with
    | (s', none) => (s', none)
    | (s', some moved) =>
      let (s'', counts) := archiveDays s' days
      (s'', counts.map fun (archived, events) =>
        if 0 < moved then (archived + 1, events + moved) else (archived, events))

variable (s : Tiers τ δ)

/-- The start of the first day that is not complete and old. -/
def cutoffDayStart (options : EventColdArchiveOptions) (now : Nat) : Nat :=
  utcDayOf (now - options.hotRetentionDays * msPerDay) * msPerDay

/-- The days of rows before a time, in order. -/
def candidateDays (cutoff : Nat) : List Nat :=
  ((s.db.archive.rows.filter fun r => decide (r.occurredAt < cutoff)).map
    ArchivedRow.day).dedup.insertionSort (· ≤ ·)

/-- `runCycle`; what was moved before a day throws stays moved. -/
def runCycle (options : EventColdArchiveOptions) (now : Nat) :
    Tiers τ δ × Option ColdArchiveCycleStats :=
  match s.archiveDays sha256 (s.candidateDays (cutoffDayStart options now)) with
  | (s', none) => (s', none)
  | (s', some (daysArchived, eventsArchived)) =>
    let (files, daysPurged) :=
      purgeExpired (utcDayOf (now - options.coldRetentionDays * msPerDay)) s'.files
    ({ s' with files := files }, some ⟨daysArchived, eventsArchived, daysPurged⟩)

/-- The rows of the archived days of a range, or `none` if one of their files throws. -/
def restorable (files : Storage Nat (DayDir τ δ)) : List Nat → Option (List (ArchivedRow τ))
  | [] => some []
  | day :: days =>
    (readDayFile sha256 files day).bind fun rows =>
      (restorable files days).map fun more => rows ++ more

/-- `restoreRange`: how many rows were inserted; `none` where it throws, and then nothing is. -/
def restoreRange (fromDay toDay : Nat) : Option (Tiers τ δ × Nat) :=
  let days := (listArchivedDays s.files).filter fun day => decide (fromDay ≤ day) && decide (day ≤ toDay)
  (restorable sha256 s.files days).map fun rows =>
    let archive := s.db.archive.insertAll rows
    ({ s with db := { s.db with archive := archive } }, archive.rows.length - s.db.archive.rows.length)

end Tiers

end Files

end

/-!
## What moves between SQLite and the day files

As long as every file verifies, and a row in a file and a row in the archive with the same task and
number are the same row (`Sound`), archiving and restoring lose nothing: a day's rows go
from the one to the other, and a restored row is in both.
-/

variable {τ δ : Type} [DecidableEq τ] [Ord τ] [DecidableEq δ]
  {sha256 : List (ArchivedRow τ) → δ} {files : Storage Nat (DayDir τ δ)} {s s' s'' : Tiers τ δ}
  {x y : ArchivedRow τ} {day : Nat}

/-! ## Merging -/

/-- **A merge has all rows**, if those with the same task and number are the same. -/
theorem mem_mergeRows {existing incoming : List (ArchivedRow τ)}
    (hsm : ∀ x ∈ existing ++ incoming, ∀ y ∈ existing ++ incoming, x.key = y.key → x = y) :
    x ∈ mergeRows existing incoming ↔ x ∈ existing ∨ x ∈ incoming := by
  have hin : ∀ {x}, x ∈ ((empty ArchivedRow.key).insertAll
      (existing ++ incoming)).rows → x ∈ existing ++ incoming := by
    intro x hx
    rcases mem_of_mem_insertAll (t := empty ArchivedRow.key) hx with
      hemp | ⟨hmem, _⟩
    · cases hemp
    · exact hmem
  unfold mergeRows
  rw [(perm_insertionSort _ _).mem_iff, ← mem_append]
  constructor
  · intro h
    exact hin h
  · intro h
    obtain ⟨y, hy, hkey⟩ := key_of_insertAll (t := empty ArchivedRow.key) h
    have hmem := hin hy
    rw [← hsm y hmem x h hkey]
    exact hy

/-! ## Writing a file -/

/-- The files after the first `n` operations of a write. -/
def writeUpTo (sha256 : List (ArchivedRow τ) → δ) (files : Storage Nat (DayDir τ δ)) (day : Nat)
    (rows : List (ArchivedRow τ)) (n : Nat) : Storage Nat (DayDir τ δ) :=
  ((writeDayFile sha256 rows).take n).foldl (fun files op => op.run files day) files

section

omit [DecidableEq τ] [Ord τ] [DecidableEq δ]

theorem get_run_ne (op : FileOp τ δ) {d : Nat} (hd : d ≠ day) : (op.run files day).get d = files.get d := by
  unfold FileOp.run
  exact get_set_ne _ _ hd

theorem get_runs_ne (ops : List (FileOp τ δ)) {d : Nat} (hd : d ≠ day) :
    (ops.foldl (fun files op => op.run files day) files).get d = files.get d := by
  induction ops generalizing files with
  | nil => rfl
  | cons op rest ih =>
    rw [foldl_cons, ih]
    exact get_run_ne op hd

end

omit [DecidableEq τ] [Ord τ] in
theorem readDayFile_congr {files' : Storage Nat (DayDir τ δ)} (h : files'.get day = files.get day) :
    readDayFile sha256 files' day = readDayFile sha256 files day := by
  unfold readDayFile
  rw [h]

def checksumOf (files : Storage Nat (DayDir τ δ)) (day : Nat) : Option δ :=
  (files.get day).bind DayDir.checksum

omit [DecidableEq τ] [Ord τ] in
/-- **What a day reads as after each operation of a write.** -/
theorem readDayFile_writeUpTo (sha256 : List (ArchivedRow τ) → δ) (files : Storage Nat (DayDir τ δ))
    (day : Nat) (rows : List (ArchivedRow τ)) (n : Nat) :
    readDayFile sha256 (writeUpTo sha256 files day rows n) day = if n < 3 then readDayFile sha256 files day
      else if n = 3 ∧ checksumOf files day ≠ some (sha256 rows) then none
      else some rows := by
  unfold writeUpTo writeDayFile checksumOf readDayFile
  match n with
  | 0 => rfl
  | 1 =>
    simp only [List.take, List.foldl, FileOp.run, get_set_self]
    cases files.get day with
    | none | some => rfl
  | 2 =>
    simp only [List.take, List.foldl, FileOp.run, get_set_self]
    cases files.get day with
    | none | some => rfl
  | 3 =>
    simp only [List.take, List.foldl, FileOp.run, get_set_self, getD_some]
    cases files.get day with
    | none => simp
    | some dir =>
      by_cases hsum : dir.checksum = some (sha256 rows)
      · simp [hsum]
      · simp [hsum]
  | n + 4 =>
    simp only [List.take, List.foldl, FileOp.run, get_set_self, getD_some]
    simp

/-! ## Rows that can be read -/

def Tiers.Filed (sha256 : List (ArchivedRow τ) → δ) (s : Tiers τ δ) (x : ArchivedRow τ) : Prop :=
  ∃ day rows, readDayFile sha256 s.files day = some rows ∧ x ∈ rows

/-- A row in SQLite or in a file that verifies. -/
def Tiers.Stored (sha256 : List (ArchivedRow τ) → δ) (s : Tiers τ δ) (x : ArchivedRow τ) : Prop :=
  x ∈ s.db.archive.rows ∨ s.Filed sha256 x

/-- Files verify and hold rows of their day, and rows with the same key are the same. -/
structure Tiers.Sound (sha256 : List (ArchivedRow τ) → δ) (s : Tiers τ δ) : Prop where
  reads : ∀ day, ∃ rows, readDayFile sha256 s.files day = some rows ∧ ∀ x ∈ rows, x.day = day
  coherent : ∀ x y, s.Stored sha256 x → s.Stored sha256 y → x.key = y.key → x = y

omit [DecidableEq τ] [Ord τ] in
theorem Tiers.Sound.filed_iff (h : s.Sound sha256) :
    s.Filed sha256 x ↔ ∃ rows, readDayFile sha256 s.files x.day = some rows ∧ x ∈ rows := by
  constructor
  · intro ⟨day, rows, hrw, hx⟩
    obtain ⟨rows', hrw', hday⟩ := h.reads day
    cases hrw.symm.trans hrw'
    rw [hday x hx]
    exact ⟨rows, hrw, hx⟩
  · intro ⟨rows, hrw, hx⟩
    exact ⟨x.day, rows, hrw, hx⟩

omit [DecidableEq τ] [Ord τ] [DecidableEq δ] in
theorem mem_rowsOfDay : x ∈ s.rowsOfDay day ↔ x ∈ s.db.archive.rows ∧ x.day = day := by
  unfold Tiers.rowsOfDay
  simp

/-- The rows of some days went from the archive to the files. -/
structure Moved (sha256 : List (ArchivedRow τ) → δ) (s s' : Tiers τ δ) (days : Nat → Prop) : Prop where
  reads : ∀ day, ∃ rows, readDayFile sha256 s'.files day = some rows ∧ ∀ x ∈ rows, x.day = day
  archive : ∀ x, x ∈ s'.db.archive.rows ↔ x ∈ s.db.archive.rows ∧ ¬days x.day
  filed : ∀ x, s'.Filed sha256 x ↔ s.Filed sha256 x ∨ x ∈ s.db.archive.rows ∧ days x.day
  store : s'.db.store = s.db.store

section

omit [DecidableEq τ] [Ord τ]

/-- **Nothing is lost in a move.** -/
theorem Moved.stored {days : Nat → Prop} (h : Moved sha256 s s' days) (x : ArchivedRow τ) :
    s'.Stored sha256 x ↔ s.Stored sha256 x := by
  unfold Tiers.Stored
  rw [h.archive, h.filed]
  by_cases hday : days x.day
  · simp only [hday, not_true_eq_false, and_false, and_true, false_or]
    exact or_comm
  · simp [hday]

theorem Moved.sound {days : Nat → Prop} (h : Moved sha256 s s' days) (hs : s.Sound sha256) :
    s'.Sound sha256 where
  reads := h.reads
  coherent := by
    intro x y hx hy
    exact hs.coherent x y ((h.stored x).mp hx) ((h.stored y).mp hy)

theorem Moved.trans {days days' : Nat → Prop} (h : Moved sha256 s s' days)
    (h' : Moved sha256 s' s'' days') : Moved sha256 s s'' fun day => days day ∨ days' day where
  reads := h'.reads
  archive := by
    intro x
    rw [h'.archive, h.archive, not_or, and_assoc]
  filed := by
    intro x
    rw [h'.filed, h.filed, h.archive]
    by_cases hday : days x.day
    · simp [hday]
    · simp only [hday, and_false, or_false, not_false_eq_true, and_true, false_or]
  store := h'.store.trans h.store

end

theorem mem_toWrite (hs : s.Sound sha256) {existing : List (ArchivedRow τ)}
    (hexi : readDayFile sha256 s.files day = some existing) :
    x ∈ mergeRows existing (s.rowsOfDay day) ↔ x ∈ existing ∨ x ∈ s.db.archive.rows ∧ x.day = day := by
  have hsto : ∀ y ∈ existing ++ s.rowsOfDay day, s.Stored sha256 y := by
    intro y hy
    rcases mem_append.mp hy with hfi | harc
    · exact .inr ⟨day, existing, hexi, hfi⟩
    · exact .inl (mem_rowsOfDay.mp harc).1
  rw [mem_mergeRows fun y hy z hz => hs.coherent y z (hsto y hy) (hsto z hz), mem_rowsOfDay]

theorem reads_written (hs : s.Sound sha256) {existing : List (ArchivedRow τ)}
    (hexi : readDayFile sha256 s.files day = some existing) {files' : Storage Nat (DayDir τ δ)}
    (hots : ∀ d ≠ day, files'.get d = s.files.get d)
    (hrd : readDayFile sha256 files' day = some (mergeRows existing (s.rowsOfDay day))) :
    (∀ d, ∃ rows, readDayFile sha256 files' d = some rows ∧ ∀ x ∈ rows, x.day = d) ∧
      ∀ x : ArchivedRow τ, (∃ d rows, readDayFile sha256 files' d = some rows ∧ x ∈ rows) ↔
        s.Filed sha256 x ∨ x ∈ s.db.archive.rows ∧ x.day = day := by
  have hsm : ∀ d ≠ day, readDayFile sha256 files' d = readDayFile sha256 s.files d := by
    intro d hd
    exact readDayFile_congr (hots d hd)
  have hday : ∀ x ∈ existing, x.day = day := by
    obtain ⟨rows, hrw, hday⟩ := hs.reads day
    cases hexi.symm.trans hrw
    exact hday
  constructor
  · intro d
    by_cases hd : d = day
    · rw [hd]
      refine ⟨_, hrd, fun x hx => ?_⟩
      rcases (mem_toWrite hs hexi).mp hx with hfi | harc
      · exact hday x hfi
      · exact harc.2
    · rw [hsm d hd]
      exact hs.reads d
  · intro x
    constructor
    · intro ⟨d, rows, hrw, hx⟩
      by_cases hd : d = day
      · rw [hd, hrd] at hrw
        cases hrw
        rcases (mem_toWrite hs hexi).mp hx with hfi | harc
        · exact .inl ⟨day, existing, hexi, hfi⟩
        · exact .inr harc
      · rw [hsm d hd] at hrw
        exact .inl ⟨d, rows, hrw, hx⟩
    · intro h
      rcases h with ⟨d, rows, hrw, hx⟩ | harc
      · by_cases hd : d = day
        · rw [hd, hexi] at hrw
          cases hrw
          exact ⟨day, _, hrd, (mem_toWrite hs hexi).mpr (.inl hx)⟩
        · exact ⟨d, rows, (hsm d hd).trans hrw, hx⟩
      · exact ⟨day, _, hrd, (mem_toWrite hs hexi).mpr (.inr harc)⟩

/-- **A day is archived.** -/
theorem moved_archiveDay (hs : s.Sound sha256) (day : Nat) :
    (s.archiveDay sha256 day).2 = some (s.rowsOfDay day).length ∧
      Moved sha256 s (s.archiveDay sha256 day).1 (· = day) := by
  obtain ⟨existing, hexi, _⟩ := hs.reads day
  unfold Tiers.archiveDay
  dsimp only
  by_cases hrw : s.rowsOfDay day = []
  · rw [if_pos hrw, hrw]
    have hno : ∀ x ∈ s.db.archive.rows, x.day ≠ day := by
      intro x hx hday
      have hmem := mem_rowsOfDay.mpr ⟨hx, hday⟩
      rw [hrw] at hmem
      cases hmem
    refine ⟨rfl, hs.reads, fun x => ?_, fun x => ?_, rfl⟩
    · exact ⟨fun hx => ⟨hx, hno x hx⟩, fun h => h.1⟩
    · exact ⟨.inl, fun h => h.resolve_right fun hx => hno x hx.1 hx.2⟩
  · have hrd : readDayFile sha256 (writeUpTo sha256 s.files day
        (mergeRows existing (s.rowsOfDay day)) 4) day = some (mergeRows existing (s.rowsOfDay day)) := by
      rw [readDayFile_writeUpTo]
      simp
    have hots : ∀ d ≠ day, (writeUpTo sha256 s.files day
        (mergeRows existing (s.rowsOfDay day)) 4).get d = s.files.get d := fun d hd => get_runs_ne _ hd
    obtain ⟨hrds, hfld⟩ := reads_written hs hexi hots hrd
    unfold writeUpTo at hrd hrds hfld
    rw [take_of_length_le (by simp [writeDayFile])] at hrd hrds hfld
    rw [if_neg hrw, hexi]
    dsimp only
    rw [hrd]
    dsimp only
    rw [if_neg (by simp)]
    refine ⟨rfl, hrds, fun x => ?_, hfld, rfl⟩
    simp

/-! ## A cycle -/

section

omit [DecidableEq τ] [Ord τ]

theorem Moved.refl (hs : s.Sound sha256) : Moved sha256 s s fun _ => False where
  reads := hs.reads
  archive := fun x => by simp
  filed := fun x => by simp
  store := rfl

theorem Moved.congr {days days' : Nat → Prop} (h : Moved sha256 s s' days)
    (hsm : ∀ day, days day ↔ days' day) : Moved sha256 s s' days' where
  reads := h.reads
  archive := fun x => by rw [h.archive, hsm]
  filed := fun x => by rw [h.filed, hsm]
  store := h.store

end

/-- **The loop goes through all days.** -/
theorem moved_archiveDays (hs : s.Sound sha256) (days : List Nat) :
    (∃ counts, (s.archiveDays sha256 days).2 = some counts) ∧
      Moved sha256 s (s.archiveDays sha256 days).1 (· ∈ days) := by
  induction days generalizing s with
  | nil => exact ⟨⟨_, rfl⟩, (Moved.refl hs).congr fun day => by simp⟩
  | cons day rest ih =>
    obtain ⟨hcnt, hmv⟩ := moved_archiveDay hs day
    obtain ⟨⟨counts, hcts⟩, hrst⟩ := ih (hmv.sound hs)
    unfold Tiers.archiveDays
    generalize s.archiveDay sha256 day = first at hcnt hmv hcts hrst
    obtain ⟨s', moved⟩ := first
    obtain rfl : moved = some (s.rowsOfDay day).length := hcnt
    refine ⟨?_, (hmv.trans hrst).congr fun d => by simp⟩
    dsimp only at hcts ⊢
    rw [hcts]
    exact ⟨_, rfl⟩

omit [DecidableEq τ] [Ord τ] [DecidableEq δ] in
theorem mem_candidateDays {cutoff : Nat} : day ∈ s.candidateDays cutoff ↔
    ∃ x ∈ s.db.archive.rows, x.occurredAt < cutoff ∧ x.day = day := by
  unfold Tiers.candidateDays
  simp only [mem_insertionSort, mem_dedup, List.mem_map, mem_filter, decide_eq_true_eq, and_assoc]

omit [DecidableEq τ] [Ord τ] in
theorem day_lt_iff {cutoffDay : Nat} : x.day < cutoffDay ↔ x.occurredAt < cutoffDay * msPerDay := by
  unfold ArchivedRow.day utcDayOf
  exact Nat.div_lt_iff_lt_mul (by decide)

def hotDay (options : EventColdArchiveOptions) (now : Nat) : Nat :=
  utcDayOf (now - options.hotRetentionDays * msPerDay)

def coldDay (options : EventColdArchiveOptions) (now : Nat) : Nat :=
  utcDayOf (now - options.coldRetentionDays * msPerDay)

omit [DecidableEq τ] [Ord τ] [DecidableEq δ] in
theorem mem_listArchivedDays : day ∈ listArchivedDays files ↔ ∃ dir, files.get day = some dir := by
  unfold listArchivedDays
  rw [mem_insertionSort, ← AList.mem_keys, ← AList.lookup_isSome, isSome_iff_exists]
  rfl

omit [DecidableEq τ] [Ord τ] in
theorem Tiers.Sound.day_listed (h : s.Sound sha256) (hfld : s.Filed sha256 x) :
    x.day ∈ listArchivedDays s.files := by
  obtain ⟨rows, hrw, hx⟩ := h.filed_iff.mp hfld
  rw [mem_listArchivedDays]
  cases hget : s.files.get x.day with
  | some dir => exact ⟨dir, rfl⟩
  | none =>
    unfold readDayFile at hrw
    rw [hget] at hrw
    cases hrw
    cases hx

theorem mem_takeWhile_lt {l : List Nat} (hsrt : l.Pairwise (· ≤ ·)) {c : Nat} :
    day ∈ l.takeWhile (fun d => decide (d < c)) ↔ day ∈ l ∧ day < c := by
  induction l with
  | nil => simp
  | cons d rest ih =>
    rw [pairwise_cons] at hsrt
    by_cases hd : d < c
    · rw [takeWhile_cons_of_pos (by simpa using hd), mem_cons, mem_cons, ih hsrt.2]
      constructor
      · intro h
        rcases h with rfl | ⟨hmem, hlt⟩
        · exact ⟨.inl rfl, hd⟩
        · exact ⟨.inr hmem, hlt⟩
      · intro ⟨h, hlt⟩
        rcases h with rfl | hmem
        · exact .inl rfl
        · exact .inr ⟨hmem, hlt⟩
    · rw [takeWhile_cons_of_neg (by simpa using hd)]
      refine ⟨nofun, fun ⟨hmem, hlt⟩ => ?_⟩
      -- the days after the first that is kept are later
      rcases mem_cons.mp hmem with rfl | hrst
      · exact absurd hlt hd
      · have hle := hsrt.1 day hrst
        omega

section

omit [DecidableEq τ] [Ord τ] [DecidableEq δ]

theorem get_removes (days : List Nat) :
    (days.foldl remove files).get day = if day ∈ days then none else files.get day := by
  induction days generalizing files with
  | nil => simp
  | cons d rest ih =>
    rw [foldl_cons, ih, get_remove]
    by_cases hrst : day ∈ rest
    · simp [hrst]
    · by_cases hd : day = d
      · simp [hd]
      · simp [hrst, hd]

/-- **A purge removes the days before the cutoff.** -/
theorem get_purgeExpired (cutoff : Nat) : (purgeExpired cutoff files).1.get day =
    if day < cutoff then none else files.get day := by
  unfold purgeExpired
  dsimp only
  have hsrt : (listArchivedDays files).Pairwise (· ≤ ·) := pairwise_insertionSort _ _
  rw [get_removes]
  by_cases hlt : day < cutoff
  · rw [if_pos hlt]
    split
    · rfl
    · rename_i hnot
      cases hget : files.get day with
      | none => rfl
      | some dir =>
        exact absurd ((mem_takeWhile_lt hsrt).mpr ⟨mem_listArchivedDays.mpr ⟨dir, hget⟩, hlt⟩) hnot
  · rw [if_neg hlt, if_neg fun h => hlt ((mem_takeWhile_lt hsrt).mp h).2]

end

/-- What a cycle does: complete old days move, and expired days go. -/
structure Cycled (sha256 : List (ArchivedRow τ) → δ) (options : EventColdArchiveOptions) (now : Nat)
    (s s' : Tiers τ δ) : Prop where
  reads : ∀ day, ∃ rows, readDayFile sha256 s'.files day = some rows ∧ ∀ x ∈ rows, x.day = day
  archive : ∀ x, x ∈ s'.db.archive.rows ↔ x ∈ s.db.archive.rows ∧ hotDay options now ≤ x.day
  filed : ∀ x, s'.Filed sha256 x ↔ (s.Filed sha256 x ∨ x ∈ s.db.archive.rows ∧ x.day < hotDay options now) ∧
      coldDay options now ≤ x.day
  days : ∀ day dir, s'.files.get day = some dir → coldDay options now ≤ day
  store : s'.db.store = s.db.store

section

omit [DecidableEq τ] [Ord τ]

theorem Cycled.sound {options : EventColdArchiveOptions} {now : Nat} (h : Cycled sha256 options now s s')
    (hs : s.Sound sha256) : s'.Sound sha256 where
  reads := h.reads
  coherent := by
    have hsto : ∀ x, s'.Stored sha256 x → s.Stored sha256 x := by
      intro x hx
      rcases hx with hx | hx
      · exact .inl ((h.archive x).mp hx).1
      · rcases ((h.filed x).mp hx).1 with hfld | ⟨harc, _⟩
        · exact .inr hfld
        · exact .inl harc
    intro x y hx hy
    exact hs.coherent x y (hsto x hx) (hsto y hy)

theorem filed_purge (hrds : ∀ day, ∃ rows, readDayFile sha256 s.files day = some rows ∧
      ∀ x ∈ rows, x.day = day) (cutoff : Nat) :
    (∀ day, ∃ rows, readDayFile sha256 (purgeExpired cutoff s.files).1 day = some rows ∧
      ∀ x ∈ rows, x.day = day) ∧
    ∀ x, (Tiers.mk s.db (purgeExpired cutoff s.files).1).Filed sha256 x ↔
      s.Filed sha256 x ∧ cutoff ≤ x.day := by
  have hrd : ∀ day, readDayFile sha256 (purgeExpired cutoff s.files).1 day =
      if day < cutoff then some [] else readDayFile sha256 s.files day := by
    intro day
    by_cases hlt : day < cutoff
    · unfold readDayFile
      rw [get_purgeExpired, if_pos hlt, if_pos hlt]
      rfl
    · rw [if_neg hlt]
      exact readDayFile_congr (by rw [get_purgeExpired, if_neg hlt])
  constructor
  · intro day
    rw [hrd]
    split
    · exact ⟨[], rfl, fun x hx => (by cases hx)⟩
    · exact hrds day
  · intro x
    unfold Tiers.Filed
    simp only [hrd]
    constructor
    · intro ⟨day, rows, hrw, hx⟩
      split at hrw
      · cases hrw
        cases hx
      · rename_i hge
        refine ⟨⟨day, rows, hrw, hx⟩, ?_⟩
        obtain ⟨rows', hrw', hday⟩ := hrds day
        cases hrw.symm.trans hrw'
        rw [hday x hx]
        omega
    · intro ⟨⟨day, rows, hrw, hx⟩, hge⟩
      refine ⟨day, rows, ?_, hx⟩
      obtain ⟨rows', hrw', hday⟩ := hrds day
      cases hrw.symm.trans hrw'
      rw [hday x hx] at hge
      rw [if_neg (by omega)]
      exact hrw

end

/-- **A cycle succeeds and moves every complete old day.** -/
theorem cycled_runCycle (hs : s.Sound sha256) (options : EventColdArchiveOptions) (now : Nat) :
    (∃ stats, (s.runCycle sha256 options now).2 = some stats) ∧
      Cycled sha256 options now s (s.runCycle sha256 options now).1 := by
  obtain ⟨⟨counts, hcts⟩, hmv⟩ :=
    moved_archiveDays hs (s.candidateDays (Tiers.cutoffDayStart options now))
  unfold Tiers.runCycle
  generalize s.archiveDays sha256 (s.candidateDays (Tiers.cutoffDayStart options now)) = result
    at hcts hmv
  obtain ⟨s', counts'⟩ := result
  obtain rfl : counts' = some counts := hcts
  have hday : ∀ x ∈ s.db.archive.rows,
      (x.day ∈ s.candidateDays (Tiers.cutoffDayStart options now) ↔ x.day < hotDay options now) := by
    intro x hx
    rw [mem_candidateDays]
    unfold Tiers.cutoffDayStart
    constructor
    · intro ⟨y, _, hold, hsm⟩
      rw [← hsm]
      exact day_lt_iff.mpr hold
    · intro hlt
      exact ⟨x, hx, day_lt_iff.mp hlt, rfl⟩
  obtain ⟨hrds, hfld⟩ := filed_purge (s := s') hmv.reads (coldDay options now)
  refine ⟨⟨_, rfl⟩, hrds, fun x => ?_, fun x => ?_, fun day dir hget => ?_, hmv.store⟩
  · refine (hmv.archive x).trans (and_congr_right fun hx => ?_)
    rw [hday x hx]
    omega
  · refine (hfld x).trans (and_congr_left fun _ => ?_)
    refine (hmv.filed x).trans (or_congr_right (and_congr_right fun hx => hday x hx))
  · have hget' : (purgeExpired (coldDay options now) s'.files).1.get day = some dir := hget
    rw [get_purgeExpired] at hget'
    split at hget'
    · cases hget'
    · omega

/-- **A second cycle at the same time does nothing.** -/
theorem runCycle_again {options : EventColdArchiveOptions} {now : Nat}
    (h : Cycled sha256 options now s s') :
    s'.runCycle sha256 options now = (s', some ⟨0, 0, 0⟩) := by
  have hno : s'.candidateDays (Tiers.cutoffDayStart options now) = [] := by
    rw [eq_nil_iff_forall_not_mem]
    intro day hday
    obtain ⟨x, hx, hold, _⟩ := mem_candidateDays.mp hday
    have hge := ((h.archive x).mp hx).2
    have hlt : x.day < hotDay options now := day_lt_iff.mpr hold
    omega
  have hkpt : (listArchivedDays s'.files).takeWhile
      (fun day => decide (day < coldDay options now)) = [] := by
    rw [eq_nil_iff_forall_not_mem]
    intro day hday
    have hsrt : (listArchivedDays s'.files).Pairwise (· ≤ ·) := pairwise_insertionSort _ _
    obtain ⟨hmem, hlt⟩ := (mem_takeWhile_lt hsrt).mp hday
    obtain ⟨dir, hdir⟩ := mem_listArchivedDays.mp hmem
    have hge := h.days day dir hdir
    omega
  unfold Tiers.runCycle
  rw [hno]
  unfold Tiers.archiveDays purgeExpired
  dsimp only
  unfold coldDay at hkpt
  rw [hkpt]
  rfl

/-! ## Restoring -/

omit [DecidableEq τ] [Ord τ] in
theorem restorable_eq (hs : s.Sound sha256) (days : List Nat) :
    ∃ rows, Tiers.restorable sha256 s.files days = some rows ∧
      ∀ x, x ∈ rows ↔ s.Filed sha256 x ∧ x.day ∈ days := by
  induction days with
  | nil => exact ⟨[], rfl, fun x => by simp⟩
  | cons day rest ih =>
    obtain ⟨rows, hrw, hday⟩ := hs.reads day
    obtain ⟨more, hmo, hmem⟩ := ih
    refine ⟨rows ++ more, ?_, fun x => ?_⟩
    · unfold Tiers.restorable
      rw [hrw, hmo]
      rfl
    · rw [mem_append, hmem, mem_cons]
      constructor
      · intro h
        rcases h with hx | ⟨hfld, hrst⟩
        · exact ⟨⟨day, rows, hrw, hx⟩, .inl (hday x hx)⟩
        · exact ⟨hfld, .inr hrst⟩
      · intro ⟨hfld, h⟩
        rcases h with rfl | hrst
        · obtain ⟨rows', hrw', hx⟩ := hs.filed_iff.mp hfld
          cases hrw.symm.trans hrw'
          exact .inl hx
        · exact .inr ⟨hfld, hrst⟩

/-- What restoring a range does: its rows are in the archive too. -/
structure Restored (sha256 : List (ArchivedRow τ) → δ) (fromDay toDay : Nat) (s s' : Tiers τ δ) :
    Prop where
  archive : ∀ x, x ∈ s'.db.archive.rows ↔
    x ∈ s.db.archive.rows ∨ s.Filed sha256 x ∧ fromDay ≤ x.day ∧ x.day ≤ toDay
  files : s'.files = s.files
  store : s'.db.store = s.db.store

variable {fromDay toDay : Nat}

section

omit [DecidableEq τ] [Ord τ]

theorem Restored.stored (h : Restored sha256 fromDay toDay s s')
    (x : ArchivedRow τ) : s'.Stored sha256 x ↔ s.Stored sha256 x := by
  have hfld : s'.Filed sha256 x ↔ s.Filed sha256 x := by
    unfold Tiers.Filed
    rw [h.files]
  unfold Tiers.Stored
  rw [h.archive, hfld]
  constructor
  · intro hx
    rcases hx with (harc | ⟨hfld, _⟩) | hfld
    · exact .inl harc
    · exact .inr hfld
    · exact .inr hfld
  · intro hx
    rcases hx with harc | hfld
    · exact .inl (.inl harc)
    · exact .inr hfld

theorem Restored.sound (h : Restored sha256 fromDay toDay s s') (hs : s.Sound sha256) : s'.Sound sha256 where
  reads := by
    rw [h.files]
    exact hs.reads
  coherent := by
    intro x y hx hy
    exact hs.coherent x y ((h.stored x).mp hx) ((h.stored y).mp hy)

end

section

omit [Ord τ]

theorem restoreRange_eq (hs : s.Sound sha256) (fromDay toDay : Nat) :
    ∃ rows : List (ArchivedRow τ), (∀ x, x ∈ rows ↔ s.Filed sha256 x ∧ fromDay ≤ x.day ∧ x.day ≤ toDay) ∧
      s.restoreRange sha256 fromDay toDay =
        some ({ s with db := { s.db with archive := s.db.archive.insertAll rows } },
          (s.db.archive.insertAll rows).rows.length - s.db.archive.rows.length) := by
  obtain ⟨rows, hrw, hmem⟩ := restorable_eq hs ((listArchivedDays s.files).filter fun day =>
    decide (fromDay ≤ day) && decide (day ≤ toDay))
  refine ⟨rows, fun x => ?_, ?_⟩
  · rw [hmem]
    refine and_congr_right fun hfld => ?_
    rw [mem_filter, Bool.and_eq_true, decide_eq_true_eq, decide_eq_true_eq, and_iff_right_iff_imp]
    intro _
    exact hs.day_listed hfld
  · unfold Tiers.restoreRange
    dsimp only
    rw [hrw]
    rfl

/-- **Restoring a range brings back its filed rows.** -/
theorem restored_restoreRange (hs : s.Sound sha256) (fromDay toDay : Nat) :
    ∃ s' n, s.restoreRange sha256 fromDay toDay = some (s', n) ∧ Restored sha256 fromDay toDay s s' := by
  obtain ⟨rows, hmem, heq⟩ := restoreRange_eq hs fromDay toDay
  refine ⟨_, _, heq, fun x => ?_, rfl, rfl⟩
  rw [← hmem]
  constructor
  · intro hx
    rcases mem_of_mem_insertAll hx with hold | ⟨hnew, _⟩
    · exact .inl hold
    · exact .inr hnew
  · intro h
    rcases h with hold | hnew
    · exact mem_insertAll_of_mem hold
    · -- the row that has its key is itself
      obtain ⟨y, hy, hkey⟩ := key_of_insertAll (t := s.db.archive) hnew
      have hsto : s.Stored sha256 y := by
        rcases mem_of_mem_insertAll hy with hold | ⟨hy', _⟩
        · exact .inl hold
        · exact .inr ((hmem y).mp hy').1
      have hsm := hs.coherent y x hsto (.inr ((hmem x).mp hnew).1) hkey
      rw [← hsm]
      exact hy

/-- **Restoring a range again inserts nothing.** -/
theorem restoreRange_again (hs : s.Sound sha256) (h : Restored sha256 fromDay toDay s s') :
    s'.restoreRange sha256 fromDay toDay = some (s', 0) := by
  obtain ⟨rows, hmem, heq⟩ := restoreRange_eq (h.sound hs) fromDay toDay
  have htkn : s'.db.archive.insertAll rows = s'.db.archive := by
    refine insertAll_of_taken fun x hx => ⟨x, (h.archive x).mpr (.inr ?_), rfl⟩
    have hfld := (hmem x).mp hx
    unfold Tiers.Filed at hfld ⊢
    rw [h.files] at hfld
    exact hfld
  rw [heq, htkn, Nat.sub_self]

end

end AiNet.Events
