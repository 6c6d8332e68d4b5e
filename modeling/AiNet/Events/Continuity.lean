import AiNet.Core.Transition
import AiNet.Events.DayFiles

/-!
# No event is lost between the tiers

Runs of emissions, restarts, compactions, and moves to the day files and back. A restart is a new
bus over the same tables and files. It continues the numbers of the tasks that have live events; a task
whose events were all compacted starts at 0 again. Then two events have one number, and the archive,
which keeps the first, drops the second when it is compacted.
-/

namespace AiNet.Events

open Core List Option Function System UniqueTable

variable {τ δ : Type} [DecidableEq τ] [Ord τ] [DecidableEq δ]

/-- The bus and the tiers, and the record of what was numbered, stored and purged. -/
structure EventLog (τ δ : Type) where
  counters : Counters τ
  tiers : Tiers τ δ
  assigned : List (τ × Nat)
  persisted : List (EventRow τ)
  purged : List Nat

inductive LogEvent (τ : Type) where
  | emit (event : DAGEvent τ)
  | restart
  | compactTask (taskId : τ) (archivedAt : Nat) (stillCompacting : Bool)
  | archiveDay (day : Nat)
  | restoreRange (fromDay toDay : Nat)
  | purgeExpired (coldCutoffDay : Nat)

namespace EventLog

variable (sha256 : List (ArchivedRow τ) → δ)

def emitted (s : EventLog τ δ) (event : DAGEvent τ) : EventLog τ δ :=
  let store := s.tiers.db.store
  let (counters, store') := emit s.counters store event
  { s with
    counters := counters
    tiers := { s.tiers with db := { s.tiers.db with store := store' } }
    assigned := s.assigned ++ [(event.taskId, (s.counters event.taskId).getD 0)]
    persisted := s.persisted ++ store'.events.rows.drop store.events.rows.length }

def step (s : EventLog τ δ) : LogEvent τ → Option (EventLog τ δ)
  | .emit event => some (s.emitted event)
  | .restart => some { s with counters := rehydrate s.tiers.db.store }
  | .compactTask taskId archivedAt stillCompacting =>
    (s.tiers.db.compactTask taskId archivedAt stillCompacting).map fun (db, _) =>
      { s with tiers := { s.tiers with db := db } }
  | .archiveDay day => some { s with tiers := (s.tiers.archiveDay sha256 day).1 }
  | .restoreRange fromDay toDay =>
    (s.tiers.restoreRange sha256 fromDay toDay).map fun (tiers, _) => { s with tiers := tiers }
  | .purgeExpired coldCutoffDay =>
    some { s with
      tiers := { s.tiers with files := (Events.purgeExpired coldCutoffDay s.tiers.files).1 }
      purged := s.purged ++ (listArchivedDays s.tiers.files).filter fun day =>
        decide (day < coldCutoffDay) }

/-- Nothing has happened. -/
def system : System (EventLog τ δ) (LogEvent τ) where
  start s := s = ⟨fun _ => none, ⟨⟨⟨empty _, 0⟩, empty _⟩, ∅⟩, [], [], []⟩
  step := step sha256

/-- No task starts at 0 that had events before. -/
def continuous (s : EventLog τ δ) : LogEvent τ → Bool
  | .emit event =>
    (s.counters event.taskId).isSome || s.persisted.all fun r => decide (r.taskId ≠ event.taskId)
  | _ => true

/-- An event is in the live table, the archive or a day file. -/
def Holds (s : EventLog τ δ) (r : EventRow τ) : Prop :=
  r ∈ s.tiers.db.store.events.rows ∨ ∃ x, s.tiers.Stored sha256 x ∧ x.event = r

/-- Every event that was stored is in the tiers, unless its day was purged, and nothing else is; and no
number was assigned twice. -/
structure Complete (s : EventLog τ δ) : Prop where
  present : ∀ r ∈ s.persisted, utcDayOf r.occurredAt ∉ s.purged → s.Holds sha256 r
  exactly : ∀ r, s.Holds sha256 r → r ∈ s.persisted
  assigned : s.assigned.Nodup

/-- What every step keeps. -/
structure Sound (s : EventLog τ δ) : Prop extends s.Complete sha256 where
  numbered : s.persisted.map EventRow.key = s.assigned
  tiers : s.tiers.Sound sha256
  nodes : ∀ r ∈ s.tiers.db.store.events.rows, r.nodeId ≠ some taskLevelNodeId
  disjoint : ∀ r ∈ s.tiers.db.store.events.rows, ∀ x, s.tiers.Stored sha256 x → x.key ≠ r.key
  counts : ∀ r ∈ s.persisted, ∀ n, s.counters r.taskId = some n → r.taskSeq < n
  highest : ∀ r ∈ s.persisted, ∀ r' ∈ s.tiers.db.store.events.rows, r'.taskId = r.taskId →
    ∃ r'' ∈ s.tiers.db.store.events.rows, r''.taskId = r.taskId ∧ r.taskSeq ≤ r''.taskSeq

variable {sha256} {s s' : EventLog τ δ} {e : LogEvent τ}

theorem sound_start (h : (system sha256).start s) : s.Sound sha256 := by
  have hs : s = ⟨fun _ => none, ⟨⟨⟨empty _, 0⟩, empty _⟩, ∅⟩, [], [], []⟩ := h
  subst hs
  have hrd : ∀ day, readDayFile sha256 (∅ : Storage Nat (DayDir τ δ)) day = some [] := fun _ => rfl
  have hno : ∀ x, ¬Tiers.Stored sha256
      (⟨⟨⟨empty _, 0⟩, empty _⟩, ∅⟩ : Tiers τ δ) x := by
    intro x hx
    rcases hx with hx | ⟨day, rows, hrw, hx⟩
    · cases hx
    · rw [hrd] at hrw
      cases hrw
      cases hx
  refine ⟨⟨?_, ?_, nodup_nil⟩, rfl, ⟨?_, ?_⟩, ?_, ?_, ?_, ?_⟩
  · intro r hr
    cases hr
  · intro r hr
    rcases hr with hr | ⟨x, hx, _⟩
    · cases hr
    · exact absurd hx (hno x)
  · exact fun day => ⟨[], hrd day, fun x hx => (by cases hx)⟩
  · exact fun x y hx => absurd hx (hno x)
  · intro r hr
    cases hr
  · intro r hr
    cases hr
  · intro r hr
    cases hr
  · intro r hr
    cases hr

/-! ## Emissions -/

variable {event : DAGEvent τ}

section

omit [Ord τ]

/-- **The number of an emission is new.** -/
theorem Sound.fresh (h : s.Sound sha256) (hctn : s.continuous (.emit event) = true) :
    ∀ r ∈ s.persisted, r.taskId = event.taskId → r.taskSeq < (s.counters event.taskId).getD 0 := by
  intro r hr htk
  unfold continuous at hctn
  dsimp only at hctn
  cases hco : s.counters event.taskId with
  | some n => exact h.counts r hr n (htk ▸ hco)
  | none =>
    rw [hco, isSome_none, Bool.false_or, List.all_eq_true] at hctn
    exact absurd htk (of_decide_eq_true (hctn r hr))

theorem Sound.emitted_eq (h : s.Sound sha256) (hctn : s.continuous (.emit event) = true) :
    ∃ r, r.key = (event.taskId, (s.counters event.taskId).getD 0) ∧ r.nodeId ≠ some taskLevelNodeId ∧
      (s.emitted event).tiers.db.store.events.rows = s.tiers.db.store.events.rows ++ [r] ∧
      (s.emitted event).persisted = s.persisted ++ [r] := by
  have hfr : ∀ b ∈ s.tiers.db.store.events.rows, b.key ≠ (s.tiers.db.store.row
      (dagEventToAppEvent event ((s.counters event.taskId).getD 0))).key := by
    intro b hb hkey
    have htk : b.taskId = event.taskId := congrArg Prod.fst hkey
    have hseq : b.taskSeq = (s.counters event.taskId).getD 0 := congrArg Prod.snd hkey
    have hlt := h.fresh hctn b (h.exactly b (.inl hb)) htk
    omega
  obtain ⟨events, hins, hrw⟩ := insert_of_free hfr
  refine ⟨s.tiers.db.store.row (dagEventToAppEvent event ((s.counters event.taskId).getD 0)), rfl,
    nodeId_row _ _ _, ?_, ?_⟩
  · unfold emitted emit EventStore.append
    dsimp only
    rw [hins]
    exact hrw
  · unfold emitted emit EventStore.append
    dsimp only
    rw [hins, map_some, getD_some, hrw, drop_left]

theorem Sound.emit (h : s.Sound sha256)
    (hctn : s.continuous (.emit event) = true) : (s.emitted event).Sound sha256 := by
  obtain ⟨r, hkey, hno, hlv, hpe⟩ := h.emitted_eq hctn
  have hfr := h.fresh hctn
  have htk : r.taskId = event.taskId := congrArg Prod.fst hkey
  have hseq : r.taskSeq = (s.counters event.taskId).getD 0 := congrArg Prod.snd hkey
  have hsto : ∀ x, (s.emitted event).tiers.Stored sha256 x ↔ s.tiers.Stored sha256 x := fun x => .rfl
  have hhds : ∀ r', (s.emitted event).Holds sha256 r' ↔ s.Holds sha256 r' ∨ r' = r := by
    intro r'
    unfold Holds
    rw [hlv, mem_append, mem_singleton]
    simp only [hsto]
    constructor
    · intro h
      rcases h with (hold | hnew) | hx
      · exact .inl (.inl hold)
      · exact .inr hnew
      · exact .inl (.inr hx)
    · intro h
      rcases h with (hold | hx) | hnew
      · exact .inl (.inl hold)
      · exact .inr hx
      · exact .inl (.inr hnew)
  have hmem : ∀ {r'}, r' ∈ (s.emitted event).persisted → r' ∈ s.persisted ∨ r' = r := by
    intro r' hr'
    rw [hpe] at hr'
    simpa using hr'
  refine ⟨⟨?_, ?_, ?_⟩, ?_, ⟨h.tiers.reads, fun x y hx hy => h.tiers.coherent x y hx hy⟩, ?_, ?_, ?_, ?_⟩
  · intro r' hr' hday
    rw [hhds]
    rcases hmem hr' with hold | rfl
    · exact .inl (h.present r' hold hday)
    · exact .inr rfl
  · intro r' hr'
    rw [hpe]
    rcases (hhds r').mp hr' with hold | rfl
    · exact mem_append_left _ (h.exactly r' hold)
    · exact mem_append_right _ mem_cons_self
  · show (s.assigned ++ [(event.taskId, (s.counters event.taskId).getD 0)]).Nodup
    rw [nodup_append]
    refine ⟨h.assigned, nodup_singleton _, fun key hkey' key' hsm heq => ?_⟩
    rw [heq, mem_singleton.mp hsm, ← h.numbered] at hkey'
    obtain ⟨b, hb, hbk⟩ := List.mem_map.mp hkey'
    have hlt := hfr b hb (congrArg Prod.fst hbk)
    have hbs : b.taskSeq = (s.counters event.taskId).getD 0 := congrArg Prod.snd hbk
    omega
  · show (s.emitted event).persisted.map EventRow.key =
      s.assigned ++ [(event.taskId, (s.counters event.taskId).getD 0)]
    rw [hpe, map_append, h.numbered, map_singleton, hkey]
  · intro r' hr'
    rw [hlv] at hr'
    rcases mem_append.mp hr' with hold | hnew
    · exact h.nodes r' hold
    · rw [mem_singleton.mp hnew]
      exact hno
  · intro r' hr' x hx
    rw [hlv] at hr'
    rcases mem_append.mp hr' with hold | hnew
    · exact h.disjoint r' hold x hx
    · rw [mem_singleton.mp hnew]
      intro hsm
      have hlt := hfr x.event (h.exactly _ (.inr ⟨x, hx, rfl⟩)) ((congrArg Prod.fst hsm).trans htk)
      have hxs : x.taskSeq = r.taskSeq := congrArg Prod.snd hsm
      have hxe : x.event.taskSeq = x.taskSeq := rfl
      omega
  · intro r' hr' n hn
    have hco : (s.emitted event).counters =
        update s.counters event.taskId (some ((s.counters event.taskId).getD 0 + 1)) := rfl
    rw [hco] at hn
    by_cases hsm : r'.taskId = event.taskId
    · rw [hsm, update_self] at hn
      cases hn
      rcases hmem hr' with hold | rfl
      · have hlt := hfr r' hold hsm
        omega
      · omega
    · rw [update_of_ne hsm] at hn
      rcases hmem hr' with hold | rfl
      · exact h.counts r' hold n hn
      · exact absurd htk hsm
  · intro r' hr' r'' hr'' hsm
    rw [hlv] at hr'' ⊢
    -- the new row is the highest of its task
    by_cases hnew : r'.taskId = event.taskId
    · refine ⟨r, mem_append_right _ mem_cons_self, htk.trans hnew.symm, ?_⟩
      rcases hmem hr' with hold | rfl
      · have hlt := hfr r' hold hnew
        omega
      · exact Nat.le_refl _
    · have hold : r' ∈ s.persisted := by
        rcases hmem hr' with hold | rfl
        · exact hold
        · exact absurd htk hnew
      have hold' : r'' ∈ s.tiers.db.store.events.rows := by
        rcases mem_append.mp hr'' with hold' | hsf
        · exact hold'
        · rw [mem_singleton.mp hsf, htk] at hsm
          exact absurd hsm.symm hnew
      obtain ⟨b, hb, hbta, hle⟩ := h.highest r' hold r'' hold' hsm
      exact ⟨b, mem_append_left _ hb, hbta, hle⟩

/-- **A new bus continues above what was stored.** -/
theorem Sound.restart (h : s.Sound sha256) :
    Sound sha256 { s with counters := rehydrate s.tiers.db.store } where
  toComplete := ⟨h.present, h.exactly, h.assigned⟩
  numbered := h.numbered
  tiers := h.tiers
  nodes := h.nodes
  disjoint := h.disjoint
  counts := by
    intro r hr n hn
    obtain ⟨m, hm, rfl⟩ := map_eq_some_iff.mp hn
    unfold EventStore.maxTaskSeqPerTask at hm
    rw [List.max?_eq_some_iff] at hm
    obtain ⟨hmem, hmax⟩ := hm
    obtain ⟨r', hr', _⟩ := List.mem_map.mp hmem
    obtain ⟨hlv, htk⟩ := mem_ofTask.mp hr'
    obtain ⟨r'', hlv'', htk'', hle⟩ := h.highest r hr r' hlv htk
    have hbd := hmax r''.taskSeq (List.mem_map_of_mem (mem_ofTask.mpr ⟨hlv'', htk''⟩))
    omega
  highest := h.highest

end

/-! ## Compaction -/

/-- The events that compacting a task leaves live, and what is stored of the others. -/
def compacted (s : EventLog τ δ) (taskId : τ) (archivedAt : Nat) : EventLog τ δ :=
  { s with tiers := { s.tiers with db := s.tiers.db.compacted taskId archivedAt } }

omit [Ord τ] [DecidableEq δ] in
theorem mem_live_compacted {taskId : τ} {archivedAt : Nat} {r : EventRow τ} :
    r ∈ (s.compacted taskId archivedAt).tiers.db.store.events.rows ↔
      r ∈ s.tiers.db.store.events.rows ∧ r.taskId ≠ taskId := by
  unfold compacted EventDb.compacted
  dsimp only
  rw [mem_keep, decide_eq_true_eq]

section

omit [Ord τ]

/-- **What a compaction stores are the rows of the task.** None is dropped, as their numbers are new. -/
theorem Sound.stored_compacted (h : s.Sound sha256) (taskId : τ) (archivedAt : Nat) (x : ArchivedRow τ) :
    (s.compacted taskId archivedAt).tiers.Stored sha256 x ↔ s.tiers.Stored sha256 x ∨
      ∃ r ∈ s.tiers.db.store.events.rows, r.taskId = taskId ∧ r.archived archivedAt = x := by
  have hrw : ∀ y, y ∈ (s.tiers.db.store.ofTask taskId).map (EventRow.archived archivedAt) ↔
      ∃ r ∈ s.tiers.db.store.events.rows, r.taskId = taskId ∧ r.archived archivedAt = y := by
    intro y
    rw [List.mem_map]
    simp only [mem_ofTask, and_assoc]
  constructor
  · intro hx
    rcases hx with hx | hx
    · rcases mem_of_mem_insertAll hx with hold | ⟨hnew, _⟩
      · exact .inl (.inl hold)
      · exact .inr ((hrw x).mp hnew)
    · exact .inl (.inr hx)
  · intro hx
    rcases hx with (hold | hfld) | hnew
    · exact .inl (mem_insertAll_of_mem hold)
    · exact .inr hfld
    · obtain ⟨y, hy, hkey⟩ := key_of_insertAll (t := s.tiers.db.archive) ((hrw x).mpr hnew)
      obtain ⟨r, hr, _, hrx⟩ := hnew
      rw [← hrx, key_archived] at hkey
      -- the row that has the key is this one
      rcases mem_of_mem_insertAll hy with hold | ⟨hmem, _⟩
      · exact absurd hkey (h.disjoint r hr y (.inl hold))
      · obtain ⟨r', hr', _, hry⟩ := (hrw y).mp hmem
        rw [← hry, key_archived] at hkey
        obtain rfl := unique hr' hr hkey
        rw [← hrx, hry]
        exact .inl hy

theorem Sound.holds_compacted (h : s.Sound sha256) (taskId : τ) (archivedAt : Nat) (r : EventRow τ) :
    (s.compacted taskId archivedAt).Holds sha256 r ↔ s.Holds sha256 r := by
  constructor
  · intro hr
    rcases hr with hlv | ⟨x, hx, hev⟩
    · exact .inl (mem_live_compacted.mp hlv).1
    · rcases (h.stored_compacted taskId archivedAt x).mp hx with hold | ⟨r', hr', _, hrx⟩
      · exact .inr ⟨x, hold, hev⟩
      · rw [← hrx, event_archived archivedAt (h.nodes r' hr')] at hev
        exact .inl (hev ▸ hr')
  · intro hr
    rcases hr with hlv | ⟨x, hx, hev⟩
    · by_cases htk : r.taskId = taskId
      · refine .inr ⟨r.archived archivedAt, ?_, event_archived archivedAt (h.nodes r hlv)⟩
        exact (h.stored_compacted taskId archivedAt _).mpr (.inr ⟨r, hlv, htk, rfl⟩)
      · exact .inl (mem_live_compacted.mpr ⟨hlv, htk⟩)
    · exact .inr ⟨x, (h.stored_compacted taskId archivedAt x).mpr (.inl hx), hev⟩

theorem Sound.compact (h : s.Sound sha256) (taskId : τ) (archivedAt : Nat) :
    (s.compacted taskId archivedAt).Sound sha256 := by
  have hsto := h.stored_compacted taskId archivedAt
  have hhds := h.holds_compacted taskId archivedAt
  refine ⟨⟨?_, ?_, h.assigned⟩, h.numbered, ⟨h.tiers.reads, ?_⟩, ?_, ?_, h.counts, ?_⟩
  · intro r hr hday
    exact (hhds r).mpr (h.present r hr hday)
  · intro r hr
    exact h.exactly r ((hhds r).mp hr)
  · intro x y hx hy hkey
    rcases (hsto x).mp hx with hx | ⟨r, hr, _, hrx⟩
    · rcases (hsto y).mp hy with hy | ⟨r', hr', _, hry⟩
      · exact h.tiers.coherent x y hx hy hkey
      · rw [← hry, key_archived] at hkey
        exact absurd hkey (h.disjoint r' hr' x hx)
    · rcases (hsto y).mp hy with hy | ⟨r', hr', _, hry⟩
      · rw [← hrx, key_archived] at hkey
        exact absurd hkey.symm (h.disjoint r hr y hy)
      · rw [← hrx, ← hry, key_archived, key_archived] at hkey
        rw [← hrx, ← hry, unique hr hr' hkey]
  · intro r hr
    exact h.nodes r (mem_live_compacted.mp hr).1
  · intro r hr x hx
    obtain ⟨hlv, hoth⟩ := mem_live_compacted.mp hr
    rcases (hsto x).mp hx with hold | ⟨r', _, htk, hrx⟩
    · exact h.disjoint r hlv x hold
    · intro hkey
      rw [← hrx, key_archived] at hkey
      have hsm : r'.taskId = r.taskId := congrArg Prod.fst hkey
      exact hoth (hsm.symm.trans htk)
  · intro r hr r' hr' hsm
    obtain ⟨hlv, hoth⟩ := mem_live_compacted.mp hr'
    obtain ⟨r'', hr'', htk, hle⟩ := h.highest r hr r' hlv hsm
    refine ⟨r'', mem_live_compacted.mpr ⟨hr'', ?_⟩, htk, hle⟩
    rw [htk, ← hsm]
    exact hoth

end

/-! ## Moves between the archive and the files -/

section

omit [DecidableEq τ] [Ord τ]

/-- **Moves keep what is stored**, except for the rows of purged days. -/
theorem Sound.moved (h : s.Sound sha256) {tiers : Tiers τ δ} {purged : List Nat}
    (htie : tiers.Sound sha256) (hstr : tiers.db.store = s.tiers.db.store)
    (hpu : ∀ day ∈ s.purged, day ∈ purged)
    (hsto : ∀ x, tiers.Stored sha256 x → s.tiers.Stored sha256 x)
    (hkpt : ∀ x, s.tiers.Stored sha256 x → x.day ∉ purged → tiers.Stored sha256 x) :
    Sound sha256 { s with tiers := tiers, purged := purged } := by
  refine ⟨⟨?_, ?_, h.assigned⟩, h.numbered, htie, ?_, ?_, h.counts, ?_⟩
  · intro r hr hday
    rcases h.present r hr fun hold => hday (hpu _ hold) with hlv | ⟨x, hx, hev⟩
    · refine .inl ?_
      dsimp only
      rw [hstr]
      exact hlv
    · refine .inr ⟨x, hkpt x hx ?_, hev⟩
      rw [← hev] at hday
      exact hday
  · intro r hr
    rcases hr with hlv | ⟨x, hx, hev⟩
    · dsimp only at hlv
      rw [hstr] at hlv
      exact h.exactly r (.inl hlv)
    · exact h.exactly r (.inr ⟨x, hsto x hx, hev⟩)
  · dsimp only
    rw [hstr]
    exact h.nodes
  · dsimp only
    rw [hstr]
    exact fun r hr x hx => h.disjoint r hr x (hsto x hx)
  · dsimp only
    rw [hstr]
    exact h.highest

theorem Sound.purge (h : s.Sound sha256) (coldCutoffDay : Nat) :
    Sound sha256 { s with
      tiers := { s.tiers with files := (Events.purgeExpired coldCutoffDay s.tiers.files).1 }
      purged := s.purged ++ (listArchivedDays s.tiers.files).filter fun day =>
        decide (day < coldCutoffDay) } := by
  obtain ⟨hrds, hfld⟩ := filed_purge h.tiers.reads coldCutoffDay
  have hsto : ∀ x, Tiers.Stored sha256
      ⟨s.tiers.db, (Events.purgeExpired coldCutoffDay s.tiers.files).1⟩ x → s.tiers.Stored sha256 x := by
    intro x hx
    rcases hx with hx | hx
    · exact .inl hx
    · exact .inr ((hfld x).mp hx).1
  refine h.moved ⟨hrds, fun x y hx hy => ?_⟩ rfl ?_ hsto ?_
  · exact h.tiers.coherent x y (hsto x hx) (hsto y hy)
  · intro day hday
    exact mem_append_left _ hday
  · intro x hx hday
    rcases hx with hx | hx
    · exact .inl hx
    · refine .inr ((hfld x).mpr ⟨hx, ?_⟩)
      by_contra hexp
      refine hday (mem_append_right _ (mem_filter.mpr ⟨h.tiers.day_listed hx, ?_⟩))
      exact decide_eq_true (by omega)

end

/-! ## Runs -/

/-- **Every step that continues the numbers keeps all events.** -/
theorem Sound.step (h : s.Sound sha256) (hctn : s.continuous e = true)
    (hst : step sha256 s e = some s') : s'.Sound sha256 := by
  unfold EventLog.step at hst
  cases e with
  | emit =>
    obtain rfl := some.inj hst
    exact h.emit hctn
  | restart =>
    obtain rfl := some.inj hst
    exact h.restart
  | compactTask taskId archivedAt stillCompacting =>
    obtain ⟨⟨db, outcome⟩, hcpt, rfl⟩ := map_eq_some_iff.mp hst
    cases stillCompacting with
    | false => cases hcpt
    | true =>
      have heq := compactTask_eq s.tiers.db taskId archivedAt
      rw [hcpt] at heq
      obtain rfl := some.inj heq
      dsimp only
      split
      · exact h
      · exact h.compact taskId archivedAt
  | archiveDay day =>
    obtain rfl := some.inj hst
    have hmv := (moved_archiveDay h.tiers day).2
    exact h.moved (hmv.sound h.tiers) hmv.store (fun _ hd => hd)
      (fun x hx => (hmv.stored x).mp hx) fun x hx _ => (hmv.stored x).mpr hx
  | restoreRange fromDay toDay =>
    obtain ⟨⟨tiers, n⟩, hrt, rfl⟩ := map_eq_some_iff.mp hst
    obtain ⟨tiers', n', heq, hrst⟩ := restored_restoreRange h.tiers fromDay toDay
    obtain ⟨rfl, _⟩ := Prod.mk.inj (some.inj (hrt.symm.trans heq))
    exact h.moved (hrst.sound h.tiers) hrst.store (fun _ hd => hd)
      (fun x hx => (hrst.stored x).mp hx) fun x hx _ => (hrst.stored x).mpr hx
  | purgeExpired coldCutoffDay =>
    obtain rfl := some.inj hst
    exact h.purge coldCutoffDay

/-! ## The first number -/

/-- Whatever has a number has a number 0, under all steps. -/
structure Begun (s : EventLog τ δ) : Prop where
  counters : ∀ taskId n, s.counters taskId = some n → (taskId, 0) ∈ s.assigned
  live : ∀ r ∈ s.tiers.db.store.events.rows, (r.taskId, 0) ∈ s.assigned
  persisted : ∀ r ∈ s.persisted, (r.taskId, 0) ∈ s.assigned

section

omit [Ord τ] [DecidableEq δ]

theorem Begun.emit (h : s.Begun) (event : DAGEvent τ) : (s.emitted event).Begun := by
  have hai : (s.emitted event).assigned =
      s.assigned ++ [(event.taskId, (s.counters event.taskId).getD 0)] := rfl
  have hold : ∀ {key : τ × Nat}, key ∈ s.assigned → key ∈ (s.emitted event).assigned := by
    intro key hkey
    rw [hai]
    exact mem_append_left _ hkey
  have hsf : (event.taskId, 0) ∈ (s.emitted event).assigned := by
    cases hco : s.counters event.taskId with
    | none =>
      rw [hai, hco]
      exact mem_append_right _ mem_cons_self
    | some n => exact hold (h.counters event.taskId n hco)
  have hlv : ∀ r ∈ (s.emitted event).tiers.db.store.events.rows,
      (r.taskId, 0) ∈ (s.emitted event).assigned := by
    intro r hr
    unfold emitted Events.emit EventStore.append at hr
    dsimp only at hr
    cases hins : s.tiers.db.store.events.insert (s.tiers.db.store.row
        (dagEventToAppEvent event ((s.counters event.taskId).getD 0))) with
    | none =>
      rw [hins] at hr
      exact hold (h.live r hr)
    | some events =>
      rw [hins, map_some, getD_some] at hr
      dsimp only at hr
      rw [(insert_eq_some hins).1] at hr
      rcases mem_append.mp hr with hr | hr
      · exact hold (h.live r hr)
      · rw [mem_singleton.mp hr]
        exact hsf
  refine ⟨fun taskId n hn => ?_, hlv, fun r hr => ?_⟩
  · by_cases htk : taskId = event.taskId
    · rw [htk]
      exact hsf
    · have hcou : (s.emitted event).counters = update s.counters event.taskId
          (some ((s.counters event.taskId).getD 0 + 1)) := rfl
      rw [hcou, update_of_ne htk] at hn
      exact hold (h.counters taskId n hn)
  · rcases mem_append.mp (show r ∈ s.persisted ++
        (s.emitted event).tiers.db.store.events.rows.drop s.tiers.db.store.events.rows.length from hr)
      with hr | hr
    · exact hold (h.persisted r hr)
    · exact hlv r (mem_of_mem_drop hr)

theorem Begun.restart (h : s.Begun) : Begun { s with counters := rehydrate s.tiers.db.store } where
  counters := by
    intro taskId n hn
    obtain ⟨m, hm, _⟩ := map_eq_some_iff.mp hn
    unfold EventStore.maxTaskSeqPerTask at hm
    obtain ⟨r, hr, _⟩ := List.mem_map.mp (List.max?_eq_some_iff.mp hm).1
    obtain ⟨hlv, htk⟩ := mem_ofTask.mp hr
    exact htk ▸ h.live r hlv
  live := h.live
  persisted := h.persisted

end

omit [DecidableEq τ] [Ord τ] [DecidableEq δ] in
theorem Begun.tiers (h : s.Begun) {tiers : Tiers τ δ} (purged : List Nat)
    (hlv : ∀ r ∈ tiers.db.store.events.rows, r ∈ s.tiers.db.store.events.rows) :
    Begun { s with tiers := tiers, purged := purged } :=
  ⟨h.counters, fun r hr => h.live r (hlv r hr), h.persisted⟩

theorem store_archiveDay (tiers : Tiers τ δ) (day : Nat) :
    (tiers.archiveDay sha256 day).1.db.store = tiers.db.store := by
  unfold Tiers.archiveDay
  dsimp only
  split
  · rfl
  · split
    · rfl
    · split
      · rfl
      · split
        · rfl
        · rfl

theorem Begun.step (h : s.Begun) (hst : step sha256 s e = some s') : s'.Begun := by
  unfold EventLog.step at hst
  cases e with
  | emit event =>
    obtain rfl := some.inj hst
    exact h.emit event
  | restart =>
    obtain rfl := some.inj hst
    exact h.restart
  | compactTask taskId archivedAt stillCompacting =>
    obtain ⟨⟨db, outcome⟩, hcpt, rfl⟩ := map_eq_some_iff.mp hst
    cases stillCompacting with
    | false => cases hcpt
    | true =>
      have heq := compactTask_eq s.tiers.db taskId archivedAt
      rw [hcpt] at heq
      obtain rfl := some.inj heq
      refine h.tiers s.purged fun r hr => ?_
      dsimp only at hr
      split at hr
      · exact hr
      · exact (mem_live_compacted.mp hr).1
  | archiveDay =>
    obtain rfl := some.inj hst
    refine h.tiers s.purged fun r hr => ?_
    rw [store_archiveDay] at hr
    exact hr
  | restoreRange =>
    obtain ⟨⟨tiers, n⟩, hrst, rfl⟩ := map_eq_some_iff.mp hst
    refine h.tiers s.purged fun r hr => ?_
    obtain ⟨rows, _, hres⟩ := map_eq_some_iff.mp hrst
    obtain ⟨rfl, _⟩ := Prod.mk.inj hres
    exact hr
  | purgeExpired =>
    obtain rfl := some.inj hst
    exact h.tiers _ fun r hr => hr

theorem begun_reachable (h : (system sha256).Reachable (fun _ _ => True) s) : s.Begun := by
  refine System.Reachable.invariant (I := Begun) ?_ ?_ h
  · intro s hsta
    have hs : s = ⟨fun _ => none, ⟨⟨⟨empty _, 0⟩, empty _⟩, ∅⟩, [], [], []⟩ :=
      hsta
    subst hs
    refine ⟨?_, ?_, ?_⟩
    · intro taskId n hn
      cases hn
    · intro r hr
      cases hr
    · intro r hr
      cases hr
  · intro s e s' _ _ hI hst
    exact hI.step hst

/-- **A task that starts again gets a number twice.** -/
theorem Begun.continuous_of_nodup (h : s.Begun) (hst : EventLog.step sha256 s e = some s')
    (hnd : s'.assigned.Nodup) : s.continuous e = true := by
  cases e with
  | emit event =>
    cases hst
    unfold continuous
    dsimp only
    cases hco : s.counters event.taskId with
    | some => rfl
    | none =>
      rw [isSome_none, Bool.false_or, List.all_eq_true]
      intro r hr
      refine decide_eq_true fun htk => ?_
      have hai : (s.emitted event).assigned = s.assigned ++ [(event.taskId, 0)] := by
        unfold emitted
        dsimp only
        rw [hco]
        rfl
      rw [hai, nodup_append] at hnd
      have hfst := h.persisted r hr
      rw [htk] at hfst
      exact hnd.2.2 _ hfst _ mem_cons_self rfl
  | restart | compactTask | archiveDay | restoreRange | purgeExpired => rfl

/--
**When no event is lost.** In every run of emissions, restarts, compactions, moves to the day files and
back, and purges: in all states that it passes the stored events are those in the tiers, but for purged
days, and no number was assigned twice, if and only if no task is started again at 0.
-/
theorem no_event_lost_iff (sha256 : List (ArchivedRow τ) → δ) {s : EventLog τ δ}
    {log : List (EventLog τ δ × LogEvent τ)}
    (h : (system sha256).Logged (fun _ _ => True) s log) :
    (∀ p ∈ log.map Prod.fst ++ [s], p.Complete sha256) ↔
      ∀ entry ∈ log, entry.1.continuous entry.2 = true := by
  refine h.forall_passed_iff_with (I := Complete sha256) (J := Sound sha256)
    (K := fun s e => s.continuous e = true) ?_ ?_
  · intro s hsta
    have hs := sound_start hsta
    exact ⟨hs.toComplete, hs⟩
  · intro s e s' hrch _ hst _
    constructor
    · intro hco
      exact (begun_reachable hrch).continuous_of_nodup hst hco.assigned
    · intro hs hctn
      have hs' := hs.step hctn hst
      exact ⟨hs'.toComplete, hs'⟩

/-! ## Examples -/

namespace Sample

/-- A task ends, is compacted, and has another event. -/
def completed : DAGEvent Nat := ⟨"task_completed", 7, none, 1000, some "done"⟩

def settled : DAGEvent Nat := ⟨"task_failed", 7, none, 2000, some "disputed"⟩

def start : EventLog Nat (List (ArchivedRow Nat)) :=
  ⟨fun _ => none, ⟨⟨⟨empty _, 0⟩, empty _⟩, ∅⟩, [], [], []⟩

/-- The checksum of a file is what is in it. -/
def contents (rows : List (ArchivedRow Nat)) : List (ArchivedRow Nat) := rows

def sameProcess : List (LogEvent Nat) :=
  [.emit completed, .compactTask 7 5000 true, .emit settled, .compactTask 7 6000 true,
    .archiveDay 0, .restoreRange 0 0]

def afterRestart : List (LogEvent Nat) :=
  [.emit completed, .compactTask 7 5000 true, .restart, .emit settled, .compactTask 7 6000 true]

end Sample

/-- As long as the bus lives, the task goes on at 1. -/
theorem no_event_lost_once :
    ∃ s log, (system Sample.contents).Logged (fun _ _ => True) s log ∧
      s.persisted.length = 2 ∧ ∀ p ∈ log.map Prod.fst ++ [s], p.Complete Sample.contents := by
  have hpl : ((system Sample.contents).play (fun _ _ => True) Sample.sameProcess Sample.start).any
      (fun s => decide (s.persisted.length = 2)) = true := by decide
  obtain ⟨s, hlog, hlen⟩ := exists_logged (S := system Sample.contents) rfl hpl
  refine ⟨s, _, hlog, hlen, (no_event_lost_iff Sample.contents hlog).mpr ?_⟩
  have hall : ((system Sample.contents).record Sample.sameProcess Sample.start).all
      (fun entry => entry.1.continuous entry.2) = true := by decide
  exact List.all_eq_true.mp hall

/--
After a restart the compacted task starts at 0 again. Both events were stored, with the same number, and
after the second compaction the later one is in no tier.
-/
theorem event_lost :
    ∃ s : EventLog Nat (List (ArchivedRow Nat)), ∃ r,
      (system Sample.contents).Reachable (fun _ _ => True) s ∧ s.purged = [] ∧
      r ∈ s.persisted ∧ ¬s.Holds Sample.contents r ∧ s.assigned = [(7, 0), (7, 0)] := by
  have hpl : ((system Sample.contents).play (fun _ _ => True) Sample.afterRestart Sample.start).any
      (fun s => decide (s.purged = [] ∧ s.assigned = [(7, 0), (7, 0)] ∧
        s.tiers.db.store.events.rows = [] ∧ s.tiers.db.archive.rows.map ArchivedRow.type = ["TaskCompleted"] ∧
        s.tiers.files.keys = [] ∧ ∃ r ∈ s.persisted, r.type = "TaskFailed")) = true := by decide
  obtain ⟨s, hs, hpu, hai, hlv, harc, hfil, r, hr, hty⟩ := exists_reachable (S := system Sample.contents) rfl hpl
  refine ⟨s, r, hs, hpu, hr, ?_, hai⟩
  intro hhds
  rcases hhds with hmem | ⟨x, hx | ⟨day, rows, hrw, hx⟩, hev⟩
  · rw [hlv] at hmem
    cases hmem
  · have hxty : x.type = "TaskCompleted" := by
      have hmem := List.mem_map_of_mem (f := ArchivedRow.type) hx
      rw [harc] at hmem
      exact mem_singleton.mp hmem
    rw [← hev] at hty
    exact absurd (hxty.symm.trans hty) (by decide)
  · -- there is no file
    have hno : s.tiers.files.get day = none := by
      cases hget : s.tiers.files.get day with
      | none => rfl
      | some dir =>
        have hmem := mem_listArchivedDays.mpr ⟨dir, hget⟩
        unfold listArchivedDays at hmem
        rw [hfil] at hmem
        cases hmem
    unfold readDayFile at hrw
    rw [hno] at hrw
    cases hrw
    cases hx

end EventLog

end AiNet.Events
