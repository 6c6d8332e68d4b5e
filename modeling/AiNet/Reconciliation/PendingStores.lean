import AiNet.Core.UniqueTable
import Mathlib.Data.List.Sort

/-!
# Two stores of pending drifts

The store in SQLite and the store in memory. They differ in what an upsert of a stored drift does: in memory
the drift comes back as open, in the table it keeps its acknowledgement, and what is returned is not what is
stored. On drifts that are not stored yet they agree, but for what the table cannot tell from nothing.
-/

namespace AiNet.Reconciliation.PendingDriftStore

open Core List Option UniqueTable

/-- `resolution`, with its fields `at` and `by` under longer names. -/
structure Resolution where
  status : String
  txHash : String
  resolvedAt : String
  resolvedBy : String
  deriving DecidableEq

/-- What a drift is; both stores take and return it as it comes. -/
structure Finding where
  driftType : String
  balanceId : String
  description : String
  severity : String
  recommendedAction : String
  deriving DecidableEq

structure PendingDrift (T : Type) where
  id : String
  finding : Finding
  taskId : Option String
  nodeId : Option String
  detectedAt : String
  lastSeenAt : T
  occurrences : Int
  acknowledged : Bool
  resolution : Option Resolution
  deriving DecidableEq

/-- A row of `reconcile_pending_drift`. -/
structure DriftRow (T : Type) where
  id : String
  finding : Finding
  taskId : Option String
  nodeId : Option String
  detectedAt : String
  lastSeenAt : T
  occurrences : Int
  acknowledged : Bool
  resolvedStatus : Option String
  resolvedTxHash : Option String
  resolvedAt : Option String
  resolvedBy : Option String
  deriving DecidableEq

inductive StoreCall (T : Type) where
  | upsert (drift : PendingDrift T)
  | list (includeAcknowledged : Bool)
  | resolve (id : String) (resolution : Resolution)
  | retain (ids : List String)
  deriving DecidableEq

/-- What a call returns. -/
inductive Reply (T : Type) where
  | stored (drift : PendingDrift T)
  | listed (drifts : List (PendingDrift T))
  | resolved (drift : Option (PendingDrift T))
  | done
  deriving DecidableEq

variable {T : Type}

def truthy (s : Option String) : Option String := s.filter fun s => decide (s ≠ "")

/-- The row that is inserted: `resolution` has no place in it. -/
def newRow (d : PendingDrift T) : DriftRow T where
  id := d.id
  finding := d.finding
  taskId := d.taskId
  nodeId := d.nodeId
  detectedAt := d.detectedAt
  lastSeenAt := d.lastSeenAt
  occurrences := d.occurrences
  acknowledged := d.acknowledged
  resolvedStatus := none
  resolvedTxHash := none
  resolvedAt := none
  resolvedBy := none

namespace DriftRow

variable (r : DriftRow T)

/-- `ON CONFLICT(id) DO UPDATE`. -/
def refresh (d : PendingDrift T) : DriftRow T :=
  { r with
    finding := d.finding
    taskId := d.taskId
    nodeId := d.nodeId
    lastSeenAt := d.lastSeenAt
    occurrences := r.occurrences + 1 }

def resolve (res : Resolution) : DriftRow T :=
  { r with
    acknowledged := true
    resolvedStatus := some res.status
    resolvedTxHash := some res.txHash
    resolvedAt := some res.resolvedAt
    resolvedBy := some res.resolvedBy }

/-- `rowToPending`: empty strings are as good as none. -/
def toPending : PendingDrift T where
  id := r.id
  finding := r.finding
  taskId := truthy r.taskId
  nodeId := truthy r.nodeId
  detectedAt := r.detectedAt
  lastSeenAt := r.lastSeenAt
  occurrences := r.occurrences
  acknowledged := r.acknowledged
  resolution := do
    pure ⟨← truthy r.resolvedStatus, ← truthy r.resolvedTxHash, ← truthy r.resolvedAt, ← truthy r.resolvedBy⟩

end DriftRow

/-- The table `reconcile_pending_drift`. -/
abbrev Table (T : Type) := UniqueTable (DriftRow.id (T := T))

/-- The map of the store in memory, in the order of insertion. -/
abbrev Records (T : Type) := UniqueTable (PendingDrift.id (T := T))

/-- `createSqlitePendingDriftStore`; what `ORDER BY lastSeenAt DESC` does to a list of rows is a parameter. -/
def sqlite (orderBy : List (DriftRow T) → List (DriftRow T)) (t : Table T) : StoreCall T → Table T × Reply T
  | .upsert d =>
    ((t.update (fun r => if r.id = d.id then r.refresh d else r) (by intro r; split <;> rfl)).insertOrIgnore
      (newRow d), .stored d)
  | .list includeAcknowledged =>
    (t, .listed ((orderBy (if includeAcknowledged then t.rows
      else t.rows.filter fun r => !r.acknowledged)).map DriftRow.toPending))
  | .resolve id res =>
    let t' := t.update (fun r => if r.id = id then r.resolve res else r) (by intro r; split <;> rfl)
    match t.find id with
    | none => (t, .resolved none)
    | some _ => (t', .resolved ((t'.find id).map DriftRow.toPending))
  | .retain ids => (t.keep fun r => decide (r.id ∈ ids), .done)

/-- `records.set`. -/
def Records.set (m : Records T) (d : PendingDrift T) : Records T :=
  (m.update (fun e => if e.id = d.id then d else e) (by intro e; split <;> simp_all)).insertOrIgnore d

/-- `createInMemoryPendingDriftStore`; times as texts of one format compare as times. -/
def inMemory [LinearOrder T] (m : Records T) : StoreCall T → Records T × Reply T
  | .upsert d =>
    let next := match m.find d.id with
      | some existing => { d with detectedAt := existing.detectedAt, occurrences := existing.occurrences + 1 }
      | none => d
    (m.set next, .stored next)
  | .list includeAcknowledged =>
    (m, .listed ((m.rows.filter fun d => includeAcknowledged || !d.acknowledged).insertionSort
      fun a b => b.lastSeenAt ≤ a.lastSeenAt))
  | .resolve id res =>
    match m.find id with
    | none => (m, .resolved none)
    | some existing =>
      let next := { existing with acknowledged := true, resolution := some res }
      (m.set next, .resolved (some next))
  | .retain ids => (m.keep fun d => decide (d.id ∈ ids), .done)

def replies {σ : Type} (step : σ → StoreCall T → σ × Reply T) : σ → List (StoreCall T) → List (Reply T)
  | _, [] => []
  | s, call :: calls => (step s call).2 :: replies step (step s call).1 calls

/-! ## When they agree -/

/-- Whether the two do the same on a call, by what the store in memory has. -/
def Agreeable (m : Records T) : StoreCall T → Prop
  | .upsert d => d.taskId ≠ some "" ∧ d.nodeId ≠ some "" ∧ (m.find d.id = none → d.resolution = none) ∧
    ∀ existing ∈ m.find d.id, d.detectedAt = existing.detectedAt ∧ d.occurrences = existing.occurrences + 1 ∧
      d.acknowledged = existing.acknowledged ∧ d.resolution = existing.resolution
  | .list includeAcknowledged => ((m.rows.filter fun d => includeAcknowledged || !d.acknowledged).map
      PendingDrift.lastSeenAt).Nodup
  | .resolve id res => m.find id = none ∨
      res.status ≠ "" ∧ res.txHash ≠ "" ∧ res.resolvedAt ≠ "" ∧ res.resolvedBy ≠ ""
  | .retain _ => True

instance [DecidableEq T] (m : Records T) : DecidablePred (Agreeable m) := by
  intro call
  cases call <;> dsimp only [Agreeable] <;> infer_instance

/-- Every call of a sequence is one on which they do the same. -/
def AllAgreeable [LinearOrder T] : Records T → List (StoreCall T) → Prop
  | _, [] => True
  | m, call :: calls => Agreeable m call ∧ AllAgreeable (inMemory m call).1 calls

/-- `ORDER BY lastSeenAt DESC`: the same rows, the latest first. -/
def OrdersBy [LinearOrder T] (orderBy : List (DriftRow T) → List (DriftRow T)) : Prop :=
  ∀ rows, (orderBy rows).Perm rows ∧ (orderBy rows).Pairwise fun r r' => r'.lastSeenAt ≤ r.lastSeenAt

theorem truthy_of_ne {s : Option String} (h : s ≠ some "") : truthy s = s := by
  cases s with
  | none => rfl
  | some s => exact filter_eq_some_iff.mpr ⟨rfl, decide_eq_true fun hs => h (congrArg some hs)⟩

theorem rows_put {α : Type} {key : α → String} {t : UniqueTable key} {a : α} {f : α → α}
    {hf : ∀ b, key (f b) = key b} (hoth : ∀ b, key b ≠ key a → f b = b) :
    (t.find (key a) = none → ((t.update f hf).insertOrIgnore a).rows = t.rows ++ [a]) ∧
      (∀ b, t.find (key a) = some b → ((t.update f hf).insertOrIgnore a).rows = t.rows.map f) := by
  rcases (t.update f hf).rows_insertOrIgnore a with ⟨hrw, b, hb, hkey⟩ | ⟨hrw, hfr⟩
  · obtain ⟨c, hc, rfl⟩ := List.mem_map.mp hb
    refine ⟨fun hno => ?_, fun _ _ => hrw⟩
    exact absurd ((hf c).symm.trans hkey) (find_eq_none.mp hno c hc)
  · have hfr : ∀ b ∈ t.rows, key b ≠ key a := fun b hb => hf b ▸ hfr _ (List.mem_map_of_mem hb)
    refine ⟨fun _ => ?_, fun b hb => ?_⟩
    · rw [hrw]
      refine congrArg (· ++ [a]) ?_
      exact (map_congr_left fun b hb => hoth b (hfr b hb)).trans (List.map_id _)
    · obtain ⟨hmem, hkey⟩ := find_eq_some.mp hb
      exact absurd hkey (hfr b hmem)

/-- The store in memory has what the table says. -/
def Mirrors (t : Table T) (m : Records T) : Prop := m.rows = t.rows.map DriftRow.toPending

variable {t : Table T} {m : Records T}

theorem Mirrors.find (h : Mirrors t m) (id : String) : m.find id = (t.find id).map DriftRow.toPending := by
  unfold UniqueTable.find
  rw [h, List.find?_map]
  rfl

/-- **One call.** Both return the same, and the table still says what the store in memory has. -/
theorem Mirrors.call [LinearOrder T] {orderBy : List (DriftRow T) → List (DriftRow T)} (hord : OrdersBy orderBy)
    (h : Mirrors t m) {call : StoreCall T} (hcl : Agreeable m call) :
    (sqlite orderBy t call).2 = (inMemory m call).2 ∧
      Mirrors (sqlite orderBy t call).1 (inMemory m call).1 := by
  cases call with
  | upsert d =>
    obtain ⟨htk, hno, hnew, hold⟩ := hcl
    have hkey : ∀ r : DriftRow T, (if r.id = d.id then r.refresh d else r).id = r.id := by
      intro r
      split <;> rfl
    have hput := @rows_put _ _ t (newRow d) _ hkey fun r hr => if_neg hr
    dsimp only [sqlite, inMemory]
    rw [h.find]
    cases hfi : t.find d.id with
    | none =>
      have hset : (m.set d).rows = m.rows ++ [d] := (rows_put fun e he => if_neg he).1 (by rw [h.find, hfi]; rfl)
      refine ⟨rfl, ?_⟩
      unfold Mirrors
      have hsm : (newRow d).toPending = d := by
        have hres := hnew (by rw [h.find, hfi]; rfl)
        unfold newRow DriftRow.toPending
        dsimp only
        rw [truthy_of_ne htk, truthy_of_ne hno]
        cases d
        cases hres
        rfl
      rw [map_none, hset, hput.1 hfi, h, map_append, map_singleton, hsm]
    | some r₀ =>
      have hfnd : m.find d.id = some r₀.toPending := by rw [h.find, hfi]; rfl
      obtain ⟨hde, hcnt, hac, hre⟩ := hold _ hfnd
      have hsm : (r₀.refresh d).toPending = d := by
        unfold DriftRow.refresh DriftRow.toPending at *
        dsimp only at *
        rw [truthy_of_ne htk, truthy_of_ne hno, ← hac, ← hde, ← hcnt, ← hre,
          (find_eq_some.mp hfi).2]
      have hnx : { d with
          detectedAt := r₀.toPending.detectedAt, occurrences := r₀.toPending.occurrences + 1 } = d := by
        rw [← hde, ← hcnt]
      dsimp only [map_some]
      rw [hnx]
      refine ⟨rfl, ?_⟩
      have hset : (m.set d).rows = m.rows.map fun e => if e.id = d.id then d else e :=
        (rows_put fun e he => if_neg he).2 _ hfnd
      unfold Mirrors
      rw [hset, hput.2 _ hfi, h, List.map_map, List.map_map]
      refine map_congr_left fun r hr => ?_
      show (if r.id = d.id then d else r.toPending) = (if r.id = d.id then r.refresh d else r).toPending
      split
      · rename_i hid
        rw [unique hr (find_eq_some.mp hfi).1
          (hid.trans (find_eq_some.mp hfi).2.symm), hsm]
      · rfl
  | list includeAcknowledged =>
    refine ⟨congrArg Reply.listed ?_, h⟩
    let p := fun d : PendingDrift T => includeAcknowledged || !d.acknowledged
    let shown := if includeAcknowledged then t.rows else t.rows.filter fun r => !r.acknowledged
    have hsho : shown.map DriftRow.toPending = m.rows.filter p := by
      rw [h, List.filter_map]
      cases includeAcknowledged
      · rfl
      · exact (congrArg _ (filter_eq_self.mpr fun _ _ => rfl)).symm
    obtain ⟨hpe, hsrt⟩ := hord shown
    refine @List.Perm.eq_of_pairwise _ (fun a b => b.lastSeenAt ≤ a.lastSeenAt) _ _ ?_ ?_
      (pairwise_insertionSort _ _) ((hpe.map _).trans (hsho ▸ (perm_insertionSort _ _).symm))
    · intro a b ha hb hab hba
      rw [mem_insertionSort] at hb
      rw [((hpe.map _).mem_iff), hsho] at ha
      exact inj_on_of_nodup_map hcl ha hb (le_antisymm hba hab)
    · exact pairwise_map.mpr hsrt
  | resolve id res =>
    dsimp only [sqlite, inMemory]
    rw [h.find]
    cases hfi : t.find id with
    | none => exact ⟨rfl, h⟩
    | some r₀ =>
      have hfnd : m.find id = some r₀.toPending := by rw [h.find, hfi]; rfl
      have hid : r₀.id = id := (find_eq_some.mp hfi).2
      obtain ⟨hst, hsh, hat, hby⟩ := hcl.resolve_left (by rw [hfnd]; nofun)
      have hrsd : ∀ r : DriftRow T, (r.resolve res).toPending =
          { r.toPending with acknowledged := true, resolution := some res } := by
        intro r
        unfold DriftRow.resolve DriftRow.toPending
        dsimp only
        have htr : ∀ s, s ≠ "" → truthy (some s) = some s :=
          fun s hs => truthy_of_ne fun heq => hs (some.inj heq)
        rw [htr _ hst, htr _ hsh, htr _ hat, htr _ hby]
        rfl
      let next := { r₀.toPending with acknowledged := true, resolution := some res }
      have hset : (m.set next).rows = m.rows.map fun e => if e.id = next.id then next else e :=
        (rows_put fun e he => if_neg he).2 _ (hid ▸ hfnd)
      dsimp only [map_some]
      refine ⟨?_, ?_⟩
      · rw [find_update, hfi, map_some, if_pos hid, map_some, hrsd]
      · unfold Mirrors
        rw [hset, h, List.map_map]
        show _ = (t.rows.map _).map _
        rw [List.map_map]
        refine map_congr_left fun r hr => ?_
        show (if r.id = r₀.id then next else r.toPending) = (if r.id = id then r.resolve res else r).toPending
        rw [hid]
        split
        · rename_i hsm
          rw [unique hr (find_eq_some.mp hfi).1 (hsm.trans hid.symm), hrsd]
        · rfl
  | retain ids =>
    refine ⟨rfl, ?_⟩
    show (m.rows.filter _) = (t.rows.filter _).map _
    rw [h, List.filter_map]
    rfl

/--
**The two stores are interchangeable** in every sequence of calls that never upserts a stored drift (unless the
upsert says itself what the stores make of it), in which no two drifts that are listed were last seen at one time,
and no string that may be missing is empty.
-/
theorem stores_agree [LinearOrder T] {orderBy : List (DriftRow T) → List (DriftRow T)} (horder : OrdersBy orderBy)
    {calls : List (StoreCall T)} (hcalls : AllAgreeable (empty _) calls) :
    replies (sqlite orderBy) (empty _) calls = replies inMemory (empty _) calls := by
  have hrun : ∀ (t : Table T) (m : Records T), Mirrors t m → AllAgreeable m calls →
      replies (sqlite orderBy) t calls = replies inMemory m calls := by
    clear hcalls
    induction calls with
    | nil => exact fun _ _ _ _ => rfl
    | cons call calls ih =>
      intro t m h ⟨hcl, hcalls⟩
      obtain ⟨hrep, hnx⟩ := h.call horder hcl
      exact congrArg₂ List.cons hrep (ih _ _ hnx hcalls)
  exact hrun _ _ rfl hcalls

namespace Sample

def latestFirst (rows : List (DriftRow Nat)) : List (DriftRow Nat) :=
  rows.insertionSort fun r r' => r'.lastSeenAt ≤ r.lastSeenAt

/-- The drift of a record, as it is parked at a time. -/
def drift (id : String) (time : Nat) : PendingDrift Nat :=
  ⟨id, ⟨"orphaned_locked", "b", "locked", "high", "manual_review"⟩, some "t", some "n", "2026-01-01", time, 1, false, none⟩

theorem ordersBy : OrdersBy latestFirst := fun _ =>
  ⟨perm_insertionSort _ _, pairwise_insertionSort _ _⟩

def resolution : Resolution := ⟨"released", "h", "2026-01-02", "ops"⟩

def two : List (StoreCall Nat) := [.upsert (drift "x" 1), .upsert (drift "y" 2), .list true,
  .resolve "x" resolution, .list false, .retain ["x"], .list true]

def again : List (StoreCall Nat) := [.upsert (drift "x" 1), .resolve "x" resolution, .upsert (drift "x" 2), .list false]

end Sample

theorem stores_agree_two : replies (sqlite Sample.latestFirst) (empty _) Sample.two =
    replies inMemory (empty _) Sample.two :=
  stores_agree Sample.ordersBy (by
    unfold Sample.two AllAgreeable
    repeat refine ⟨by decide, ?_⟩
    trivial)

/-- Only the store in memory lists a drift that was resolved and is parked again. -/
theorem stores_differ :
    (replies (sqlite Sample.latestFirst) (empty _) Sample.again).getLast? = some (.listed []) ∧
      (replies inMemory (empty _) Sample.again).getLast? =
        some (.listed [{ Sample.drift "x" 2 with occurrences := 2 }]) := by
  decide

end AiNet.Reconciliation.PendingDriftStore
