import AiNet.TaskStore.Dossier
import Mathlib.Data.List.Chain

/-!
# The version history as an audit trail

`append_version` numbers a record by a counter, stops silently at eight records, and is
called from both submission paths. For a task submitted through one path only, the
history is a faithful trail of what was done to it (`Dossier.Faithful`): one record for
each accepted call, in order, attributed to its caller; the statuses a path of the
transition table from the initial one to the current one; the numbers `1..n`; and for
a budget task a version equal to `n`. The cap is out of reach, because every
transition goes up in `TaskStatus.depth`. Used through both paths, one id mixes two
trails in one history.
-/

namespace AiNet.TaskStore

open Core List Sample System

variable {Addr Sym : Type}

/-! ## Paths of the transition table -/

/-- How far along a status is. -/
def TaskStatus.depth : TaskStatus → Nat
  | .created => 0
  | .queued => 1
  | .assigned => 2
  | .running => 3
  | .completed => 4
  | .failed => 4
  | .cancelled => 4

theorem depth_lt {src dst : TaskStatus} (h : canTransition src dst = true) :
    src.depth < dst.depth := by
  revert h
  cases src <;> cases dst <;> decide

/-- The statuses follow each other in the transition table. -/
def Path (statuses : List TaskStatus) : Prop :=
  statuses.IsChain fun src dst => canTransition src dst = true

theorem Path.length_le {l : List TaskStatus} (h : Path l) {last : TaskStatus}
    (hla : l.getLast? = some last) : l.length ≤ last.depth + 1 := by
  induction l using List.reverseRecOn generalizing last with
  | nil => cases hla
  | append_singleton l x ih =>
    rw [List.getLast?_concat] at hla
    injection hla with hla
    subst hla
    obtain ⟨hpa, -, hlk⟩ := isChain_append.mp h
    rw [length_append, length_singleton]
    cases hl : l.getLast? with
    | none =>
      rw [List.getLast?_eq_none_iff.mp hl, length_nil]
      omega
    | some y =>
      have hlen := ih hpa hl
      have hlt := depth_lt (hlk y hl x rfl)
      omega

theorem Path.length_lt {l : List TaskStatus} (h : Path l) {last next : TaskStatus}
    (hla : l.getLast? = some last) (hnx : canTransition last next = true) :
    l.length < maxHistoryRecords := by
  have hlen := h.length_le hla
  have hlt := depth_lt hnx
  have hmax : next.depth ≤ 4 := by cases next <;> decide
  have hcap : maxHistoryRecords = 8 := rfl
  omega

/-! ## Trails -/

/-- What a version record says, apart from its number. -/
structure Mark (Addr : Type) where
  status : TaskStatus
  timestamp : Nat
  ledgerSequence : Nat
  updater : Addr
  deriving DecidableEq

def TaskVersionRecord.mark (r : TaskVersionRecord Addr) : Mark Addr :=
  ⟨r.status, r.timestamp, r.ledgerSequence, r.updater⟩

/-- What a faithful history says of what was done: one mark for each action. -/
def trail (done : List (World Addr Sym × Act Addr)) : List (Mark Addr) :=
  done.map fun entry => ⟨entry.2.status, entry.1.now, entry.1.sequence, entry.2.actor⟩

/-- A history tells what was done, and its numbers and its counter agree with its length. -/
structure Trail (history : List (TaskVersionRecord Addr)) (count : Nat)
    (done : List (World Addr Sym × Act Addr)) : Prop where
  /-- One record for each action, in order, attributed to whoever acted. -/
  marks : history.map TaskVersionRecord.mark = trail done
  /-- The numbers are `1..n`. -/
  seqs : history.map TaskVersionRecord.seq = List.range' 1 history.length
  /-- The statuses form a path. -/
  path : Path (history.map TaskVersionRecord.status)
  count : count = history.length

theorem Trail.empty : Trail [] 0 ([] : List (World Addr Sym × Act Addr)) where
  marks := rfl
  seqs := rfl
  path := isChain_nil
  count := rfl

/-- The record `append_version` writes. -/
def nextRecord (w : World Addr Sym) (count : Nat) (act : Act Addr) :
    TaskVersionRecord Addr :=
  { seq := satAdd32 count 1
    status := act.status
    timestamp := w.now
    ledgerSequence := w.sequence
    updater := act.actor }

variable {done : List (World Addr Sym × Act Addr)}

/-- **One more record keeps a trail**, if the cap is not reached and the table allows the step. -/
theorem Trail.snoc {history : List (TaskVersionRecord Addr)} {count : Nat} (h : Trail history count done)
    (w : World Addr Sym) (act : Act Addr) (hsh : history.length < maxHistoryRecords)
    (hlk : ∀ last, (history.map TaskVersionRecord.status).getLast? = some last → canTransition last act.status = true) :
    Trail (history ++ [nextRecord w count act]) (satAdd32 count 1) (done ++ [(w, act)]) := by
  have hnum : satAdd32 count 1 = history.length + 1 := by
    have hcap : maxHistoryRecords = 8 := rfl
    have hmax : u32Max = 4294967295 := rfl
    rw [h.count]
    exact satAdd32_of_le (by omega)
  refine ⟨?_, ?_, ?_, ?_⟩
  · unfold trail
    rw [map_append, h.marks, map_append]
    rfl
  · rw [map_append, h.seqs, length_append, length_singleton, range'_concat]
    show _ ++ [satAdd32 count 1] = _
    rw [hnum, Nat.one_mul, Nat.add_comm]
  · rw [map_append]
    refine isChain_append.mpr ⟨h.path, isChain_singleton _, ?_⟩
    intro last hla next hnx
    cases hnx
    exact hlk last hla
  · rw [hnum, length_append, length_singleton]

/-! ## Faithful histories -/

/-- The statuses run from `first` to `last`. -/
structure Spans (history : List (TaskVersionRecord Addr)) (first last : TaskStatus) : Prop where
  first : (history.map TaskVersionRecord.status).head? = some first
  last : (history.map TaskVersionRecord.status).getLast? = some last

theorem Spans.single (r : TaskVersionRecord Addr) : Spans ([] ++ [r]) r.status r.status :=
  ⟨rfl, rfl⟩

theorem Spans.snoc {history : List (TaskVersionRecord Addr)} {first last : TaskStatus}
    (h : Spans history first last) (r : TaskVersionRecord Addr) :
    Spans (history ++ [r]) first r.status := by
  refine ⟨?_, ?_⟩
  · rw [map_append, List.head?_append, h.first]
    rfl
  · rw [map_append, map_singleton, List.getLast?_concat]

/-- **The history is a faithful audit trail** of a task submitted through one path. -/
structure Dossier.Faithful (D : Dossier Addr Sym)
    (done : List (World Addr Sym × Act Addr)) : Prop where
  trail : Trail D.history D.count done
  /-- With a graph: from `assigned` to the current status. -/
  graph : ∀ m, D.metadata = some m → D.record = none ∧ Spans D.history .assigned m.status
  /-- With a budget: from `created` to the current status, and the version is the length. -/
  budget : ∀ r, D.record = some r →
    D.metadata = none ∧ Spans D.history .created r.status ∧ r.version = D.history.length
  /-- Not submitted: no history. -/
  vacant : D.metadata = none → D.record = none → D.history = []

theorem Dossier.faithful_empty :
    (Dossier.empty : Dossier Addr Sym).Faithful [] where
  trail := .empty
  graph := by intro m hm; cases hm
  budget := by intro r hr; cases hr
  vacant := fun _ _ => rfl

/-- A task is submitted through one path only. -/
def Dossier.SinglePath (D : Dossier Addr Sym) : Act Addr → Prop
  | .storeTaskMetadata _ => D.record = none
  | .createTask _ => D.metadata = none
  | _ => True

theorem Dossier.append_of_short (w : World Addr Sym) (act : Act Addr)
    (D : Dossier Addr Sym) (h : D.history.length < maxHistoryRecords) :
    D.append w act.status act.actor
      = { D with
          history := D.history ++ [nextRecord w D.count act]
          count := satAdd32 D.count 1 } :=
  if_neg (Nat.not_le.mpr h)

variable {D : Dossier Addr Sym}

theorem Dossier.Faithful.open (hf : D.Faithful done) (hme : D.metadata = none) (hrec : D.record = none)
    (w : World Addr Sym) (act : Act Addr) :
    D.history.length < maxHistoryRecords ∧
      Trail (D.history ++ [nextRecord w D.count act]) (satAdd32 D.count 1) (done ++ [(w, act)]) ∧
        Spans (D.history ++ [nextRecord w D.count act]) act.status act.status := by
  have hemp := hf.vacant hme hrec
  have hsh : D.history.length < maxHistoryRecords := by
    rw [hemp]
    exact Nat.zero_lt_succ _
  refine ⟨hsh, hf.trail.snoc w act hsh ?_, ?_⟩
  · intro last hla
    rw [hemp] at hla
    cases hla
  · rw [hemp]
    exact .single _

theorem Dossier.Faithful.extend (hf : D.Faithful done) {first last : TaskStatus}
    (hspn : Spans D.history first last) (w : World Addr Sym) (act : Act Addr)
    (htrs : canTransition last act.status = true) :
    D.history.length < maxHistoryRecords ∧
      Trail (D.history ++ [nextRecord w D.count act]) (satAdd32 D.count 1) (done ++ [(w, act)]) ∧
        Spans (D.history ++ [nextRecord w D.count act]) first act.status := by
  have hsh : D.history.length < maxHistoryRecords := by
    have hlt := hf.trail.path.length_lt hspn.last htrs
    rwa [length_map] at hlt
  refine ⟨hsh, hf.trail.snoc w act hsh ?_, hspn.snoc _⟩
  intro x hx
  rw [hspn.last] at hx
  injection hx with hx
  exact hx ▸ htrs

theorem Dossier.Faithful.of_graph
    {m : TaskMetadata Addr Sym}
    (htrl : Trail D.history D.count done) (hm : D.metadata = some m) (hrec : D.record = none)
    (hspn : Spans D.history .assigned m.status) : D.Faithful done := by
  refine ⟨htrl, ?_, ?_, ?_⟩
  · intro m' hm'
    cases hm.symm.trans hm'
    exact ⟨hrec, hspn⟩
  · intro r hr
    cases hrec.symm.trans hr
  · intro hno
    cases hm.symm.trans hno

theorem Dossier.Faithful.of_budget {r : TaskRecord Addr} (htrl : Trail D.history D.count done)
    (hr : D.record = some r) (hme : D.metadata = none) (hspn : Spans D.history .created r.status)
    (hver : r.version = D.history.length) :
    D.Faithful done := by
  refine ⟨htrl, ?_, ?_, ?_⟩
  · intro m hm
    cases hme.symm.trans hm
  · intro r' hr'
    cases hr.symm.trans hr'
    exact ⟨hme, hspn, hver⟩
  · intro _ hno
    cases hr.symm.trans hno

/-- **Every change through the one path keeps the history faithful.** -/
theorem Dossier.Change.faithful {w : World Addr Sym} {act : Act Addr} {D D' : Dossier Addr Sym}
    (h : Dossier.Change w act D D') (hone : D.SinglePath act) (hf : D.Faithful done) :
    D'.Faithful (done ++ [(w, act)]) := by
  cases h with
  | @store D submitter m hno hst =>
    have hrec : D.record = none := hone
    obtain ⟨hsh, htrl, hspn⟩ := hf.open hno hrec w (.storeTaskMetadata submitter)
    have happ := Dossier.append_of_short w (.storeTaskMetadata submitter)
      { D with metadata := some m, creator := some submitter } hsh
    rw [show Dossier.append w .assigned submitter _ = _ from happ]
    refine .of_graph htrl rfl hrec ?_
    rw [hst]
    exact hspn
  | @move D agent newStatus m hm hlv hmay htrs =>
    -- a transition is still allowed, so the history is below the cap and does append
    obtain ⟨hrec, hold⟩ := hf.graph m hm
    obtain ⟨hsh, htrl, hspn⟩ := hf.extend hold w (.updateTaskStatus agent newStatus) htrs
    have happ := Dossier.append_of_short w (.updateTaskStatus agent newStatus)
      { D with metadata := some { m with status := newStatus } } hsh
    rw [show Dossier.append w newStatus agent _ = _ from happ]
    exact .of_graph htrl rfl hrec hspn
  | @create D creator r hno hc hst hver =>
    have hme : D.metadata = none := hone
    obtain ⟨hsh, htrl, hspn⟩ := hf.open hme hno w (.createTask creator)
    have happ := Dossier.append_of_short w (.createTask creator) D hsh
    rw [show D.append w .created creator = _ from happ] at hver ⊢
    refine .of_budget htrl rfl hme ?_ (hver.trans htrl.count)
    rw [hst]
    exact hspn
  | @update D updater newStatus r hr hlv hmay htrs =>
    obtain ⟨hme, hold, -⟩ := hf.budget r hr
    obtain ⟨hsh, htrl, hspn⟩ := hf.extend hold w (.updateStatus updater newStatus) htrs
    have happ := Dossier.append_of_short w (.updateStatus updater newStatus) D hsh
    rw [show D.append w newStatus updater = _ from happ]
    -- the version is the count the append left
    exact .of_budget htrl rfl hme hspn htrl.count

theorem Dossier.Change.history_prefix {w : World Addr Sym} {act : Act Addr}
    {D D' : Dossier Addr Sym} (h : Dossier.Change w act D D') : D.history <+: D'.history := by
  have hap : ∀ (E : Dossier Addr Sym) status updater,
      E.history <+: (E.append w status updater).history := by
    intro E status updater
    unfold Dossier.append
    split
    · exact prefix_refl _
    · exact prefix_append _ _
  cases h with
  | @store D submitter m hno hst =>
    exact hap { D with metadata := some m, creator := some submitter } .assigned submitter
  | @move D agent newStatus m hm hlv hmay htrs =>
    exact hap { D with metadata := some { m with status := newStatus } } newStatus agent
  | @create D creator r hno hc hst hver => exact hap D .created creator
  | @update D updater newStatus r hr hlv hmay htrs => exact hap D newStatus updater

/-! ## Runs -/

variable [DecidableEq Addr] {host : Host Addr Sym} {taskId : TaskId}

instance (D : Dossier Addr Sym) (act : Act Addr) [DecidableEq Sym] :
    Decidable (D.SinglePath act) :=
  match act with
  | .storeTaskMetadata _ => inferInstanceAs (Decidable (D.record = none))
  | .createTask _ => inferInstanceAs (Decidable (D.metadata = none))
  | .updateTaskStatus _ _ | .updateStatus _ _ => .isTrue trivial

/-- The runs in which the task is submitted through one path only. -/
def SingleRun (host : Host Addr Sym) (taskId : TaskId) :
    World Addr Sym → Event Addr Sym → Prop :=
  (book host).OnKey taskId fun _ => Dossier.SinglePath

instance [DecidableEq Sym] (w : World Addr Sym) (e : Event Addr Sym) :
    Decidable (SingleRun host taskId w e) := by
  unfold SingleRun
  infer_instance

/--
**The version history is a faithful audit trail** of every task submitted through one path only,
and no later call changes or removes a record of it.
-/
theorem audit_trail {w : World Addr Sym}
    {log : List (World Addr Sym × Event Addr Sym)}
    (h : (system host).Logged (SingleRun host taskId) w log)
    {history : List (TaskVersionRecord Addr)} (hlive : getHistory w taskId = .ok history) :
    history = (w.dossier taskId).history ∧ (w.dossier taskId).Faithful ((book host).acts taskId log) ∧
      ∀ w', (system host).Run (SingleRun host taskId) w w' → history <+: (w'.dossier taskId).history := by
  simp only [getHistory, bind_eq_ok, pure_eq_ok] at hlive
  obtain ⟨-, -, rfl⟩ := hlive
  refine ⟨rfl, ?_, ?_⟩
  · exact (book host).invariant Dossier.Faithful (fun _ _ hg => hg) Dossier.faithful_empty
      (fun _ _ _ _ _ hc hone hf => hc.faithful hone hf) h
  · intro w' hrun
    refine (book host).run_preserves (fun D => (w.dossier taskId).history <+: D.history)
      (fun _ _ _ _ hc hpre => hpre.trans hc.history_prefix) (Keyed.reachable_of_logged h) hrun ?_
    exact prefix_refl _

/-- A budget task that went through five statuses. -/
theorem audit_trail_completed : ∃ (w : World Nat Nat) (log : List (World Nat Nat × Event Nat Nat))
    (history : List (TaskVersionRecord Nat)),
    getHistory w task = .ok history ∧ history.length = 5 ∧
      (w.dossier task).Faithful ((book chain).acts task log) := by
  have hpl : ((system chain).play (SingleRun chain task)
      [ Sample.create 2, Sample.update 2 .queued, .close 1010 2, Sample.update 2 .assigned,
        Sample.update 2 .running, .close 1020 3, Sample.update 2 .completed ]
      (World.init 1000 1)).any
        (fun w => (getHistory w task).toOption.any fun history =>
          history.length = 5) = true := by
    decide
  obtain ⟨w, hw, hend⟩ := (Option.any_eq_true _ _).mp hpl
  obtain ⟨history, hok, hlen⟩ := (Option.any_eq_true _ _).mp hend
  have hlv := toOption_eq_some.mp hok
  have hlog := logged_of_play (start_init _ 1000 1) hw
  exact ⟨w, _, history, hlv, of_decide_eq_true hlen, (audit_trail hlog hlv).2.1⟩

/--
The mixed trail: one id submitted through both paths. The budget task is still `created`, at version
one, while the history has two records and ends at `assigned`.
-/
theorem both_paths_mix : ∃ (w : World Nat Nat) (log : List (World Nat Nat × Event Nat Nat))
    (history : List (TaskVersionRecord Nat)),
    (system chain).Logged (fun _ _ => True) w log ∧ getHistory w task = .ok history ∧
      history.map TaskVersionRecord.status = [.created, .assigned] ∧
      (w.lifecycleTasks.get task).map TaskRecord.status = some .created ∧
      (w.lifecycleTasks.get task).map TaskRecord.version = some 1 := by
  have hpl : ((system chain).play (fun _ _ => True)
      [Sample.create 2, Sample.store 2] (World.init 1000 1)).any
        (fun w => (getHistory w task).toOption.any fun history =>
          history.map TaskVersionRecord.status = [.created, .assigned] ∧
            (w.lifecycleTasks.get task).map TaskRecord.status = some .created ∧
            (w.lifecycleTasks.get task).map TaskRecord.version = some 1) = true := by
    decide
  obtain ⟨w, hw, hend⟩ := (Option.any_eq_true _ _).mp hpl
  obtain ⟨history, hok, hfcs⟩ := (Option.any_eq_true _ _).mp hend
  have hlv := toOption_eq_some.mp hok
  exact ⟨w, _, history, logged_of_play (start_init _ 1000 1) hw, hlv, of_decide_eq_true hfcs⟩

end AiNet.TaskStore
