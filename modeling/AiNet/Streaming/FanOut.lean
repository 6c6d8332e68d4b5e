import AiNet.Core.Ranking
import AiNet.Streaming.Drains

/-!
# The history of a task in the store

What the queries of the hub return are parts of one list, the stored events of the task in order of
their numbers. A page is the first part of what is after a cursor. An event whose number is above those
of its task is appended to the history of the task, and to no other.
-/

namespace AiNet.Streaming

open Core AiNet.Events List Option Function System UniqueTable

section

variable {τ : Type} [DecidableEq τ] {store store' : EventStore τ} {taskId : τ}

theorem nodup_taskSeqs (store : EventStore τ) (taskId : τ) :
    ((store.ofTask taskId).map EventRow.taskSeq).Nodup := by
  unfold EventStore.ofTask
  have hke := store.events.keys
  rw [nodup_iff_pairwise_ne, pairwise_map] at hke ⊢
  refine (hke.filter _).imp_of_mem fun {r r'} hr hr' hne hseq => hne ?_
  have htk := of_decide_eq_true (mem_filter.mp hr).2
  have htk' := of_decide_eq_true (mem_filter.mp hr').2
  exact Prod.ext (htk.trans htk'.symm) hseq

/-- **A history is ordered.** -/
theorem ordered_listByTask (store : EventStore τ) (taskId : τ) : Ordered (store.listByTask taskId) :=
  strict_ranked (nodup_taskSeqs store taskId)

theorem mem_listByTask {r : EventRow τ} :
    r ∈ store.listByTask taskId ↔ r ∈ store.events.rows ∧ r.taskId = taskId := by
  unfold EventStore.listByTask EventStore.ofTask
  rw [mem_insertionSort, mem_filter, decide_eq_true_eq]

/-- **A page is what comes first after the cursor.** -/
theorem listByTaskSince_eq (store : EventStore τ) (taskId : τ) (cursor : Int) (limit : Nat) :
    store.listByTaskSince taskId cursor limit = (after (store.listByTask taskId) cursor).take limit := by
  unfold EventStore.listByTaskSince
  congr 1
  refine eq_of_strict EventRow.taskSeq ?_ ?_ ?_
  · have hpa := (perm_insertionSort (fun r r' : EventRow τ => r.taskSeq ≤ r'.taskSeq)
      (store.ofTask taskId)).filter fun r => decide (cursor < (r.taskSeq : Int))
    exact (perm_insertionSort _ _).trans hpa.symm
  · exact strict_ranked ((nodup_taskSeqs store taskId).sublist (filter_sublist.map _))
  · exact (ordered_listByTask store taskId).filter _

variable {event : AppEvent τ}

theorem append_rows (h : store.append event = some store') :
    store'.events.rows = store.events.rows ++ [store.row event] := by
  unfold EventStore.append at h
  obtain ⟨events, hins, rfl⟩ := map_eq_some_iff.mp h
  exact (insert_eq_some hins).1

theorem listByTask_of_ne (h : store.append event = some store')
    (hne : event.taskId ≠ taskId) : store'.listByTask taskId = store.listByTask taskId := by
  unfold EventStore.listByTask EventStore.ofTask
  rw [append_rows h, filter_append, filter_cons_of_neg (by simp [EventStore.row, hne]),
    filter_nil, append_nil]

/-- **An event with a higher number comes last.** -/
theorem listByTask_append (h : store.append event = some store')
    (hnew : ∀ r ∈ store.ofTask event.taskId, r.taskSeq < event.taskSeq) :
    store'.listByTask event.taskId = store.listByTask event.taskId ++ [store.row event] := by
  refine eq_of_strict EventRow.taskSeq ?_ (ordered_listByTask store' event.taskId) ?_
  · have hrw : store'.ofTask event.taskId = store.ofTask event.taskId ++ [store.row event] := by
      unfold EventStore.ofTask
      rw [append_rows h, filter_append, filter_cons_of_pos (by simp [EventStore.row]), filter_nil]
    have hold : (store.ofTask event.taskId).Perm (store.listByTask event.taskId) :=
      (perm_insertionSort _ _).symm
    unfold EventStore.listByTask
    rw [hrw]
    exact (perm_insertionSort _ _).trans (hold.append_right _)
  · rw [pairwise_append]
    refine ⟨ordered_listByTask store event.taskId, pairwise_singleton _ _, fun r hr x hx => ?_⟩
    rw [mem_singleton.mp hx]
    exact hnew r (mem_insertionSort _ |>.mp hr)

end

/-!
## The hub delivers exactly once and in order

Runs of the hub over all tasks. A drain that is not on top of the stack is calling a client, and so are
all drains while the program is outside of the hub. Clients emit, flush and detach while they are called;
they attach to a task when it is not being drained, as the handlers of requests do.
-/

variable {τ : Type} [DecidableEq τ]

namespace TaskStream

def Calling (s : TaskStream τ) : Prop := ∃ d, s.drain = some d ∧ ∃ id, d.Calls id

/-- The hub listens on the bus while the task has a client, and a flush that was asked for is noted until
the drain reads again. -/
structure Wired (s : TaskStream τ) : Prop where
  present : s.present = true ↔ ∃ sub ∈ s.subscribers, sub.attached = true
  bound : s.bound = s.present
  listeners : s.listeners = if s.present then 1 else 0
  ready : ∀ d, s.drain = some d → d.point = .read → s.reentrant = false

variable {pageSize : Nat} {history : List (EventRow τ)} {s : TaskStream τ} {d : Drain τ}

section

omit [DecidableEq τ]

theorem wired_fresh : Wired (fresh : TaskStream τ) := by
  refine ⟨?_, rfl, rfl, fun d hd => (by cases hd)⟩
  constructor
  · intro hfls
    cases hfls
  · intro ⟨sub, hsub, _⟩
    cases hsub

theorem Wired.subscribe (h : s.Wired) (lastEventId : Option Int) : (s.subscribe lastEventId).Wired := by
  refine ⟨?_, rfl, ?_, h.ready⟩
  · refine ⟨fun _ => ⟨_, mem_append_right _ mem_cons_self, rfl⟩, fun _ => rfl⟩
  · unfold TaskStream.subscribe
    dsimp only
    rw [h.listeners, h.bound]
    cases s.present with
    | true | false => rfl

theorem drain_unsubscribe (s : TaskStream τ) (id : Nat) : (s.unsubscribe id).drain = s.drain := by
  unfold TaskStream.unsubscribe
  split
  · rfl
  · dsimp only
    split
    · rfl
    · split
      · rfl
      · split
        · rfl
        · rfl

/-- **The last client takes the listener with it.** -/
theorem Wired.unsubscribe (h : s.Wired) (hdlv : Delivered pageSize history s) (id : Nat) :
    (s.unsubscribe id).Wired := by
  have hlf := left_leave s id
  unfold TaskStream.unsubscribe
  cases hget : s.subscribers[id]? with
  | none => exact h
  | some sub =>
    dsimp only
    split
    · exact h
    · rename_i hatt
      have hpr : s.present = true :=
        h.present.mpr ⟨sub, mem_of_getElem? hget, by simpa using hatt⟩
      rw [if_neg (by simp [hpr])]
      have hso : (s.leave id).any (fun sub => sub.within s.generation) = true ↔
          ∃ sub ∈ s.leave id, sub.attached = true := by
        rw [List.any_eq_true]
        constructor
        · intro ⟨sub', hsub', hin⟩
          exact ⟨sub', hsub', (within_iff.mp hin).1⟩
        · intro ⟨sub', hsub', hstl⟩
          obtain ⟨sub₁, hsub₁, hsty⟩ := hlf.mem hsub'
          have hge := hdlv.current sub₁ hsub₁ (hsty.attached hstl)
          exact ⟨sub', hsub', within_iff.mpr ⟨hstl, hsty.generation.trans hge⟩⟩
      split
      · rename_i hstl
        refine ⟨⟨fun _ => hso.mp hstl, fun _ => hpr⟩, h.bound, h.listeners, h.ready⟩
      · rename_i hemp
        refine ⟨⟨nofun, fun hstl => absurd (hso.mpr hstl) hemp⟩, rfl, ?_, fun _ _ _ => rfl⟩
        dsimp only
        rw [h.bound, h.listeners, hpr]
        rfl

theorem flush_cases (s : TaskStream τ) : s.flush = s ∨
    (∃ d, s.drain = some d) ∧ s.flush = { s with reentrant := true, unannounced := false } ∨
    s.drain = none ∧
      s.flush = { s with drain := some ⟨s.generation, 0, 0, .read⟩, unannounced := false } := by
  unfold TaskStream.flush
  split
  · exact .inl rfl
  · split
    · rename_i hdrn
      exact .inr (.inl ⟨isSome_iff_exists.mp hdrn, rfl⟩)
    · rename_i hdrn
      exact .inr (.inr ⟨by simpa using hdrn, rfl⟩)

theorem Wired.flush (h : s.Wired) (hdlv : Delivered pageSize history s)
    (hcl : ∀ d, s.drain = some d → s.Calling) : s.flush.Wired := by
  rcases flush_cases s with hsf | ⟨⟨d, hd⟩, hnot⟩ | ⟨hno, hstd⟩
  · rw [hsf]
    exact h
  · rw [hnot]
    refine ⟨h.present, h.bound, h.listeners, fun d₁ hd₁ hrd => ?_⟩
    -- it is not about to read
    obtain ⟨d₂, hd₂, id, event, page, hcs⟩ := hcl d hd
    cases hd₂.symm.trans hd₁
    rw [hcs] at hrd
    cases hrd
  · rw [hstd]
    exact ⟨h.present, h.bound, h.listeners, fun _ _ _ => hdlv.idle hno⟩

theorem goOn_frame (s : TaskStream τ) (listSince : Int → List (EventRow τ)) (pageSize : Nat) (d : Drain τ) :
    ∃ subs drain reentrant,
      s.goOn listSince pageSize d = { s with subscribers := subs, drain := drain, reentrant := reentrant } ∧
      subs.map Subscriber.attached = s.subscribers.map Subscriber.attached ∧
      ∀ d', drain = some d' → d'.point = .read → reentrant = false := by
  have hbu : ∀ d₁ : Drain τ, d₁.point ≠ .read → ∀ d', some d₁ = some d' → d'.point = .read →
      s.reentrant = false := by
    intro d₁ hne d' hd' hrd
    cases hd'
    exact absurd hrd hne
  unfold TaskStream.goOn
  cases d.point with
  | read =>
    dsimp only
    split
    · exact ⟨_, _, s.reentrant, rfl, rfl, hbu _ (by simp)⟩
    · split
      · exact ⟨_, _, s.reentrant, rfl, rfl, hbu _ (by simp)⟩
      · exact ⟨_, _, s.reentrant, rfl, rfl, hbu _ (by simp)⟩
  | visit page =>
    cases page with
    | nil => exact ⟨_, _, s.reentrant, rfl, rfl, hbu _ (by simp)⟩
    | cons =>
      dsimp only
      split
      · exact ⟨_, _, s.reentrant, rfl, rfl, hbu _ (by simp)⟩
      · split
        · exact ⟨_, _, s.reentrant, rfl, map_modify fun _ => rfl, hbu _ (by simp)⟩
        · exact ⟨_, _, s.reentrant, rfl, rfl, hbu _ (by simp)⟩
  | calling =>
    exact ⟨_, _, s.reentrant, rfl, map_modify fun _ => rfl, hbu _ (by simp)⟩
  | drained =>
    dsimp only
    split
    · exact ⟨_, _, false, rfl, rfl, fun _ _ _ => rfl⟩
    · rename_i hre
      have hrdy : s.reentrant = false := by simpa using hre
      split
      · exact ⟨_, none, s.reentrant, rfl, rfl, fun d' hd' => by cases hd'⟩
      · exact ⟨_, _, s.reentrant, rfl, rfl, fun _ _ _ => hrdy⟩

theorem Wired.goOn (h : s.Wired) (listSince : Int → List (EventRow τ)) (pageSize : Nat) (d : Drain τ) :
    (s.goOn listSince pageSize d).Wired := by
  obtain ⟨subs, drain, reentrant, heq, hatt, hrdy⟩ := goOn_frame s listSince pageSize d
  have hany : ∀ l : List (Subscriber τ),
      (∃ sub ∈ l, sub.attached = true) ↔ true ∈ l.map Subscriber.attached := fun l => List.mem_map.symm
  rw [heq]
  refine ⟨?_, h.bound, h.listeners, hrdy⟩
  rw [hany, hatt, ← hany]
  exact h.present

end

end TaskStream

namespace TaskStreamHub

variable {options : TaskStreamHubOptions} {s s' : TaskStreamHub τ} {taskId : τ} {e : HubEvent τ}

/-- What every step keeps. -/
structure Sound (options : TaskStreamHubOptions) (s : TaskStreamHub τ) : Prop where
  delivered : ∀ taskId, Delivered options.pageSize (s.store.listByTask taskId) (s.streams taskId)
  wired : ∀ taskId, (s.streams taskId).Wired
  nodup : s.stack.Nodup
  drains : ∀ taskId, taskId ∈ s.stack ↔ (s.streams taskId).drain.isSome = true
  waits : ∀ taskId ∈ s.stack.tail, (s.streams taskId).Calling

theorem sound_start (h : (system options).start s) : s.Sound options := by
  obtain ⟨hstk, hst⟩ := h
  refine ⟨?_, ?_, ?_, ?_, ?_⟩
  · intro taskId
    rw [hst]
    exact delivered_fresh _
  · intro taskId
    rw [hst]
    exact TaskStream.wired_fresh
  · rw [hstk]
    exact nodup_nil
  · intro taskId
    rw [hstk, hst]
    simp [TaskStream.fresh]
  · intro taskId hmem
    rw [hstk] at hmem
    cases hmem

variable {d : Drain τ}

/-- **Outside of the hub, every drain is calling a client.** -/
theorem Sound.calling (h : s.Sound options) (hosd : s.outside = true)
    (hd : (s.streams taskId).drain = some d) : (s.streams taskId).Calling := by
  have hmem := (h.drains taskId).mpr (by rw [hd]; rfl)
  have hwts := h.waits
  unfold outside at hosd
  cases hstk : s.stack with
  | nil =>
    rw [hstk] at hmem
    cases hmem
  | cons head rest =>
    rw [hstk] at hmem hosd hwts
    dsimp only at hosd
    rcases mem_cons.mp hmem with rfl | hrst
    · split at hosd
      · rename_i event page id hcs
        exact ⟨_, hcs, id, event, page, rfl⟩
      · cases hosd
    · exact hwts taskId hrst

theorem Sound.keep (h : s.Sound options) (hstk : s'.stack = s.stack)
    (hdrn : ∀ taskId, (s'.streams taskId).drain = (s.streams taskId).drain)
    (hdlv : ∀ taskId, Delivered options.pageSize (s'.store.listByTask taskId) (s'.streams taskId))
    (hwir : ∀ taskId, (s'.streams taskId).Wired) : s'.Sound options := by
  refine ⟨hdlv, hwir, ?_, ?_, ?_⟩
  · rw [hstk]
    exact h.nodup
  · intro taskId
    rw [hstk, hdrn]
    exact h.drains taskId
  · intro taskId hmem
    rw [hstk] at hmem
    obtain ⟨d, hd, hcs⟩ := h.waits taskId hmem
    exact ⟨d, (hdrn taskId).trans hd, hcs⟩

theorem Sound.update (h : s.Sound options) {stream : TaskStream τ}
    (hdlv : Delivered options.pageSize (s.store.listByTask taskId) stream) (hwir : stream.Wired) :
    (∀ t, Delivered options.pageSize (s.store.listByTask t) (update s.streams taskId stream t)) ∧
      ∀ t, (update s.streams taskId stream t).Wired :=
  ⟨(forall_update_iff s.streams fun t x =>
      Delivered options.pageSize (s.store.listByTask t) x).mpr ⟨hdlv, fun t _ => h.delivered t⟩,
    (forall_update_iff s.streams fun _ x => x.Wired).mpr ⟨hwir, fun t _ => h.wired t⟩⟩

theorem Sound.put (h : s.Sound options) {stream : TaskStream τ}
    (hdrn : stream.drain = (s.streams taskId).drain)
    (hdlv : Delivered options.pageSize (s.store.listByTask taskId) stream) (hwir : stream.Wired) :
    (s.put taskId stream).Sound options :=
  h.keep rfl ((forall_update_iff s.streams fun t x => x.drain = (s.streams t).drain).mpr
      ⟨hdrn, fun _ _ => rfl⟩) (h.update hdlv hwir).1 (h.update hdlv hwir).2

theorem Sound.append (h : s.Sound options) {event : AppEvent τ} {store : EventStore τ}
    (hstr : s.store.append event = some store)
    (hnew : ∀ r ∈ s.store.ofTask event.taskId, r.taskSeq < event.taskSeq) :
    { s.put event.taskId { s.streams event.taskId with unannounced := true } with
      store := store }.Sound options := by
  have hwir := h.wired event.taskId
  refine h.keep rfl ((forall_update_iff s.streams fun t x => x.drain = (s.streams t).drain).mpr
      ⟨rfl, fun _ _ => rfl⟩)
    ((forall_update_iff s.streams fun t x =>
      Delivered options.pageSize (store.listByTask t) x).mpr ⟨?_, fun t ht => ?_⟩)
    ((forall_update_iff s.streams fun _ x => x.Wired).mpr
      ⟨⟨hwir.present, hwir.bound, hwir.listeners, hwir.ready⟩, fun t _ => h.wired t⟩)
  · rw [listByTask_append hstr hnew]
    refine (h.delivered event.taskId).append fun r hr => ?_
    exact hnew r (mem_insertionSort _ |>.mp hr)
  · rw [listByTask_of_ne hstr (Ne.symm ht)]
    exact h.delivered t

/-- **A flush that starts to drain goes on top of the stack.** -/
theorem Sound.flush (h : s.Sound options) (hosd : s.outside = true) (taskId : τ) :
    (s.called taskId (s.streams taskId).flush).Sound options := by
  have hdlv := (h.delivered taskId).flush
  have hwir := (h.wired taskId).flush (h.delivered taskId) fun d hd => h.calling hosd hd
  have hput : (s.streams taskId).flush.drain = (s.streams taskId).drain →
      s.called taskId (s.streams taskId).flush = s.put taskId (s.streams taskId).flush := by
    intro hsm
    unfold called
    rw [hsm, if_neg (by simp)]
    rfl
  rcases (s.streams taskId).flush_cases with hsf | ⟨_, hnot⟩ | ⟨hno, hstd⟩
  · have hsm := congrArg TaskStream.drain hsf
    rw [hput hsm]
    exact h.put hsm hdlv hwir
  · have hsm := congrArg TaskStream.drain hnot
    rw [hput hsm]
    exact h.put hsm hdlv hwir
  · have hfr : taskId ∉ s.stack := by
      rw [h.drains, hno]
      exact Bool.false_ne_true
    have hstk : (s.called taskId (s.streams taskId).flush).stack = taskId :: s.stack := by
      unfold called
      dsimp only
      rw [hno, hstd]
      rfl
    refine ⟨(h.update hdlv hwir).1, (h.update hdlv hwir).2, ?_, ?_, ?_⟩
    · rw [hstk]
      exact nodup_cons.mpr ⟨hfr, h.nodup⟩
    · rw [hstk]
      refine (forall_update_iff s.streams fun t x =>
        t ∈ taskId :: s.stack ↔ x.drain.isSome = true).mpr ⟨?_, fun t ht => ?_⟩
      · rw [hstd]
        exact ⟨fun _ => rfl, fun _ => mem_cons_self⟩
      · rw [mem_cons, or_iff_right ht]
        exact h.drains t
    · rw [hstk]
      intro t ht
      have hoth : t ≠ taskId := fun heq => hfr (heq ▸ ht)
      obtain ⟨d, hd⟩ := isSome_iff_exists.mp ((h.drains t).mp ht)
      have hcl := h.calling hosd hd
      unfold called TaskStreamHub.put
      dsimp only
      rwa [update_of_ne hoth]

/-- **The drain on top of the stack goes on.** -/
theorem Sound.run (h : s.Sound options) {rest : List τ} (hstk : s.stack = taskId :: rest)
    (hd : (s.streams taskId).drain = some d) :
    { s.put taskId ((s.streams taskId).goOn
        (fun cursor => s.store.listByTaskSince taskId cursor options.pageSize) options.pageSize d) with
      stack := if ((s.streams taskId).goOn (fun cursor => s.store.listByTaskSince taskId cursor
        options.pageSize) options.pageSize d).drain.isSome then s.stack else rest }.Sound options := by
  have hdlv := (h.delivered taskId).goOn (ordered_listByTask s.store taskId) options.positive hd
    fun cursor => listByTaskSince_eq s.store taskId cursor options.pageSize
  have hwir := (h.wired taskId).goOn (fun cursor => s.store.listByTaskSince taskId cursor options.pageSize)
    options.pageSize d
  generalize (s.streams taskId).goOn (fun cursor => s.store.listByTaskSince taskId cursor options.pageSize)
    options.pageSize d = stream at hdlv hwir
  have hnd := h.nodup
  have hwts := h.waits
  rw [hstk] at hnd hwts
  obtain ⟨hfr, hrst⟩ := nodup_cons.mp hnd
  refine ⟨(h.update hdlv hwir).1, (h.update hdlv hwir).2, ?_, ?_, ?_⟩
  · dsimp only
    split
    · exact h.nodup
    · exact hrst
  · refine (forall_update_iff s.streams fun t x =>
      t ∈ (if stream.drain.isSome then s.stack else rest) ↔ x.drain.isSome = true).mpr ⟨?_, fun t ht => ?_⟩
    · split
      · rename_i hso
        rw [hstk]
        exact ⟨fun _ => hso, fun _ => mem_cons_self⟩
      · rename_i hno
        exact ⟨fun hmem => absurd hmem hfr, fun hso => absurd hso hno⟩
    · rw [← h.drains, hstk, mem_cons, or_iff_right ht]
      split
      · rw [mem_cons, or_iff_right ht]
      · exact Iff.rfl
  · intro t ht
    have hmem : t ∈ rest := by
      dsimp only at ht
      split at ht
      · rwa [hstk] at ht
      · exact mem_of_mem_tail ht
    have hoth : t ≠ taskId := fun heq => hfr (heq ▸ hmem)
    unfold TaskStreamHub.put
    dsimp only
    rw [update_of_ne hoth]
    exact hwts t hmem

/-- No client attaches to a task from within a flush of the task. -/
def attachesOutside (s : TaskStreamHub τ) : HubEvent τ → Bool
  | .subscribe taskId _ => (s.streams taskId).drain.isNone
  | _ => true

theorem called_self (s : TaskStreamHub τ) (taskId : τ) : s.called taskId (s.streams taskId) = s := by
  unfold called put
  rw [update_eq_self, if_neg (by simp)]

theorem of_step (hs : s.step options e = some s') :
    match e with
    | .subscribe taskId lastEventId =>
      s.outside = true ∧ s' = s.put taskId ((s.streams taskId).subscribe lastEventId)
    | .unsubscribe taskId id => s.outside = true ∧ s' = s.put taskId ((s.streams taskId).unsubscribe id)
    | .append event => s.outside = true ∧ (∀ r ∈ s.store.ofTask event.taskId, r.taskSeq < event.taskSeq) ∧
        ∃ store, s.store.append event = some store ∧ s' =
          { s.put event.taskId { s.streams event.taskId with unannounced := true } with store := store }
    | .notify taskId => s.outside = true ∧ (s' = s ∨ s' = s.called taskId (s.streams taskId).flush)
    | .flush taskId => s.outside = true ∧ s' = s.called taskId (s.streams taskId).flush
    | .run => ∃ taskId rest d, s.stack = taskId :: rest ∧ (s.streams taskId).drain = some d ∧
        ∃ stream, stream = (s.streams taskId).goOn
          (fun cursor => s.store.listByTaskSince taskId cursor options.pageSize) options.pageSize d ∧
          s' = { s.put taskId stream with stack := if stream.drain.isSome then s.stack else rest } := by
  cases e with
  | subscribe | unsubscribe | flush =>
    obtain ⟨hosd, hs⟩ := ite_none_right_eq_some.mp hs
    exact ⟨hosd, (Option.some.inj hs).symm⟩
  | append =>
    obtain ⟨hacd, hs⟩ := ite_none_right_eq_some.mp hs
    obtain ⟨store, hstr, rfl⟩ := map_eq_some_iff.mp hs
    rw [Bool.and_eq_true, List.all_eq_true] at hacd
    exact ⟨hacd.1, fun r hr => of_decide_eq_true (hacd.2 r hr), store, hstr, rfl⟩
  | notify taskId =>
    obtain ⟨hosd, hs⟩ := ite_none_right_eq_some.mp hs
    refine ⟨hosd, ?_⟩
    unfold TaskStream.notify at hs
    split at hs
    · exact .inl ((Option.some.inj hs).symm.trans (s.called_self taskId))
    · exact .inr (Option.some.inj hs).symm
  | run =>
    unfold step at hs
    cases hstk : s.stack with
    | nil =>
      rw [hstk] at hs
      cases hs
    | cons taskId rest =>
      rw [hstk] at hs
      obtain ⟨d, hd, rfl⟩ := map_eq_some_iff.mp hs
      exact ⟨taskId, rest, d, rfl, hd, _, rfl, rfl⟩

theorem sound_step (hgrd : s.attachesOutside e) (h : s.Sound options)
    (hs : s.step options e = some s') : s'.Sound options := by
  cases e with
  | subscribe taskId lastEventId =>
    obtain ⟨_, rfl⟩ := of_step hs
    have hno : (s.streams taskId).drain = none := by simpa [attachesOutside] using hgrd
    exact h.put rfl ((h.delivered taskId).subscribe hno lastEventId) ((h.wired taskId).subscribe lastEventId)
  | unsubscribe taskId id =>
    obtain ⟨_, rfl⟩ := of_step hs
    exact h.put ((s.streams taskId).drain_unsubscribe id) ((h.delivered taskId).unsubscribe id)
      ((h.wired taskId).unsubscribe (h.delivered taskId) id)
  | append =>
    obtain ⟨_, hnew, store, hstr, rfl⟩ := of_step hs
    exact h.append hstr hnew
  | notify taskId =>
    obtain ⟨hosd, rfl | rfl⟩ := of_step hs
    · exact h
    · exact h.flush hosd taskId
  | flush taskId =>
    obtain ⟨hosd, rfl⟩ := of_step hs
    exact h.flush hosd taskId
  | run =>
    obtain ⟨taskId, rest, d, hstk, hd, stream, rfl, rfl⟩ := of_step hs
    exact h.run hstk hd

theorem sound_of_reachable
    (h : (system options).Reachable (fun s e => s.attachesOutside e) s) : s.Sound options :=
  h.invariant (fun _ => sound_start) fun _ _ _ _ hgrd hI hs => sound_step hgrd hI hs

/-- **The flush on top of the stack can go on.** -/
theorem Sound.can_run (h : s.Sound options) (hstk : s.stack ≠ []) :
    ((system options).step s .run).isSome = true := by
  change (s.step options .run).isSome = true
  unfold step
  cases hs : s.stack with
  | nil => exact absurd hs hstk
  | cons taskId =>
    obtain ⟨d, hd⟩ := isSome_iff_exists.mp
      ((h.drains taskId).mp (by rw [hs]; exact mem_cons_self))
    dsimp only
    rw [hd]
    rfl

/-! ## A flush ends -/

/-- What is left to do for a task that is being drained. -/
def remaining (options : TaskStreamHubOptions) (s : TaskStreamHub τ) (taskId : τ) : ℕ ×ₗ ℕ ×ₗ ℕ :=
  match (s.streams taskId).drain with
  | none => toLex (0, toLex (0, 0))
  | some d => (s.streams taskId).todo options.pageSize (s.store.listByTask taskId) d

def Drains (s : TaskStreamHub τ) (e : HubEvent τ) (taskId : τ) : Prop :=
  e = .run ∧ s.stack.head? = some taskId

theorem remaining_congr (hst : s'.streams taskId = s.streams taskId)
    (hhst : s'.store.listByTask taskId = s.store.listByTask taskId) :
    s'.remaining options taskId = s.remaining options taskId := by
  unfold remaining
  rw [hst, hhst]

theorem remaining_of_drain (hd : (s.streams taskId).drain = some d) :
    s.remaining options taskId = (s.streams taskId).todo options.pageSize (s.store.listByTask taskId) d := by
  unfold remaining
  rw [hd]

/-- **What happens outside does not raise what is left.** -/
theorem remaining_outside (hgrd : s.attachesOutside e) (h : s.Sound options)
    (hs : s.step options e = some s') (hrun : e ≠ .run) (hd : (s.streams taskId).drain = some d)
    (hqt : ∀ event, e = .append event → event.taskId ≠ taskId) :
    s'.remaining options taskId ≤ s.remaining options taskId := by
  have hoth : ∀ {t : τ} (stream : TaskStream τ), t ≠ taskId →
      (s.put t stream).remaining options taskId = s.remaining options taskId := fun stream hne =>
    remaining_congr (update_of_ne (Ne.symm hne) _ _) rfl
  have hflu : ∀ t, s.outside = true → (s.called t (s.streams t).flush).remaining options taskId ≤
      s.remaining options taskId := by
    intro t hosd
    by_cases hsf : t = taskId
    · subst hsf
      obtain ⟨d₁, hd₁, id, event, page, hpt⟩ := h.calling hosd hd
      obtain ⟨hd', hto⟩ : (s.streams t).flush.drain = some d₁ ∧
          (s.streams t).flush.todo options.pageSize (s.store.listByTask t) d₁ =
            (s.streams t).todo options.pageSize (s.store.listByTask t) d₁ := todo_flush hd₁ hpt
      have hst : (s.called t (s.streams t).flush).streams t = (s.streams t).flush :=
        update_self _ _ _
      rw [remaining_of_drain (hst.symm ▸ hd'), hst, remaining_of_drain hd₁]
      exact hto.le
    · exact (hoth _ hsf).le
  cases e with
  | subscribe t =>
    obtain ⟨_, rfl⟩ := of_step hs
    refine (hoth _ fun heq => ?_).le
    have hno : (s.streams t).drain = none := by simpa [attachesOutside] using hgrd
    rw [heq, hd] at hno
    cases hno
  | unsubscribe t id =>
    obtain ⟨hosd, rfl⟩ := of_step hs
    by_cases hsf : t = taskId
    · subst hsf
      obtain ⟨d₁, hd₁, called, event, page, hpt⟩ := h.calling hosd hd
      obtain ⟨hd', hto⟩ := todo_unsubscribe (h.delivered t) hd₁ hpt id
      have hst : (s.put t ((s.streams t).unsubscribe id)).streams t = (s.streams t).unsubscribe id :=
        update_self _ _ _
      rw [remaining_of_drain (hst.symm ▸ hd'), hst, remaining_of_drain hd₁]
      exact hto
    · exact (hoth _ hsf).le
  | append event =>
    obtain ⟨_, hnew, store, hstr, rfl⟩ := of_step hs
    have hne := hqt event rfl
    exact (remaining_congr (update_of_ne (Ne.symm hne) _ _) (listByTask_of_ne hstr hne)).le
  | notify t =>
    obtain ⟨hosd, rfl | rfl⟩ := of_step hs
    · exact le_refl _
    · exact hflu t hosd
  | flush t =>
    obtain ⟨hosd, rfl⟩ := of_step hs
    exact hflu t hosd
  | run => exact absurd rfl hrun

/-- **The steps of the drain lower it**, and those of other drains leave it. -/
theorem remaining_run (h : s.Sound options) (hs : s.step options .run = some s')
    (hd' : (s'.streams taskId).drain.isSome = true) :
    s'.remaining options taskId < s.remaining options taskId ∧ s.Drains .run taskId ∨
      s'.remaining options taskId = s.remaining options taskId ∧ ¬s.Drains .run taskId := by
  obtain ⟨t, rest, d, hstk, hd, stream, rfl, rfl⟩ := of_step hs
  by_cases hsf : t = taskId
  · subst hsf
    refine .inl ⟨?_, rfl, by rw [hstk]; rfl⟩
    obtain ⟨d', hd'⟩ := isSome_iff_exists.mp hd'
    rw [remaining_of_drain hd, remaining_of_drain hd']
    have hst := update_self t ((s.streams t).goOn
      (fun cursor => s.store.listByTaskSince t cursor options.pageSize) options.pageSize d) s.streams
    have hd₁ := hd'
    unfold put at hd₁ ⊢
    dsimp only at hd₁ ⊢
    rw [hst] at hd₁ ⊢
    exact todo_goOn (h.delivered t) options.positive hd ((h.wired t).ready d hd)
      (fun cursor => listByTaskSince_eq s.store t cursor options.pageSize) hd₁
  · refine .inr ⟨remaining_congr (update_of_ne (Ne.symm hsf) _ _) rfl, fun hdr => hsf ?_⟩
    have hhe := hdr.2
    rw [hstk] at hhe
    exact Option.some.inj hhe

/-- **A flush ends**, if only finitely many events of the task are appended: in a run in which it does
not end, it takes finitely many steps, so a client that it calls does not return. -/
theorem flush_ends (run : (system options).Endless fun s e => s.attachesOutside e) (taskId : τ)
    (start : Nat)
    (hdr : ∀ k, start ≤ k → ((run.state k).streams taskId).drain.isSome = true)
    (hqt : ∀ k, start ≤ k → ∀ event, run.event k = .append event → event.taskId ≠ taskId) :
    ∃ last, ∀ k, last ≤ k → ¬(run.state k).Drains (run.event k) taskId := by
  have hst : ∀ k, start ≤ k →
      (run.state (k + 1)).remaining options taskId ≤ (run.state k).remaining options taskId ∧
      ((run.state k).Drains (run.event k) taskId →
        (run.state (k + 1)).remaining options taskId < (run.state k).remaining options taskId) := by
    intro k hk
    obtain ⟨hgrd, hs⟩ := run.next k
    have hsnd := sound_of_reachable (run.reachable k)
    by_cases hrun : run.event k = .run
    · rw [hrun] at hs ⊢
      rcases remaining_run hsnd hs (hdr (k + 1) (by omega)) with ⟨hlt, _⟩ | ⟨heq, hno⟩
      · exact ⟨hlt.le, fun _ => hlt⟩
      · exact ⟨heq.le, fun hyes => absurd hyes hno⟩
    · obtain ⟨d, hd⟩ := isSome_iff_exists.mp (hdr k hk)
      have hle := remaining_outside hgrd hsnd hs hrun hd (hqt k hk)
      exact ⟨hle, fun hyes => absurd hyes.1 hrun⟩
  obtain ⟨last, hla⟩ := falls_finitely_often (fun k => (run.state k).remaining options taskId)
    fun k hk => (hst k hk).1
  refine ⟨max start last, fun k hk hyes => ?_⟩
  exact hla k (by omega) ((hst k (by omega)).2 hyes)

/-- What is left to do on the stack: how many flushes, and then for the one on top. -/
def work (options : TaskStreamHubOptions) (s : TaskStreamHub τ) : ℕ ×ₗ ℕ ×ₗ ℕ ×ₗ ℕ :=
  toLex (s.stack.length, (s.stack.head?.map (s.remaining options)).getD (toLex (0, toLex (0, 0))))

/-- **When a client returns, less is left to do.** -/
theorem work_run (h : s.Sound options) (hs : s.step options .run = some s') :
    s'.work options < s.work options := by
  obtain ⟨taskId, rest, d, hstk, hd, stream, hst, hs'⟩ := of_step hs
  have hstk' : s'.stack = if stream.drain.isSome then s.stack else rest := by rw [hs']
  unfold work
  rw [Prod.Lex.toLex_lt_toLex]
  cases hdrn : stream.drain with
  | none =>
    rw [hdrn] at hstk'
    refine .inl ?_
    rw [hstk', hstk]
    simp
  | some =>
    rw [hdrn] at hstk'
    have hsm : s'.stack = s.stack := hstk'
    have hdr' : (s'.streams taskId).drain.isSome = true := by
      rw [hs']
      change ((s.put taskId stream).streams taskId).drain.isSome = true
      unfold put
      dsimp only
      rw [update_self, hdrn]
      rfl
    refine .inr ⟨congrArg List.length hsm, ?_⟩
    rw [hsm, hstk]
    rcases remaining_run h hs hdr' with ⟨hlt, _⟩ | ⟨_, hno⟩
    · exact hlt
    · exact absurd ⟨rfl, by rw [hstk]; rfl⟩ hno

theorem work_unsubscribe (h : s.Sound options) {id : Nat}
    (hs : s.step options (.unsubscribe taskId id) = some s') : s'.work options ≤ s.work options := by
  have hstk : s'.stack = s.stack := by
    obtain ⟨_, rfl⟩ := of_step hs
    rfl
  unfold work
  rw [hstk, Prod.Lex.toLex_le_toLex]
  refine .inr ⟨rfl, ?_⟩
  cases htop : s.stack with
  | nil => exact le_refl _
  | cons t =>
    obtain ⟨d, hd⟩ := isSome_iff_exists.mp
      ((h.drains t).mp (by rw [htop]; exact mem_cons_self))
    exact remaining_outside rfl h hs (by simp) hd fun event heq => (by cases heq)

/-- **The hub returns if its clients do**: it does not go on for ever by itself. -/
theorem hub_returns (run : (system options).Endless fun (s : TaskStreamHub τ) e => s.attachesOutside e)
    (start : Nat) : ¬∀ k, start ≤ k → run.event k = .run := by
  intro hrun
  have hlow : ∀ k, start ≤ k → (run.state (k + 1)).work options < (run.state k).work options := by
    intro k hk
    obtain ⟨_, hs⟩ := run.next k
    rw [hrun k hk] at hs
    exact work_run (sound_of_reachable (run.reachable k)) hs
  obtain ⟨last, hla⟩ := falls_finitely_often (fun k => (run.state k).work options)
    fun k hk => (hlow k hk).le
  exact hla (max start last) (by omega) (hlow (max start last) (by omega))

/-! ## Exactly once and in order -/

/-- What each client has had are events that are stored above its cursor, in order and none of them
twice or left out. It has had all of them once the flush after the last event and the last client is
over. A task has one listener on the bus while it has a client, and else none. -/
structure FansOut (s : TaskStreamHub τ) : Prop where
  exactly : ∀ taskId, ∀ sub ∈ (s.streams taskId).subscribers,
    sub.received <+: after (s.store.listByTask taskId) sub.start
  inOrder : ∀ taskId, ∀ sub ∈ (s.streams taskId).subscribers, Ordered sub.received
  complete : ∀ taskId, (s.streams taskId).drain = none → (s.streams taskId).unannounced = false →
    ∀ sub ∈ (s.streams taskId).subscribers, sub.attached = true →
      sub.received = after (s.store.listByTask taskId) sub.start
  oneListener : ∀ taskId, (s.streams taskId).listeners =
    if (s.streams taskId).subscribers.any Subscriber.attached then 1 else 0

theorem Sound.fansOut (h : s.Sound options) : s.FansOut := by
  have hec : ∀ taskId, ∀ sub ∈ (s.streams taskId).subscribers,
      sub.received <+: after (s.store.listByTask taskId) sub.start := by
    intro taskId sub hsub
    have hdlv := h.delivered taskId
    have hord := ordered_listByTask s.store taskId
    obtain ⟨id, hid⟩ := mem_iff_getElem?.mp hsub
    by_cases hcd : ∃ d, (s.streams taskId).drain = some d ∧ d.Calls id
    · obtain ⟨d, hd, event, page, hpt⟩ := hcd
      obtain ⟨sub', hsub', _, hrcv⟩ := (hdlv.drains d hd).called event page id hpt
      cases hid.symm.trans hsub'
      rw [hrcv]
      exact upTo_isPrefix hord _ _
    · rw [hdlv.rested id sub hid fun d hd hcs => hcd ⟨d, hd, hcs⟩]
      exact upTo_isPrefix hord _ _
  refine ⟨hec, ?_, ?_, ?_⟩
  · intro taskId sub hsub
    have hord : Ordered (after (s.store.listByTask taskId) sub.start) :=
      (ordered_listByTask s.store taskId).filter _
    exact hord.sublist (hec taskId sub hsub).sublist
  · intro taskId hdrn hann sub hsub hatt
    obtain ⟨id, hid⟩ := mem_iff_getElem?.mp hsub
    have hrcv := (h.delivered taskId).rested id sub hid fun d hd => by
      rw [hdrn] at hd
      cases hd
    rw [hrcv]
    exact upTo_of_le ((h.delivered taskId).settled hdrn hann sub hsub hatt)
  · intro taskId
    have hwir := h.wired taskId
    have hpr : (s.streams taskId).present = (s.streams taskId).subscribers.any Subscriber.attached := by
      rw [Bool.eq_iff_iff, hwir.present, List.any_eq_true]
    rw [hwir.listeners, hpr]

/-- **Clients get each event once and in order, and every flush ends.** -/
theorem fan_out (options : TaskStreamHubOptions) :
    (∀ s : TaskStreamHub τ, (system options).Reachable (fun s e => s.attachesOutside e) s →
      s.FansOut ∧ (s.stack ≠ [] → ((system options).step s .run).isSome = true)) ∧
    ∀ (run : (system options).Endless fun (s : TaskStreamHub τ) e => s.attachesOutside e) (start : Nat),
      (¬∀ k, start ≤ k → run.event k = .run) ∧
      ∀ taskId, (∀ k, start ≤ k → ((run.state k).streams taskId).drain.isSome = true) →
        (∀ k, start ≤ k → ∀ event, run.event k = .append event → event.taskId ≠ taskId) →
          ∃ last, ∀ k, last ≤ k → ¬(run.state k).Drains (run.event k) taskId := by
  refine ⟨fun s hrch => ?_, fun run start => ⟨hub_returns run start, ?_⟩⟩
  · have hsnd := sound_of_reachable hrch
    exact ⟨hsnd.fansOut, hsnd.can_run⟩
  · exact fun taskId hdr hqt => flush_ends run taskId start hdr hqt

/-! ## Two events on two pages -/

def started (seq : Nat) : AppEvent Nat := ⟨"NodeStarted", 0, none, 0, currentEventVersion, seq, none⟩

def onePerPage : TaskStreamHubOptions := ⟨1, Nat.one_pos⟩

def nothing : TaskStreamHub Nat := ⟨⟨empty _, 0⟩, fun _ => TaskStream.fresh, []⟩

def twoStarted : List (HubEvent Nat) :=
  [.subscribe 0 none, .append (started 0), .append (started 1), .notify 0]

theorem fan_out_once :
    (∃ s : TaskStreamHub Nat, s.FansOut ∧ s.stack = [] ∧ (s.streams 0).subscribers.map
      (fun sub => sub.received.map EventRow.taskSeq) = [[0, 1]]) ∧
    ∃ run : (system onePerPage).Endless fun (s : TaskStreamHub Nat) e => s.attachesOutside e,
      ∃ last, ∀ k, last ≤ k → ¬(run.state k).Drains (run.event k) 0 := by
  have hsta : (system onePerPage).start nothing := ⟨rfl, rfl⟩
  constructor
  · have hpl : (play (system onePerPage) (fun s e => s.attachesOutside e = true)
        (twoStarted ++ List.replicate 14 .run) nothing).any (fun s => decide (s.stack = []) &&
          decide ((s.streams 0).subscribers.map (fun sub => sub.received.map EventRow.taskSeq) =
            [[0, 1]])) = true := by decide
    obtain ⟨s, hrch, hend⟩ := exists_reachable_of_play hsta hpl
    rw [Bool.and_eq_true, decide_eq_true_eq, decide_eq_true_eq] at hend
    exact ⟨s, (((fan_out onePerPage).1 s hrch).1), hend⟩
  · -- a client that is called emits for ever
    have hpl : (play (system onePerPage) (fun s e => s.attachesOutside e = true)
        (twoStarted ++ [.run, .run, .notify 0]) nothing).any (fun s => s.outside &&
          decide ((s.streams 0).notify = s.streams 0) && (s.streams 0).drain.isSome) = true := by
      decide +kernel
    obtain ⟨s, hrch, hcd⟩ := exists_reachable_of_play hsta hpl
    rw [Bool.and_eq_true, Bool.and_eq_true, decide_eq_true_eq] at hcd
    obtain ⟨⟨hosd, hno⟩, hdr⟩ := hcd
    have hs : (system onePerPage).step s (.notify 0) = some s := by
      change s.step onePerPage (.notify 0) = some s
      unfold step
      dsimp only
      rw [if_pos hosd, hno, called_self]
    let run : (system onePerPage).Endless fun (s : TaskStreamHub Nat) e => s.attachesOutside e :=
      ⟨fun _ => s, fun _ => .notify 0, hrch, fun _ => ⟨rfl, hs⟩⟩
    refine ⟨run, ((fan_out onePerPage).2 run 0).2 0 (fun _ _ => hdr) fun _ _ event hfls => ?_⟩
    cases hfls

/-- A client that attaches from within a flush of its task, while the second event is handed out, does
not get the first. -/
example : (play (system onePerPage) (fun _ _ => True)
    (twoStarted ++ List.replicate 8 .run ++ [.subscribe 0 none, .flush 0] ++ List.replicate 8 .run)
    nothing).map (fun s => (s.stack, (s.streams 0).subscribers.map fun sub =>
      sub.received.map EventRow.taskSeq)) = some ([], [[0, 1], [1]]) := by decide +kernel

end TaskStreamHub

end AiNet.Streaming
