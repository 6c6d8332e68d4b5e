import AiNet.Streaming.Sse
import AiNet.Streaming.Standing
import Mathlib.Algebra.Group.Nat.Defs

/-!
# What a request has written

A request stands with the hub as its client does: it is attached while it is not closed, and what it was
called with, its part of the history up to the cursor, was written or dropped. It is closed before the
hub calls it again, or not at all, so no event falls between the two.
-/

namespace AiNet.Streaming

open Core AiNet.Events List Option TaskStream TaskStreamHub

variable {τ : Type} [DecidableEq τ]

/-- What a request has handled up to a cursor. A terminal event is the last that was written. -/
structure Served (options : TaskEventsSseOptions) (history : List (EventRow τ)) (c : Connection τ)
    (cursor : Int) : Prop where
  written : c.written.Sublist (upTo history c.start cursor)
  handled : ∀ r ∈ upTo history c.start cursor, r ∈ c.written ∨ r ∈ c.dropped.map Prod.fst
  dropped : ∀ entry ∈ c.dropped, options.highWaterMarkBytes < entry.2
  finished : c.finished = true → c.closed = true ∧ c.ended = true ∧
    ∃ r, c.written.getLast? = some r ∧ terminal r = true
  last : ∀ r ∈ c.written, terminal r = true → c.finished = true ∧ c.written.getLast? = some r

variable {hubOptions : TaskStreamHubOptions} {options : TaskEventsSseOptions}
  {history history' : List (EventRow τ)} {c : Connection τ} {cursor : Int} {event : EventRow τ}

section

omit [DecidableEq τ]

theorem served_new (h : c.written = [] ∧ c.dropped = [] ∧ c.finished = false) :
    Served options history c c.start := by
  obtain ⟨hwrt, hdrp, hfin⟩ := h
  refine ⟨?_, ?_, ?_, ?_, ?_⟩
  · rw [hwrt]
    exact nil_sublist _
  · intro r hr
    rw [upTo_self] at hr
    cases hr
  · intro entry hent
    rw [hdrp] at hent
    cases hent
  · intro htu
    rw [hfin] at htu
    cases htu
  · intro r hr
    rw [hwrt] at hr
    cases hr

theorem Served.grown (h : Served options history c cursor) (hgrn : Grown history history')
    (hcur : cursor = c.start ∨ ∃ r ∈ history, (r.taskSeq : Int) = cursor) :
    Served options history' c cursor := by
  have hsm := upTo_grown hgrn hcur
  refine ⟨?_, ?_, h.dropped, h.finished, h.last⟩
  · rw [hsm]
    exact h.written
  · rw [hsm]
    exact h.handled

end

def Connection.key (c : Connection τ) : τ × Nat := (c.taskId, c.id)

def Connection.done (c : Connection τ) : Connection τ :=
  if c.finished then { c with closed := true, ended := true } else c

/-- The same request, which has handled more. -/
structure Extends (c c' : Connection τ) : Prop where
  key : c'.key = c.key
  client : c'.client = c.client
  start : c'.start = c.start
  written : c.written <+: c'.written
  dropped : c.dropped <+: c'.dropped

section

omit [DecidableEq τ]

theorem Extends.refl (c : Connection τ) : Extends c c :=
  ⟨rfl, rfl, rfl, prefix_rfl, prefix_rfl⟩

theorem extends_deliver (options : TaskEventsSseOptions) (c : Connection τ) (event : EventRow τ)
    (writableLength : Nat) (flushed : Bool) (now : Nat) :
    Extends c (c.deliver options event writableLength flushed now) ∧
      (c.deliver options event writableLength flushed now).closed = c.closed := by
  unfold Connection.deliver
  split
  · exact ⟨.refl c, rfl⟩
  · split
    · exact ⟨⟨rfl, rfl, rfl, prefix_rfl, prefix_append _ _⟩, rfl⟩
    · exact ⟨⟨rfl, rfl, rfl, prefix_append _ _, prefix_rfl⟩, rfl⟩

theorem Extends.done {c' : Connection τ} (h : Extends c c') : Extends c c'.done := by
  unfold Connection.done
  split
  · exact ⟨h.key, h.client, h.start, h.written, h.dropped⟩
  · exact h

theorem closed_done (c : Connection τ) : c.done.closed = (c.finished || c.closed) := by
  unfold Connection.done
  split
  · rename_i hfin
    rw [hfin]
    rfl
  · rename_i hfin
    rw [Bool.not_eq_true] at hfin
    rw [hfin]
    rfl

/-- **An event that a request is called with is written or dropped.** -/
theorem Served.deliver (h : Served options history c cursor) (hon : c.closed = false)
    (hnx : upTo history c.start event.taskSeq = upTo history c.start cursor ++ [event])
    (writableLength : Nat) (flushed : Bool) (now : Nat) :
    Served options history (c.deliver options event writableLength flushed now).done event.taskSeq := by
  have hgoi : c.finished = false := by
    rw [Bool.eq_false_iff]
    intro hfin
    rw [(h.finished hfin).1] at hon
    cases hon
  have hno : ∀ r ∈ c.written, terminal r = false := by
    intro r hr
    rw [Bool.eq_false_iff]
    intro htrm
    rw [(h.last r hr htrm).1] at hgoi
    cases hgoi
  unfold Connection.deliver
  rw [if_neg (by simp [hon, hgoi])]
  by_cases hfl : options.highWaterMarkBytes < writableLength
  · rw [if_pos hfl]
    unfold Connection.done
    rw [if_neg (by simp [hgoi])]
    refine ⟨?_, ?_, ?_, h.finished, h.last⟩
    · dsimp only
      rw [hnx]
      exact h.written.trans (sublist_append_left _ _)
    · intro r hr
      dsimp only at hr ⊢
      rw [map_append, mem_append]
      rw [hnx, mem_append] at hr
      rcases hr with hold | hsf
      · rcases h.handled r hold with hwrt | hdrp
        · exact .inl hwrt
        · exact .inr (.inl hdrp)
      · exact .inr (.inr (by simpa using hsf))
    · intro entry hent
      rcases mem_append.mp hent with hold | hsf
      · exact h.dropped entry hold
      · rw [mem_singleton.mp hsf]
        exact hfl
  · rw [if_neg hfl]
    have hwrt : (c.written ++ [event]).Sublist (upTo history c.start event.taskSeq) := by
      rw [hnx]
      exact h.written.append_right [event]
    have hhnd : ∀ r ∈ upTo history c.start event.taskSeq,
        r ∈ c.written ++ [event] ∨ r ∈ c.dropped.map Prod.fst := by
      intro r hr
      rw [hnx, mem_append] at hr
      rcases hr with hold | hsf
      · rcases h.handled r hold with hwrt | hdrp
        · exact .inl (mem_append_left _ hwrt)
        · exact .inr hdrp
      · exact .inl (mem_append_right _ hsf)
    have hla : ∀ r ∈ c.written ++ [event], terminal r = true →
        terminal event = true ∧ (c.written ++ [event]).getLast? = some r := by
      intro r hr htrm
      rcases mem_append.mp hr with hold | hsf
      · rw [hno r hold] at htrm
        cases htrm
      · obtain rfl := mem_singleton.mp hsf
        exact ⟨htrm, List.getLast?_concat⟩
    unfold Connection.done
    dsimp only
    cases htrm : terminal event with
    | true =>
      rw [if_pos rfl]
      refine ⟨hwrt, hhnd, h.dropped, fun _ => ?_, ?_⟩
      · exact ⟨rfl, rfl, event, List.getLast?_concat, htrm⟩
      · intro r hr hr'
        exact ⟨rfl, (hla r hr hr').2⟩
    | false =>
      rw [if_neg Bool.false_ne_true]
      refine ⟨hwrt, hhnd, h.dropped, nofun, ?_⟩
      intro r hr hr'
      have hfls := (hla r hr hr').1
      rw [htrm] at hfls
      cases hfls

theorem Served.leave (h : Served options history c cursor) (hon : c.closed = false) (ended timedOut : Bool) :
    Served options history { c with closed := true, ended := ended, timedOut := timedOut } cursor := by
  refine ⟨h.written, h.handled, h.dropped, fun hfin => ?_, h.last⟩
  rw [(h.finished hfin).1] at hon
  cases hon

end

/-! ## One request and the hub -/

/-- How a request stands with the hub. -/
structure Serves (options : TaskEventsSseOptions) (hub : TaskStreamHub τ) (c : Connection τ) : Prop where
  stands : ∃ cursor, (hub.streams c.taskId).standing c.id = some ⟨c.start, cursor, !c.closed⟩ ∧
    Served options (hub.store.listByTask c.taskId) c cursor
  calls : ∀ d, (hub.streams c.taskId).drain = some d → d.Calls c.id → c.closed = false

variable {hub hub' : TaskStreamHub τ} {e : HubEvent τ}

/-- **A step of the hub for others.** -/
theorem Serves.step (h : Serves options hub c) (hsnd : hub.Sound hubOptions)
    (hs : hub.step hubOptions e = some hub') (hsty : e ≠ .unsubscribe c.taskId c.id)
    (hqt : e = .run → hub.stack.head? = some c.taskId → ∀ d, (hub.streams c.taskId).drain = some d →
      ¬d.Calls c.id) : Serves options hub' c := by
  obtain ⟨cursor, hsds, hsrv⟩ := h.stands
  refine ⟨⟨cursor, standing_step hs hsds hsty hqt, ?_⟩, ?_⟩
  · refine hsrv.grown (history_step hs c.taskId) ?_
    rcases started_of_standing (hsnd.delivered c.taskId) hsds with hsf | ⟨_, hsto⟩
    · exact .inl hsf
    · exact .inr hsto
  · intro d hd hcs
    rcases calls_step hs hd hcs with hbf | hatt
    · exact h.calls d hbf hcs
    · obtain ⟨sub, hsub, hstn⟩ := map_eq_some_iff.mp hsds
      rw [hsub, any_some] at hatt
      have hon := congrArg Standing.attached hstn
      change sub.attached = !c.closed at hon
      rw [hatt] at hon
      simpa using hon.symm

/-- **A request is closed** while nothing is drained. -/
theorem Serves.leave (h : Serves options hub c) (hsnd : hub.Sound hubOptions) (hil : hub.stack = [])
    (hon : c.closed = false)
    (hs : hub.step hubOptions (.unsubscribe c.taskId c.id) = some hub') (ended timedOut : Bool) :
    Serves options hub' { c with closed := true, ended := ended, timedOut := timedOut } := by
  obtain ⟨cursor, hsds, hsrv⟩ := h.stands
  obtain ⟨_, rfl⟩ := of_step hs
  refine ⟨⟨cursor, ?_, hsrv.leave hon ended timedOut⟩, ?_⟩
  · dsimp only
    rw [streams_put]
    exact standing_unsubscribe hsds
  · intro d hd _
    dsimp only at hd
    rw [streams_put, drain_unsubscribe] at hd
    have hmem := (hsnd.drains c.taskId).mpr (by rw [hd]; rfl)
    rw [hil] at hmem
    cases hmem

variable {d : Drain τ}

theorem run_returned {rest : List τ} {taskId : τ} {page : List (EventRow τ)} {id : Nat} {x : Standing}
    (hstk : hub.stack = taskId :: rest) (hd : (hub.streams taskId).drain = some d)
    (hpt : d.point = .calling event page id) (hx : (hub.streams taskId).standing id = some x)
    (hs : hub.step hubOptions .run = some hub') : hub'.store = hub.store ∧
      (hub'.streams taskId).standing id = some { x with cursor := event.taskSeq } ∧
      ∀ d', (hub'.streams taskId).drain = some d' → ∀ id', ¬d'.Calls id' := by
  obtain ⟨taskId', rest', d₁, hstk', hd₁, stream, rfl, rfl⟩ := of_step hs
  obtain ⟨rfl, rfl⟩ := List.cons.inj (hstk.symm.trans hstk')
  cases hd.symm.trans hd₁
  refine ⟨rfl, ?_, ?_⟩
  · change ((hub.put taskId _).streams taskId).standing id = _
    rw [streams_put]
    exact standing_returned hpt hx
  · intro d' hd' id' ⟨event', page', hcs⟩
    change ((hub.put taskId _).streams taskId).drain = some d' at hd'
    rw [streams_put] at hd'
    unfold goOn at hd'
    rw [hpt] at hd'
    cases hd'
    cases hcs

/-- How the hub goes on when the request has handled an event. -/
def Returns (hubOptions : TaskStreamHubOptions) (hub hub' : TaskStreamHub τ) (c c' : Connection τ) : Prop :=
  ∃ hub₁, (if c'.finished then hub.step hubOptions (.unsubscribe c.taskId c.id) = some hub₁ else hub₁ = hub) ∧
    hub₁.step hubOptions .run = some hub'

variable {writableLength : Nat} {flushed : Bool} {now : Nat}

/-- **The request that is called handles the event.** -/
theorem Serves.deliver (h : Serves options hub c) (hsnd : hub.Sound hubOptions) {rest : List τ}
    {page : List (EventRow τ)} (hstk : hub.stack = c.taskId :: rest)
    (hd : (hub.streams c.taskId).drain = some d) (hpt : d.point = .calling event page c.id)
    (hs : Returns hubOptions hub hub' c (c.deliver options event writableLength flushed now)) :
    Serves options hub' (c.deliver options event writableLength flushed now).done := by
  have hon := h.calls d hd ⟨event, page, hpt⟩
  obtain ⟨cursor, hsds, hsrv⟩ := h.stands
  rw [hon] at hsds
  have hnx := upTo_called (hsnd.delivered c.taskId) (ordered_listByTask hub.store c.taskId)
    hd hpt hsds rfl
  have hsrv' := hsrv.deliver hon hnx writableLength flushed now
  obtain ⟨hext, hcld⟩ := extends_deliver options c event writableLength flushed now
  obtain ⟨hub₁, huns, hrun⟩ := hs
  generalize c.deliver options event writableLength flushed now = c' at hsrv' hext hcld huns ⊢
  have htk : c'.done.taskId = c.taskId := congrArg Prod.fst hext.done.key
  have hid : c'.done.id = c.id := congrArg Prod.snd hext.done.key
  have hret : hub'.store = hub.store ∧
      (hub'.streams c.taskId).standing c.id = some ⟨c.start, event.taskSeq, !c'.finished⟩ ∧
      ∀ d', (hub'.streams c.taskId).drain = some d' → ∀ id', ¬d'.Calls id' := by
    cases hfin : c'.finished with
    | false =>
      rw [hfin] at huns
      have hsf : hub₁ = hub := by simpa using huns
      subst hsf
      exact run_returned hstk hd hpt hsds hrun
    | true =>
      rw [hfin, if_pos rfl] at huns
      obtain ⟨_, rfl⟩ := of_step huns
      have hstk₁ : (hub.put c.taskId ((hub.streams c.taskId).unsubscribe c.id)).stack =
          c.taskId :: rest := hstk
      have hd₁ : ((hub.put c.taskId ((hub.streams c.taskId).unsubscribe c.id)).streams c.taskId).drain =
          some d := by
        rw [streams_put, drain_unsubscribe]
        exact hd
      have hsds₁ : ((hub.put c.taskId ((hub.streams c.taskId).unsubscribe c.id)).streams
          c.taskId).standing c.id = some ⟨c.start, cursor, false⟩ := by
        rw [streams_put]
        exact standing_unsubscribe hsds
      exact run_returned hstk₁ hd₁ hpt hsds₁ hrun
  obtain ⟨hstr, hstn, hqt⟩ := hret
  refine ⟨⟨event.taskSeq, ?_, ?_⟩, ?_⟩
  · rw [htk, hid, hext.done.start, closed_done, hcld, hon, Bool.or_false]
    exact hstn
  · rw [htk, hstr]
    exact hsrv'
  · intro d' hd' hcs
    rw [htk] at hd'
    exact absurd hcs (hqt d' hd' c'.done.id)

/-! ## All requests -/

theorem modify_eq_set_of {α : Type} {l : List α} {i : Nat} {a : α} (h : l[i]? = some a) (f : α → α) :
    l.modify i f = l.set i (f a) := by
  refine ext_getElem? fun j => ?_
  obtain ⟨hlt, _⟩ := List.getElem?_eq_some_iff.mp h
  rw [List.getElem?_modify]
  by_cases hij : i = j
  · subst hij
    rw [h, List.getElem?_set_self hlt]
    simp
  · rw [List.getElem?_set_ne hij]
    simp [hij]

/-- The requests go on, and there may be new ones. -/
def Continues (connections connections' : List (Connection τ)) : Prop :=
  ∀ (k : Nat) (c : Connection τ), connections[k]? = some c → ∃ c', connections'[k]? = some c' ∧ Extends c c'

section

omit [DecidableEq τ]

theorem continues_refl (connections : List (Connection τ)) : Continues connections connections :=
  fun _ c hc => ⟨c, hc, .refl c⟩

theorem continues_set {connections : List (Connection τ)} {i : Nat} {c c' : Connection τ}
    (hc : connections[i]? = some c) (h : Extends c c') : Continues connections (connections.set i c') := by
  intro k c₁ hc₁
  obtain ⟨hlt, _⟩ := List.getElem?_eq_some_iff.mp hc
  by_cases hik : i = k
  · subst hik
    cases hc.symm.trans hc₁
    exact ⟨c', List.getElem?_set_self hlt, h⟩
  · rw [List.getElem?_set_ne hik]
    exact ⟨c₁, hc₁, .refl c₁⟩

end

namespace SseServer

variable {s s' : SseServer τ} {i : Nat}

/-- What every step keeps of the hub and the requests. -/
structure Serving (hubOptions : TaskStreamHubOptions) (options : TaskEventsSseOptions) (s : SseServer τ) :
    Prop where
  hub : s.hub.Sound hubOptions
  counted : ∀ r ∈ s.hub.store.events.rows, r.taskSeq ≤ 2 ^ 53
  keys : (s.connections.map Connection.key).Nodup
  serves : ∀ c ∈ s.connections, Serves options s.hub c

theorem serving_start (h : (system hubOptions options).start s) : s.Serving hubOptions options := by
  obtain ⟨hhub, _, hcon, _, hctd⟩ := h
  refine ⟨sound_start hhub, hctd, ?_, ?_⟩
  · rw [hcon]
    exact nodup_nil
  · intro c hc
    rw [hcon] at hc
    cases hc

/-- **One request changes.** -/
theorem Serving.set (h : s.Serving hubOptions options) (hhub : s'.hub.Sound hubOptions)
    (hctd : ∀ r ∈ s'.hub.store.events.rows, r.taskSeq ≤ 2 ^ 53) {c c' : Connection τ}
    (hc : s.connections[i]? = some c) (hcon : s'.connections = s.connections.set i c')
    (hkey : c'.key = c.key) (hsf : Serves options s'.hub c')
    (hoth : ∀ c₁ ∈ s.connections, c₁.key ≠ c.key → Serves options s'.hub c₁) :
    s'.Serving hubOptions options := by
  obtain ⟨hlt, _⟩ := List.getElem?_eq_some_iff.mp hc
  refine ⟨hhub, hctd, ?_, ?_⟩
  · have hsm : (s.connections.set i c').map Connection.key = s.connections.map Connection.key := by
      rw [← modify_eq_set_of hc fun _ => c']
      refine ext_getElem? fun j => ?_
      rw [List.getElem?_map, List.getElem?_map, List.getElem?_modify]
      by_cases hij : i = j
      · subst hij
        rw [hc]
        simp [hkey]
      · simp [hij]
    rw [hcon, hsm]
    exact h.keys
  · intro c₁ hc₁
    rw [hcon] at hc₁
    obtain ⟨j, hj⟩ := mem_iff_getElem?.mp hc₁
    by_cases hij : i = j
    · subst hij
      rw [List.getElem?_set_self hlt] at hj
      cases hj
      exact hsf
    · rw [List.getElem?_set_ne hij] at hj
      refine hoth c₁ (mem_of_getElem? hj) fun heq => hij ?_
      -- two requests with one key are the same
      have hki : (s.connections.map Connection.key)[i]? = some c.key := by
        rw [List.getElem?_map, hc]
        rfl
      have hkj : (s.connections.map Connection.key)[j]? = some c.key := by
        rw [List.getElem?_map, hj, map_some, heq]
      have hlt' := (List.getElem?_eq_some_iff.mp hki).1
      exact (List.getElem?_inj hlt' h.keys).mp (hki.trans hkj.symm)

theorem of_cleanup (hs : s.cleanup hubOptions i = some s') : ∃ c, s.connections[i]? = some c ∧
    (c.closed = true ∧ s' = s ∨ c.closed = false ∧
      s.hub.step hubOptions (.unsubscribe c.taskId c.id) = some s'.hub ∧
      s'.connections = s.connections.set i { c with closed := true } ∧ s'.clients = s.clients) := by
  unfold cleanup at hs
  obtain ⟨c, hc, hs⟩ := bind_eq_some_iff.mp hs
  refine ⟨c, hc, ?_⟩
  split at hs
  · rename_i hcld
    exact .inl ⟨hcld, (some.inj hs).symm⟩
  · rename_i hon
    obtain ⟨hub, hhub, rfl⟩ := map_eq_some_iff.mp hs
    exact .inr ⟨by simpa using hon, hhub, modify_eq_set_of hc _, rfl⟩

variable {c : Connection τ}

theorem of_finish (hc : s.connections[i]? = some c) (hon : c.closed = false)
    (hs : s.finish hubOptions i = some s') :
    s.hub.step hubOptions (.unsubscribe c.taskId c.id) = some s'.hub ∧
      s'.connections = s.connections.set i { c with closed := true, ended := true } ∧
      s'.clients = s.clients := by
  unfold finish at hs
  obtain ⟨s₁, hs₁, rfl⟩ := map_eq_some_iff.mp hs
  obtain ⟨c₁, hc₁, ⟨hcld, _⟩ | ⟨_, hhub, hcon, hcts⟩⟩ := of_cleanup hs₁
  · cases hc.symm.trans hc₁
    rw [hon] at hcld
    cases hcld
  · cases hc.symm.trans hc₁
    obtain ⟨hlt, _⟩ := List.getElem?_eq_some_iff.mp hc
    refine ⟨hhub, ?_, hcts⟩
    unfold setConnection
    dsimp only
    rw [hcon, modify_eq_set_of (List.getElem?_set_self hlt), set_set]

theorem of_called {event : EventRow τ} (h : s.called = some (i, event)) :
    ∃ c rest d page, s.connections[i]? = some c ∧ s.hub.stack = c.taskId :: rest ∧
      (s.hub.streams c.taskId).drain = some d ∧ d.point = .calling event page c.id := by
  unfold called at h
  split at h
  · cases h
  · rename_i taskId rest hstk
    split at h
    · rename_i generation pageRows rowsRead event' page id hd
      obtain ⟨j, hj, heq⟩ := map_eq_some_iff.mp h
      obtain ⟨rfl, rfl⟩ := Prod.mk.inj heq
      obtain ⟨hlt, hkey, _⟩ := List.findIdx?_eq_some_iff_getElem.mp hj
      obtain ⟨htk, hid⟩ := of_decide_eq_true hkey
      refine ⟨s.connections[j], rest, ⟨generation, pageRows, rowsRead, .calling event' page id⟩, page,
        List.getElem?_eq_getElem hlt, ?_, ?_, ?_⟩
      · rw [htk]
        exact hstk
      · rw [htk]
        exact hd
      · rw [hid]
    · cases h

theorem not_called (h : s.called = none) (hc : c ∈ s.connections) (hhe : s.hub.stack.head? = some c.taskId)
    (hd : (s.hub.streams c.taskId).drain = some d) :
    ¬d.Calls c.id := by
  intro ⟨event, page, hpt⟩
  unfold called at h
  cases hstk : s.hub.stack with
  | nil =>
    rw [hstk] at hhe
    cases hhe
  | cons =>
    rw [hstk] at hhe h
    cases hhe
    obtain ⟨generation, pageRows, rowsRead, point⟩ := d
    dsimp only at hpt h
    rw [hd, hpt] at h
    dsimp only at h
    rw [map_eq_none_iff, List.findIdx?_eq_none_iff] at h
    have hno := h c hc
    simp at hno

/-- What a step makes of the requests. -/
structure Serving.After (hubOptions : TaskStreamHubOptions) (options : TaskEventsSseOptions)
    (s s' : SseServer τ) : Prop where
  serving : s'.Serving hubOptions options
  continues : Continues s.connections s'.connections
  grown : ∀ taskId, Grown (s.hub.store.listByTask taskId) (s'.hub.store.listByTask taskId)

theorem Serving.same (h : s.Serving hubOptions options) (hhub : s'.hub = s.hub)
    (hcon : s'.connections = s.connections) : Serving.After hubOptions options s s' := by
  refine ⟨⟨?_, ?_, ?_, ?_⟩, ?_, ?_⟩
  · rw [hhub]
    exact h.hub
  · rw [hhub]
    exact h.counted
  · rw [hcon]
    exact h.keys
  · rw [hcon, hhub]
    exact h.serves
  · rw [hcon]
    exact continues_refl _
  · intro taskId
    rw [hhub]
    exact .inl rfl

theorem Serving.touch (h : s.Serving hubOptions options) (i now : Nat) :
    Serving.After hubOptions options s (s.setConnection i fun c => { c with lastProgressAt := now }) := by
  cases hc : s.connections[i]? with
  | none =>
    refine h.same rfl ?_
    exact modify_eq_self (List.getElem?_eq_none_iff.mp hc)
  | some c =>
    have hsf := h.serves c (mem_of_getElem? hc)
    obtain ⟨cursor, hsds, hsrv⟩ := hsf.stands
    have hext : Extends c { c with lastProgressAt := now } :=
      ⟨rfl, rfl, rfl, prefix_rfl, prefix_rfl⟩
    have hcon : (s.setConnection i fun c => { c with lastProgressAt := now }).connections =
        s.connections.set i { c with lastProgressAt := now } := modify_eq_set_of hc _
    refine ⟨h.set h.hub h.counted hc hcon rfl ?_ fun c₁ hc₁ _ => h.serves c₁ hc₁, ?_, fun _ => .inl rfl⟩
    · exact ⟨⟨cursor, hsds, hsrv.written, hsrv.handled, hsrv.dropped, hsrv.finished, hsrv.last⟩, hsf.calls⟩
    · rw [hcon]
      exact continues_set hc hext

/-- **A request is closed**, and its client is detached. -/
theorem Serving.leave (h : s.Serving hubOptions options) (hil : s.hub.stack = [])
    (hc : s.connections[i]? = some c) (hon : c.closed = false)
    (hs : s.hub.step hubOptions (.unsubscribe c.taskId c.id) = some s'.hub) {ended timedOut : Bool}
    (hcon : s'.connections = s.connections.set i { c with closed := true, ended := ended, timedOut := timedOut }) :
    Serving.After hubOptions options s s' := by
  have hhub := sound_step (e := .unsubscribe c.taskId c.id) rfl h.hub hs
  have hstr := store_step hs fun event heq => (by cases heq)
  have hsf := (h.serves c (mem_of_getElem? hc)).leave h.hub hil hon hs ended timedOut
  have hext : Extends c { c with closed := true, ended := ended, timedOut := timedOut } :=
    ⟨rfl, rfl, rfl, prefix_rfl, prefix_rfl⟩
  refine ⟨h.set hhub ?_ hc hcon rfl hsf fun c₁ hc₁ hkey => ?_, ?_, fun taskId => ?_⟩
  · rw [hstr]
    exact h.counted
  · refine (h.serves c₁ hc₁).step h.hub hs (fun heq => hkey ?_) nofun
    obtain ⟨htk, hid⟩ := HubEvent.unsubscribe.inj heq
    exact Prod.ext htk.symm hid.symm
  · rw [hcon]
    exact continues_set hc hext
  · rw [hstr]
    exact .inl rfl

theorem Serving.cleanup (h : s.Serving hubOptions options) (hil : s.hub.stack = [])
    (hs : s.cleanup hubOptions i = some s') : Serving.After hubOptions options s s' := by
  obtain ⟨c, hc, ⟨_, rfl⟩ | ⟨hon, hhub, hcon, _⟩⟩ := of_cleanup hs
  · exact h.same rfl rfl
  · exact h.leave hil hc hon hhub hcon

theorem of_deliver (h : s.Serving hubOptions options)
    (hs : s.step hubOptions options (.deliver writableLength flushed now) = some s') :
    ∃ i c event rest d page, s.connections[i]? = some c ∧ s.hub.stack = c.taskId :: rest ∧
      (s.hub.streams c.taskId).drain = some d ∧ d.point = .calling event page c.id ∧
      Returns hubOptions s.hub s'.hub c (c.deliver options event writableLength flushed now) ∧
      s'.connections = s.connections.set i (c.deliver options event writableLength flushed now).done ∧
      s'.clients = s.clients := by
  obtain ⟨⟨i, event⟩, hcd, hs⟩ := bind_eq_some_iff.mp hs
  obtain ⟨c, rest, d, page, hc, hstk, hd, hpt⟩ := of_called hcd
  refine ⟨i, c, event, rest, d, page, hc, hstk, hd, hpt, ?_⟩
  obtain ⟨hlt, _⟩ := List.getElem?_eq_some_iff.mp hc
  have hse := h.serves c (mem_of_getElem? hc)
  have hon := hse.calls d hd ⟨event, page, hpt⟩
  have hgoi : c.finished = false := by
    obtain ⟨cursor, _, hsrv⟩ := hse.stands
    rw [Bool.eq_false_iff]
    intro hfin
    rw [(hsrv.finished hfin).1] at hon
    cases hon
  have hset : (s.setConnection i fun c => c.deliver options event writableLength flushed now).connections =
      s.connections.set i (c.deliver options event writableLength flushed now) := modify_eq_set_of hc _
  have hget : (s.setConnection i fun c => c.deliver options event writableLength flushed now).connections[i]? =
      some (c.deliver options event writableLength flushed now) := by
    rw [hset]
    exact List.getElem?_set_self hlt
  dsimp only at hs
  rw [hget, hc] at hs
  simp only [any_some, hgoi, Bool.not_false, Bool.and_true] at hs
  obtain ⟨hext, hcld⟩ := extends_deliver options c event writableLength flushed now
  generalize c.deliver options event writableLength flushed now = c' at hs hset hget hext hcld ⊢
  obtain ⟨s₁, hs₁, hs⟩ := bind_eq_some_iff.mp hs
  obtain ⟨hub, hrun, rfl⟩ := map_eq_some_iff.mp hs
  unfold Returns Connection.done
  split at hs₁
  · rename_i hfin
    obtain ⟨huns, hcon, hcts⟩ := of_finish hget (hcld.trans hon) hs₁
    have htk : c'.taskId = c.taskId := congrArg Prod.fst hext.key
    have hid : c'.id = c.id := congrArg Prod.snd hext.key
    rw [htk, hid] at huns
    rw [if_pos hfin]
    refine ⟨⟨s₁.hub, by rw [if_pos hfin]; exact huns, hrun⟩, ?_, hcts⟩
    dsimp only
    rw [hcon, hset, set_set]
  · rename_i hfin
    cases hs₁
    rw [if_neg hfin]
    exact ⟨⟨_, by rw [if_neg hfin]; rfl, hrun⟩, hset, rfl⟩

theorem Serving.deliver (h : s.Serving hubOptions options)
    (hs : s.step hubOptions options (.deliver writableLength flushed now) = some s') :
    Serving.After hubOptions options s s' := by
  obtain ⟨i, c, event, rest, d, page, hc, hstk, hd, hpt, hre, hcon, _⟩ := of_deliver h hs
  have hsf := (h.serves c (mem_of_getElem? hc)).deliver h.hub hstk hd hpt hre
  have hext := (extends_deliver options c event writableLength flushed now).1.done
  obtain ⟨hub₁, huns, hrun⟩ := hre
  -- what the hub does before it goes on
  have hfst : hub₁.Sound hubOptions ∧ hub₁.store = s.hub.store ∧
      hub₁.stack = s.hub.stack ∧ (hub₁.streams c.taskId).drain = some d ∧
      ∀ c₁ ∈ s.connections, c₁.key ≠ c.key → Serves options hub₁ c₁ := by
    split at huns
    · refine ⟨sound_step (e := .unsubscribe c.taskId c.id) rfl h.hub huns,
        store_step huns fun event heq => (by cases heq), ?_, ?_, fun c₁ hc₁ hkey => ?_⟩
      · obtain ⟨_, rfl⟩ := of_step huns
        rfl
      · obtain ⟨_, rfl⟩ := of_step huns
        rw [streams_put, drain_unsubscribe]
        exact hd
      · refine (h.serves c₁ hc₁).step h.hub huns (fun heq => hkey ?_) nofun
        obtain ⟨htk, hid⟩ := HubEvent.unsubscribe.inj heq
        exact Prod.ext htk.symm hid.symm
    · obtain rfl := huns
      exact ⟨h.hub, rfl, rfl, hd, fun c₁ hc₁ _ => h.serves c₁ hc₁⟩
  obtain ⟨hsnd, hstr, hstk₁, hd₁, hots⟩ := hfst
  have hstr' := (store_step hrun fun event heq => (by cases heq)).trans hstr
  refine ⟨h.set (sound_step (e := .run) rfl hsnd hrun) ?_ hc hcon hext.key hsf
    fun c₁ hc₁ hkey => ?_, ?_, fun taskId => ?_⟩
  · rw [hstr']
    exact h.counted
  · refine (hots c₁ hc₁ hkey).step hsnd hrun nofun fun _ hhe d₁ hd₁' hcs => ?_
    -- the drain calls one client
    rw [hstk₁, hstk] at hhe
    have htk : c₁.taskId = c.taskId := (some.inj hhe).symm
    rw [htk, hd₁] at hd₁'
    cases hd₁'
    obtain ⟨event', page', hpt'⟩ := hcs
    rw [hpt] at hpt'
    obtain ⟨_, _, hid⟩ := Point.calling.inj hpt'
    exact hkey (Prod.ext htk hid.symm)
  · rw [hcon]
    exact continues_set hc hext
  · rw [hstr']
    exact .inl rfl

/-- **A new request** starts at its resume cursor, with a number that no other has. -/
theorem Serving.attach (h : s.Serving hubOptions options) (hil : s.hub.stack = []) {number : Nat}
    {client : Client τ} {clientIp : String} (hs : s.attach hubOptions number client clientIp now = some s') :
    Serving.After hubOptions options s s' := by
  unfold SseServer.attach at hs
  obtain ⟨hub₁, hsu, hs⟩ := bind_eq_some_iff.mp hs
  obtain ⟨hub₂, hflu, rfl⟩ := map_eq_some_iff.mp hs
  have hno : (s.hub.streams client.taskId).drain = none := by
    cases hdrn : (s.hub.streams client.taskId).drain with
    | none => rfl
    | some =>
      have hmem := (h.hub.drains client.taskId).mpr (by rw [hdrn]; rfl)
      rw [hil] at hmem
      cases hmem
  have hsnd₁ := sound_step (e := .subscribe client.taskId (client.cursor.map Int.ofNat))
    (by simp [attachesOutside, hno]) h.hub hsu
  have hstr₁ := store_step hsu fun event heq => (by cases heq)
  have hstr₂ := (store_step hflu fun event heq => (by cases heq)).trans hstr₁
  have hnew : ∀ c ∈ s.connections, c.key ≠ (client.taskId, (s.hub.streams client.taskId).subscribers.length) := by
    intro c hc heq
    obtain ⟨cursor, hsds, _⟩ := (h.serves c hc).stands
    have hlt := lt_of_standing hsds
    have htk : c.taskId = client.taskId := congrArg Prod.fst heq
    have hid : c.id = (s.hub.streams client.taskId).subscribers.length := congrArg Prod.snd heq
    rw [htk, hid] at hlt
    exact absurd hlt (Nat.lt_irrefl _)
  refine ⟨⟨sound_step (e := .flush client.taskId) rfl hsnd₁ hflu, ?_, ?_, ?_⟩, ?_, fun taskId => ?_⟩
  · rw [hstr₂]
    exact h.counted
  · rw [map_append, nodup_append]
    refine ⟨h.keys, nodup_singleton _, fun k hk k' hk' heq => ?_⟩
    obtain ⟨c, hc, rfl⟩ := List.mem_map.mp hk
    rw [map_singleton, mem_singleton] at hk'
    exact hnew c hc (heq.trans hk')
  · intro c hc
    have hfl : ∀ c : Connection τ, Serves options hub₁ c → Serves options hub₂ c := fun c hse =>
      hse.step hsnd₁ hflu (by rintro ⟨⟩) (by rintro ⟨⟩)
    refine hfl c ?_
    rcases mem_append.mp hc with hold | hsf
    · exact (h.serves c hold).step h.hub hsu (by rintro ⟨⟩) (by rintro ⟨⟩)
    · rw [mem_singleton.mp hsf]
      obtain ⟨_, rfl⟩ := of_step hsu
      refine ⟨⟨(client.cursor.map Int.ofNat).getD earliestCursor, ?_, served_new ⟨rfl, rfl, rfl⟩⟩, fun _ _ _ => rfl⟩
      dsimp only
      rw [streams_put]
      exact standing_subscribed _ _
  · intro k c hc
    refine ⟨c, ?_, .refl c⟩
    obtain ⟨hlt, _⟩ := List.getElem?_eq_some_iff.mp hc
    rw [List.getElem?_append_left hlt]
    exact hc
  · rw [hstr₂]
    exact .inl rfl

/-- **What others do at the hub.** -/
theorem Serving.others (h : s.Serving hubOptions options) {e : HubEvent τ} (hcd : s.called = none)
    (hal : s.allows e = true) (hs : s.hub.step hubOptions e = some hub) :
    Serving.After hubOptions options s { s with hub := hub } := by
  have hgrd : s.hub.attachesOutside e = true := by
    cases e with
    | subscribe => exact hal
    | unsubscribe | append | notify | flush | run => rfl
  refine ⟨⟨sound_step hgrd h.hub hs, ?_, h.keys, fun c hc => ?_⟩, continues_refl _, history_step hs⟩
  · by_cases hap : ∃ event, e = .append event
    · obtain ⟨event, rfl⟩ := hap
      obtain ⟨_, _, store, hstr, rfl⟩ := of_step hs
      intro r hr
      have hrw : store.events.rows = s.hub.store.events.rows ++ [s.hub.store.row event] := append_rows hstr
      have hmem : r ∈ store.events.rows := hr
      rw [hrw] at hmem
      rcases mem_append.mp hmem with hold | hsf
      · exact h.counted r hold
      · rw [mem_singleton.mp hsf]
        exact of_decide_eq_true hal
    · have hstr := store_step hs fun event heq => hap ⟨event, heq⟩
      dsimp only
      rw [hstr]
      exact h.counted
  · refine (h.serves c hc).step h.hub hs (fun heq => ?_) fun _ hhe d hd => not_called hcd hc hhe hd
    subst heq
    have hno := List.all_eq_true.mp hal c hc
    simp at hno

theorem Serving.step (h : s.Serving hubOptions options) {e : SseEvent τ}
    (hs : s.step hubOptions options e = some s') : Serving.After hubOptions options s s' := by
  cases e with
  | join =>
    cases hs
    exact h.same rfl rfl
  | connect =>
    obtain ⟨hil, hs⟩ := ite_none_right_eq_some.mp hs
    obtain ⟨c, _, hs⟩ := bind_eq_some_iff.mp hs
    split at hs
    · cases hs
      exact h.same rfl rfl
    · exact h.attach hil hs
  | deliver => exact h.deliver hs
  | heartbeat i flushed now =>
    obtain ⟨hil, hs⟩ := ite_none_right_eq_some.mp hs
    obtain ⟨c, hc, hs⟩ := bind_eq_some_iff.mp hs
    split at hs
    · cases hs
      exact h.same rfl rfl
    · rename_i hon
      split at hs
      · have hset : (s.setConnection i fun c => { c with timedOut := true }).connections =
            s.connections.set i { c with timedOut := true } := modify_eq_set_of hc _
        obtain ⟨hlt, _⟩ := List.getElem?_eq_some_iff.mp hc
        obtain ⟨hhub, hcon, _⟩ := of_finish (c := { c with timedOut := true })
          (hset ▸ List.getElem?_set_self hlt) (by simpa using hon) hs
        rw [hset, set_set] at hcon
        exact h.leave hil hc (by simpa using hon) hhub hcon
      · split at hs
        · cases hs
          exact h.touch i now
        · cases hs
          exact h.same rfl rfl
  | drained i now =>
    obtain ⟨_, hs⟩ := ite_none_right_eq_some.mp hs
    cases hs
    exact h.touch i now
  | close =>
    obtain ⟨hil, hs⟩ := ite_none_right_eq_some.mp hs
    exact h.cleanup hil hs
  | receive =>
    obtain ⟨c, _, hs⟩ := bind_eq_some_iff.mp hs
    obtain ⟨connection, _, hs⟩ := bind_eq_some_iff.mp hs
    obtain ⟨event, _, rfl⟩ := map_eq_some_iff.mp hs
    exact h.same rfl rfl
  | hub =>
    obtain ⟨hacd, hs⟩ := ite_none_right_eq_some.mp hs
    obtain ⟨hub, hhub, rfl⟩ := map_eq_some_iff.mp hs
    rw [Bool.and_eq_true] at hacd
    exact h.others (by simpa using hacd.1) hacd.2 hhub

end SseServer

end AiNet.Streaming
