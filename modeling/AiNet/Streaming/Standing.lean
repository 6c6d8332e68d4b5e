import AiNet.Streaming.FanOut

/-!
# How one client stands with the hub

Where a client started, how far it has come and whether it is attached. A step of the hub moves a client
only when its `deliver` returns; it moves to the event that it was called with. A drain calls clients that
are attached.
-/

namespace AiNet.Streaming

open Core AiNet.Events List Option Function

variable {τ : Type} [DecidableEq τ]

structure Standing where
  start : Int
  cursor : Int
  attached : Bool
  deriving DecidableEq

def Subscriber.standing (sub : Subscriber τ) : Standing := ⟨sub.start, sub.cursor, sub.attached⟩

namespace TaskStream

def standing (s : TaskStream τ) (id : Nat) : Option Standing := s.subscribers[id]?.map Subscriber.standing

variable {s : TaskStream τ} {id : Nat} {x : Standing}

section

omit [DecidableEq τ]

theorem standing_modify_of_ne {f : Subscriber τ → Subscriber τ} {other : Nat} (h : other ≠ id) :
    (s.subscribers.modify other f)[id]?.map Subscriber.standing = s.standing id := by
  rw [List.getElem?_modify_ne _ _ h]
  rfl

theorem standing_modify (f : Subscriber τ → Subscriber τ) :
    (s.subscribers.modify id f)[id]?.map Subscriber.standing =
      s.subscribers[id]?.map fun sub => (f sub).standing := by
  rw [List.getElem?_modify_eq]
  cases s.subscribers[id]? with
  | none | some => rfl

theorem lt_of_standing (h : s.standing id = some x) : id < s.subscribers.length := by
  obtain ⟨sub, hsub, _⟩ := map_eq_some_iff.mp h
  exact (List.getElem?_eq_some_iff.mp hsub).1

theorem standing_subscribe (h : id < s.subscribers.length) (lastEventId : Option Int) :
    (s.subscribe lastEventId).standing id = s.standing id := by
  unfold standing subscribe
  dsimp only
  rw [List.getElem?_append_left h]

theorem standing_subscribed (s : TaskStream τ) (lastEventId : Option Int) :
    (s.subscribe lastEventId).standing s.subscribers.length =
      some ⟨lastEventId.getD earliestCursor, lastEventId.getD earliestCursor, true⟩ := by
  unfold standing subscribe
  dsimp only
  rw [List.getElem?_append_right (Nat.le_refl _), Nat.sub_self]
  rfl

theorem subscribers_unsubscribe (s : TaskStream τ) (id : Nat) :
    (s.unsubscribe id).subscribers = s.leave id := by
  have hsf : ∀ sub, s.subscribers[id]? = some sub → sub.attached = false → s.leave id = s.subscribers := by
    intro sub hsub hlf
    unfold leave
    refine ext_getElem? fun j => ?_
    rw [List.getElem?_modify]
    by_cases hj : id = j
    · subst hj
      rw [hsub]
      simp [← hlf]
    · simp [hj]
  unfold unsubscribe
  cases hget : s.subscribers[id]? with
  | none =>
    unfold leave
    dsimp only
    rw [modify_eq_self (List.getElem?_eq_none_iff.mp hget)]
  | some sub =>
    dsimp only
    split
    · rename_i hlf
      exact (hsf sub hget (by simpa using hlf)).symm
    · split
      · rfl
      · split
        · rfl
        · rfl

theorem standing_unsubscribe_of_ne {other : Nat} (h : other ≠ id) :
    (s.unsubscribe other).standing id = s.standing id := by
  unfold standing
  rw [subscribers_unsubscribe]
  exact standing_modify_of_ne h

theorem standing_unsubscribe (h : s.standing id = some x) :
    (s.unsubscribe id).standing id = some { x with attached := false } := by
  obtain ⟨sub, hsub, rfl⟩ := map_eq_some_iff.mp h
  unfold standing
  rw [subscribers_unsubscribe]
  unfold leave
  rw [standing_modify, hsub]
  rfl

theorem subscribers_flush (s : TaskStream τ) : s.flush.subscribers = s.subscribers := by
  rcases flush_cases s with hsf | ⟨_, hnot⟩ | ⟨_, hstd⟩
  · rw [hsf]
  · rw [hnot]
  · rw [hstd]

end

variable {d d' : Drain τ} {listSince : Int → List (EventRow τ)} {pageSize : Nat}

section

omit [DecidableEq τ]

/-- **A drain moves only the client that returns.** -/
theorem standing_goOn (h : ¬d.Calls id) : (s.goOn listSince pageSize d).standing id = s.standing id := by
  unfold goOn
  cases hpt : d.point with
  | read | drained =>
    dsimp only
    split
    · rfl
    · split
      · rfl
      · rfl
  | visit page next =>
    cases page with
    | nil => rfl
    | cons event page =>
      dsimp only
      split
      · rfl
      · rename_i called _
        split
        · by_cases hsf : called = id
          · subst hsf
            unfold standing
            dsimp only
            rw [standing_modify]
            rfl
          · exact standing_modify_of_ne hsf
        · rfl
  | calling event page called =>
    have hsf : called ≠ id := by
      intro heq
      exact h ⟨event, page, heq ▸ hpt⟩
    exact standing_modify_of_ne hsf

theorem standing_returned {event : EventRow τ} {page : List (EventRow τ)}
    (hpt : d.point = .calling event page id) (h : s.standing id = some x) :
    (s.goOn listSince pageSize d).standing id = some { x with cursor := event.taskSeq } := by
  obtain ⟨sub, hsub, rfl⟩ := map_eq_some_iff.mp h
  unfold goOn
  rw [hpt]
  unfold standing
  dsimp only
  rw [standing_modify, hsub]
  rfl

/-- **A client that is called is attached.** -/
theorem attached_of_goOn (hd : (s.goOn listSince pageSize d).drain = some d') (hcs : d'.Calls id) :
    s.subscribers[id]?.any Subscriber.attached = true := by
  obtain ⟨event, page, hcs⟩ := hcs
  unfold goOn at hd
  cases hpt : d.point with
  | read =>
    rw [hpt] at hd
    dsimp only at hd
    split at hd
    · cases hd
      cases hcs
    · split at hd
      · cases hd
        cases hcs
      · cases hd
        cases hcs
  | visit page next =>
    rw [hpt] at hd
    cases page with
    | nil =>
      cases hd
      cases hcs
    | cons event page =>
      dsimp only at hd
      split at hd
      · cases hd
        cases hcs
      · rename_i called hfnd
        split at hd
        · cases hd
          cases hcs
          obtain ⟨_, ⟨sub, hsub, hin⟩, _⟩ := nextSubscriber_eq_some hfnd
          rw [hsub]
          exact (within_iff.mp hin).1
        · cases hd
          cases hcs
  | calling =>
    rw [hpt] at hd
    cases hd
    cases hcs
  | drained =>
    rw [hpt] at hd
    dsimp only at hd
    split at hd
    · cases hd
      cases hcs
    · split at hd
      · cases hd
      · cases hd
        cases hcs

end

variable {history : List (EventRow τ)}

section

omit [DecidableEq τ]

/-- **An attached client is called with its next event.** -/
theorem upTo_called (h : Delivered pageSize history s) (hord : Ordered history)
    (hd : s.drain = some d) {event : EventRow τ} {page : List (EventRow τ)}
    (hpt : d.point = .calling event page id) (hx : s.standing id = some x) (hatt : x.attached = true) :
    upTo history x.start event.taskSeq = upTo history x.start x.cursor ++ [event] := by
  obtain ⟨sub, hsub, rfl⟩ := map_eq_some_iff.mp hx
  have hdr := h.drains d hd
  obtain ⟨sub', hsub', hcur, _⟩ := hdr.called event page id hpt
  cases hsub.symm.trans hsub'
  have hmem := mem_of_getElem? hsub
  have hsta : sub.start ≤ sub.cursor := by
    rcases h.started sub hmem with hsf | ⟨hlt, _⟩
    · exact hsf.ge
    · exact hlt.le
  rcases hdr.placed with hrd | ⟨before, behind, hplc⟩
  · rw [hpt] at hrd
    cases hrd
  · have hspl := hplc.split
    unfold Drain.rest at hspl
    rw [hpt, append_assoc, cons_append] at hspl
    have hbf := hplc.caughtUp sub hmem hatt
    rw [hspl] at hord ⊢
    exact upTo_next hord hbf hcur (hsta.trans_lt hcur)

theorem started_of_standing (h : Delivered pageSize history s) (hx : s.standing id = some x) :
    x.cursor = x.start ∨ x.start < x.cursor ∧ ∃ r ∈ history, (r.taskSeq : Int) = x.cursor := by
  obtain ⟨sub, hsub, rfl⟩ := map_eq_some_iff.mp hx
  exact h.started sub (mem_of_getElem? hsub)

end

end TaskStream

/-- A history with at most one more event, which is the last. -/
def Grown (history history' : List (EventRow τ)) : Prop :=
  history' = history ∨ ∃ r, history' = history ++ [r] ∧ ∀ x ∈ history, x.taskSeq < r.taskSeq

omit [DecidableEq τ] in
/-- **New events change no part** that ends at its start or at a stored event. -/
theorem upTo_grown {history history' : List (EventRow τ)} (h : Grown history history') {start last : Int}
    (hla : last = start ∨ ∃ r ∈ history, (r.taskSeq : Int) = last) :
    upTo history' start last = upTo history start last := by
  rcases h with rfl | ⟨r, rfl, hnew⟩
  · rfl
  · refine upTo_snoc fun hsta => ?_
    rcases hla with rfl | ⟨x, hx, hseq⟩
    · exact hsta
    · have hlt := hnew x hx
      omega

namespace TaskStreamHub

variable {options : TaskStreamHubOptions} {s s' : TaskStreamHub τ} {e : HubEvent τ} {taskId : τ} {id : Nat}

theorem streams_of_ne {other : τ} {stream : TaskStream τ} (h : other ≠ taskId) :
    (s.put other stream).streams taskId = s.streams taskId := update_of_ne (Ne.symm h) _ _

theorem streams_put {stream : TaskStream τ} : (s.put taskId stream).streams taskId = stream :=
  update_self _ _ _

/-- **A step leaves a client where it is**, if it does not detach the client or return from it. -/
theorem standing_step (hs : s.step options e = some s') {x : Standing}
    (h : (s.streams taskId).standing id = some x) (hsty : e ≠ .unsubscribe taskId id)
    (hqt : e = .run → s.stack.head? = some taskId → ∀ d, (s.streams taskId).drain = some d →
      ¬d.Calls id) : (s'.streams taskId).standing id = some x := by
  have hflu : ∀ t, ((s.called t (s.streams t).flush).streams taskId).standing id = some x := by
    intro t
    change ((s.put t (s.streams t).flush).streams taskId).standing id = some x
    by_cases hsf : t = taskId
    · subst hsf
      rw [streams_put]
      unfold TaskStream.standing at h ⊢
      rw [TaskStream.subscribers_flush]
      exact h
    · rw [streams_of_ne hsf]
      exact h
  cases e with
  | subscribe t =>
    obtain ⟨_, rfl⟩ := of_step hs
    by_cases hsf : t = taskId
    · subst hsf
      rw [streams_put, TaskStream.standing_subscribe (TaskStream.lt_of_standing h)]
      exact h
    · rw [streams_of_ne hsf]
      exact h
  | unsubscribe t other =>
    obtain ⟨_, rfl⟩ := of_step hs
    by_cases hsf : t = taskId
    · subst hsf
      have hoth : other ≠ id := fun heq => hsty (heq ▸ rfl)
      rw [streams_put, TaskStream.standing_unsubscribe_of_ne hoth]
      exact h
    · rw [streams_of_ne hsf]
      exact h
  | append event =>
    obtain ⟨_, _, store, _, rfl⟩ := of_step hs
    change ((s.put event.taskId { s.streams event.taskId with unannounced := true }).streams
      taskId).standing id = some x
    by_cases hsf : event.taskId = taskId
    · rw [← hsf, streams_put]
      rw [← hsf] at h
      exact h
    · rw [streams_of_ne hsf]
      exact h
  | notify t =>
    obtain ⟨_, rfl | rfl⟩ := of_step hs
    · exact h
    · exact hflu t
  | flush t =>
    obtain ⟨_, rfl⟩ := of_step hs
    exact hflu t
  | run =>
    obtain ⟨t, rest, d, hstk, hd, stream, rfl, rfl⟩ := of_step hs
    change ((s.put t _).streams taskId).standing id = some x
    by_cases hsf : t = taskId
    · subst hsf
      have hno := hqt rfl (by rw [hstk]; rfl) d hd
      rw [streams_put, TaskStream.standing_goOn hno]
      exact h
    · rw [streams_of_ne hsf]
      exact h

theorem store_step (hs : s.step options e = some s') (hap : ∀ event, e ≠ .append event) :
    s'.store = s.store := by
  cases e with
  | subscribe | unsubscribe | flush =>
    obtain ⟨_, rfl⟩ := of_step hs
    rfl
  | append event => exact absurd rfl (hap event)
  | notify =>
    obtain ⟨_, rfl | rfl⟩ := of_step hs
    · rfl
    · rfl
  | run =>
    obtain ⟨t, rest, d, _, _, stream, _, rfl⟩ := of_step hs
    rfl

theorem history_step (hs : s.step options e = some s') (taskId : τ) :
    Grown (s.store.listByTask taskId) (s'.store.listByTask taskId) := by
  by_cases hap : ∃ event, e = .append event
  · obtain ⟨event, rfl⟩ := hap
    obtain ⟨_, hnew, store, hstr, rfl⟩ := of_step hs
    by_cases hsf : event.taskId = taskId
    · subst hsf
      refine .inr ⟨_, listByTask_append hstr hnew, fun x hx => ?_⟩
      exact hnew x (mem_insertionSort _ |>.mp hx)
    · exact .inl (listByTask_of_ne hstr hsf)
  · rw [store_step hs fun event heq => hap ⟨event, heq⟩]
    exact .inl rfl

theorem calls_step (hs : s.step options e = some s') {d : Drain τ}
    (hd : (s'.streams taskId).drain = some d) (hcs : d.Calls id) :
    (s.streams taskId).drain = some d ∨
      (s.streams taskId).subscribers[id]?.any Subscriber.attached = true := by
  have hflu : ∀ t, ((s.called t (s.streams t).flush).streams taskId).drain = some d →
      (s.streams taskId).drain = some d := by
    intro t hd
    change ((s.put t (s.streams t).flush).streams taskId).drain = some d at hd
    by_cases hsf : t = taskId
    · subst hsf
      rw [streams_put] at hd
      rcases TaskStream.flush_cases (s.streams t) with hsf | ⟨_, hnot⟩ | ⟨_, hstd⟩
      · rwa [hsf] at hd
      · rwa [hnot] at hd
      · rw [hstd] at hd
        cases hd
        obtain ⟨event, page, hpt⟩ := hcs
        cases hpt
    · rwa [streams_of_ne hsf] at hd
  have hput : ∀ t stream, stream.drain = (s.streams t).drain →
      ((s.put t stream).streams taskId).drain = some d → (s.streams taskId).drain = some d := by
    intro t stream hsm hd
    by_cases hsf : t = taskId
    · subst hsf
      rwa [streams_put, hsm] at hd
    · rwa [streams_of_ne hsf] at hd
  cases e with
  | subscribe t lastEventId =>
    obtain ⟨_, rfl⟩ := of_step hs
    exact .inl (hput t ((s.streams t).subscribe lastEventId) rfl hd)
  | unsubscribe t =>
    obtain ⟨_, rfl⟩ := of_step hs
    exact .inl (hput t _ (TaskStream.drain_unsubscribe _ _) hd)
  | append event =>
    obtain ⟨_, _, store, _, rfl⟩ := of_step hs
    exact .inl (hput event.taskId { s.streams event.taskId with unannounced := true } rfl hd)
  | notify t =>
    obtain ⟨_, rfl | rfl⟩ := of_step hs
    · exact .inl hd
    · exact .inl (hflu t hd)
  | flush t =>
    obtain ⟨_, rfl⟩ := of_step hs
    exact .inl (hflu t hd)
  | run =>
    obtain ⟨t, rest, d₁, hstk, hd₁, stream, rfl, rfl⟩ := of_step hs
    change ((s.put t _).streams taskId).drain = some d at hd
    by_cases hsf : t = taskId
    · subst hsf
      rw [streams_put] at hd
      exact .inr (TaskStream.attached_of_goOn hd hcs)
    · rw [streams_of_ne hsf] at hd
      exact .inl hd

end TaskStreamHub

end AiNet.Streaming
