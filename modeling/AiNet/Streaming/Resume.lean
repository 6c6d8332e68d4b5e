import AiNet.Streaming.Connections
import Mathlib.Algebra.Group.Nat.Defs

/-!
# A client that resumes

What has arrived at a client over all its requests. While it reads one request, what has arrived ends with
what it has read of it; the next request starts after the last event that has arrived. So every stored event
up to there has arrived, or one of its requests dropped it. An event that was dropped does not come again
once a later one has arrived, and a request that dropped the terminal event does not end.
-/

namespace AiNet.Streaming

open Core AiNet.Events List Option TaskStreamHub System

variable {τ : Type} [DecidableEq τ]

/-- Where the first request starts. -/
def Client.start (c : Client τ) : Int := ((parseResumeCursor none c.query).map Int.ofNat).getD earliestCursor

/-- The number of the last event that has arrived. -/
def Client.last (c : Client τ) : Int :=
  (c.received.getLast?.map fun r => (r.taskSeq : Int)).getD c.start

/-- How far a request was read. -/
def Connection.position (c : Connection τ) (arrived : Nat) : Int :=
  ((c.written.take arrived).getLast?.map fun r => (r.taskSeq : Int)).getD c.start

variable {hubOptions : TaskStreamHubOptions} {options : TaskEventsSseOptions}
  {history history' : List (EventRow τ)} {event : EventRow τ} {connection connection' : Connection τ}
  {arrived : Nat} {cursor : Int}

/-! ## Reading a request -/

section

omit [DecidableEq τ]

theorem le_last {l : List (EventRow τ)} (h : Ordered l) {r x : EventRow τ} (hr : r ∈ l)
    (hx : l.getLast? = some x) : r.taskSeq ≤ x.taskSeq := by
  obtain ⟨before, rfl⟩ := List.getLast?_eq_some_iff.mp hx
  unfold Ordered at h
  rcases mem_append.mp hr with hbf | hsf
  · exact ((pairwise_append.mp h).2.2 r hbf x mem_cons_self).le
  · rw [mem_singleton.mp hsf]

theorem position_succ (h : connection.written[arrived]? = some event) :
    connection.position (arrived + 1) = event.taskSeq := by
  unfold Connection.position
  rw [take_add_one, h, toList_some, List.getLast?_concat]
  rfl

theorem take_extends (h : Extends connection connection') (hle : arrived ≤ connection.written.length) :
    connection'.written.take arrived = connection.written.take arrived := by
  obtain ⟨more, hmo⟩ := h.written
  rw [← hmo, take_append_of_le_length hle]

end

variable {r : EventRow τ}

section

omit [DecidableEq τ]

theorem mem_upTo {start last : Int} :
    r ∈ upTo history start last ↔ r ∈ history ∧ start < (r.taskSeq : Int) ∧ (r.taskSeq : Int) ≤ last := by
  unfold upTo
  rw [mem_filter, Bool.and_eq_true, decide_eq_true_eq, decide_eq_true_eq]

/-- **The next message that was written is the next event that was not dropped.** -/
theorem next_written (h : Served options history connection cursor) (hord : Ordered history)
    (hnx : connection.written[arrived]? = some event) :
    connection.position arrived < (event.taskSeq : Int) ∧
      ∀ r ∈ connection.written, connection.position arrived < (r.taskSeq : Int) →
        r.taskSeq ≤ event.taskSeq → r = event := by
  have hwrt : Ordered connection.written := (hord.filter _).sublist h.written
  obtain ⟨hlt, hget⟩ := List.getElem?_eq_some_iff.mp hnx
  have hspl : connection.written = connection.written.take arrived ++
      event :: connection.written.drop (arrived + 1) := by
    conv_lhs => rw [← take_append_drop arrived connection.written]
    rw [drop_eq_getElem_cons hlt, hget]
  have hmem : event ∈ connection.written := mem_of_getElem? hnx
  have hpi := hwrt
  unfold Ordered at hpi
  rw [hspl, pairwise_append, pairwise_cons] at hpi
  obtain ⟨hta, ⟨hbe, _⟩, hcrs⟩ := hpi
  have hrd : ∀ r ∈ connection.written.take arrived, (r.taskSeq : Int) ≤ connection.position arrived := by
    intro r hr
    unfold Connection.position
    cases hla : (connection.written.take arrived).getLast? with
    | none =>
      rw [List.getLast?_eq_none_iff.mp hla] at hr
      cases hr
    | some =>
      have hle := le_last hta hr hla
      simpa using hle
  constructor
  · unfold Connection.position
    cases hla : (connection.written.take arrived).getLast? with
    | none =>
      have hsta := (mem_upTo.mp (h.written.subset hmem)).2.1
      simpa using hsta
    | some x =>
      have hlt := hcrs x (mem_of_getLast? hla) event mem_cons_self
      simpa using hlt
  · intro r hr haf hle
    rw [hspl] at hr
    rcases mem_append.mp hr with hbf | hsf
    · have hle := hrd r hbf
      omega
    · rcases mem_cons.mp hsf with rfl | hrst
      · rfl
      · have hlt := hbe r hrst
        omega

end

/-! ## The next request -/

omit [DecidableEq τ] in
/-- **A request resumes after the last event that has arrived.** -/
theorem cursor_eq (c : Client τ) (h : ∀ r ∈ c.received, r.taskSeq ≤ 2 ^ 53) :
    (c.cursor.map Int.ofNat).getD earliestCursor = c.last := by
  unfold Client.cursor Client.lastEventId Client.last
  cases hla : c.received.getLast? with
  | none => rfl
  | some r =>
    have hdgs : (wireId r).toList = Nat.toDigits 10 r.taskSeq := Nat.toList_repr
    have htr : trim (wireId r).toList ≠ [] := by
      rw [hdgs, trim_digits fun c hc => Nat.isDigit_of_mem_toDigits (by decide) (by decide) hc]
      exact Nat.toDigits_ne_nil
    have hpar : parseResumeCursor (some (.one (wireId r))) c.query = some r.taskSeq := by
      unfold parseResumeCursor
      rw [bind_some]
      unfold Header.first
      rw [some_or]
      dsimp only
      rw [if_neg htr]
      exact wholeNumber_toString (h r (mem_of_getLast? hla))
    rw [map_some, map_some, hpar]
    rfl

/-! ## All requests of a client -/

omit [DecidableEq τ] in
theorem upTo_split (h : Ordered history) {start mid last : Int} (hsta : start ≤ mid) (hla : mid ≤ last) :
    upTo history start last = upTo history start mid ++ upTo history mid last := by
  refine eq_of_strict EventRow.taskSeq ?_ (h.filter _) ?_
  · refine (perm_ext_iff_of_nodup (h.nodup.filter _) ?_).mpr fun r => ?_
    · refine List.Nodup.append (h.nodup.filter _) (h.nodup.filter _) fun r hr hr' => ?_
      have hle := (mem_upTo.mp hr).2.2
      have hgt := (mem_upTo.mp hr').2.1
      omega
    · change r ∈ upTo history start last ↔ _
      rw [mem_append, mem_upTo, mem_upTo, mem_upTo]
      constructor
      · intro ⟨hr, hgt, hle⟩
        rcases Int.lt_or_le mid r.taskSeq with haf | hbf
        · exact .inr ⟨hr, haf, hle⟩
        · exact .inl ⟨hr, hgt, hbf⟩
      · intro hr
        rcases hr with ⟨hr, hgt, hle⟩ | ⟨hr, hgt, hle⟩
        · exact ⟨hr, hgt, by omega⟩
        · exact ⟨hr, by omega, hle⟩
  · rw [pairwise_append]
    refine ⟨h.filter _, h.filter _, fun r hr r' hr' => ?_⟩
    have hle := (mem_upTo.mp hr).2.2
    have hgt := (mem_upTo.mp hr').2.1
    omega

def Dropped (connections : List (Connection τ)) (number : Nat) (r : EventRow τ) : Prop :=
  ∃ connection ∈ connections, connection.client = number ∧ r ∈ connection.dropped.map Prod.fst

omit [DecidableEq τ] in
theorem Dropped.continues {connections connections' : List (Connection τ)} {number : Nat}
    (h : Dropped connections number r) (hco : Continues connections connections') :
    Dropped connections' number r := by
  obtain ⟨connection, hmem, hclt, hr⟩ := h
  obtain ⟨k, hk⟩ := mem_iff_getElem?.mp hmem
  obtain ⟨connection', hk', hext⟩ := hco k connection hk
  refine ⟨connection', mem_of_getElem? hk', hext.client.trans hclt, ?_⟩
  exact (hext.dropped.map _).subset hr

namespace SseServer

variable {s s' : SseServer τ} {number : Nat} {c : Client τ}

/-- The request that a client reads. -/
structure Reads (s : SseServer τ) (number : Nat) (c : Client τ) (connection : Connection τ) : Prop where
  client : connection.client = number
  taskId : connection.taskId = c.taskId
  arrived : c.arrived ≤ connection.written.length
  start : c.start ≤ connection.start
  last : c.last = connection.position c.arrived
  suffix : connection.written.take c.arrived <:+ c.received

/-- What every step keeps of a client. -/
structure Follows (s : SseServer τ) (number : Nat) (c : Client τ) : Prop where
  inOrder : c.received.Sublist (upTo (s.hub.store.listByTask c.taskId) c.start c.last)
  missing : ∀ r ∈ upTo (s.hub.store.listByTask c.taskId) c.start c.last,
    r ∈ c.received ∨ Dropped s.connections number r
  reads : ∀ k, c.connection = some k → ∃ connection, s.connections[k]? = some connection ∧
    Reads s number c connection

theorem Follows.last (h : Follows s number c) :
    c.last = c.start ∨ ∃ r ∈ s.hub.store.listByTask c.taskId, (r.taskSeq : Int) = c.last := by
  cases hla : c.received.getLast? with
  | none =>
    refine .inl ?_
    unfold Client.last
    rw [hla]
    rfl
  | some r =>
    have hmem := h.inOrder.subset (mem_of_getLast? hla)
    refine .inr ⟨r, (mem_upTo.mp hmem).1, ?_⟩
    unfold Client.last
    rw [hla]
    rfl

theorem Follows.start_le (h : Follows s number c) : c.start ≤ c.last := by
  cases hla : c.received.getLast? with
  | none =>
    unfold Client.last
    rw [hla]
    exact le_refl _
  | some =>
    have hmem := h.inOrder.subset (mem_of_getLast? hla)
    have hlt := (mem_upTo.mp hmem).2
    omega

theorem Follows.carry (h : Follows s number c) (haf : Serving.After hubOptions options s s') :
    Follows s' number c := by
  have hsm := upTo_grown (haf.grown c.taskId) h.last
  refine ⟨?_, fun r hr => ?_, fun k hk => ?_⟩
  · rw [hsm]
    exact h.inOrder
  · rw [hsm] at hr
    rcases h.missing r hr with hrcv | hdrp
    · exact .inl hrcv
    · exact .inr (hdrp.continues haf.continues)
  · obtain ⟨connection, hget, hrds⟩ := h.reads k hk
    obtain ⟨connection', hget', hext⟩ := haf.continues k connection hget
    have hta := take_extends hext hrds.arrived
    refine ⟨connection', hget', hext.client.trans hrds.client, ?_, ?_, ?_, ?_, ?_⟩
    · exact (congrArg Prod.fst hext.key).trans hrds.taskId
    · exact hrds.arrived.trans hext.written.length_le
    · rw [hext.start]
      exact hrds.start
    · rw [hrds.last]
      unfold Connection.position
      rw [hta, hext.start]
    · rw [hta]
      exact hrds.suffix

/-- **The next message arrives.** -/
theorem Follows.receive (h : Follows s number c) (hse : s.Serving hubOptions options)
    (hco : (c.connection.bind fun i => s.connections[i]?) = some connection)
    (hnx : connection.written[c.arrived]? = some event) :
    Follows s number { c with arrived := c.arrived + 1, received := c.received ++ [event] } := by
  obtain ⟨k, hk, hget⟩ := bind_eq_some_iff.mp hco
  obtain ⟨connection', hget', hrds⟩ := h.reads k hk
  cases hget.symm.trans hget'
  obtain ⟨cursor, _, hsrv⟩ := (hse.serves connection (mem_of_getElem? hget)).stands
  rw [hrds.taskId] at hsrv
  have hord := ordered_listByTask s.hub.store c.taskId
  obtain ⟨hlt, hon⟩ := next_written hsrv hord hnx
  rw [← hrds.last] at hlt hon
  have hla : ({ c with arrived := c.arrived + 1, received := c.received ++ [event] } : Client τ).last =
      event.taskSeq := by
    unfold Client.last
    dsimp only
    rw [List.getLast?_concat]
    rfl
  have hev := mem_upTo.mp (hsrv.written.subset (mem_of_getElem? hnx))
  have hsta := h.start_le
  have hct : connection.start ≤ c.last := by
    rw [hrds.last]
    unfold Connection.position
    cases htop : (connection.written.take c.arrived).getLast? with
    | none => exact le_refl _
    | some =>
      have hmem := hsrv.written.subset (mem_of_mem_take (mem_of_getLast? htop))
      exact (mem_upTo.mp hmem).2.1.le
  have hspl := upTo_split hord hsta hlt.le
  refine ⟨?_, ?_, ?_⟩
  · rw [hla]
    change (c.received ++ [event]).Sublist (upTo _ c.start _)
    rw [hspl]
    refine h.inOrder.append (singleton_sublist.mpr ?_)
    exact mem_upTo.mpr ⟨hev.1, hlt, le_refl _⟩
  · intro r hr
    rw [hla] at hr
    change r ∈ upTo _ c.start _ at hr
    rw [hspl, mem_append] at hr
    rcases hr with hold | hnew
    · rcases h.missing r hold with hrcv | hdrp
      · exact .inl (mem_append_left _ hrcv)
      · exact .inr hdrp
    · -- the request was called with it
      obtain ⟨hr, hgt, hle⟩ := mem_upTo.mp hnew
      have hcd : r ∈ upTo (s.hub.store.listByTask c.taskId) connection.start cursor :=
        mem_upTo.mpr ⟨hr, hct.trans_lt hgt, hle.trans hev.2.2⟩
      rcases hsrv.handled r hcd with hwrt | hdrp
      · obtain rfl := hon r hwrt hgt (by exact_mod_cast hle)
        exact .inl (mem_append_right _ mem_cons_self)
      · exact .inr ⟨connection, mem_of_getElem? hget, hrds.client, hdrp⟩
  · intro k' hk'
    cases hk.symm.trans hk'
    obtain ⟨hbd, hval⟩ := List.getElem?_eq_some_iff.mp hnx
    refine ⟨connection, hget, hrds.client, hrds.taskId, hbd, hrds.start, ?_, ?_⟩
    · rw [hla]
      exact (position_succ hnx).symm
    · dsimp only
      rw [take_add_one, hnx, toList_some]
      obtain ⟨earlier, hear⟩ := hrds.suffix
      exact ⟨earlier, by rw [← hear, append_assoc]⟩

theorem follows_join (s : SseServer τ) (number : Nat) (taskId : τ) (query : Option String) :
    Follows s number ⟨taskId, query, none, 0, []⟩ := by
  have hla : (⟨taskId, query, none, 0, []⟩ : Client τ).last =
      (⟨taskId, query, none, 0, []⟩ : Client τ).start := rfl
  refine ⟨nil_sublist _, fun r hr => ?_, fun k hk => (by cases hk)⟩
  rw [hla, upTo_self] at hr
  cases hr

/-- **The next request** of a client. -/
theorem Follows.attach (h : Follows s number c) (hse : s.Serving hubOptions options)
    (hil : s.hub.stack = []) {clientIp : String} {now : Nat}
    (hs : s.attach hubOptions number c clientIp now = some s') :
    Follows s' number { c with connection := some s.connections.length, arrived := 0 } ∧
      s'.clients = s.clients.modify number fun c =>
        { c with connection := some s.connections.length, arrived := 0 } := by
  have haf := hse.attach hil hs
  have hca := h.carry haf
  have hctd : ∀ r ∈ c.received, r.taskSeq ≤ 2 ^ 53 := by
    intro r hr
    have hsto := mem_listByTask.mp (mem_upTo.mp (h.inOrder.subset hr)).1
    exact hse.counted r hsto.1
  have hcur := cursor_eq c hctd
  unfold SseServer.attach at hs
  obtain ⟨hub₁, _, hs⟩ := bind_eq_some_iff.mp hs
  obtain ⟨hub₂, _, rfl⟩ := map_eq_some_iff.mp hs
  refine ⟨⟨hca.inOrder, hca.missing, fun k hk => ?_⟩, rfl⟩
  cases hk
  refine ⟨_, List.getElem?_concat_length, rfl, rfl, Nat.le_refl _, ?_, ?_, nil_suffix⟩
  · dsimp only
    rw [hcur]
    exact h.start_le
  · exact hcur.symm

/-- What every step keeps. -/
structure Sound (hubOptions : TaskStreamHubOptions) (options : TaskEventsSseOptions) (s : SseServer τ) :
    Prop where
  serving : s.Serving hubOptions options
  follows : ∀ number c, s.clients[number]? = some c → Follows s number c

theorem sound_start (h : (system hubOptions options).start s) : s.Sound hubOptions options := by
  refine ⟨serving_start h, fun number c hc => ?_⟩
  rw [h.2.2.2.1] at hc
  cases hc

theorem Sound.idle (h : s.Sound hubOptions options) (haf : Serving.After hubOptions options s s')
    (hcts : s'.clients = s.clients) : s'.Sound hubOptions options := by
  refine ⟨haf.serving, fun number c hc => ?_⟩
  rw [hcts] at hc
  exact (h.follows number c hc).carry haf

/-- **One client changes.** -/
theorem Sound.modify (h : s.Sound hubOptions options) (haf : Serving.After hubOptions options s s')
    {f : Client τ → Client τ} (hc : s.clients[number]? = some c)
    (hcts : s'.clients = s.clients.modify number f) (hsf : Follows s' number (f c)) :
    s'.Sound hubOptions options := by
  refine ⟨haf.serving, fun number' c' hc' => ?_⟩
  rw [hcts] at hc'
  obtain ⟨c₁, hc₁, rfl⟩ := get_modify hc'
  split
  · rename_i hsm
    subst hsm
    cases hc.symm.trans hc₁
    exact hsf
  · exact (h.follows number' c₁ hc₁).carry haf

theorem clients_finish {i : Nat} {s' : SseServer τ} (hs : s.finish hubOptions i = some s') :
    s'.clients = s.clients := by
  unfold finish at hs
  obtain ⟨s₁, hs₁, rfl⟩ := map_eq_some_iff.mp hs
  obtain ⟨c, _, ⟨_, rfl⟩ | ⟨_, _, _, hcts⟩⟩ := of_cleanup hs₁
  · rfl
  · exact hcts

theorem sound_step (h : s.Sound hubOptions options) {e : SseEvent τ}
    (hs : s.step hubOptions options e = some s') : s'.Sound hubOptions options := by
  have haf := h.serving.step hs
  cases e with
  | join taskId query =>
    cases hs
    refine ⟨haf.serving, fun number c hc => ?_⟩
    rcases Nat.lt_or_ge number s.clients.length with hlt | hge
    · have hc' : (s.clients ++ [⟨taskId, query, none, 0, []⟩])[number]? = some c := hc
      rw [List.getElem?_append_left hlt] at hc'
      exact (h.follows number c hc').carry haf
    · have hc' : (s.clients ++ [⟨taskId, query, none, 0, []⟩])[number]? = some c := hc
      rw [List.getElem?_append_right hge] at hc'
      rw [mem_singleton.mp (mem_of_getElem? hc')]
      exact follows_join _ number taskId query
  | connect client =>
    obtain ⟨hil, hs⟩ := ite_none_right_eq_some.mp hs
    obtain ⟨c, hc, hs⟩ := bind_eq_some_iff.mp hs
    split at hs
    · cases hs
      exact h
    · obtain ⟨hsf, hcts⟩ := (h.follows client c hc).attach h.serving hil hs
      exact h.modify haf hc hcts hsf
  | deliver =>
    obtain ⟨_, _, _, _, _, _, _, _, _, _, _, _, hcts⟩ := of_deliver h.serving hs
    exact h.idle haf hcts
  | heartbeat =>
    obtain ⟨_, hs⟩ := ite_none_right_eq_some.mp hs
    obtain ⟨c, _, hs⟩ := bind_eq_some_iff.mp hs
    refine h.idle haf ?_
    split at hs
    · cases hs
      rfl
    · split at hs
      · have hcts := clients_finish hs
        exact hcts
      · split at hs
        · cases hs
          rfl
        · cases hs
          rfl
  | drained =>
    obtain ⟨_, hs⟩ := ite_none_right_eq_some.mp hs
    cases hs
    exact h.idle haf rfl
  | close =>
    obtain ⟨_, hs⟩ := ite_none_right_eq_some.mp hs
    obtain ⟨c, _, ⟨_, rfl⟩ | ⟨_, _, _, hcts⟩⟩ := of_cleanup hs
    · exact h
    · exact h.idle haf hcts
  | receive client =>
    obtain ⟨c, hc, hs⟩ := bind_eq_some_iff.mp hs
    obtain ⟨connection, hco, hs⟩ := bind_eq_some_iff.mp hs
    obtain ⟨event, hnx, rfl⟩ := map_eq_some_iff.mp hs
    refine h.modify haf hc rfl ?_
    obtain ⟨hir, hmis, hrds⟩ := (h.follows client c hc).receive h.serving hco hnx
    refine ⟨hir, hmis, fun k hk => ?_⟩
    obtain ⟨connection', hget, hclt, htk, har, hsta, hla, hsfx⟩ := hrds k hk
    exact ⟨connection', hget, hclt, htk, har, hsta, hla, hsfx⟩
  | hub =>
    obtain ⟨_, hs⟩ := ite_none_right_eq_some.mp hs
    obtain ⟨hub, _, rfl⟩ := map_eq_some_iff.mp hs
    exact h.idle haf rfl

theorem sound_of_reachable (h : (system hubOptions options).Reachable (fun _ _ => True) s) :
    s.Sound hubOptions options :=
  h.invariant (fun _ => sound_start) fun _ _ _ _ _ hI hs => sound_step hI hs

/-! ## Nothing is lost that was not dropped -/

/-- What has arrived are stored events after the first cursor, in order and none of them twice. One that is
left out was dropped by a request of the client, with the buffer above the mark; without a drop, none is.
When the flushes of the task are over, a request that dropped nothing, and that nobody else closed, has
ended if a terminal event is stored after its start, and a client that has read it has the terminal event
as the last. -/
structure Resumes (options : TaskEventsSseOptions) (s : SseServer τ) (number : Nat) (c : Client τ) :
    Prop where
  inOrder : c.received.Sublist (after (s.hub.store.listByTask c.taskId) c.start) ∧ Ordered c.received
  complete : ∀ r ∈ s.hub.store.listByTask c.taskId, c.start < (r.taskSeq : Int) → (r.taskSeq : Int) ≤ c.last →
    r ∈ c.received ∨ ∃ connection ∈ s.connections, connection.client = number ∧
      ∃ size, (r, size) ∈ connection.dropped ∧ options.highWaterMarkBytes < size
  exactly : (∀ connection ∈ s.connections, connection.client = number → connection.dropped = []) →
    c.received = upTo (s.hub.store.listByTask c.taskId) c.start c.last
  ends : ∀ k connection, c.connection = some k → s.connections[k]? = some connection →
    connection.dropped = [] → (connection.closed = true → connection.finished = true) →
    (s.hub.streams c.taskId).drain = none → (s.hub.streams c.taskId).unannounced = false →
    ∀ r ∈ s.hub.store.listByTask c.taskId, connection.start < (r.taskSeq : Int) → terminal r = true →
      connection.ended = true ∧ (c.arrived = connection.written.length →
        ∃ t, c.received.getLast? = some t ∧ terminal t = true ∧ t.taskSeq ≤ r.taskSeq)

theorem served_all (h : s.Serving hubOptions options) (hmem : connection ∈ s.connections)
    (hon : connection.closed = false) (hdrn : (s.hub.streams connection.taskId).drain = none)
    (hann : (s.hub.streams connection.taskId).unannounced = false) :
    ∃ cursor, Served options (s.hub.store.listByTask connection.taskId) connection cursor ∧
      ∀ r ∈ s.hub.store.listByTask connection.taskId, (r.taskSeq : Int) ≤ cursor := by
  obtain ⟨cursor, hsds, hsrv⟩ := (h.serves connection hmem).stands
  obtain ⟨sub, hsub, hstn⟩ := map_eq_some_iff.mp hsds
  have hatt : sub.attached = !connection.closed := congrArg Standing.attached hstn
  rw [hon] at hatt
  have hstl := (h.hub.delivered connection.taskId).settled hdrn hann sub
    (mem_of_getElem? hsub) hatt
  have hcur : sub.cursor = cursor := congrArg Standing.cursor hstn
  exact ⟨cursor, hsrv, fun r hr => hcur ▸ hstl r hr⟩

/-- **A request that dropped nothing ends with the first terminal event.** -/
theorem ends_of_served (h : s.Serving hubOptions options) (hmem : connection ∈ s.connections)
    (hdrp : connection.dropped = []) (hcld : connection.closed = true → connection.finished = true)
    (hdrn : (s.hub.streams connection.taskId).drain = none)
    (hann : (s.hub.streams connection.taskId).unannounced = false)
    (hr : r ∈ s.hub.store.listByTask connection.taskId) (hsta : connection.start < (r.taskSeq : Int))
    (htrm : terminal r = true) : connection.ended = true ∧
      ∃ t, connection.written.getLast? = some t ∧ terminal t = true ∧ t.taskSeq ≤ r.taskSeq := by
  have hwrt : ∀ {cursor : Int}, Served options (s.hub.store.listByTask connection.taskId) connection cursor →
      (r.taskSeq : Int) ≤ cursor → r ∈ connection.written := by
    intro cursor hsrv hle
    rcases hsrv.handled r (mem_upTo.mpr ⟨hr, hsta, hle⟩) with hwrt | hno
    · exact hwrt
    · rw [hdrp] at hno
      cases hno
  have hfin : connection.finished = true := by
    cases hon : connection.closed with
    | true => exact hcld hon
    | false =>
      obtain ⟨cursor, hsrv, hall⟩ := served_all h hmem hon hdrn hann
      exact (hsrv.last r (hwrt hsrv (hall r hr)) htrm).1
  obtain ⟨cursor, _, hsrv⟩ := (h.serves connection hmem).stands
  obtain ⟨_, hedd, t, hla, ht⟩ := hsrv.finished hfin
  refine ⟨hedd, t, hla, ht, ?_⟩
  by_contra hltr
  -- the terminal event before it was written, and was the last
  have htl := (mem_upTo.mp (hsrv.written.subset (mem_of_getLast? hla))).2.2
  have hbf := hsrv.last r (hwrt hsrv (by omega)) htrm
  cases hla.symm.trans hbf.2
  exact hltr (Nat.le_refl _)

theorem Sound.resumes (h : s.Sound hubOptions options) (hc : s.clients[number]? = some c) :
    s.Resumes options number c := by
  have hfo := h.follows number c hc
  have hord := ordered_listByTask s.hub.store c.taskId
  have hdrp : ∀ r, Dropped s.connections number r → ∃ connection ∈ s.connections,
      connection.client = number ∧ ∃ size, (r, size) ∈ connection.dropped ∧
        options.highWaterMarkBytes < size := by
    intro r ⟨connection, hmem, hclt, hr⟩
    obtain ⟨⟨r', size⟩, hent, rfl⟩ := List.mem_map.mp hr
    obtain ⟨_, _, hsrv⟩ := (h.serving.serves connection hmem).stands
    exact ⟨connection, hmem, hclt, size, hent, hsrv.dropped _ hent⟩
  refine ⟨⟨?_, (hord.filter _).sublist hfo.inOrder⟩, ?_, ?_, ?_⟩
  · exact hfo.inOrder.trans (upTo_isPrefix hord _ _).sublist
  · intro r hr hsta hla
    rcases hfo.missing r (mem_upTo.mpr ⟨hr, hsta, hla⟩) with hrcv | hno
    · exact .inl hrcv
    · exact .inr (hdrp r hno)
  · intro hne
    have hall : ∀ r ∈ upTo (s.hub.store.listByTask c.taskId) c.start c.last, r ∈ c.received := by
      intro r hr
      rcases hfo.missing r hr with hrcv | hno
      · exact hrcv
      · obtain ⟨connection, hmem, hclt, size, hent, _⟩ := hdrp r hno
        rw [hne connection hmem hclt] at hent
        cases hent
    have hpa := hord.nodup.filter fun r => decide (c.start < (r.taskSeq : Int)) &&
      decide ((r.taskSeq : Int) ≤ c.last)
    refine eq_of_strict EventRow.taskSeq ?_ ((hord.filter _).sublist hfo.inOrder) (hord.filter _)
    refine (perm_ext_iff_of_nodup (hpa.sublist hfo.inOrder) hpa).mpr fun r => ?_
    exact ⟨fun hr => hfo.inOrder.subset hr, hall r⟩
  · intro k connection hk hget hne hcld hdrn hann r hr hsta htrm
    obtain ⟨connection', hget', hrds⟩ := hfo.reads k hk
    cases hget.symm.trans hget'
    rw [← hrds.taskId] at hdrn hann hr
    obtain ⟨hedd, t, hla, ht, hle⟩ := ends_of_served h.serving (mem_of_getElem? hget) hne hcld
      hdrn hann hr hsta htrm
    refine ⟨hedd, fun hrd => ⟨t, ?_, ht, hle⟩⟩
    obtain ⟨earlier, hear⟩ := hrds.suffix
    rw [hrd, take_length] at hear
    rw [← hear, List.getLast?_append, hla]
    rfl

/-! ## The hub returns to the requests -/

theorem work_step (h : s.Sound hubOptions options) {e : SseEvent τ} (hre : e.returns = true)
    (hs : s.step hubOptions options e = some s') : s'.hub.work hubOptions < s.hub.work hubOptions := by
  cases e with
  | deliver =>
    obtain ⟨i, c, event, rest, d, page, _, _, _, _, ⟨hub₁, huns, hrun⟩, _, _⟩ := of_deliver h.serving hs
    split at huns
    · have hsnd := TaskStreamHub.sound_step (e := .unsubscribe c.taskId c.id) rfl h.serving.hub huns
      exact (work_run hsnd hrun).trans_le
        (work_unsubscribe h.serving.hub huns)
    · obtain rfl := huns
      exact work_run h.serving.hub hrun
  | hub event =>
    cases event with
    | run =>
      obtain ⟨_, hs⟩ := ite_none_right_eq_some.mp hs
      obtain ⟨hub, hrun, rfl⟩ := map_eq_some_iff.mp hs
      exact work_run h.serving.hub hrun
    | subscribe | unsubscribe | append | notify | flush => cases hre
  | join | connect | heartbeat | drained | close | receive => cases hre

/-- **The flushes end**, if clients return. -/
theorem server_returns (run : (system hubOptions options).Endless fun (_ : SseServer τ) _ => True)
    (start : Nat) : ¬∀ k, start ≤ k → (run.event k).returns = true := by
  intro hre
  have hlow : ∀ k, start ≤ k →
      (run.state (k + 1)).hub.work hubOptions < (run.state k).hub.work hubOptions := fun k hk =>
    work_step (sound_of_reachable (run.reachable k)) (hre k hk) (run.next k).2
  obtain ⟨last, hla⟩ := falls_finitely_often (fun k => (run.state k).hub.work hubOptions)
    fun k hk => (hlow k hk).le
  exact hla (max start last) (by omega) (hlow (max start last) (by omega))

theorem exists_finish {i : Nat} (hget : s.connections[i]? = some connection)
    (hosd : s.hub.outside = true) : ∃ s', s.finish hubOptions i = some s' ∧ (s'.hub = s.hub ∨
        s.hub.step hubOptions (.unsubscribe connection.taskId connection.id) = some s'.hub) := by
  unfold finish cleanup
  rw [hget, bind_some]
  split
  · exact ⟨_, rfl, .inl rfl⟩
  · have hst : s.hub.step hubOptions (.unsubscribe connection.taskId connection.id) =
        some (s.hub.put connection.taskId ((s.hub.streams connection.taskId).unsubscribe connection.id)) := by
      unfold TaskStreamHub.step
      exact if_pos hosd
    rw [hst]
    exact ⟨_, rfl, .inr rfl⟩

/-- **A client that is called can return.** -/
theorem Sound.can_return (h : s.Sound hubOptions options) (hstk : s.hub.stack ≠ []) :
    ∃ e : SseEvent τ, e.returns = true ∧ (s.step hubOptions options e).isSome = true := by
  have hrun : ∀ hub : TaskStreamHub τ, hub.Sound hubOptions → hub.stack = s.hub.stack →
      ∃ hub', hub.step hubOptions .run = some hub' := fun hub hsnd hsm =>
    isSome_iff_exists.mp (hsnd.can_run (hsm ▸ hstk))
  cases hcd : s.called with
  | none =>
    refine ⟨.hub .run, rfl, ?_⟩
    obtain ⟨hub, hrun⟩ := hrun s.hub h.serving.hub rfl
    unfold step
    rw [hcd]
    dsimp only
    rw [if_pos (by rfl), hrun]
    rfl
  | some called =>
    obtain ⟨i, event⟩ := called
    refine ⟨.deliver 0 true 0, rfl, ?_⟩
    obtain ⟨c, rest, d, page, hc, htop, hd, hpt⟩ := of_called hcd
    have hosd : s.hub.outside = true := by
      unfold outside
      rw [htop]
      obtain ⟨generation, pageRows, rowsRead, point⟩ := d
      dsimp only at hpt ⊢
      rw [hd, hpt]
    have hget : (s.setConnection i fun c => c.deliver options event 0 true 0).connections[i]? =
        some (c.deliver options event 0 true 0) := by
      unfold setConnection
      rw [List.getElem?_modify_eq, hc]
      rfl
    unfold step
    dsimp only
    rw [hcd, bind_some]
    dsimp only
    split
    · obtain ⟨s₁, hs₁, hhub⟩ := exists_finish hget hosd
      obtain ⟨hub, hrun⟩ : ∃ hub, s₁.hub.step hubOptions .run = some hub := by
        rcases hhub with hsm | huns
        · have hsf : s₁.hub = s.hub := hsm
          rw [hsf]
          exact hrun s.hub h.serving.hub rfl
        · have huns' : s.hub.step hubOptions _ = some s₁.hub := huns
          refine hrun s₁.hub (TaskStreamHub.sound_step (by rfl) h.serving.hub huns') ?_
          obtain ⟨_, hs₁⟩ := of_step huns'
          rw [hs₁]
          rfl
      rw [hs₁, bind_some, hrun]
      rfl
    · obtain ⟨hub, hrun⟩ := hrun s.hub h.serving.hub rfl
      have hsm : (s.setConnection i fun c => c.deliver options event 0 true 0).hub = s.hub := rfl
      rw [bind_some, hsm, hrun]
      rfl

/-- **A client that resumes misses only what was dropped**, and every flush ends. -/
theorem resume (hubOptions : TaskStreamHubOptions) (options : TaskEventsSseOptions) :
    (∀ s : SseServer τ, (system hubOptions options).Reachable (fun _ _ => True) s →
      (∀ number c, s.clients[number]? = some c → s.Resumes options number c) ∧
      (s.hub.stack ≠ [] → ∃ e : SseEvent τ, e.returns = true ∧
        ((system hubOptions options).step s e).isSome = true)) ∧
    ∀ (run : (system hubOptions options).Endless fun (_ : SseServer τ) _ => True) (start : Nat),
      ¬∀ k, start ≤ k → (run.event k).returns = true := by
  refine ⟨fun s hrch => ?_, server_returns⟩
  have hsnd := sound_of_reachable hrch
  exact ⟨fun number c hc => hsnd.resumes hc, hsnd.can_return⟩

/-! ## A task with three or four events -/

theorem ten_pos : 0 < 10 := Nat.succ_pos 9

def tenPerPage : TaskStreamHubOptions := ⟨10, ten_pos⟩

def smallBuffer : TaskEventsSseOptions := ⟨2, 10, 1000⟩

def nobody : SseServer Nat := ⟨nothing, fun _ => 0, [], []⟩

def admitted : SseRequest := ⟨true, some "G", some "G", "10.0.0.1"⟩

/-- The client comes, and nothing is stored. -/
def joined : List (SseEvent Nat) := [.join 0 none, .connect 0 admitted 0, .hub .run, .hub .run]

/-- An event is emitted while the buffer of the only open request has some size. -/
def emitted (type : String) (seq writableLength : Nat) : List (SseEvent Nat) :=
  [.hub (.append ⟨type, 0, none, 0, currentEventVersion, seq, none⟩), .hub (.notify 0), .hub .run, .hub .run,
    .deliver writableLength true 0, .hub .run, .hub .run, .hub .run]

/-- The client reads the first of two events, and the rest with its next request. -/
def resumed : List (SseEvent Nat) :=
  joined ++ emitted "NodeStarted" 0 0 ++ emitted "NodeStarted" 1 0 ++
    [.receive 0, .close 0, .connect 0 admitted 1, .hub .run, .hub .run, .deliver 0 true 1, .hub .run, .hub .run,
      .hub .run] ++ emitted "TaskCompleted" 2 0 ++ [.receive 0, .receive 0]

theorem resume_once :
    (∃ s : SseServer Nat, ∃ c, s.clients[0]? = some c ∧ s.Resumes smallBuffer 0 c ∧
      c.received.map EventRow.taskSeq = [0, 1, 2] ∧ s.connections.map Connection.ended = [false, true]) ∧
    ∃ run : (system tenPerPage smallBuffer).Endless fun (_ : SseServer Nat) _ => True,
      ¬∀ k, 0 ≤ k → (run.event k).returns = true := by
  have hsta : (system tenPerPage smallBuffer).start nobody := ⟨⟨rfl, rfl⟩, rfl, rfl, rfl, fun r hr => by cases hr⟩
  constructor
  · have hpl : (play (system tenPerPage smallBuffer) (fun _ _ => True) resumed nobody).any (fun s =>
        s.clients[0]?.any (fun c => decide (c.received.map EventRow.taskSeq = [0, 1, 2])) &&
          decide (s.connections.map Connection.ended = [false, true])) = true := by decide +kernel
    obtain ⟨s, hrch, hend⟩ := exists_reachable_of_play hsta hpl
    rw [Bool.and_eq_true, Option.any_eq_true, decide_eq_true_eq] at hend
    obtain ⟨⟨c, hc, hrcv⟩, hedd⟩ := hend
    exact ⟨s, c, hc, ((resume tenPerPage smallBuffer).1 s hrch).1 0 c hc, of_decide_eq_true hrcv, hedd⟩
  · exact ⟨⟨fun _ => nobody, fun _ => .drained 0 0, .init hsta, fun _ => ⟨trivial, rfl⟩⟩,
      (resume tenPerPage smallBuffer).2 _ 0⟩

/--
While the buffer is above the mark, the second event and the terminal one are dropped. The client reads all
that is written, so it goes on after the third event and does not get the second; and its request stays
open, although the task has completed and the hub is idle.
-/
theorem dropped_for_good : ∃ s : SseServer Nat,
    (system tenPerPage smallBuffer).Reachable (fun _ _ => True) s ∧
    s.clients.map (fun c => c.received.map EventRow.taskSeq) = [[0, 2]] ∧
    s.clients.map (fun c => c.cursor) = [some 2] ∧
    (s.hub.store.listByTask 0).map EventRow.taskSeq = [0, 1, 2, 3] ∧
    (s.hub.store.listByTask 0).map terminal = [false, false, false, true] ∧
    (s.hub.streams 0).drain = none ∧ (s.hub.streams 0).unannounced = false ∧
    s.connections.map (fun c => (c.closed, c.ended, c.written.map EventRow.taskSeq)) = [(false, false, [0, 2])] := by
  have hpl : (play (system tenPerPage smallBuffer) (fun _ _ => True)
      (joined ++ emitted "NodeStarted" 0 0 ++ emitted "NodeStarted" 1 11 ++ emitted "NodeStarted" 2 0 ++
        [.receive 0, .receive 0] ++ emitted "TaskCompleted" 3 11) nobody).any (fun s => decide (
      s.clients.map (fun c => c.received.map EventRow.taskSeq) = [[0, 2]] ∧
      s.clients.map (fun c => c.cursor) = [some 2] ∧
      (s.hub.store.listByTask 0).map EventRow.taskSeq = [0, 1, 2, 3] ∧
      (s.hub.store.listByTask 0).map terminal = [false, false, false, true] ∧
      (s.hub.streams 0).drain = none ∧ (s.hub.streams 0).unannounced = false ∧
      s.connections.map (fun c => (c.closed, c.ended, c.written.map EventRow.taskSeq)) =
        [(false, false, [0, 2])])) = true := by decide +kernel
  have hsta : (system tenPerPage smallBuffer).start nobody := ⟨⟨rfl, rfl⟩, rfl, rfl, rfl, fun r hr => by cases hr⟩
  exact exists_reachable hsta hpl

end SseServer

end AiNet.Streaming
