import AiNet.Streaming.TaskStreamHub

/-!
# What the clients of one task have received

The stored events of a task, in order of their numbers, are its history. A drain has handed out the
history up to some event: every client that is attached is past what comes before the page, and the
clients that were looked at are past the first event of the page. So a client that is handed an event
has had all events before it, and what it received is its part of the history up to its cursor.

The stack of flushes plays no part here. What every step keeps for one task is `Delivered`.
-/

namespace AiNet.Streaming

open Core AiNet.Events List Option TaskStream

variable {τ : Type} [DecidableEq τ]

/-! ## Parts of a history -/

/-- The events after a resume cursor. -/
def after (history : List (EventRow τ)) (start : Int) : List (EventRow τ) :=
  history.filter fun r => decide (start < (r.taskSeq : Int))

def upTo (history : List (EventRow τ)) (start last : Int) : List (EventRow τ) :=
  history.filter fun r => decide (start < (r.taskSeq : Int)) && decide ((r.taskSeq : Int) ≤ last)

/-- The numbers go up. -/
def Ordered (history : List (EventRow τ)) : Prop := history.Pairwise fun r r' => r.taskSeq < r'.taskSeq

variable {history before behind page : List (EventRow τ)} {start last : Int} {r event : EventRow τ}

section

omit [DecidableEq τ]

theorem Ordered.nodup (h : Ordered history) : history.Nodup := h.imp fun hlt heq => by
  rw [heq] at hlt
  exact absurd hlt (Nat.lt_irrefl _)

theorem upTo_self (history : List (EventRow τ)) (start : Int) : upTo history start start = [] := by
  unfold upTo
  rw [filter_eq_nil_iff]
  intro r _
  simp

theorem upTo_snoc (h : start < (r.taskSeq : Int) → last < (r.taskSeq : Int)) :
    upTo (history ++ [r]) start last = upTo history start last := by
  unfold upTo
  rw [filter_append, append_right_eq_self, filter_eq_nil_iff]
  intro x hx
  rw [mem_singleton.mp hx]
  simp only [Bool.and_eq_true, decide_eq_true_eq, not_and, not_le]
  exact h

/-- **The next event extends the part by itself.** -/
theorem upTo_next (hord : Ordered (before ++ event :: behind))
    (hbf : ∀ r ∈ before, (r.taskSeq : Int) ≤ last) (hla : last < (event.taskSeq : Int))
    (hsta : start < (event.taskSeq : Int)) :
    upTo (before ++ event :: behind) start event.taskSeq =
      upTo (before ++ event :: behind) start last ++ [event] := by
  unfold Ordered at hord
  rw [pairwise_append, pairwise_cons] at hord
  obtain ⟨_, ⟨hbe, _⟩, hcrs⟩ := hord
  have hlow : ∀ r ∈ before, r.taskSeq < event.taskSeq := fun r hr => hcrs r hr event mem_cons_self
  have hno : ∀ limit : Int, limit ≤ event.taskSeq → behind.filter
      (fun r => decide (start < (r.taskSeq : Int)) && decide ((r.taskSeq : Int) ≤ limit)) = [] := by
    intro limit hlim
    rw [filter_eq_nil_iff]
    intro r hr
    have hlt := hbe r hr
    simp only [Bool.and_eq_true, decide_eq_true_eq, not_and, not_le]
    omega
  unfold upTo
  rw [filter_append, filter_append, filter_cons_of_pos (by simpa using hsta),
    filter_cons_of_neg (by simp [hla]), hno _ le_rfl, hno _ hla.le, append_nil]
  congr 1
  refine filter_congr fun r hr => ?_
  have h1 := hlow r hr
  have h2 := hbf r hr
  simp [h2, h1.le]

theorem upTo_of_le (h : ∀ r ∈ history, (r.taskSeq : Int) ≤ last) :
    upTo history start last = after history start := by
  unfold upTo after
  refine filter_congr fun r hr => ?_
  simp [h r hr]

/-- **A part is what comes first.** -/
theorem upTo_isPrefix (hord : Ordered history) (start last : Int) :
    upTo history start last <+: after history start := by
  unfold upTo after
  induction history with
  | nil => exact prefix_rfl
  | cons r rest ih =>
    have hrst : Ordered rest := hord.of_cons
    by_cases hsta : start < (r.taskSeq : Int)
    · rw [filter_cons_of_pos (p := fun r : EventRow τ => decide (start < (r.taskSeq : Int))) (by simpa using hsta)]
      by_cases hla : (r.taskSeq : Int) ≤ last
      · rw [filter_cons_of_pos (by simp [hsta, hla])]
        exact prefix_cons_inj r |>.mpr (ih hrst)
      · -- the events behind it are later
        have hno : (r :: rest).filter (fun r => decide (start < (r.taskSeq : Int)) &&
            decide ((r.taskSeq : Int) ≤ last)) = [] := by
          rw [filter_eq_nil_iff]
          intro x hx
          have hle : r.taskSeq ≤ x.taskSeq := by
            rcases mem_cons.mp hx with rfl | hmem
            · exact Nat.le_refl _
            · exact (rel_of_pairwise_cons hord hmem).le
          simp only [Bool.and_eq_true, decide_eq_true_eq, not_and, not_le]
          omega
        rw [hno]
        exact nil_prefix
    · rw [filter_cons_of_neg (p := fun r : EventRow τ => decide (start < (r.taskSeq : Int))) (by simpa using hsta),
        filter_cons_of_neg (by simp [hsta])]
      exact ih hrst

end

/-! ## Drains -/

def Drain.rest (d : Drain τ) : List (EventRow τ) :=
  match d.point with
  | .visit page _ => page
  | .calling event page _ => event :: page
  | _ => []

/-- The client that is looked at next, or called. -/
def Drain.next (d : Drain τ) : Nat :=
  match d.point with
  | .visit _ next => next
  | .calling _ _ id => id
  | _ => 0

/-- The client is being called. -/
def Drain.Calls (d : Drain τ) (id : Nat) : Prop := ∃ event page, d.point = .calling event page id

/-- The page of a drain in the history. -/
structure Placed (pageSize : Nat) (history : List (EventRow τ)) (s : TaskStream τ) (d : Drain τ)
    (before behind : List (EventRow τ)) : Prop where
  split : history = before ++ d.rest ++ behind
  caughtUp : ∀ sub ∈ s.subscribers, sub.attached = true → ∀ r ∈ before, (r.taskSeq : Int) ≤ sub.cursor
  visited : ∀ event page, d.rest = event :: page → ∀ (id : Nat) (sub : Subscriber τ),
    s.subscribers[id]? = some sub → id < d.next → sub.attached = true → (event.taskSeq : Int) ≤ sub.cursor
  short : d.pageRows < pageSize → (∃ sub ∈ s.subscribers, sub.attached = true) →
    behind = [] ∨ s.unannounced = true ∨ s.reentrant = true

/-- A drain of a task. -/
structure Draining (pageSize : Nat) (history : List (EventRow τ)) (s : TaskStream τ) (d : Drain τ) :
    Prop where
  map : ∀ sub ∈ s.subscribers, sub.attached = true → sub.generation = d.generation
  called : ∀ event page id, d.point = .calling event page id → ∃ sub, s.subscribers[id]? = some sub ∧
    sub.cursor < (event.taskSeq : Int) ∧ sub.received = upTo history sub.start event.taskSeq
  placed : d.point = .read ∨ ∃ before behind, Placed pageSize history s d before behind

/-- What every step keeps for a task. -/
structure Delivered (pageSize : Nat) (history : List (EventRow τ)) (s : TaskStream τ) : Prop where
  rested : ∀ (id : Nat) (sub : Subscriber τ), s.subscribers[id]? = some sub →
    (∀ d, s.drain = some d → ¬d.Calls id) → sub.received = upTo history sub.start sub.cursor
  started : ∀ sub ∈ s.subscribers, sub.cursor = sub.start ∨
    sub.start < sub.cursor ∧ ∃ r ∈ history, (r.taskSeq : Int) = sub.cursor
  current : ∀ sub ∈ s.subscribers, sub.attached = true → sub.generation = s.generation
  drains : ∀ d, s.drain = some d → Draining pageSize history s d
  idle : s.drain = none → s.reentrant = false
  settled : s.drain = none → s.unannounced = false → ∀ sub ∈ s.subscribers, sub.attached = true →
    ∀ r ∈ history, (r.taskSeq : Int) ≤ sub.cursor

variable {pageSize : Nat} {s s' : TaskStream τ} {d : Drain τ} {id : Nat} {sub : Subscriber τ}

omit [DecidableEq τ] in
theorem delivered_fresh (history : List (EventRow τ)) :
    Delivered pageSize history (fresh : TaskStream τ) := by
  refine ⟨?_, ?_, ?_, ?_, fun _ => rfl, ?_⟩
  · intro id sub hsub
    cases hsub
  · intro sub hsub
    cases hsub
  · intro sub hsub
    cases hsub
  · intro d hd
    cases hd
  · intro _ _ sub hsub
    cases hsub

/-! ## What happens outside -/

section

omit [DecidableEq τ]

/-- **A new event comes last**, and is announced by the next flush. -/
theorem Delivered.append (h : Delivered pageSize history s)
    (hnew : ∀ x ∈ history, x.taskSeq < r.taskSeq) :
    Delivered pageSize (history ++ [r]) { s with unannounced := true } := by
  have hkpt : ∀ sub ∈ s.subscribers,
      upTo (history ++ [r]) sub.start sub.cursor = upTo history sub.start sub.cursor := by
    intro sub hsub
    refine upTo_snoc fun hsta => ?_
    rcases h.started sub hsub with hsf | ⟨_, x, hx, hcur⟩
    · rw [hsf]
      exact hsta
    · have hlt := hnew x hx
      omega
  refine ⟨?_, ?_, h.current, ?_, h.idle, ?_⟩
  · intro id sub hsub hrst
    rw [hkpt sub (mem_of_getElem? hsub)]
    exact h.rested id sub hsub hrst
  · intro sub hsub
    rcases h.started sub hsub with hsf | ⟨hlt, x, hx, hcur⟩
    · exact .inl hsf
    · exact .inr ⟨hlt, x, mem_append_left _ hx, hcur⟩
  · intro d hd
    have hdrn := h.drains d hd
    refine ⟨hdrn.map, ?_, ?_⟩
    · intro event page id hpt
      obtain ⟨sub, hsub, hcur, hrcv⟩ := hdrn.called event page id hpt
      refine ⟨sub, hsub, hcur, ?_⟩
      rw [hrcv]
      refine (upTo_snoc fun _ => ?_).symm
      -- the event that is handed out is stored
      rcases hdrn.placed with hrd | ⟨before, behind, hplc⟩
      · rw [hpt] at hrd
        cases hrd
      · have hmem : event ∈ history := by
          rw [hplc.split]
          unfold Drain.rest
          rw [hpt]
          simp
        have hlt := hnew event hmem
        omega
    · rcases hdrn.placed with hrd | ⟨before, behind, hplc⟩
      · exact .inl hrd
      · refine .inr ⟨before, behind ++ [r], ?_, hplc.caughtUp, hplc.visited, fun _ _ => .inr (.inl rfl)⟩
        rw [hplc.split, append_assoc]
  · intro _ hfls
    cases hfls

/-- **A client attaches** while the task is not drained. -/
theorem Delivered.subscribe (h : Delivered pageSize history s) (hdrn : s.drain = none)
    (lastEventId : Option Int) : Delivered pageSize history (s.subscribe lastEventId) := by
  have hmem : ∀ sub ∈ (s.subscribe lastEventId).subscribers, sub ∈ s.subscribers ∨
      sub.generation = s.generation ∧ sub.cursor = sub.start := by
    intro sub hsub
    rcases mem_append.mp hsub with hold | hnew
    · exact .inl hold
    · rw [mem_singleton.mp hnew]
      exact .inr ⟨rfl, rfl⟩
  refine ⟨?_, ?_, ?_, ?_, h.idle, ?_⟩
  · intro id sub hsub _
    have hget : (s.subscribers ++ [⟨s.generation, lastEventId.getD earliestCursor, true,
        lastEventId.getD earliestCursor, []⟩])[id]? = some sub := hsub
    rcases Nat.lt_or_ge id s.subscribers.length with hlt | hge
    · rw [List.getElem?_append_left hlt] at hget
      refine h.rested id sub hget fun d hd => ?_
      rw [hdrn] at hd
      cases hd
    · rw [List.getElem?_append_right hge] at hget
      obtain rfl := mem_singleton.mp (mem_of_getElem? hget)
      exact (upTo_self _ _).symm
  · intro sub hsub
    rcases hmem sub hsub with hold | ⟨_, hsf⟩
    · exact h.started sub hold
    · exact .inl hsf
  · intro sub hsub hatt
    rcases hmem sub hsub with hold | ⟨hsf, _⟩
    · exact h.current sub hold hatt
    · exact hsf
  · intro d hd
    have hd' : s.drain = some d := hd
    rw [hdrn] at hd'
    cases hd'
  · intro _ hfls
    cases hfls

end

/-- The same client, or one that has left. -/
structure Stays (sub sub' : Subscriber τ) : Prop where
  generation : sub'.generation = sub.generation
  cursor : sub'.cursor = sub.cursor
  start : sub'.start = sub.start
  received : sub'.received = sub.received
  attached : sub'.attached = true → sub.attached = true

/-- Some clients have left. -/
structure Left (subs subs' : List (Subscriber τ)) : Prop where
  length : subs'.length = subs.length
  stays : ∀ {id : Nat} {sub sub' : Subscriber τ}, subs[id]? = some sub → subs'[id]? = some sub' → Stays sub sub'

variable {subs subs' : List (Subscriber τ)}

section

omit [DecidableEq τ]

theorem Left.get (h : Left subs subs') {sub' : Subscriber τ}
    (hget : subs'[id]? = some sub') : ∃ sub, subs[id]? = some sub ∧ Stays sub sub' := by
  obtain ⟨hlt, _⟩ := List.getElem?_eq_some_iff.mp hget
  have hsub := List.getElem?_eq_getElem (h.length ▸ hlt)
  exact ⟨_, hsub, h.stays hsub hget⟩

theorem Left.kept (h : Left subs subs') {sub : Subscriber τ}
    (hget : subs[id]? = some sub) : ∃ sub', subs'[id]? = some sub' ∧ Stays sub sub' := by
  obtain ⟨hlt, _⟩ := List.getElem?_eq_some_iff.mp hget
  have hsub := List.getElem?_eq_getElem (h.length.symm ▸ hlt)
  exact ⟨_, hsub, h.stays hget hsub⟩

theorem Left.mem (h : Left subs subs') {sub' : Subscriber τ} (hmem : sub' ∈ subs') : ∃ sub ∈ subs, Stays sub sub' := by
  obtain ⟨id, hid⟩ := mem_iff_getElem?.mp hmem
  obtain ⟨sub, hsub, hsty⟩ := h.get hid
  exact ⟨sub, mem_of_getElem? hsub, hsty⟩

end

theorem get_modify {α : Type} {l : List α} {f : α → α} {i j : Nat} {a : α}
    (h : (l.modify i f)[j]? = some a) : ∃ b, l[j]? = some b ∧ a = if i = j then f b else b := by
  rw [List.getElem?_modify] at h
  obtain ⟨b, hb, hab⟩ := map_eq_some_iff.mp h
  exact ⟨b, hb, hab.symm⟩

theorem map_modify {α β : Type} {l : List α} {f : α → α} {g : α → β} {i : Nat} (h : ∀ a, g (f a) = g a) :
    (l.modify i f).map g = l.map g := by
  refine ext_getElem? fun j => ?_
  rw [List.getElem?_map, List.getElem?_map, List.getElem?_modify]
  cases l[j]? with
  | none => rfl
  | some a =>
    simp only [map_some]
    split
    · exact congrArg some (h a)
    · rfl

section

omit [DecidableEq τ]

theorem left_leave (s : TaskStream τ) (id : Nat) : Left s.subscribers (s.leave id) where
  length := length_modify _ _ _
  stays := by
    intro j sub sub' hsub hsub'
    obtain ⟨sub₁, hsub₁, rfl⟩ := get_modify hsub'
    cases hsub.symm.trans hsub₁
    split
    · exact ⟨rfl, rfl, rfl, rfl, nofun⟩
    · exact ⟨rfl, rfl, rfl, rfl, fun hatt => hatt⟩

/-- **Clients leave.** If none is left, the Map goes and so does a note of new events. -/
theorem Delivered.left (h : Delivered pageSize history s) (hlf : Left s.subscribers s'.subscribers)
    (hdrn : s'.drain = s.drain) (hun : s'.unannounced = s.unannounced)
    (hmap : s'.generation = s.generation ∧ s'.reentrant = s.reentrant ∨
      (∀ sub ∈ s'.subscribers, sub.attached = false) ∧ s'.reentrant = false) :
    Delivered pageSize history s' := by
  refine ⟨?_, ?_, ?_, ?_, ?_, ?_⟩
  · intro id sub' hsub' hrst
    obtain ⟨sub, hsub, hsty⟩ := hlf.get hsub'
    rw [hsty.received, hsty.start, hsty.cursor]
    refine h.rested id sub hsub fun d hd => hrst d ?_
    rw [hdrn]
    exact hd
  · intro sub' hsub'
    obtain ⟨sub, hsub, hsty⟩ := hlf.mem hsub'
    rw [hsty.start, hsty.cursor]
    exact h.started sub hsub
  · intro sub' hsub' hatt
    rcases hmap with ⟨hsm, _⟩ | ⟨hno, _⟩
    · obtain ⟨sub, hsub, hsty⟩ := hlf.mem hsub'
      rw [hsty.generation, hsm]
      exact h.current sub hsub (hsty.attached hatt)
    · rw [hno sub' hsub'] at hatt
      cases hatt
  · intro d hd
    rw [hdrn] at hd
    have hd' := h.drains d hd
    refine ⟨?_, ?_, ?_⟩
    · intro sub' hsub' hatt
      obtain ⟨sub, hsub, hsty⟩ := hlf.mem hsub'
      rw [hsty.generation]
      exact hd'.map sub hsub (hsty.attached hatt)
    · intro event page id hpt
      obtain ⟨sub, hsub, hcur, hrcv⟩ := hd'.called event page id hpt
      obtain ⟨sub', hsub', hsty⟩ := hlf.kept hsub
      refine ⟨sub', hsub', ?_, ?_⟩
      · rw [hsty.cursor]
        exact hcur
      · rw [hsty.received, hsty.start]
        exact hrcv
    · rcases hd'.placed with hrd | ⟨before, behind, hplc⟩
      · exact .inl hrd
      · refine .inr ⟨before, behind, hplc.split, ?_, ?_, ?_⟩
        · intro sub' hsub' hatt
          obtain ⟨sub, hsub, hsty⟩ := hlf.mem hsub'
          rw [hsty.cursor]
          exact hplc.caughtUp sub hsub (hsty.attached hatt)
        · intro event page hrst id sub' hsub' hlt hatt
          obtain ⟨sub, hsub, hsty⟩ := hlf.get hsub'
          rw [hsty.cursor]
          exact hplc.visited event page hrst id sub hsub hlt (hsty.attached hatt)
        · intro hsh ⟨sub', hsub', hatt⟩
          rcases hmap with ⟨_, hsm⟩ | ⟨hno, _⟩
          · obtain ⟨sub, hsub, hsty⟩ := hlf.mem hsub'
            rw [hun, hsm]
            exact hplc.short hsh ⟨sub, hsub, hsty.attached hatt⟩
          · rw [hno sub' hsub'] at hatt
            cases hatt
  · intro hno
    rcases hmap with ⟨_, hsm⟩ | ⟨_, hfls⟩
    · rw [hsm]
      exact h.idle (hdrn.symm.trans hno)
    · exact hfls
  · intro hno hann sub' hsub' hatt
    obtain ⟨sub, hsub, hsty⟩ := hlf.mem hsub'
    rw [hsty.cursor]
    exact h.settled (hdrn.symm.trans hno) (hun.symm.trans hann) sub hsub
      (hsty.attached hatt)

theorem Delivered.unsubscribe (h : Delivered pageSize history s) (id : Nat) :
    Delivered pageSize history (s.unsubscribe id) := by
  unfold TaskStream.unsubscribe
  cases hget : s.subscribers[id]? with
  | none => exact h
  | some sub =>
    dsimp only
    have hlf := left_leave s id
    split
    · exact h
    · split
      · exact h.left hlf rfl rfl (.inl ⟨rfl, rfl⟩)
      · split
        · exact h.left hlf rfl rfl (.inl ⟨rfl, rfl⟩)
        · rename_i hemp
          refine h.left hlf rfl rfl (.inr ⟨fun sub' hsub' => ?_, rfl⟩)
          obtain ⟨sub, hsub, hsty⟩ := hlf.mem hsub'
          rw [Bool.eq_false_iff]
          intro hatt
          refine hemp (List.any_eq_true.mpr ⟨sub', hsub', ?_⟩)
          have hge := h.current sub hsub (hsty.attached hatt)
          unfold Subscriber.within
          rw [hatt, hsty.generation, hge]
          simp

/-- **A flush starts a drain**, or is noted by the one that is running. -/
theorem Delivered.flush (h : Delivered pageSize history s) : Delivered pageSize history s.flush := by
  unfold TaskStream.flush
  split
  · exact h
  · split
    · rename_i hdrn
      refine ⟨h.rested, h.started, h.current, ?_, ?_, ?_⟩
      · intro d hd
        have hd' := h.drains d hd
        refine ⟨hd'.map, hd'.called, ?_⟩
        rcases hd'.placed with hrd | ⟨before, behind, hplc⟩
        · exact .inl hrd
        · exact .inr ⟨before, behind, hplc.split, hplc.caughtUp, hplc.visited, fun _ _ => .inr (.inr rfl)⟩
      · intro hno
        have hno' : s.drain = none := hno
        rw [hno'] at hdrn
        cases hdrn
      · intro hno
        have hno' : s.drain = none := hno
        rw [hno'] at hdrn
        cases hdrn
    · rename_i hdrn
      have hno : s.drain = none := by simpa using hdrn
      refine ⟨?_, h.started, h.current, ?_, ?_, ?_⟩
      · intro id sub hsub _
        refine h.rested id sub hsub fun d hd => ?_
        rw [hno] at hd
        cases hd
      · intro d hd
        cases hd
        exact ⟨h.current, fun event page id hpt => (by cases hpt), .inl rfl⟩
      · intro hfls
        cases hfls
      · intro hfls
        cases hfls

end

/-! ## How a drain goes on -/

section

omit [DecidableEq τ]

theorem within_iff {generation : Nat} :
    sub.within generation = true ↔ sub.attached = true ∧ sub.generation = generation := by
  unfold Subscriber.within
  rw [Bool.and_eq_true, decide_eq_true_eq]

theorem nextSubscriber_eq_some {generation next : Nat} (h : s.nextSubscriber generation next = some id) :
    next ≤ id ∧ (∃ sub, s.subscribers[id]? = some sub ∧ sub.within generation = true) ∧
      ∀ (j : Nat) (sub : Subscriber τ), next ≤ j → j < id → s.subscribers[j]? = some sub →
        sub.within generation = false := by
  unfold nextSubscriber at h
  obtain ⟨hid, hmem, hfst⟩ := List.find?_range_eq_some.mp h
  rw [Bool.and_eq_true, decide_eq_true_eq, Option.any_eq_true] at hid
  refine ⟨hid.1, hid.2, fun j sub hle hlt hsub => ?_⟩
  have hj := hfst j hlt
  rw [hsub] at hj
  simpa [hle] using hj

theorem nextSubscriber_eq_none {generation next : Nat} (h : s.nextSubscriber generation next = none)
    (hle : next ≤ id) (hsub : s.subscribers[id]? = some sub) : sub.within generation = false := by
  unfold nextSubscriber at h
  obtain ⟨hlt, _⟩ := List.getElem?_eq_some_iff.mp hsub
  have hid := List.find?_range_eq_none.mp h id hlt
  rw [hsub] at hid
  simpa [hle] using hid

theorem Draining.within (h : Draining pageSize history s d) (hsub : sub ∈ s.subscribers)
    (hatt : sub.attached = true) : sub.within d.generation = true :=
  within_iff.mpr ⟨hatt, h.map sub hsub hatt⟩

theorem split_ordered (hord : Ordered history) (last : Int) :
    history = history.filter (fun r => decide ((r.taskSeq : Int) ≤ last)) ++ after history last := by
  unfold after
  induction history with
  | nil => rfl
  | cons r rest ih =>
    by_cases hla : (r.taskSeq : Int) ≤ last
    · rw [filter_cons_of_pos (by simpa using hla), filter_cons_of_neg (by simpa using hla),
        cons_append, ← ih hord.of_cons]
    · have hno : (r :: rest).filter (fun r => decide ((r.taskSeq : Int) ≤ last)) = [] := by
        rw [filter_eq_nil_iff]
        intro x hx
        have hle : r.taskSeq ≤ x.taskSeq := by
          rcases mem_cons.mp hx with rfl | hmem
          · exact Nat.le_refl _
          · exact (rel_of_pairwise_cons hord hmem).le
        simp only [decide_eq_true_eq, not_le]
        omega
      rw [hno, nil_append, eq_comm, filter_eq_self]
      intro x hx
      by_contra hlow
      have hmem : x ∈ (r :: rest).filter fun r => decide ((r.taskSeq : Int) ≤ last) := by
        refine mem_filter.mpr ⟨hx, ?_⟩
        simpa using hlow
      rw [hno] at hmem
      cases hmem

theorem Delivered.move (h : Delivered pageSize history s) (hd : s.drain = some d)
    (hqt : ∀ id, ¬d.Calls id) {d' : Drain τ} (reentrant : Bool)
    (hd' : Draining pageSize history { s with reentrant := reentrant } d') :
    Delivered pageSize history { s with drain := some d', reentrant := reentrant } := by
  refine ⟨?_, h.started, h.current, ?_, ?_, ?_⟩
  · intro id sub hsub _
    refine h.rested id sub hsub fun d₁ hd₁ => ?_
    cases hd.symm.trans hd₁
    exact hqt id
  · intro d₁ hd₁
    cases hd₁
    exact ⟨hd'.map, hd'.called, hd'.placed.imp id fun ⟨before, after, hplc⟩ =>
      ⟨before, after, hplc.split, hplc.caughtUp, hplc.visited, hplc.short⟩⟩
  · intro hfls
    cases hfls
  · intro hfls
    cases hfls

/-- **A page is read** from the slowest cursor on. -/
theorem Delivered.read (h : Delivered pageSize history s) (hord : Ordered history)
    (hpa : 0 < pageSize) (hd : s.drain = some d) (hpt : d.point = .read)
    {listSince : Int → List (EventRow τ)}
    (hls : ∀ cursor, listSince cursor = (after history cursor).take pageSize) :
    Delivered pageSize history (s.goOn listSince pageSize d) := by
  have hdrn := h.drains d hd
  have hqt : ∀ id, ¬d.Calls id := by
    intro id ⟨event, page, hcs⟩
    rw [hpt] at hcs
    cases hcs
  have hall : (∀ sub ∈ s.subscribers, sub.attached = true → ∀ r ∈ history,
      (r.taskSeq : Int) ≤ sub.cursor) → Draining pageSize history { s with reentrant := s.reentrant }
        { d with pageRows := 0, point := .drained } := by
    intro hca
    refine ⟨hdrn.map, fun event page id hfls => (by cases hfls), .inr ⟨history, [], ?_, hca, ?_,
      fun _ _ => .inl rfl⟩⟩
    · simp [Drain.rest]
    · intro event page hfls
      cases hfls
  unfold goOn
  rw [hpt]
  dsimp only
  cases hsl : s.slowest d.generation with
  | none =>
    refine h.move hd hqt s.reentrant (hall fun sub hsub hatt => ?_)
    -- there is no client
    unfold slowest at hsl
    rw [List.min?_eq_none_iff, map_eq_nil_iff, filter_eq_nil_iff] at hsl
    exact absurd (hdrn.within hsub hatt) (hsl sub hsub)
  | some cursor =>
    have hfr : ∀ sub ∈ s.subscribers, sub.attached = true → cursor ≤ sub.cursor := by
      intro sub hsub hatt
      unfold slowest at hsl
      refine (List.min?_eq_some_iff.mp hsl).2 sub.cursor (List.mem_map_of_mem ?_)
      exact mem_filter.mpr ⟨hsub, hdrn.within hsub hatt⟩
    have hspl := split_ordered hord cursor
    dsimp only
    split
    · rename_i hemp
      refine h.move hd hqt s.reentrant (hall fun sub hsub hatt r hr => ?_)
      have hno : after history cursor = [] := by
        rw [hls, length_eq_zero_iff, take_eq_nil_iff] at hemp
        rcases hemp with hz | hno
        · omega
        · exact hno
      rw [hno, append_nil] at hspl
      rw [hspl] at hr
      have hle := of_decide_eq_true (mem_filter.mp hr).2
      exact hle.trans (hfr sub hsub hatt)
    · refine h.move hd hqt s.reentrant ⟨hdrn.map, fun event page id hfls => (by cases hfls),
        .inr ⟨history.filter fun r => decide ((r.taskSeq : Int) ≤ cursor),
          (after history cursor).drop pageSize, ?_, ?_, ?_, ?_⟩⟩
      · rw [hls]
        unfold Drain.rest
        dsimp only
        rw [append_assoc, take_append_drop]
        exact hspl
      · intro sub hsub hatt r hr
        have hle := of_decide_eq_true (mem_filter.mp hr).2
        exact hle.trans (hfr sub hsub hatt)
      · intro event page _ id sub _ hlt
        exact absurd hlt (Nat.not_lt_zero _)
      · intro hsh _
        dsimp only at hsh
        rw [hls, length_take] at hsh
        refine .inl (drop_eq_nil_of_le ?_)
        omega

/-- **The next client is looked at**, or the next event if there is none. -/
theorem Delivered.visit (h : Delivered pageSize history s) (hord : Ordered history)
    (hd : s.drain = some d) {event : EventRow τ} {page : List (EventRow τ)} {next : Nat}
    (hpt : d.point = .visit (event :: page) next) (listSince : Int → List (EventRow τ)) :
    Delivered pageSize history (s.goOn listSince pageSize d) := by
  have hdrn := h.drains d hd
  have hqt : ∀ id, ¬d.Calls id := by
    intro id ⟨event, page, hcs⟩
    rw [hpt] at hcs
    cases hcs
  have hrst : d.rest = event :: page := by
    unfold Drain.rest
    rw [hpt]
  have hnx : d.next = next := by
    unfold Drain.next
    rw [hpt]
  rcases hdrn.placed with hrd | ⟨before, behind, hplc⟩
  · rw [hpt] at hrd
    cases hrd
  have hspl := hplc.split
  rw [hrst] at hspl
  unfold goOn
  rw [hpt]
  dsimp only
  cases hfnd : s.nextSubscriber d.generation next with
  | none =>
    -- all clients are past the event
    refine h.move hd hqt s.reentrant ⟨hdrn.map, fun event page id hfls => (by cases hfls),
      .inr ⟨before ++ [event], behind, ?_, ?_, ?_, hplc.short⟩⟩
    · rw [hspl]
      simp [Drain.rest]
    · intro sub hsub hatt r hr
      rcases mem_append.mp hr with hbf | hsf
      · exact hplc.caughtUp sub hsub hatt r hbf
      · rw [mem_singleton.mp hsf]
        obtain ⟨id, hid⟩ := mem_iff_getElem?.mp hsub
        by_cases hlt : id < next
        · exact hplc.visited event page hrst id sub hid (hnx ▸ hlt) hatt
        · have hout := nextSubscriber_eq_none hfnd (Nat.not_lt.mp hlt) hid
          rw [hdrn.within hsub hatt] at hout
          cases hout
    · intro _ _ _ id sub _ hlt
      exact absurd hlt (Nat.not_lt_zero _)
  | some id =>
    obtain ⟨hle, ⟨sub, hsub, hin⟩, hsk⟩ := nextSubscriber_eq_some hfnd
    obtain ⟨hatt, _⟩ := within_iff.mp hin
    have hvi : ∀ (j : Nat) (sub : Subscriber τ), s.subscribers[j]? = some sub → j < id →
        sub.attached = true → (event.taskSeq : Int) ≤ sub.cursor := by
      intro j sub hj hlt hatt
      by_cases hold : j < next
      · exact hplc.visited event page hrst j sub hj (hnx ▸ hold) hatt
      · have hout := hsk j sub (Nat.not_lt.mp hold) hlt hj
        rw [hdrn.within (mem_of_getElem? hj) hatt] at hout
        cases hout
    dsimp only
    split
    · -- the client is called
      rename_i hbe
      unfold TaskStream.behind at hbe
      rw [hsub, any_some, decide_eq_true_eq] at hbe
      have hget : ∀ {j : Nat} {sub' : Subscriber τ}, (s.subscribers.modify id fun sub =>
          { sub with received := sub.received ++ [event] })[j]? = some sub' →
          ∃ sub, s.subscribers[j]? = some sub ∧ sub' =
            if id = j then { sub with received := sub.received ++ [event] } else sub := get_modify
      have hmem : ∀ sub' ∈ s.subscribers.modify id (fun sub =>
          { sub with received := sub.received ++ [event] }), ∃ sub ∈ s.subscribers,
          sub'.generation = sub.generation ∧ sub'.cursor = sub.cursor ∧ sub'.start = sub.start ∧
            sub'.attached = sub.attached := by
        intro sub' hsub'
        obtain ⟨j, hj⟩ := mem_iff_getElem?.mp hsub'
        obtain ⟨sub, hsub, rfl⟩ := hget hj
        refine ⟨sub, mem_of_getElem? hsub, ?_⟩
        split
        · exact ⟨rfl, rfl, rfl, rfl⟩
        · exact ⟨rfl, rfl, rfl, rfl⟩
      have hrcv := h.rested id sub hsub fun d₁ hd₁ => by
        cases hd.symm.trans hd₁
        exact hqt id
      have hsta : sub.start < (event.taskSeq : Int) := by
        rcases h.started sub (mem_of_getElem? hsub) with hsf | ⟨hlt, _⟩
        · omega
        · omega
      refine ⟨?_, ?_, ?_, ?_, nofun, nofun⟩
      · intro j sub' hsub' hoth
        obtain ⟨sub₁, hsub₁, rfl⟩ := hget hsub'
        have hne : id ≠ j := by
          intro heq
          exact hoth _ rfl ⟨event, page, heq ▸ rfl⟩
        rw [if_neg hne]
        refine h.rested j sub₁ hsub₁ fun d₁ hd₁ => ?_
        cases hd.symm.trans hd₁
        exact hqt j
      · intro sub' hsub'
        obtain ⟨sub₁, hsub₁, _, hcur, hsta₁, _⟩ := hmem sub' hsub'
        rw [hcur, hsta₁]
        exact h.started sub₁ hsub₁
      · intro sub' hsub' hatt'
        obtain ⟨sub₁, hsub₁, hge, _, _, hsm⟩ := hmem sub' hsub'
        rw [hge]
        exact h.current sub₁ hsub₁ (hsm ▸ hatt')
      · intro d₁ hd₁
        cases hd₁
        refine ⟨?_, ?_, .inr ⟨before, behind, hspl, ?_, ?_, ?_⟩⟩
        · intro sub' hsub' hatt'
          obtain ⟨sub₁, hsub₁, hge, _, _, hsm⟩ := hmem sub' hsub'
          rw [hge]
          exact hdrn.map sub₁ hsub₁ (hsm ▸ hatt')
        · intro event' page' id' hcs
          obtain ⟨rfl, rfl, rfl⟩ := Point.calling.inj hcs
          refine ⟨{ sub with received := sub.received ++ [event] }, ?_, hbe, ?_⟩
          · dsimp only
            rw [List.getElem?_modify, hsub]
            simp
          · dsimp only
            rw [hrcv]
            rw [hspl, append_assoc, cons_append] at hord ⊢
            exact (upTo_next hord (hplc.caughtUp sub (mem_of_getElem? hsub) hatt) hbe
              hsta).symm
        · intro sub' hsub' hatt'
          obtain ⟨sub₁, hsub₁, _, hcur, _, hsm⟩ := hmem sub' hsub'
          rw [hcur]
          exact hplc.caughtUp sub₁ hsub₁ (hsm ▸ hatt')
        · intro event' page' hrst' j sub' hsub' hlt hatt'
          obtain ⟨rfl, _⟩ := List.cons.inj hrst'
          obtain ⟨sub₁, hsub₁, rfl⟩ := hget hsub'
          have hlt' : j < id := hlt
          rw [if_neg (Nat.ne_of_gt hlt')] at hatt' ⊢
          exact hvi j sub₁ hsub₁ hlt' hatt'
        · intro hsh ⟨sub', hsub', hatt'⟩
          obtain ⟨sub₁, hsub₁, _, _, _, hsm⟩ := hmem sub' hsub'
          exact hplc.short hsh ⟨sub₁, hsub₁, hsm ▸ hatt'⟩
    · -- the client is past the event
      rename_i hps
      unfold TaskStream.behind at hps
      rw [hsub, any_some, decide_eq_true_eq, not_lt] at hps
      refine h.move hd hqt s.reentrant ⟨hdrn.map, fun event page id hfls => (by cases hfls),
        .inr ⟨before, behind, hspl, hplc.caughtUp, ?_, hplc.short⟩⟩
      intro event' page' hrst' j sub' hsub' hlt hatt'
      obtain ⟨rfl, _⟩ := List.cons.inj hrst'
      have hlt' : j < id + 1 := hlt
      by_cases hsf : j = id
      · rw [hsf] at hsub'
        cases hsub.symm.trans hsub'
        exact hps
      · exact hvi j sub' hsub' (by omega) hatt'

/-- **A client returns**, and its cursor is that of the event. -/
theorem Delivered.returned (h : Delivered pageSize history s) (hord : Ordered history)
    (hd : s.drain = some d) {event : EventRow τ} {page : List (EventRow τ)} {id : Nat}
    (hpt : d.point = .calling event page id) (listSince : Int → List (EventRow τ)) :
    Delivered pageSize history (s.goOn listSince pageSize d) := by
  have hdrn := h.drains d hd
  have hrst : d.rest = event :: page := by
    unfold Drain.rest
    rw [hpt]
  have hnx : d.next = id := by
    unfold Drain.next
    rw [hpt]
  obtain ⟨sub, hsub, hcur, hrcv⟩ := hdrn.called event page id hpt
  rcases hdrn.placed with hrd | ⟨before, behind, hplc⟩
  · rw [hpt] at hrd
    cases hrd
  have hspl := hplc.split
  rw [hrst] at hspl
  have hlow : ∀ r ∈ before, r.taskSeq < event.taskSeq := by
    rw [hspl, append_assoc] at hord
    have hcrs := (pairwise_append.mp hord).2.2
    intro r hr
    exact hcrs r hr event (by simp)
  have hget : ∀ {j : Nat} {sub' : Subscriber τ}, (s.subscribers.modify id fun sub =>
      { sub with cursor := (event.taskSeq : Int) })[j]? = some sub' → ∃ sub, s.subscribers[j]? = some sub ∧
        sub' = if id = j then { sub with cursor := (event.taskSeq : Int) } else sub := get_modify
  have hmem : ∀ sub' ∈ s.subscribers.modify id (fun sub => { sub with cursor := (event.taskSeq : Int) }),
      ∃ sub ∈ s.subscribers, sub'.generation = sub.generation ∧ sub'.start = sub.start ∧
        sub'.attached = sub.attached ∧
        (sub'.cursor = sub.cursor ∨ sub'.cursor = event.taskSeq ∧ sub.cursor < (event.taskSeq : Int)) := by
    intro sub' hsub'
    obtain ⟨j, hj⟩ := mem_iff_getElem?.mp hsub'
    obtain ⟨sub₁, hsub₁, rfl⟩ := hget hj
    refine ⟨sub₁, mem_of_getElem? hsub₁, ?_⟩
    split
    · rename_i heq
      rw [← heq] at hsub₁
      cases hsub.symm.trans hsub₁
      exact ⟨rfl, rfl, rfl, .inr ⟨rfl, hcur⟩⟩
    · exact ⟨rfl, rfl, rfl, .inl rfl⟩
  unfold goOn
  rw [hpt]
  dsimp only
  refine ⟨?_, ?_, ?_, ?_, nofun, nofun⟩
  · intro j sub' hsub' _
    obtain ⟨sub₁, hsub₁, rfl⟩ := hget hsub'
    by_cases hsf : id = j
    · rw [← hsf] at hsub₁
      cases hsub.symm.trans hsub₁
      rw [if_pos hsf]
      exact hrcv
    · rw [if_neg hsf]
      refine h.rested j sub₁ hsub₁ fun d₁ hd₁ => ?_
      cases hd.symm.trans hd₁
      intro ⟨event', page', hcs⟩
      rw [hpt] at hcs
      exact hsf (Point.calling.inj hcs).2.2
  · intro sub' hsub'
    obtain ⟨sub₁, hsub₁, _, hsta, _, hmv⟩ := hmem sub' hsub'
    rw [hsta]
    have hold := h.started sub₁ hsub₁
    rcases hmv with hsm | ⟨hmv, hlt⟩
    · rw [hsm]
      exact hold
    · refine .inr ⟨?_, event, ?_, hmv.symm⟩
      · rcases hold with hsf | ⟨hsf, _⟩
        · omega
        · omega
      · rw [hspl]
        simp
  · intro sub' hsub' hatt
    obtain ⟨sub₁, hsub₁, hge, _, hsm, _⟩ := hmem sub' hsub'
    rw [hge]
    exact h.current sub₁ hsub₁ (hsm ▸ hatt)
  · intro d₁ hd₁
    cases hd₁
    refine ⟨?_, fun event page id hfls => (by cases hfls), .inr ⟨before, behind, hspl, ?_, ?_, ?_⟩⟩
    · intro sub' hsub' hatt
      obtain ⟨sub₁, hsub₁, hge, _, hsm, _⟩ := hmem sub' hsub'
      rw [hge]
      exact hdrn.map sub₁ hsub₁ (hsm ▸ hatt)
    · intro sub' hsub' hatt r hr
      obtain ⟨sub₁, hsub₁, _, _, hsm, hmv⟩ := hmem sub' hsub'
      have hle := hplc.caughtUp sub₁ hsub₁ (hsm ▸ hatt) r hr
      rcases hmv with hsm | ⟨hmv, hlt⟩
      · rw [hsm]
        exact hle
      · rw [hmv]
        omega
    · intro event' page' hrst' j sub' hsub' hlt hatt
      obtain ⟨rfl, _⟩ := List.cons.inj hrst'
      obtain ⟨sub₁, hsub₁, rfl⟩ := hget hsub'
      have hlt' : j < id + 1 := hlt
      by_cases hsf : id = j
      · rw [if_pos hsf]
      · rw [if_neg hsf] at hatt ⊢
        exact hplc.visited event page hrst j sub₁ hsub₁ (by omega) hatt
    · intro hsh ⟨sub', hsub', hatt⟩
      obtain ⟨sub₁, hsub₁, _, _, hsm, _⟩ := hmem sub' hsub'
      exact hplc.short hsh ⟨sub₁, hsub₁, hsm ▸ hatt⟩

/-- **A drain goes on.** -/
theorem Delivered.goOn (h : Delivered pageSize history s) (hord : Ordered history)
    (hpa : 0 < pageSize) (hd : s.drain = some d) {listSince : Int → List (EventRow τ)}
    (hls : ∀ cursor, listSince cursor = (after history cursor).take pageSize) :
    Delivered pageSize history (s.goOn listSince pageSize d) := by
  have hdrn := h.drains d hd
  cases hpt : d.point with
  | read => exact h.read hord hpa hd hpt hls
  | visit page =>
    cases page with
    | cons => exact h.visit hord hd hpt listSince
    | nil =>
      have hqt : ∀ id, ¬d.Calls id := by
        intro id ⟨event, page, hcs⟩
        rw [hpt] at hcs
        cases hcs
      rcases hdrn.placed with hrd | ⟨before, behind, hplc⟩
      · rw [hpt] at hrd
        cases hrd
      have hspl := hplc.split
      unfold Drain.rest at hspl
      rw [hpt] at hspl
      unfold TaskStream.goOn
      rw [hpt]
      refine h.move hd hqt s.reentrant ⟨hdrn.map, fun event page id hfls => (by cases hfls),
        .inr ⟨before, behind, hspl, hplc.caughtUp, ?_, hplc.short⟩⟩
      intro event page hfls
      cases hfls
  | calling => exact h.returned hord hd hpt listSince
  | drained =>
    have hqt : ∀ id, ¬d.Calls id := by
      intro id ⟨event, page, hcs⟩
      rw [hpt] at hcs
      cases hcs
    have hagn : ∀ (d' : Drain τ) (reentrant : Bool), d'.point = .read → d'.generation = d.generation →
        Draining pageSize history { s with reentrant := reentrant } d' := by
      intro d' reentrant hrd hsm
      refine ⟨?_, fun event page id hcs => ?_, .inl hrd⟩
      · rw [hsm]
        exact hdrn.map
      · rw [hrd] at hcs
        cases hcs
    unfold TaskStream.goOn
    rw [hpt]
    dsimp only
    split
    · exact h.move hd hqt false (hagn _ false rfl rfl)
    · rename_i hre
      split
      · -- the flush is over: the last page was short, and nothing came since
        rename_i hsh
        refine ⟨?_, h.started, h.current, fun d₁ hd₁ => (by cases hd₁), fun _ => by simpa using hre, ?_⟩
        · intro j sub hsub _
          refine h.rested j sub hsub fun d₁ hd₁ => ?_
          cases hd.symm.trans hd₁
          exact hqt j
        · intro _ hann sub hsub hatt r hr
          rcases hdrn.placed with hrd | ⟨before, behind, hplc⟩
          · rw [hpt] at hrd
            cases hrd
          have hspl := hplc.split
          unfold Drain.rest at hspl
          rw [hpt, append_nil] at hspl
          rcases hplc.short hsh ⟨sub, hsub, hatt⟩ with hno | hun | hfls
          · rw [hno, append_nil] at hspl
            exact hplc.caughtUp sub hsub hatt r (hspl ▸ hr)
          · have hann' : s.unannounced = false := hann
            rw [hann'] at hun
            cases hun
          · exact absurd hfls hre
      · exact h.move hd hqt s.reentrant (hagn _ s.reentrant rfl rfl)

end

end AiNet.Streaming
