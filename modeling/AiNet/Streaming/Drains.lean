import AiNet.Streaming.Delivery
import Mathlib.Data.Prod.Lex
import Mathlib.Algebra.GroupWithZero.Nat

/-!
# A drain ends

What a drain has left to do: the events that its clients have not had, and then the way to the next
client that is called. Every step of the drain lowers it, and what clients do while they are called does
not raise it. A page that is read always has an event for some client, so reading is not repeated in vain:
a drain that calls no client reads at most once more.
-/

namespace AiNet.Streaming

open Core AiNet.Events List Option

variable {τ : Type} [DecidableEq τ] {pageSize : Nat} {history : List (EventRow τ)} {s : TaskStream τ}
  {d d' : Drain τ} {listSince : Int → List (EventRow τ)}

/-- What a client has not had. -/
def Subscriber.backlog (history : List (EventRow τ)) (sub : Subscriber τ) : Nat :=
  if sub.attached then (after history sub.cursor).length else 0

namespace TaskStream

/-- What the clients have not had. -/
def backlog (history : List (EventRow τ)) (s : TaskStream τ) : Nat :=
  (s.subscribers.map (Subscriber.backlog history)).sum

/-- The client that is called has left. -/
def owed (s : TaskStream τ) (d : Drain τ) : Nat :=
  match d.point with
  | .calling _ _ id => if s.subscribers[id]?.any Subscriber.attached then 0 else 1
  | _ => 0

/-- A client that has not had the event comes. -/
def eager (s : TaskStream τ) (generation : Nat) (event : EventRow τ) (next : Nat) : Bool :=
  (List.range s.subscribers.length).any fun id =>
    decide (next ≤ id) && (s.subscribers[id]?.any fun sub => sub.within generation) && s.behind id event

/-- How far it is to the next client that is called, or to the end. -/
def way (pageSize : Nat) (s : TaskStream τ) (d : Drain τ) : ℕ ×ₗ ℕ :=
  match d.point with
  | .calling _ _ _ => toLex (0, 0)
  | .read => toLex (1, 0)
  | .drained => if s.reentrant || decide (pageSize ≤ d.pageRows) then toLex (2, 0) else toLex (0, 0)
  | .visit [] next => toLex (3, s.subscribers.length + 1 - next)
  | .visit (event :: page) next =>
    if s.eager d.generation event next then toLex (0, s.subscribers.length + 1 - next)
    else toLex (3, (page.length + 1) * (s.subscribers.length + 2) + (s.subscribers.length + 1 - next))

def todo (pageSize : Nat) (history : List (EventRow τ)) (s : TaskStream τ) (d : Drain τ) :
    ℕ ×ₗ ℕ ×ₗ ℕ := toLex (s.backlog history + s.owed d, s.way pageSize d)

end TaskStream

open TaskStream

/-! ## Sums over clients -/

theorem sum_modify {α : Type} {f : α → α} {g : α → Nat} {l : List α} {i : Nat} {a : α}
    (h : l[i]? = some a) : ((l.modify i f).map g).sum + g a = (l.map g).sum + g (f a) := by
  induction l generalizing i with
  | nil => cases h
  | cons b rest ih =>
    cases i with
    | zero =>
      obtain rfl : b = a := by simpa using h
      simp only [modify_zero_cons, map_cons, sum_cons]
      omega
    | succ i =>
      have hrst := ih (i := i) (by simpa using h)
      simp only [modify_succ_cons, map_cons, sum_cons]
      omega

variable {event : EventRow τ}

omit [DecidableEq τ] in
theorem length_after_lt (hmem : event ∈ history) {cursor : Int} (hlt : cursor < (event.taskSeq : Int)) :
    (after history event.taskSeq).length < (after history cursor).length := by
  have hsub : after history event.taskSeq =
      (after history cursor).filter fun r => decide ((event.taskSeq : Int) < (r.taskSeq : Int)) := by
    unfold after
    rw [List.filter_filter]
    refine filter_congr fun r _ => ?_
    by_cases hr : (event.taskSeq : Int) < (r.taskSeq : Int)
    · simp [hr, hlt.trans hr]
    · simp [hr]
  rw [hsub]
  refine length_filter_lt_length_iff_exists.mpr ⟨event, ?_, by simp⟩
  exact mem_filter.mpr ⟨hmem, decide_eq_true hlt⟩

/-! ## Steps of the drain -/

theorem way_lt_of_fst {a b m n : Nat} (h : a < b) : (toLex (a, m) : ℕ ×ₗ ℕ) < toLex (b, n) :=
  Prod.Lex.toLex_lt_toLex.mpr (.inl h)

theorem way_lt_of_snd {a m n : Nat} (h : m < n) : (toLex (a, m) : ℕ ×ₗ ℕ) < toLex (a, n) :=
  Prod.Lex.toLex_lt_toLex.mpr (.inr ⟨rfl, h⟩)

section

omit [DecidableEq τ]

theorem eager_iff {generation next : Nat} :
    s.eager generation event next = true ↔ ∃ id sub, s.subscribers[id]? = some sub ∧ next ≤ id ∧
      sub.within generation = true ∧ sub.cursor < (event.taskSeq : Int) := by
  unfold TaskStream.eager TaskStream.behind
  simp only [List.any_eq_true, mem_range, Bool.and_eq_true, decide_eq_true_eq, Option.any_eq_true]
  constructor
  · intro ⟨id, _, ⟨hle, sub, hsub, hin⟩, sub', hsub', hlt⟩
    cases hsub.symm.trans hsub'
    exact ⟨id, sub, hsub, hle, hin, hlt⟩
  · intro ⟨id, sub, hsub, hle, hin, hlt⟩
    exact ⟨id, (List.getElem?_eq_some_iff.mp hsub).1, ⟨hle, sub, hsub, hin⟩, sub, hsub, hlt⟩

theorem todo_lt_of_way {s' : TaskStream τ} (hbk : s'.backlog history + s'.owed d' = s.backlog history + s.owed d)
    (hway : s'.way pageSize d' < s.way pageSize d) :
    s'.todo pageSize history d' < s.todo pageSize history d := by
  unfold TaskStream.todo
  rw [hbk, Prod.Lex.toLex_lt_toLex]
  exact .inr ⟨rfl, hway⟩

theorem todo_lt_of_backlog {s' : TaskStream τ}
    (hbk : s'.backlog history + s'.owed d' < s.backlog history + s.owed d) :
    s'.todo pageSize history d' < s.todo pageSize history d := by
  unfold TaskStream.todo
  rw [Prod.Lex.toLex_lt_toLex]
  exact .inl hbk

/-- **A page that is read has an event for the slowest client.** -/
theorem todo_read (hd : d.point = .read) (hrdy : s.reentrant = false) (hpa : 0 < pageSize)
    (hls : ∀ cursor, listSince cursor = (after history cursor).take pageSize)
    (hd' : (s.goOn listSince pageSize d).drain = some d') :
    (s.goOn listSince pageSize d).todo pageSize history d' < s.todo pageSize history d := by
  have how : s.owed d = 0 := by
    unfold TaskStream.owed
    rw [hd]
  have hway : s.way pageSize d = toLex (1, 0) := by
    unfold TaskStream.way
    rw [hd]
  have hend : TaskStream.todo pageSize history
      { s with drain := some { d with pageRows := 0, point := .drained } }
        { d with pageRows := 0, point := .drained } < s.todo pageSize history d := by
    refine todo_lt_of_way (by rw [how]; rfl) ?_
    rw [hway]
    unfold TaskStream.way
    dsimp only
    rw [hrdy, Bool.false_or, if_neg (by simpa using hpa.ne')]
    exact way_lt_of_fst (by decide)
  unfold goOn at hd' ⊢
  rw [hd] at hd' ⊢
  dsimp only at hd' ⊢
  cases hsl : s.slowest d.generation with
  | none =>
    rw [hsl] at hd'
    cases hd'
    exact hend
  | some cursor =>
    rw [hsl] at hd'
    dsimp only at hd' ⊢
    split at hd'
    · rename_i hemp
      rw [if_pos hemp]
      cases hd'
      exact hend
    · rename_i hso
      rw [if_neg hso]
      cases hd'
      refine todo_lt_of_way (by rw [how]; rfl) ?_
      rw [hway]
      unfold TaskStream.way
      dsimp only
      cases hrw : listSince cursor with
      | nil => exact absurd (by rw [hrw]; rfl) hso
      | cons event page =>
        have hev : cursor < (event.taskSeq : Int) := by
          have hmem : event ∈ (after history cursor).take pageSize := by
            rw [← hls, hrw]
            exact mem_cons_self
          exact of_decide_eq_true (mem_filter.mp (mem_of_mem_take hmem)).2
        have heag : TaskStream.eager { s with drain := some { d with
            pageRows := (event :: page).length, point := .visit (event :: page) 0 } }
            d.generation event 0 = true := by
          unfold slowest at hsl
          obtain ⟨sub, hsub, hcur⟩ := List.mem_map.mp (List.min?_eq_some_iff.mp hsl).1
          obtain ⟨hmem, hin⟩ := mem_filter.mp hsub
          obtain ⟨id, hid⟩ := mem_iff_getElem?.mp hmem
          exact eager_iff.mpr ⟨id, sub, hid, Nat.zero_le _, hin, hcur ▸ hev⟩
        dsimp only
        rw [if_pos heag]
        exact way_lt_of_fst (by decide)

end

variable {page : List (EventRow τ)}

section

omit [DecidableEq τ]

theorem todo_visit {next : Nat} (hd : d.point = .visit (event :: page) next)
    (hd' : (s.goOn listSince pageSize d).drain = some d') :
    (s.goOn listSince pageSize d).todo pageSize history d' < s.todo pageSize history d := by
  have how : s.owed d = 0 := by
    unfold TaskStream.owed
    rw [hd]
  have hway : s.way pageSize d = if s.eager d.generation event next then
      toLex (0, s.subscribers.length + 1 - next) else
      toLex (3, (page.length + 1) * (s.subscribers.length + 2) + (s.subscribers.length + 1 - next)) := by
    unfold TaskStream.way
    rw [hd]
  unfold goOn at hd' ⊢
  rw [hd] at hd' ⊢
  dsimp only at hd' ⊢
  cases hfnd : s.nextSubscriber d.generation next with
  | none =>
    rw [hfnd] at hd'
    cases hd'
    refine todo_lt_of_way (by rw [how]; rfl) ?_
    have hil : s.eager d.generation event next = false := by
      rw [Bool.eq_false_iff]
      intro heag
      obtain ⟨id, sub, hsub, hle, hin, _⟩ := eager_iff.mp heag
      rw [nextSubscriber_eq_none hfnd hle hsub] at hin
      cases hin
    rw [hway, hil, if_neg Bool.false_ne_true]
    unfold TaskStream.way
    dsimp only
    cases page with
    | nil =>
      dsimp only
      refine way_lt_of_snd ?_
      simp only [length_nil]
      omega
    | cons event' page =>
      dsimp only
      split
      · exact way_lt_of_fst (by decide)
      · refine way_lt_of_snd ?_
        simp only [length_cons]
        rw [Nat.add_mul (page.length + 1) 1]
        omega
  | some id =>
    obtain ⟨hle, ⟨sub, hsub, hin⟩, hsk⟩ := nextSubscriber_eq_some hfnd
    obtain ⟨hlt, _⟩ := List.getElem?_eq_some_iff.mp hsub
    rw [hfnd] at hd'
    dsimp only at hd' ⊢
    split at hd'
    · rename_i hbe
      rw [if_pos hbe]
      cases hd'
      refine todo_lt_of_way ?_ ?_
      · -- what the client is called with is not taken off yet
        have hsum := sum_modify (f := fun sub : Subscriber τ =>
          { sub with received := sub.received ++ [event] }) (g := Subscriber.backlog history) hsub
        have hsm : Subscriber.backlog history { sub with received := sub.received ++ [event] } =
            Subscriber.backlog history sub := rfl
        have hatt : (s.subscribers.modify id fun sub =>
            { sub with received := sub.received ++ [event] })[id]?.any Subscriber.attached = true := by
          rw [List.getElem?_modify, hsub]
          simpa using (within_iff.mp hin).1
        rw [how]
        unfold TaskStream.backlog TaskStream.owed
        dsimp only
        rw [if_pos hatt]
        omega
      · rw [hway]
        unfold TaskStream.way
        dsimp only
        split
        · refine way_lt_of_snd ?_
          omega
        · exact way_lt_of_fst (by decide)
    · rename_i hps
      rw [if_neg hps]
      cases hd'
      refine todo_lt_of_way (by rw [how]; rfl) ?_
      have hco : s.eager d.generation event next = true → s.eager d.generation event (id + 1) = true := by
        intro heag
        obtain ⟨j, sub', hsub', hle', hin', hlow⟩ := eager_iff.mp heag
        refine eager_iff.mpr ⟨j, sub', hsub', ?_, hin', hlow⟩
        by_contra hbf
        rcases Nat.lt_or_ge j id with hj | hj
        · rw [hsk j sub' hle' hj hsub'] at hin'
          cases hin'
        · obtain rfl : j = id := by omega
          refine hps ?_
          unfold TaskStream.behind
          rw [hsub', any_some]
          exact decide_eq_true hlow
      have hnew : TaskStream.way pageSize { s with drain := some { d with
          point := .visit (event :: page) (id + 1) } } { d with point := .visit (event :: page) (id + 1) } =
          if s.eager d.generation event (id + 1) then toLex (0, s.subscribers.length + 1 - (id + 1)) else
          toLex (3, (page.length + 1) * (s.subscribers.length + 2) +
            (s.subscribers.length + 1 - (id + 1))) := rfl
      rw [hway, hnew]
      by_cases heag : s.eager d.generation event next = true
      · rw [if_pos heag, if_pos (hco heag)]
        refine way_lt_of_snd ?_
        omega
      · rw [if_neg heag]
        split
        · exact way_lt_of_fst (by decide)
        · refine way_lt_of_snd ?_
          omega

/-- **A client that returns has had one event more**, or has left. -/
theorem todo_returned (h : Delivered pageSize history s) (hdrn : s.drain = some d) {id : Nat}
    (hd : d.point = .calling event page id) (hd' : (s.goOn listSince pageSize d).drain = some d') :
    (s.goOn listSince pageSize d).todo pageSize history d' < s.todo pageSize history d := by
  have hdr := h.drains d hdrn
  obtain ⟨sub, hsub, hcur, _⟩ := hdr.called event page id hd
  have hmem : event ∈ history := by
    rcases hdr.placed with hrd | ⟨before, behind, hplc⟩
    · rw [hd] at hrd
      cases hrd
    · rw [hplc.split]
      unfold Drain.rest
      rw [hd]
      simp
  unfold goOn at hd' ⊢
  rw [hd] at hd' ⊢
  cases hd'
  refine todo_lt_of_backlog ?_
  have hsum := sum_modify (f := fun sub : Subscriber τ => { sub with cursor := (event.taskSeq : Int) })
    (g := Subscriber.backlog history) hsub
  have hle := length_after_lt hmem hcur
  unfold TaskStream.backlog TaskStream.owed
  dsimp only
  rw [hd]
  dsimp only
  rw [hsub, any_some]
  unfold Subscriber.backlog at hsum ⊢
  cases hatt : sub.attached with
  | true =>
    rw [hatt] at hsum
    simp only [if_true] at hsum ⊢
    omega
  | false =>
    rw [hatt] at hsum
    simp only [Bool.false_eq_true, if_false] at hsum ⊢
    omega

/-- **Every step of a drain lowers what is left to do.** -/
theorem todo_goOn (h : Delivered pageSize history s) (hpa : 0 < pageSize) (hdrn : s.drain = some d)
    (hrdy : d.point = .read → s.reentrant = false)
    (hls : ∀ cursor, listSince cursor = (after history cursor).take pageSize)
    (hd' : (s.goOn listSince pageSize d).drain = some d') :
    (s.goOn listSince pageSize d).todo pageSize history d' < s.todo pageSize history d := by
  cases hd : d.point with
  | read => exact todo_read hd (hrdy hd) hpa hls hd'
  | visit page =>
    cases page with
    | cons => exact todo_visit hd hd'
    | nil =>
      unfold goOn at hd' ⊢
      rw [hd] at hd' ⊢
      cases hd'
      refine todo_lt_of_way ?_ ?_
      · unfold TaskStream.owed
        rw [hd]
        rfl
      · unfold TaskStream.way
        rw [hd]
        dsimp only
        split
        · exact way_lt_of_fst (by decide)
        · exact way_lt_of_fst (by decide)
  | calling => exact todo_returned h hdrn hd hd'
  | drained =>
    have how : s.owed d = 0 := by
      unfold TaskStream.owed
      rw [hd]
    unfold goOn at hd' ⊢
    rw [hd] at hd' ⊢
    dsimp only at hd' ⊢
    split at hd'
    · rename_i hre
      rw [if_pos hre]
      cases hd'
      refine todo_lt_of_way (by rw [how]; rfl) ?_
      unfold TaskStream.way
      rw [hd]
      dsimp only
      rw [hre, Bool.true_or, if_pos rfl]
      exact way_lt_of_fst (by decide)
    · rename_i hre
      rw [if_neg hre]
      split at hd'
      · cases hd'
      · rename_i hfl
        rw [if_neg hfl]
        cases hd'
        refine todo_lt_of_way (by rw [how]; rfl) ?_
        unfold TaskStream.way
        rw [hd]
        dsimp only
        rw [decide_eq_true (Nat.not_lt.mp hfl), Bool.or_true, if_pos rfl]
        exact way_lt_of_fst (by decide)

end

/-! ## While a client is called -/

section

omit [DecidableEq τ]

/-- **A client that leaves takes its backlog with it.** -/
theorem todo_unsubscribe (h : Delivered pageSize history s) (hdrn : s.drain = some d) {called : Nat}
    (hd : d.point = .calling event page called) (id : Nat) : (s.unsubscribe id).drain = some d ∧
      (s.unsubscribe id).todo pageSize history d ≤ s.todo pageSize history d := by
  obtain ⟨sub, hsub, hcur, _⟩ := (h.drains d hdrn).called event page called hd
  have hmem : event ∈ history := by
    rcases (h.drains d hdrn).placed with hrd | ⟨before, behind, hplc⟩
    · rw [hd] at hrd
      cases hrd
    · rw [hplc.split]
      unfold Drain.rest
      rw [hd]
      simp
  have hway : ∀ s' : TaskStream τ, s'.way pageSize d = s.way pageSize d := by
    intro s'
    unfold TaskStream.way
    rw [hd]
  have hlea : ∀ {sub' : Subscriber τ}, s.subscribers[id]? = some sub' → sub'.attached = true →
      ∀ s' : TaskStream τ, s'.subscribers = s.leave id →
        s'.todo pageSize history d ≤ s.todo pageSize history d := by
    intro sub' hsub' hatt s' hsu
    unfold TaskStream.todo
    rw [hway, Prod.Lex.toLex_le_toLex]
    have hsum := sum_modify (f := fun sub : Subscriber τ => { sub with attached := false })
      (g := Subscriber.backlog history) hsub'
    have hz : Subscriber.backlog history { sub' with attached := false } = 0 := rfl
    have hpos := length_after_lt hmem hcur
    have hle : s'.backlog history + s'.owed d ≤ s.backlog history + s.owed d := by
      unfold TaskStream.backlog TaskStream.owed
      rw [hsu, hd]
      unfold leave
      dsimp only
      by_cases hsf : id = called
      · -- the client that is called is owed a step instead
        rw [hsf] at hsub' hsum ⊢
        cases hsub.symm.trans hsub'
        have hbk : Subscriber.backlog history sub = (after history sub.cursor).length := by
          unfold Subscriber.backlog
          rw [if_pos hatt]
        split
        · omega
        · omega
      · rw [List.getElem?_modify_ne _ _ hsf]
        omega
    rcases Nat.lt_or_eq_of_le hle with hlt | heq
    · exact .inl hlt
    · exact .inr ⟨heq, le_refl _⟩
  unfold unsubscribe
  cases hget : s.subscribers[id]? with
  | none => exact ⟨hdrn, le_refl _⟩
  | some sub' =>
    dsimp only
    split
    · exact ⟨hdrn, le_refl _⟩
    · rename_i hatt
      have hatt' : sub'.attached = true := by simpa using hatt
      split
      · exact ⟨hdrn, hlea hget hatt' _ rfl⟩
      · split
        · exact ⟨hdrn, hlea hget hatt' _ rfl⟩
        · exact ⟨hdrn, hlea hget hatt' _ rfl⟩

theorem todo_flush (hdrn : s.drain = some d) {called : Nat} (hd : d.point = .calling event page called) :
    s.flush.drain = some d ∧ s.flush.todo pageSize history d = s.todo pageSize history d := by
  have hway : ∀ s' : TaskStream τ, s'.way pageSize d = s.way pageSize d := by
    intro s'
    unfold TaskStream.way
    rw [hd]
  unfold flush
  split
  · exact ⟨hdrn, rfl⟩
  · split
    · refine ⟨hdrn, ?_⟩
      unfold TaskStream.todo
      rw [hway]
      rfl
    · rename_i hno
      rw [hdrn] at hno
      exact absurd rfl hno

end

end AiNet.Streaming
