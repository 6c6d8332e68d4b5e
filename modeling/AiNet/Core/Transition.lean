import Mathlib.Logic.Relation
import Mathlib.Order.WellFounded

/-!
# Guarded transition systems

A component is a state that consumes events; an event it refuses leaves no
transition. Claims about a component speak of its *runs*, and often only of the runs
whose steps all satisfy some condition: the clock never goes back, an entry point is
not used in a certain state. That condition is the `guard`, a relation between the
state before a step and the event, so that one system serves every such claim.

`Reachable.invariant` is the induction all safety arguments go through.
-/

namespace AiNet.Core

open List Option

/-- A deterministic component: where it may start, and what an event does to it. -/
structure System (σ ε : Type) where
  /-- The initial states. -/
  start : σ → Prop
  /-- The effect of an event, if it is accepted. -/
  step : σ → ε → Option σ

namespace System

variable {σ ε : Type} (S : System σ ε) (guard : σ → ε → Prop)

/-- One accepted step whose event satisfies the guard. -/
def Next (s s' : σ) : Prop := ∃ e, guard s e ∧ S.step s e = some s'

/-- Any number of such steps. -/
abbrev Run : σ → σ → Prop := Relation.ReflTransGen (S.Next guard)

/-- The states of runs that begin in an initial state. -/
def Reachable (s : σ) : Prop := ∃ s₀, S.start s₀ ∧ S.Run guard s₀ s

variable {S guard}

theorem Reachable.init {s : σ} (h : S.start s) : S.Reachable guard s := ⟨s, h, .refl⟩

theorem Reachable.tail {s s' : σ} {e : ε} (h : S.Reachable guard s) (hg : guard s e)
    (hs : S.step s e = some s') : S.Reachable guard s' := by
  obtain ⟨s₀, h0, hrun⟩ := h
  exact ⟨s₀, h0, hrun.tail ⟨e, hg, hs⟩⟩

theorem Reachable.run {s s' : σ} (h : S.Reachable guard s) (hrun : S.Run guard s s') :
    S.Reachable guard s' := by
  obtain ⟨s₀, h0, hr⟩ := h
  exact ⟨s₀, h0, hr.trans hrun⟩

/-- **What every step preserves, a run preserves.** The step case may use the run up to it. -/
theorem Run.invariant {I : σ → Prop} {s s' : σ} (hrun : S.Run guard s s') (h : I s)
    (hst : ∀ s₁ e s₂, S.Run guard s s₁ → guard s₁ e → I s₁ → S.step s₁ e = some s₂ → I s₂) :
    I s' := by
  induction hrun with
  | refl => exact h
  | tail hr hn ih =>
    obtain ⟨e, hg, hs⟩ := hn
    exact hst _ e _ hr hg ih hs

theorem Run.preserves {I : σ → Prop} {s s' : σ} (hrun : S.Run guard s s')
    (hst : ∀ s e s', guard s e → I s → S.step s e = some s' → I s') (h : I s) : I s' :=
  Run.invariant hrun h fun s₁ e s₂ _ => hst s₁ e s₂

/-- **The invariant rule.** The step case may use that the state before it is reachable. -/
theorem Reachable.invariant {I : σ → Prop} (hin : ∀ s, S.start s → I s)
    (hst : ∀ s e s', S.Reachable guard s → guard s e → I s → S.step s e = some s' → I s')
    {s : σ} (h : S.Reachable guard s) : I s := by
  obtain ⟨s₀, h0, hrun⟩ := h
  refine Run.invariant hrun (hin s₀ h0) ?_
  intro s₁ e s₂ hr hg hI hs
  exact hst s₁ e s₂ ⟨s₀, h0, hr⟩ hg hI hs

theorem Run.weaken {guard' : σ → ε → Prop} (hg : ∀ s e, guard s e → guard' s e) {s s' : σ}
    (h : S.Run guard s s') : S.Run guard' s s' :=
  Relation.ReflTransGen.mono (fun _ _ ⟨e, hge, hs⟩ => ⟨e, hg _ _ hge, hs⟩) _ _ h

theorem Reachable.weaken {guard' : σ → ε → Prop} (hg : ∀ s e, guard s e → guard' s e) {s : σ}
    (h : S.Reachable guard s) : S.Reachable guard' s := by
  obtain ⟨s₀, h0, hrun⟩ := h
  exact ⟨s₀, h0, hrun.weaken hg⟩

/-! ## Attempts -/

variable (S) in
/-- Try an event: one that is refused leaves no trace. -/
def attempt (s : σ) (e : ε) : σ := (S.step s e).getD s

variable (S) in
/-- Try one after the other. -/
def attempts (es : List ε) (s : σ) : σ := es.foldl S.attempt s

theorem Reachable.attempt {s : σ} {e : ε} (h : S.Reachable (fun _ _ => True) s) :
    S.Reachable (fun _ _ => True) (S.attempt s e) := by
  unfold System.attempt
  cases hs : S.step s e with
  | none => exact h
  | some => exact h.tail trivial hs

theorem Reachable.attempts {es : List ε} {s : σ} (h : S.Reachable (fun _ _ => True) s) :
    S.Reachable (fun _ _ => True) (S.attempts es s) := by
  induction es generalizing s with
  | nil => exact h
  | cons e es ih => exact ih h.attempt

/-! ## Runs with a record -/

/--
A state reached by a run, and the record of the run: each event it accepted, in order, with the
state that accepted it. Claims that speak of earlier calls speak of this record.
-/
inductive Logged (S : System σ ε) (guard : σ → ε → Prop) : σ → List (σ × ε) → Prop where
  | start {s : σ} : S.start s → Logged S guard s []
  | step {s s' : σ} {e : ε} {log : List (σ × ε)} : Logged S guard s log → guard s e →
      S.step s e = some s' → Logged S guard s' (log ++ [(s, e)])

theorem Logged.reachable {s : σ} {log : List (σ × ε)} (h : S.Logged guard s log) :
    S.Reachable guard s := by
  induction h with
  | start h0 => exact .init h0
  | step _ hg hs ih => exact ih.tail hg hs

theorem Logged.run {s s' : σ} {log : List (σ × ε)} (h : S.Logged guard s log)
    (hrun : S.Run guard s s') : ∃ more, S.Logged guard s' (log ++ more) := by
  induction hrun with
  | refl => exact ⟨[], by rwa [append_nil]⟩
  | @tail s₁ s₂ _ hn ih =>
    obtain ⟨e, hg, hs⟩ := hn
    obtain ⟨more, hlog⟩ := ih
    exact ⟨more ++ [(s₁, e)], append_assoc log more _ ▸ hlog.step hg hs⟩

theorem Reachable.logged {s : σ} (h : S.Reachable guard s) : ∃ log, S.Logged guard s log := by
  obtain ⟨s₀, h0, hrun⟩ := h
  exact (Logged.start h0).run hrun

theorem Logged.split {s : σ} {log : List (σ × ε)} (h : S.Logged guard s log)
    {before after : List (σ × ε)} {entry : σ × ε} (he : log = before ++ entry :: after) :
    S.Logged guard entry.1 before ∧ guard entry.1 entry.2 ∧ ∃ s', S.step entry.1 entry.2 = some s' := by
  induction h generalizing after with
  | start => exact absurd he.symm (append_ne_nil_of_right_ne_nil _ (cons_ne_nil _ _))
  | @step s s' e log hlog hg hs ih =>
    rcases eq_nil_or_concat after with rfl | ⟨after', last, rfl⟩
    · obtain ⟨rfl, hla⟩ := append_inj' he rfl
      obtain rfl := (List.cons.inj hla).1
      exact ⟨hlog, hg, s', hs⟩
    · rw [concat_eq_append, ← cons_append, ← append_assoc] at he
      exact ih (append_inj' he rfl).1

/--
**From an event on.** What holds after an event, and what the later events of the record preserve, holds
of every state that accepts one of them, and of the last one.
-/
theorem Logged.since {I : σ → Prop} {s : σ} {log : List (σ × ε)} (h : S.Logged guard s log)
    {before after : List (σ × ε)} {entry : σ × ε} (he : log = before ++ entry :: after)
    (hent : ∀ s', S.step entry.1 entry.2 = some s' → I s')
    (hst : ∀ p e p', (p, e) ∈ after → I p → S.step p e = some p' → I p') :
    I s ∧ ∀ later ∈ after, I later.1 := by
  induction h generalizing after with
  | start => exact absurd he.symm (append_ne_nil_of_right_ne_nil _ (cons_ne_nil _ _))
  | @step s s' e log hlog hg hs ih =>
    rcases eq_nil_or_concat after with rfl | ⟨after', last, rfl⟩
    · obtain ⟨_, hla⟩ := append_inj' he rfl
      rw [← (List.cons.inj hla).1] at hent
      exact ⟨hent s' hs, fun later hltr => absurd hltr not_mem_nil⟩
    · rw [concat_eq_append] at hst ⊢
      rw [concat_eq_append, ← cons_append, ← append_assoc] at he
      obtain ⟨hbf, hla⟩ := append_inj' he rfl
      obtain ⟨hI, hltr⟩ := ih hbf fun p e p' hmem =>
        hst p e p' (mem_append_left _ hmem)
      rw [← (List.cons.inj hla).1] at hst ⊢
      refine ⟨hst s e s' (mem_append_right _ (mem_singleton_self _)) hI hs, ?_⟩
      intro later hmem
      rcases mem_append.mp hmem with hmem | hmem
      · exact hltr later hmem
      · rw [mem_singleton.mp hmem]
        exact hI

theorem Logged.run_of_mem {s : σ} {log : List (σ × ε)} (h : S.Logged guard s log) {entry : σ × ε}
    (he : entry ∈ log) : S.Reachable guard entry.1 ∧ S.Run guard entry.1 s := by
  induction h with
  | start => exact absurd he not_mem_nil
  | @step s s' e log hlog hg hs ih =>
    rcases mem_append.mp he with hold | hnew
    · exact ⟨(ih hold).1, (ih hold).2.tail ⟨e, hg, hs⟩⟩
    · rw [mem_singleton.mp hnew]
      exact ⟨hlog.reachable, .single ⟨e, hg, hs⟩⟩

theorem Logged.under {guard' : σ → ε → Prop} {s : σ} {log : List (σ × ε)} (h : S.Logged guard s log)
    (hall : ∀ entry ∈ log, guard' entry.1 entry.2) : S.Logged guard' s log := by
  induction h with
  | start h0 => exact .start h0
  | @step s s' e log _ hg hs ih =>
    have hbf := ih fun entry hent => hall entry (mem_append_left _ hent)
    exact hbf.step (hall (s, e) (mem_append_right _ mem_cons_self)) hs

theorem Logged.passed {s : σ} {log : List (σ × ε)} (h : S.Logged guard s log) {p : σ}
    (hp : p ∈ log.map Prod.fst ++ [s]) : S.Reachable guard p := by
  rcases mem_append.mp hp with hbf | hla
  · obtain ⟨entry, hent, rfl⟩ := List.mem_map.mp hbf
    obtain ⟨before, after, hlog⟩ := append_of_mem hent
    exact (h.split hlog).1.reachable
  · rw [mem_singleton.mp hla]
    exact h.reachable

/-- **A slot holds the last value written to it**, when nothing but the writes changes it. -/
theorem Logged.last_written {V : Type} (read : σ → Option V) (write : ε → Option V) {s : σ}
    {log : List (σ × ε)} (h : S.Logged guard s log) (hin : ∀ s, S.start s → read s = none)
    (hst : ∀ s e s', S.step s e = some s' → read s' = (write e).or (read s)) :
    read s = (log.filterMap fun entry => write entry.2).getLast? := by
  induction h with
  | start h0 => exact hin _ h0
  | @step s s' e log _ _ hs ih =>
    rw [hst s e s' hs, ih, filterMap_append, List.getLast?_append]
    simp only [filterMap_cons, filterMap_nil]
    cases write e with
    | none | some => rfl

/--
**What all steps have to meet.** If a step keeps `I` exactly when it meets `K`, then `I` holds of every
state that a run passes exactly when every step of it meets `K`. The steps that meet `K` may keep some
`J` as well, which the next step needs.
-/
theorem Logged.forall_passed_iff_with {I J : σ → Prop} {K : σ → ε → Prop} {s : σ}
    {log : List (σ × ε)} (h : S.Logged guard s log) (hin : ∀ s, S.start s → I s ∧ J s)
    (hst : ∀ s e s', S.Reachable guard s → guard s e → S.step s e = some s' → I s →
      (I s' → K s e) ∧ (J s → K s e → I s' ∧ J s')) :
    (∀ p ∈ log.map Prod.fst ++ [s], I p) ↔ ∀ entry ∈ log, K entry.1 entry.2 := by
  suffices key : ((∀ p ∈ log.map Prod.fst ++ [s], I p) ↔ ∀ entry ∈ log, K entry.1 entry.2) ∧
      ((∀ entry ∈ log, K entry.1 entry.2) → J s) from key.1
  induction h with
  | @start s h0 =>
    refine ⟨⟨fun _ entry hent => absurd hent not_mem_nil, fun _ p hp => ?_⟩, fun _ => (hin s h0).2⟩
    rw [mem_singleton.mp hp]
    exact (hin s h0).1
  | @step s s' e log hlog hg hs ih =>
    obtain ⟨hiff, hJ⟩ := ih
    have hpsd : (log ++ [(s, e)]).map Prod.fst ++ [s'] = log.map Prod.fst ++ [s] ++ [s'] := by
      rw [map_append]
      rfl
    rw [hpsd]
    simp only [forall_mem_append, forall_mem_singleton] at hiff ⊢
    have hnx : (∀ entry ∈ log, K entry.1 entry.2) → K s e → I s' ∧ J s' := by
      intro hall hK
      exact (hst s e s' hlog.reachable hg hs (hiff.mpr hall).2).2 (hJ hall) hK
    refine ⟨⟨?_, ?_⟩, fun h => (hnx h.1 h.2).2⟩
    · intro h
      exact ⟨hiff.mp h.1, (hst s e s' hlog.reachable hg hs h.1.2).1 h.2⟩
    · intro h
      exact ⟨hiff.mpr h.1, (hnx h.1 h.2).1⟩

theorem Logged.forall_passed_iff {I : σ → Prop} {K : σ → ε → Prop} {s : σ} {log : List (σ × ε)}
    (h : S.Logged guard s log) (hin : ∀ s, S.start s → I s)
    (hst : ∀ s e s', S.Reachable guard s → guard s e → S.step s e = some s' → I s → (I s' ↔ K s e)) :
    (∀ p ∈ log.map Prod.fst ++ [s], I p) ↔ ∀ entry ∈ log, K entry.1 entry.2 := by
  refine h.forall_passed_iff_with (J := fun _ => True) (fun s h0 => ⟨hin s h0, trivial⟩) ?_
  intro s e s' hr hg hs hI
  have hiff := hst s e s' hr hg hs hI
  exact ⟨hiff.mp, fun _ hK => ⟨hiff.mpr hK, trivial⟩⟩

/-! ## Executing a run -/

section Execute

variable [∀ s e, Decidable (guard s e)]

variable (S guard) in
/-- Play a list of events, refusing those that break the guard. -/
def play : List ε → σ → Option σ
  | [], s => some s
  | e :: es, s => if guard s e then (S.step s e).bind (play es) else none

theorem run_of_play {s s' : σ} : ∀ {es : List ε}, S.play guard es s = some s' → S.Run guard s s' := by
  intro es
  induction es generalizing s with
  | nil => intro h; cases h; exact .refl
  | cons e es ih =>
    intro h
    rw [play] at h
    split at h
    · rename_i hg
      obtain ⟨s₁, hs₁, hrst⟩ := bind_eq_some_iff.mp h
      exact .head ⟨e, hg, hs₁⟩ (ih hrst)
    · cases h

theorem reachable_of_play {s s' : σ} {es : List ε} (h0 : S.start s)
    (h : S.play guard es s = some s') : S.Reachable guard s' :=
  ⟨s, h0, run_of_play h⟩

section

omit [∀ s e, Decidable (guard s e)]

variable (S) in
/-- The record of playing a list of events. -/
def record : List ε → σ → List (σ × ε)
  | [], _ => []
  | e :: es, s => (s, e) :: ((S.step s e).map (record es)).getD []

theorem event_of_record {es : List ε} {s : σ} {entry : σ × ε} (h : entry ∈ S.record es s) :
    entry.2 ∈ es := by
  induction es generalizing s with
  | nil => cases h
  | cons e es ih =>
    rw [record] at h
    rcases mem_cons.mp h with rfl | hrst
    · exact mem_cons_self
    · refine mem_cons_of_mem e ?_
      cases hs : S.step s e with
      | none =>
        rw [hs] at hrst
        cases hrst
      | some =>
        rw [hs] at hrst
        exact ih hrst

end

theorem logged_of_play {s s' : σ} {es : List ε} (h0 : S.start s)
    (h : S.play guard es s = some s') : S.Logged guard s' (S.record es s) := by
  suffices key : ∀ (es : List ε) (s : σ) (log : List (σ × ε)), S.Logged guard s log →
      S.play guard es s = some s' → S.Logged guard s' (log ++ S.record es s) by
    exact key es s [] (.start h0) h
  intro es
  induction es with
  | nil =>
    intro s log hlog h
    cases h
    rwa [record, append_nil]
  | cons e es ih =>
    intro s log hlog h
    rw [play] at h
    split at h
    · rename_i hg
      obtain ⟨s₁, hs₁, hrst⟩ := bind_eq_some_iff.mp h
      have htl := ih s₁ _ (hlog.step hg hs₁) hrst
      rw [append_assoc] at htl
      rwa [record, hs₁, map_some, getD_some]
    · cases h

theorem exists_reachable_of_play {s : σ} {es : List ε} {p : σ → Bool} (h0 : S.start s)
    (h : (S.play guard es s).any p = true) : ∃ s', S.Reachable guard s' ∧ p s' = true := by
  obtain ⟨s', hs', hp⟩ := (Option.any_eq_true _ _).mp h
  exact ⟨s', reachable_of_play h0 hs', hp⟩

theorem exists_logged {s : σ} {es : List ε} {P : σ → Prop} [DecidablePred P] (h0 : S.start s)
    (h : (S.play guard es s).any (fun s => decide (P s)) = true) :
    ∃ s', S.Logged guard s' (S.record es s) ∧ P s' := by
  obtain ⟨s', hs', hp⟩ := (Option.any_eq_true _ _).mp h
  exact ⟨s', logged_of_play h0 hs', of_decide_eq_true hp⟩

theorem exists_reachable {s : σ} {es : List ε} {P : σ → Prop} [DecidablePred P] (h0 : S.start s)
    (h : (S.play guard es s).any (fun s => decide (P s)) = true) : ∃ s', S.Reachable guard s' ∧ P s' := by
  obtain ⟨s', hlog, hp⟩ := exists_logged h0 h
  exact ⟨s', hlog.reachable, hp⟩

end Execute

end System

/-!
## Endless runs

A run that never ends, and the argument by which something in it ends all the same: a measure in a
well-founded order that from some time on never rises can fall only finitely often.
-/

namespace System

variable {σ ε : Type}

/-- A run that goes on for ever. -/
structure Endless (S : System σ ε) (guard : σ → ε → Prop) where
  state : Nat → σ
  event : Nat → ε
  first : S.Reachable guard (state 0)
  next : ∀ k, guard (state k) (event k) ∧ S.step (state k) (event k) = some (state (k + 1))

variable {S : System σ ε} {guard : σ → ε → Prop}

theorem Endless.reachable (run : S.Endless guard) (k : Nat) : S.Reachable guard (run.state k) := by
  induction k with
  | zero => exact run.first
  | succ k ih => exact ih.tail (run.next k).1 (run.next k).2

end System

/-- **A measure that does not rise falls finitely often.** -/
theorem falls_finitely_often {α : Type} [Preorder α] [WellFoundedLT α] (measure : Nat → α) {start : Nat}
    (h : ∀ k, start ≤ k → measure (k + 1) ≤ measure k) :
    ∃ last, ∀ k, last ≤ k → ¬measure (k + 1) < measure k := by
  obtain ⟨m, ⟨last, hla, rfl⟩, hmin⟩ := WellFounded.has_min wellFounded_lt
    { m | ∃ k, start ≤ k ∧ measure k = m } ⟨measure start, start, Nat.le_refl _, rfl⟩
  have hbel : ∀ k, last ≤ k → measure k ≤ measure last := by
    intro k hk
    induction k, hk using Nat.le_induction with
    | base => exact le_refl _
    | succ k hk ih => exact (h k (hla.trans hk)).trans ih
  refine ⟨last, fun k hk hfal => ?_⟩
  exact hmin (measure (k + 1)) ⟨k + 1, by omega, rfl⟩ (hfal.trans_le (hbel k hk))

end AiNet.Core
