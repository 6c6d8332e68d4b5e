import AiNet.Core.Transition
import Mathlib.Data.List.Basic

/-!
# Components that keep one record per key

Many contracts are, apart from their configuration, a table of records in which every
call acts on one record: a task, a dispute, an auction. Such a component is a `Keyed`
system. What is stored for a key is its `view`; an event acts on at most one key; the
views of the other keys stay as they are. A claim about one record can then be proved
for a single view, by the rule `Keyed.invariant`, whatever happens to the others.
-/

namespace AiNet.Core

open List

variable {σ ε K A V : Type}

/-- A system of records: what is stored for a key, and what an event does to it. -/
structure Keyed (S : System σ ε) (K A V : Type) where
  /-- The key an event acts on, and how; none for an event that touches no record. -/
  act : ε → Option (K × A)
  /-- What is stored for a key. -/
  view : K → σ → V
  /-- What is stored for a key nothing was done to. -/
  vacant : V
  /-- `Change k s a v v'`: in state `s`, the action takes the view of `k` from `v` to `v'`. -/
  Change : K → σ → A → V → V → Prop
  /-- At the start nothing is stored. -/
  start : ∀ {s}, S.start s → ∀ k, view k s = vacant
  /-- An event changes the view of its key in one of the described ways. -/
  acted : ∀ {s s' e k a}, S.Reachable (fun _ _ => True) s → S.step s e = some s' →
    act e = some (k, a) → Change k s a (view k s) (view k s')
  /-- It leaves the other views alone. -/
  untouched : ∀ {s s' e k}, S.Reachable (fun _ _ => True) s → S.step s e = some s' →
    (∀ a, act e ≠ some (k, a)) → view k s' = view k s

namespace Keyed

variable {S : System σ ε} (O : Keyed S K A V)

/-- A condition on what is done to one record, in the state and to the view it is done to. -/
def OnKey (k : K) (p : σ → V → A → Prop) (s : σ) (e : ε) : Prop :=
  ∀ a, O.act e = some (k, a) → p s (O.view k s) a

instance [DecidableEq K] (k : K) (p : σ → V → A → Prop) [∀ s v a, Decidable (p s v a)] (s : σ)
    (e : ε) : Decidable (O.OnKey k p s e) :=
  match h : O.act e with
  | none => .isTrue (fun a ha => by rw [h] at ha; cases ha)
  | some (k', a') =>
    if hk : k' = k then
      if hp : p s (O.view k s) a' then
        .isTrue (fun a ha => by rw [h, hk] at ha; cases ha; exact hp)
      else .isFalse (fun hall => hp (hall a' (by rw [h, hk])))
    else .isTrue (fun a ha => by rw [h] at ha; cases ha; exact absurd rfl hk)

/-- What was done to one record in a run, each action with the state it found. -/
def acts [DecidableEq K] (k : K) (log : List (σ × ε)) : List (σ × A) :=
  log.filterMap fun entry =>
    match O.act entry.2 with
    | some (k', a) => if k' = k then some (entry.1, a) else none
    | none => none

variable [DecidableEq K]

theorem acts_append (k : K) (log more : List (σ × ε)) :
    O.acts k (log ++ more) = O.acts k log ++ O.acts k more :=
  filterMap_append

theorem acts_of_act {k : K} {a : A} {s : σ} {e : ε} (h : O.act e = some (k, a)) :
    O.acts k [(s, e)] = [(s, a)] := by
  simp [acts, h]

theorem acts_of_other {k : K} {s : σ} {e : ε} (h : ∀ a, O.act e ≠ some (k, a)) :
    O.acts k [(s, e)] = [] := by
  unfold acts
  rw [filterMap_cons, filterMap_nil]
  cases he : O.act e with
  | none => rfl
  | some ka =>
    obtain ⟨k', a⟩ := ka
    have hk : k' ≠ k := fun hk => h a (hk ▸ he)
    simp [hk]

omit [DecidableEq K] in
theorem reachable_of_logged {guard : σ → ε → Prop} {s : σ} {log : List (σ × ε)}
    (h : S.Logged guard s log) : S.Reachable (fun _ _ => True) s :=
  h.reachable.weaken fun _ _ _ => trivial

/--
**The invariant rule for one record.** A relation between its view and what was done to it holds
throughout every run that respects `p`, if it holds of the vacant view and every change allowed by
`p` preserves it.
-/
theorem invariant (I : V → List (σ × A) → Prop) {guard : σ → ε → Prop} {k : K}
    {p : σ → V → A → Prop} (hgrd : ∀ s e, guard s e → O.OnKey k p s e)
    (hvac : I O.vacant [])
    (hchg : ∀ s a v v' l, O.Change k s a v v' → p s v a → I v l → I v' (l ++ [(s, a)]))
    {s : σ} {log : List (σ × ε)} (h : S.Logged guard s log) : I (O.view k s) (O.acts k log) := by
  induction h with
  | start h0 =>
    rw [O.start h0 k]
    exact hvac
  | @step s s' e log hlog hg hs ih =>
    have hr := reachable_of_logged hlog
    rw [O.acts_append]
    by_cases hact : ∃ a, O.act e = some (k, a)
    · obtain ⟨a, ha⟩ := hact
      rw [O.acts_of_act ha]
      exact hchg s a _ _ _ (O.acted hr hs ha) (hgrd s e hg a ha) ih
    · have hoth : ∀ a, O.act e ≠ some (k, a) := fun a ha => hact ⟨a, ha⟩
      rw [O.acts_of_other hoth, append_nil, O.untouched hr hs hoth]
      exact ih

theorem invariant_always (I : V → List (σ × A) → Prop) {guard : σ → ε → Prop} {k : K}
    (hvac : I O.vacant [])
    (hchg : ∀ s a v v' l, O.Change k s a v v' → I v l → I v' (l ++ [(s, a)]))
    {s : σ} {log : List (σ × ε)} (h : S.Logged guard s log) : I (O.view k s) (O.acts k log) :=
  O.invariant I (fun _ _ _ _ _ => trivial) hvac
    (fun s a v v' l hc (_ : True) hI => hchg s a v v' l hc hI) h

theorem invariant_in (I : σ → V → List (σ × A) → Prop) {guard : σ → ε → Prop} {k : K}
    (hvac : ∀ s, S.start s → I s O.vacant [])
    (hst : ∀ s e s' v l, S.Reachable (fun _ _ => True) s → guard s e → S.step s e = some s' →
      I s v l → I s' v l)
    (hchg : ∀ s a v' l, O.Change k s a (O.view k s) v' → I s (O.view k s) l → I s v' (l ++ [(s, a)]))
    {s : σ} {log : List (σ × ε)} (h : S.Logged guard s log) :
    I s (O.view k s) (O.acts k log) := by
  induction h with
  | @start s h0 =>
    rw [O.start h0 k]
    exact hvac s h0
  | @step s s' e log hlog hg hs ih =>
    have hr := reachable_of_logged hlog
    refine hst s e s' _ _ hr hg hs ?_
    rw [O.acts_append]
    by_cases hact : ∃ a, O.act e = some (k, a)
    · obtain ⟨a, ha⟩ := hact
      rw [O.acts_of_act ha]
      exact hchg s a _ _ (O.acted hr hs ha) ih
    · have hoth : ∀ a, O.act e ≠ some (k, a) := fun a ha => hact ⟨a, ha⟩
      rw [O.acts_of_other hoth, append_nil, O.untouched hr hs hoth]
      exact ih

omit [DecidableEq K] in
theorem run_preserves (P : V → Prop) {guard : σ → ε → Prop} {k : K}
    (hchg : ∀ s a v v', O.Change k s a v v' → P v → P v') {s s' : σ}
    (hr : S.Reachable (fun _ _ => True) s) (hrun : S.Run guard s s') (h : P (O.view k s)) :
    P (O.view k s') := by
  refine @System.Run.invariant _ _ S guard (fun s => P (O.view k s)) s s' hrun h ?_
  intro s₁ e s₂ hrun₁ _ hP hs
  have hr₁ := hr.run (hrun₁.weaken fun _ _ _ => trivial)
  by_cases hact : ∃ a, O.act e = some (k, a)
  · obtain ⟨a, ha⟩ := hact
    exact hchg s₁ a _ _ (O.acted hr₁ hs ha) hP
  · rw [O.untouched hr₁ hs fun a ha => hact ⟨a, ha⟩]
    exact hP

end Keyed

end AiNet.Core
