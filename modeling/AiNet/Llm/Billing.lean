import AiNet.Llm.Allowance
import AiNet.Core.Transition

/-!
# What an agent bills a task

An agent counts what its calls report in one object, which the executions of all tasks share: one that starts resets it
for the others (the agents on `BaseAgent` never do), and each adds to what another one reads. So an execution reads what
it used itself as long as its reports come while it is alone. And no result has the `usage` that the counters are for.
-/

namespace AiNet.Llm.Billing

open Core List Option System

/-- An execution at a call of the client: whether the call has reported its usage, whether it is the second one, and
what the calls of this very task have reported. -/
structure Execution where
  reported : Bool
  retried : Bool
  own : AgentUsage
  deriving DecidableEq

/-- What `execute` returns: neither form has a member `usage`. -/
inductive Returned where
  | result
  | error (code : String)
  deriving DecidableEq

def Returned.usage : Returned → Option AgentUsage
  | .result | .error _ => Option.none

/-- An execution that has ended: what it returned, and what `usageForCurrentTask` gave then. -/
structure Finished where
  own : AgentUsage
  read : AgentUsage
  returned : Returned
  deriving DecidableEq

structure Agent where
  usage : AgentUsage
  running : List Execution
  finished : List Finished

inductive Answer where
  | accepted
  | malformed
  | thrown (code : String)

inductive Event where
  | execute
  | onUsage (i : Nat) (usage : AgentUsage)
  | resume (i : Nat) (answer : Answer)

def Agent.finish (s : Agent) (i : Nat) (x : Execution) (returned : Returned) : Agent :=
  { s with running := s.running.eraseIdx i, finished := s.finished ++ [⟨x.own, s.usage, returned⟩] }

/-- The client reports before it returns, and not where it throws. -/
def Agent.resume (s : Agent) (i : Nat) (x : Execution) : Answer → Option Agent
  | .thrown code => if x.reported then Option.none else some (s.finish i x (.error code))
  | .accepted => if x.reported then some (s.finish i x .result) else Option.none
  | .malformed =>
    if !x.reported then Option.none
    else if x.retried then some (s.finish i x (.error "VENICE_MALFORMED_RESPONSE"))
    else some { s with running := s.running.set i { x with reported := false, retried := true } }

/-- The research agent resets the counters when it starts; `resetUsage` of the others is not called. -/
def step (resets : Bool) (s : Agent) : Event → Option Agent
  | .execute => some { s with
      usage := if resets then .none else s.usage
      running := s.running ++ [⟨false, false, .none⟩] }
  | .onUsage i usage => (s.running[i]?.filter fun x => !x.reported).map fun x => { s with
      usage := s.usage.add usage
      running := s.running.set i { x with reported := true, own := x.own.add usage } }
  | .resume i answer => s.running[i]?.bind fun x => s.resume i x answer

def system (resets : Bool) : System Agent Event where
  start s := s = ⟨.none, [], []⟩
  step := step resets

/-- An execution starts while the others have used nothing, with the counters reset, and what is reported is the usage
of the only one that runs. -/
def Undisturbed (resets : Bool) (s : Agent) : Event → Prop
  | .execute => (∀ x ∈ s.running, x.own = .none) ∧ (resets = true ∨ s.usage = .none)
  | .onUsage _ usage => usage = .none ∨ s.running.length = 1
  | .resume _ _ => True

instance (resets : Bool) (s : Agent) : (e : Event) → Decidable (Undisturbed resets s e)
  | .execute | .onUsage _ _ | .resume _ _ => by
    unfold Undisturbed
    infer_instance

/-- The counters are those of every execution that runs. -/
structure Own (s : Agent) : Prop where
  running : ∀ x ∈ s.running, x.own = s.usage
  finished : ∀ f ∈ s.finished, f.read = f.own

variable {resets : Bool} {s s' : Agent} {e : Event} {i : Nat} {x : Execution}

theorem Own.finish (h : Own s) (hx : s.running[i]? = some x) (returned : Returned) : Own (s.finish i x returned) := by
  refine ⟨fun y hy => h.running y (mem_of_mem_eraseIdx hy), fun f hf => ?_⟩
  rcases mem_append.mp hf with hold | hnew
  · exact h.finished f hold
  · rw [mem_singleton.mp hnew]
    exact (h.running x (mem_of_getElem? hx)).symm

theorem Own.set (h : Own s) (hx : s.running[i]? = some x) {y : Execution} (hown : y.own = x.own) :
    Own { s with running := s.running.set i y } := by
  refine ⟨fun z hz => ?_, h.finished⟩
  rcases mem_or_eq_of_mem_set hz with hin | rfl
  · exact h.running z hin
  · exact hown.trans (h.running x (mem_of_getElem? hx))

theorem Own.resumed {answer : Answer} (h : Own s) (hx : s.running[i]? = some x)
    (hs : s.resume i x answer = some s') : Own s' := by
  cases answer with
  | thrown code =>
    obtain ⟨-, hs⟩ := ite_none_left_eq_some.mp hs
    exact some.inj hs ▸ h.finish hx _
  | accepted =>
    obtain ⟨-, hs⟩ := ite_none_right_eq_some.mp hs
    exact some.inj hs ▸ h.finish hx _
  | malformed =>
    obtain ⟨-, hs⟩ := ite_none_left_eq_some.mp hs
    split at hs
    · exact some.inj hs ▸ h.finish hx _
    · exact some.inj hs ▸ h.set hx rfl

theorem Own.step (h : Own s) (hg : Undisturbed resets s e) (hs : (system resets).step s e = some s') : Own s' := by
  cases e with
  | execute =>
    cases hs
    have hno : (if resets then AgentUsage.none else s.usage) = .none := by
      rcases hg.2 with hre | hno
      · rw [if_pos hre]
      · rw [hno, ite_self]
    refine ⟨fun x hx => ?_, h.finished⟩
    rw [hno]
    rcases mem_append.mp hx with hin | hnew
    · exact hg.1 x hin
    · rw [mem_singleton.mp hnew]
  | onUsage i usage =>
    obtain ⟨x, hx, rfl⟩ := map_eq_some_iff.mp hs
    have hx := (filter_eq_some_iff.mp hx).1
    have hown := h.running x (mem_of_getElem? hx)
    refine ⟨fun y hy => ?_, h.finished⟩
    rcases hg with hno | hlen
    · -- nothing is added to anyone
      have hadd : s.usage.add usage = s.usage := by rw [hno]; rfl
      rcases mem_or_eq_of_mem_set hy with hin | rfl
      · exact (h.running y hin).trans hadd.symm
      · exact congrArg (AgentUsage.add · usage) hown
    · obtain ⟨z, hz⟩ := length_eq_one_iff.mp hlen
      rw [hz] at hx hy
      obtain rfl : i = 0 := Nat.lt_one_iff.mp (List.getElem?_eq_some_iff.mp hx).1
      rw [mem_singleton.mp hy]
      exact congrArg (AgentUsage.add · usage) hown
  | resume i answer =>
    obtain ⟨x, hx, hs⟩ := bind_eq_some_iff.mp hs
    exact h.resumed hx hs

/--
**An execution that is undisturbed reads its own usage**, which is the sum of what its calls have reported; but no
result ever has a usage.
-/
theorem bills_own (resets : Bool) :
    (∀ s, (system resets).Reachable (fun _ _ => True) s → ∀ f ∈ s.finished, f.returned.usage ≠ some f.own) ∧
      ∀ s, (system resets).Reachable (Undisturbed resets) s → ∀ f ∈ s.finished, f.read = f.own := by
  refine ⟨fun s _ f _ => ?_, fun s h => ?_⟩
  · cases f.returned with
    | result | error => exact nofun
  · refine (h.invariant (I := Own) ?_ fun s e s' _ hg hI hs => hI.step hg hs).finished
    rintro s rfl
    exact ⟨nofun, nofun⟩

theorem bills_own_retried : ∃ s, (system true).Reachable (Undisturbed true) s ∧
    s.finished.map Finished.own = [⟨3, 2, 5⟩, ⟨1, 1, 2⟩] ∧ ∀ f ∈ s.finished, f.read = f.own := by
  have hpl : ((system true).play (Undisturbed true) [.execute, .onUsage 0 ⟨1, 1, 2⟩, .resume 0 .malformed,
      .onUsage 0 ⟨2, 1, 3⟩, .resume 0 .accepted, .execute, .onUsage 0 ⟨1, 1, 2⟩, .resume 0 .accepted]
      ⟨.none, [], []⟩).any (fun s => decide (s.finished.map Finished.own = [⟨3, 2, 5⟩, ⟨1, 1, 2⟩])) = true := by
    decide
  obtain ⟨s, hs, hown⟩ := exists_reachable (S := system true) rfl hpl
  exact ⟨s, hs, hown, (bills_own true).2 s hs⟩

/-- Two tasks at once: the second reads what the first one used, too, and neither result has a usage. -/
theorem bills_another : ∃ s, (system true).Reachable (fun _ _ => True) s ∧
    s.finished = [⟨⟨1, 1, 2⟩, ⟨1, 1, 2⟩, .result⟩, ⟨⟨2, 1, 3⟩, ⟨3, 2, 5⟩, .result⟩] ∧
    ∀ f ∈ s.finished, f.returned.usage ≠ some f.own := by
  have hpl : ((system true).play (fun _ _ => True) [.execute, .execute, .onUsage 0 ⟨1, 1, 2⟩, .resume 0 .accepted,
      .onUsage 0 ⟨2, 1, 3⟩, .resume 0 .accepted] ⟨.none, [], []⟩).any (fun s => decide (s.finished =
        [⟨⟨1, 1, 2⟩, ⟨1, 1, 2⟩, .result⟩, ⟨⟨2, 1, 3⟩, ⟨3, 2, 5⟩, .result⟩])) = true := by decide
  obtain ⟨s, hs, hfns⟩ := exists_reachable (S := system true) rfl hpl
  refine ⟨s, hs, hfns, fun f _ => ?_⟩
  cases f.returned with
  | result | error => exact nofun

end AiNet.Llm.Billing
