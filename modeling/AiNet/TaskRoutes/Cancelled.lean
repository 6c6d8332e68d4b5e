import AiNet.Coordinator.Aborted
import AiNet.TaskRoutes.Runs

/-!
# Cancelled is final

The route writes `cancelled` and signals one controller. That stops the task if the controller is
the one of the only run that still does anything, if nothing waits in its limiter, and if its last
nodes do not finish as if it had not been aborted: from then on no run writes another status, and
no handler begins one. If two runs overlap, one of them is not signalled. It goes on to dispatch
and to pay, and it writes the status in which it settles over `cancelled`.
-/

namespace AiNet.TaskRoutes

open Core AiNet.Coordinator List Option TaskRow System

variable {κ τ ω : Type} [DecidableEq κ] {n : Nat} {plan : Plan κ n} {w w' : World κ τ ω n}
  {a : Nat} {x : Attempt κ n}

/-! ## What a step can do -/

/-- The runs and what they did are as they were. -/
structure Kept (w w' : World κ τ ω n) : Prop where
  log : w'.log = w.log
  attempts : ∀ a y, w'.attempts.get a = some y →
    ∃ x, w.attempts.get a = some x ∧ y.plan = x.plan ∧ y.given = x.given ∧ y.run = x.run

/-- What a step can do to the runs and to the status of the task. -/
inductive Moved (w : World κ τ ω n) : Event τ ω n → World κ τ ω n → Prop where
  | kept (e : Event τ ω n) (w' : World κ τ ω n) : Kept w w' → w'.task.status = w.task.status → Moved w e w'
  | failed (e : Event τ ω n) (w' : World κ τ ω n) : Kept w w' → w.task.status = .running →
      w'.task.status = .failed → Moved w e w'
  | turned (a : Nat) (x : Attempt κ n) (e : Coordinator.Event n) (run : Run κ n) :
      w.attempts.get a = some x → e ≠ .abort → Coordinator.step x.plan x.run e = some run →
      Moved w (.resume a e) (w.turn a x run)
  | began (e : Event τ ω n) (w₁ : World κ τ ω n) (handler : Nat) (plan : Plan κ n)
      (given : Fin n → Mark) : Kept w w₁ → w₁.task.status = w.task.status →
      w.task.status ≠ .cancelled → Moved w e (w₁.executeDAG handler plan given)
  | deleted (key : Option String) : Moved w (.delete key) (w.delete key).2

section

omit [DecidableEq κ]

theorem kept_same (hlog : w'.log = w.log) (hatm : w'.attempts = w.attempts) : Kept w w' where
  log := hlog
  attempts := by
    intro a y hy
    rw [hatm] at hy
    exact ⟨y, hy, rfl, rfl, rfl⟩

theorem kept_staged {p : Nat → Attempt κ n → Bool} {stage : Stage} (hlog : w'.log = w.log)
    (hatm : w'.attempts = w.attempts.rewrite p fun x => { x with stage := stage }) :
    Kept w w' where
  log := hlog
  attempts := by
    intro a y hy
    rw [hatm, Register.get_rewrite] at hy
    obtain ⟨x, hx, rfl⟩ := map_eq_some_iff.mp hy
    refine ⟨x, hx, ?_⟩
    split
    · exact ⟨rfl, rfl, rfl⟩
    · exact ⟨rfl, rfl, rfl⟩

theorem Kept.trans {w₁ w₂ : World κ τ ω n} (h : Kept w w₁) (h' : Kept w₁ w₂) : Kept w w₂ where
  log := h'.log.trans h.log
  attempts := by
    intro a y hy
    obtain ⟨x, hx, hpn, hgiv, hrun⟩ := h'.attempts a y hy
    obtain ⟨z, hz, hpn', hgiv', hrun'⟩ := h.attempts a x hx
    exact ⟨z, hz, hpn.trans hpn', hgiv.trans hgiv', hrun.trans hrun'⟩

end

/-! ## Turns -/

variable {run : Run κ n}

theorem get_turn (hx : w.attempts.get a = some x) (b : Nat) :
    (w.turn a x run).attempts.get b = if b = a then some { x with run := run } else w.attempts.get b := by
  show (w.attempts.rewrite _ _).get b = _
  rw [Register.get_rewrite]
  by_cases hb : b = a
  · rw [hb, hx, if_pos rfl, map_some, if_pos (decide_eq_true rfl)]
  · rw [if_neg hb]
    cases w.attempts.get b with
    | none => rfl
    | some => rw [map_some, if_neg (by simpa using hb)]

variable {es : List (Effect n)}

theorem turn_log (hlog : run.log = x.run.log ++ es) :
    (w.turn a x run).log = w.log ++ es.map fun e => (a, e) := by
  show w.log ++ (run.log.drop x.run.log.length).map _ = _
  rw [hlog, drop_left]

theorem write_status (plan : Plan κ n) (nodes : Fin n → Mark) (es : List (Effect n))
    (row : TaskRow n) :
    (es.foldl (write plan nodes) row).status = row.status ∨
      .task (es.foldl (write plan nodes) row).status ∈ es := by
  induction es generalizing row with
  | nil => exact .inl rfl
  | cons e es ih =>
    rw [foldl_cons]
    rcases ih (row.write plan nodes e) with hfst | hltr
    · rw [hfst]
      cases e with
      | task => exact .inr mem_cons_self
      | status i status => cases status <;> exact .inl rfl
      | dispatch | call | recorded | release | paid | aborted => exact .inl rfl
    · exact .inr (mem_cons_of_mem e hltr)

theorem turn_status (hlog : run.log = x.run.log ++ es) :
    (w.turn a x run).task.status = w.task.status ∨ .task (w.turn a x run).task.status ∈ es := by
  have hwte := write_status x.plan run.marks es w.task
  have htk : (w.turn a x run).task = es.foldl (write x.plan run.marks) w.task := by
    show (run.log.drop x.run.log.length).foldl _ _ = _
    rw [hlog, drop_left]
  rwa [htk]

/-! ## The condition -/

/-- The run has no continuation left. -/
def Attempt.still (x : Attempt κ n) : Bool := decide (∀ i, (x.run.phase i).live = false)

/--
What a step has to meet. When a running task is cancelled, the controller in the registry is that
of the only run that still does anything, and nothing waits in the run's limiter behind a running
node. And an aborted run is not found settled while a node is in flight.
-/
def Undisturbed (w : World κ τ ω n) : Event τ ω n → Prop
  | .delete key => w.task.owned key = true → w.task.status = .running → ∀ a x, w.attempts.get a = some x →
        x.still = true ∨ w.runningController = some a ∧ FiresClear x.run .abort
  | .resume a e => ∀ x, w.attempts.get a = some x → LastToFinish x.run e
  | _ => True

variable {e : Coordinator.Event n}

theorem Attempt.still_step (h : x.still = true) (he : e ≠ .abort) :
    Coordinator.step plan x.run e = none :=
  Quiet.step (fun i => .inl (of_decide_eq_true h i)) he

/-! ## Every run -/

/-- What holds of the runs in every state. -/
structure Sound (w : World κ τ ω n) : Prop where
  ran : ∀ a x, w.attempts.get a = some x → (Coordinator.system x.plan x.given).Reachable FiresClear x.run
  told : ∀ a x, w.attempts.get a = some x → ∀ e ∈ x.run.log, (a, e) ∈ w.log
  queued : w.task.status = .queued → ∀ a, w.attempts.get a = none

theorem Sound.kept (h : Sound w) (hkpt : Kept w w')
    (hst : w'.task.status = .queued → w.task.status = .queued) : Sound w' where
  ran := by
    intro a y hy
    obtain ⟨x, hx, hpn, hgiv, hrun⟩ := hkpt.attempts a y hy
    rw [hpn, hgiv, hrun]
    exact h.ran a x hx
  told := by
    intro a y hy e he
    obtain ⟨x, hx, _, _, hrun⟩ := hkpt.attempts a y hy
    rw [hkpt.log]
    rw [hrun] at he
    exact h.told a x hx e he
  queued := by
    intro hqd a
    cases hy : w'.attempts.get a with
    | none => rfl
    | some y =>
      obtain ⟨x, hx, _⟩ := hkpt.attempts a y hy
      rw [h.queued (hst hqd) a] at hx
      cases hx

theorem Sound.turn (h : Sound w) (hx : w.attempts.get a = some x) (hclr : FiresClear x.run e)
    (hrun : Coordinator.step x.plan x.run e = some run) :
    Sound (w.turn a x run) := by
  have hrea := (h.ran a x hx).tail hclr hrun
  obtain ⟨es, hes⟩ := step_appends (passed_of_reachable (h.ran a x hx)) hclr hrun
  refine ⟨?_, ?_, ?_⟩
  · intro b y hy
    rw [get_turn hx] at hy
    split at hy
    · cases hy
      exact hrea
    · exact h.ran b y hy
  · intro b y hy e' he'
    rw [turn_log hes]
    rw [get_turn hx] at hy
    split at hy
    · rename_i hb
      cases hy
      rw [show ({ x with run := run } : Attempt κ n).run.log = x.run.log ++ es from hes] at he'
      rw [hb]
      rcases mem_append.mp he' with hold | hnew
      · exact mem_append_left _ (h.told a x hx e' hold)
      · exact mem_append_right _ (List.mem_map_of_mem hnew)
    · exact mem_append_left _ (h.told b y hy e' he')
  · intro hqd
    rcases turn_status (w := w) (a := a) hes with hsm | hwrt
    · rw [h.queued (hsm.symm.trans hqd) a] at hx
      cases hx
    · rw [hqd] at hwrt
      refine absurd ?_ (passed_of_reachable hrea).never_queued
      rw [hes]
      exact mem_append_right _ hwrt

theorem Sound.executeDAG (h : Sound w) (handler : Nat) (plan : Plan κ n) (given : Fin n → Mark) :
    Sound (w.executeDAG handler plan given) := by
  have hrea : (Coordinator.system plan given).Reachable FiresClear (plan.executeDAG given) :=
    .init rfl
  refine ⟨?_, ?_, ?_⟩
  · intro b y hy
    rcases Register.of_get_add hy with ⟨_, rfl⟩ | hold
    · exact hrea
    · exact h.ran b y hold
  · intro b y hy e he
    show (b, e) ∈ w.log ++ (plan.executeDAG given).log.map _
    rcases Register.of_get_add hy with ⟨rfl, rfl⟩ | hold
    · exact mem_append_right _ (List.mem_map_of_mem he)
    · exact mem_append_left _ (h.told b y hold e he)
  · -- the run writes `running` first, and later no `queued`
    intro hqd
    have hnev := (passed_of_reachable hrea).never_queued
    obtain ⟨rest, hrst⟩ := (passed_of_reachable hrea).appends
    change ((plan.executeDAG given).log.foldl (write plan (plan.executeDAG given).marks)
      w.task).status = .queued at hqd
    generalize (plan.executeDAG given).marks = nodes at hqd
    rw [hrst] at hqd hnev
    change (rest.foldl (write plan nodes) (w.task.write plan nodes (.task .running))).status =
      .queued at hqd
    rcases write_status plan nodes rest
      (w.task.write plan nodes (.task .running)) with hsm | hwrt
    · cases hsm.symm.trans hqd
    · rw [hqd] at hwrt
      exact absurd (mem_append_right _ hwrt) hnev

theorem Sound.abort (h : Sound w)
    (hclr : ∀ x, w.attempts.get a = some x → FiresClear x.run .abort) : Sound (w.abort a) := by
  unfold World.abort
  cases hx : w.attempts.get a with
  | none => exact h
  | some x =>
    rw [bind_some]
    cases hrun : Coordinator.step x.plan x.run .abort with
    | none => exact h
    | some => exact h.turn hx (hclr x hx) hrun

theorem Sound.still_clear (h : Sound w) (hx : w.attempts.get a = some x) (hstl : x.still = true) :
    FiresClear x.run .abort := by
  intro _ hne
  obtain ⟨i, rest, hque⟩ := exists_cons_of_ne_nil hne
  have hwts : x.run.phase i = .waiting := by
    refine ((passed_of_reachable (h.ran a x hx)).wired.queued i).mp ?_
    show i ∈ x.run.queue
    rw [hque]
    exact mem_cons_self
  have hlv := of_decide_eq_true hstl i
  rw [hwts] at hlv
  cases hlv

theorem Sound.abortTask (h : Sound w)
    (hclr : ∀ a x, w.runningController = some a → w.attempts.get a = some x →
      FiresClear x.run .abort) : Sound w.abortTask := by
  unfold World.abortTask
  split
  · exact h
  · rename_i a ha
    exact (h.abort fun x hx => hclr a x ha hx).kept (kept_same rfl rfl) id

theorem Sound.clear (h : Sound w)
    (hru : ∀ a x, w.attempts.get a = some x →
      x.still = true ∨ w.runningController = some a ∧ FiresClear x.run .abort) :
    ∀ a x, w.runningController = some a → w.attempts.get a = some x → FiresClear x.run .abort := by
  intro a x _ hx
  rcases hru a x hx with hstl | ⟨_, hclr⟩
  · exact h.still_clear hx hstl
  · exact hclr

theorem Sound.delete (h : Sound w) {key : Option String} (hg : Undisturbed w (.delete key)) :
    Sound (w.delete key).2 := by
  unfold World.delete
  split
  · exact h
  · rename_i hown
    split
    · exact h.kept (kept_same rfl rfl) nofun
    · rename_i hrng
      have hclr := h.clear (hg (by simpa using hown) hrng)
      exact (h.abortTask hclr).kept (kept_same rfl rfl) nofun
    · exact h

/-! ## After the answer -/

def NothingNew (before later : List (Nat × Effect n)) : Prop :=
  ∀ a i, (a, .dispatch i) ∈ later ∨ (a, .release i) ∈ later ∨ (∃ ok, (a, .paid i ok) ∈ later) →
    ∃ b, (b, .dispatch i) ∈ before

/-- The run is aborted, and has dispatched no other nodes than those dispatched before. -/
structure Attempt.Stopped (before : List (Nat × Effect n)) (x : Attempt κ n) : Prop where
  aborted : x.run.aborted = true
  dispatched : ∀ i, .dispatch i ∈ x.run.log → ∃ b, (b, .dispatch i) ∈ before

/-- The state of affairs once the route has answered. -/
structure Final (before : List (Nat × Effect n)) (w : World κ τ ω n) : Prop where
  status : w.task.status = .cancelled
  runs : ∀ a x, w.attempts.get a = some x → x.still = true ∨ x.Stopped before
  later : ∃ later, w.log = before ++ later ∧ NothingNew before later

omit [DecidableEq κ] in
theorem nothingNew_append {before more later : List (Nat × Effect n)} (h : NothingNew before more)
    (h' : NothingNew before later) : NothingNew before (more ++ later) := by
  intro a i hwk
  simp only [mem_append, exists_or] at hwk
  rcases hwk with (hdi | hdi) | (hrls | hrls) | hpd | hpd
  · exact h a i (.inl hdi)
  · exact h' a i (.inl hdi)
  · exact h a i (.inr (.inl hrls))
  · exact h' a i (.inr (.inl hrls))
  · exact h a i (.inr (.inr hpd))
  · exact h' a i (.inr (.inr hpd))

variable {before : List (Nat × Effect n)}

/-- **The turn that aborts a run, and each later one, brings nothing new.** -/
theorem Attempt.stopped_turn (hrea : (Coordinator.system x.plan x.given).Reachable FiresClear run)
    (hlog : run.log = x.run.log ++ es) (hab : run.aborted = true)
    (hwh : .aborted ∈ x.run.log ∨ ∃ rest, es = .aborted :: rest)
    (hdi : ∀ i, .dispatch i ∈ x.run.log → ∃ b, (b, .dispatch i) ∈ before) (a : Nat) :
    NothingNew before (es.map fun e => (a, e)) ∧ ({ x with run := run } : Attempt κ n).Stopped before := by
  have hwks := stopped_works hrea hlog hab hwh
  constructor
  · intro b i hwk
    simp only [List.mem_map, Prod.mk.injEq, exists_eq_right_right, exists_and_right] at hwk
    rcases hwk with ⟨hdis, _⟩ | ⟨hrls, _⟩ | ⟨⟨ok, hpd⟩, _⟩
    · exact absurd hdis (hwks i).1
    · exact hdi i ((hwks i).2 (.inl hrls))
    · exact hdi i ((hwks i).2 (.inr ⟨ok, hpd⟩))
  · refine ⟨hab, fun i hin => ?_⟩
    change .dispatch i ∈ run.log at hin
    rw [hlog] at hin
    exact hdi i ((mem_append.mp hin).resolve_right (hwks i).1)

omit [DecidableEq κ] in
theorem Final.kept (h : Final before w) (hkpt : Kept w w')
    (hst : w'.task.status = .cancelled) : Final before w' where
  status := hst
  runs := by
    intro a y hy
    obtain ⟨x, hx, _, _, hrun⟩ := hkpt.attempts a y hy
    rcases h.runs a x hx with hstl | ⟨hab, hdi⟩
    · refine .inl ?_
      unfold Attempt.still
      rw [hrun]
      exact hstl
    · refine .inr ⟨?_, ?_⟩
      · rw [hrun]
        exact hab
      · rw [hrun]
        exact hdi
  later := by
    rw [hkpt.log]
    exact h.later

theorem Final.turn (h : Final before w) (hw : Sound w) (hx : w.attempts.get a = some x) (he : e ≠ .abort)
    (hla : LastToFinish x.run e) (hrun : Coordinator.step x.plan x.run e = some run) :
    Final before (w.turn a x run) := by
  obtain ⟨hab, hdi⟩ : x.Stopped before := by
    refine (h.runs a x hx).resolve_left fun hstl => ?_
    rw [x.still_step hstl he] at hrun
    cases hrun
  have hbf := hw.ran a x hx
  have hrea := hbf.tail (fun hfir => absurd hfir he) hrun
  obtain ⟨es, hlog, htas⟩ := aborted_tasks hbf hab hrun hla
  have hfi := (passed_of_reachable hbf).aborted_iff.mp hab
  have hab' : run.aborted = true := by
    rw [step_aborted (passed_of_reachable hbf) he hrun]
    exact hab
  obtain ⟨hnew, hstp⟩ :=
    x.stopped_turn hrea hlog hab' (.inl hfi) hdi a
  refine ⟨?_, ?_, ?_⟩
  · rcases turn_status (w := w) (a := a) hlog with hsm | hwrt
    · exact hsm.trans h.status
    · exact htas _ hwrt
  · intro b y hy
    rw [get_turn hx] at hy
    split at hy
    · cases hy
      exact .inr hstp
    · exact h.runs b y hy
  · obtain ⟨later, hw', hltr⟩ := h.later
    refine ⟨later ++ es.map fun e => (a, e), ?_, nothingNew_append hltr hnew⟩
    rw [turn_log hlog, hw', append_assoc]

theorem final_of_abort (hw : Sound w)
    (hru : ∀ b x, w.attempts.get b = some x → x.still = true ∨ b = a ∧ FiresClear x.run .abort) :
    (∀ b x, (w.abort a).attempts.get b = some x → x.still = true ∨ x.Stopped w.log) ∧
      ∃ later, (w.abort a).log = w.log ++ later ∧ NothingNew w.log later := by
  have hno : NothingNew w.log ([] : List (Nat × Effect n)) := by
    intro b i hwk
    simp at hwk
  have hdi : ∀ b x, w.attempts.get b = some x → ∀ i, .dispatch i ∈ x.run.log →
      ∃ b, (b, .dispatch i) ∈ w.log := fun b x hx i hin => ⟨b, hw.told b x hx _ hin⟩
  have hots : ∀ b x, w.attempts.get b = some x → b ≠ a → x.still = true := by
    intro b x hx hne
    exact (hru b x hx).resolve_right fun hsm => hne hsm.1
  unfold World.abort
  cases hx : w.attempts.get a with
  | none =>
    refine ⟨fun b y hy => .inl (hots b y hy fun hba => ?_), [], (append_nil _).symm, hno⟩
    change w.attempts.get b = some y at hy
    rw [hba, hx] at hy
    cases hy
  | some x =>
    rw [bind_some]
    have hrea := hw.ran a x hx
    have hclr : FiresClear x.run .abort := by
      rcases hru a x hx with hstl | ⟨_, hclr⟩
      · exact hw.still_clear hx hstl
      · exact hclr
    cases hrun : Coordinator.step x.plan x.run .abort with
    | none =>
      -- it was aborted before
      have hab : x.run.aborted = true := by
        by_contra hon
        cases (if_neg hon).symm.trans hrun
      refine ⟨fun b y hy => ?_, [], (append_nil _).symm, hno⟩
      change w.attempts.get b = some y at hy
      by_cases hba : b = a
      · rw [hba, hx] at hy
        cases hy
        exact .inr ⟨hab, hdi a x hx⟩
      · exact .inl (hots b y hy hba)
    | some run =>
      obtain ⟨hab, rest, hlog⟩ := abort_appends hrun
      obtain ⟨hnew, hstp⟩ := x.stopped_turn (hrea.tail hclr hrun) hlog hab
        (.inr ⟨rest, rfl⟩) (hdi a x hx) a
      refine ⟨fun b y hy => ?_, _, turn_log hlog, hnew⟩
      change (w.turn a x run).attempts.get b = some y at hy
      rw [get_turn hx] at hy
      split at hy
      · cases hy
        exact .inr hstp
      · rename_i hba
        exact .inl (hots b y hy hba)

/-- **The answer 200 makes it final.** -/
theorem final_of_delete (hw : Sound w) {key : Option String} (hg : Undisturbed w (.delete key))
    (hok : (w.delete key).1.ok = true) : Final w.log (w.delete key).2 := by
  unfold World.delete at hok ⊢
  split at hok
  · cases hok
  · rename_i hown
    rw [if_neg hown]
    have hno : NothingNew w.log ([] : List (Nat × Effect n)) := by
      intro b i hwk
      simp at hwk
    split at hok
    · -- no handler has begun a run
      rename_i hqd
      refine ⟨rfl, fun b x hx => ?_, [], (append_nil _).symm, hno⟩
      have hemp : w.attempts.get b = none := hw.queued hqd b
      cases hemp.symm.trans hx
    · rename_i hrng
      have hru := hg (by simpa using hown) hrng
      dsimp only
      unfold World.abortTask
      cases hre : w.runningController with
      | none =>
        refine ⟨rfl, fun b x hx => .inl ?_, [], (append_nil _).symm, hno⟩
        refine (hru b x hx).resolve_right fun hreg => ?_
        cases hre.symm.trans hreg.1
      | some a =>
        have hone : ∀ b x, w.attempts.get b = some x →
            x.still = true ∨ b = a ∧ FiresClear x.run .abort := by
          intro b x hx
          refine (hru b x hx).imp_right fun hreg => ⟨?_, hreg.2⟩
          exact some.inj (hreg.1.symm.trans hre)
        obtain ⟨hstp, hltr⟩ := final_of_abort hw hone
        exact ⟨rfl, hstp, hltr⟩
    · cases hok

/-! ## Steps -/

variable [DecidableEq τ] [DecidableEq ω] {options : ω → Queue.JobWorkerOptions} {taskId : τ}
  {e : Event τ ω n}

omit [DecidableEq κ] in
theorem of_onQueue {q : Queue.Event τ ω} (h : w.onQueue options q = some w') :
    Kept w w' ∧ w'.task = w.task := by
  obtain ⟨queue, _, rfl⟩ := map_eq_some_iff.mp h
  exact ⟨kept_same rfl rfl, rfl⟩

/-- **What a step can do.** -/
theorem step_moved (h : step options taskId plan w e = some w') : Moved w e w' := by
  cases e with
  | queue | returned | threw =>
    obtain ⟨_, h⟩ := ite_none_left_eq_some.mp h
    obtain ⟨hkpt, htk⟩ := of_onQueue h
    exact .kept _ _ hkpt (by rw [htk])
  | claim worker id now dailyExceeded =>
    obtain ⟨w₁, hclm, rfl⟩ := map_eq_some_iff.mp h
    obtain ⟨hkpt, htk⟩ := of_onQueue hclm
    split
    · unfold World.handle
      split
      · exact .kept _ _ hkpt (by rw [htk])
      · rename_i hnot
        rw [htk] at hnot
        exact .began _ _ _ _ _ (hkpt.trans (kept_same rfl rfl)) (by rw [htk]) hnot
    · exact .kept _ _ hkpt (by rw [htk])
  | resume a e =>
    have htn : e ≠ .abort → (w.attempts.get a).bind (fun x =>
        (Coordinator.step x.plan x.run e).map fun run => w.turn a x run) = some w' →
        Moved w (.resume a e) w' := by
      intro he h
      obtain ⟨x, hx, h⟩ := bind_eq_some_iff.mp h
      obtain ⟨run, hrun, rfl⟩ := map_eq_some_iff.mp h
      exact .turned a x e run hx he hrun
    cases e with
    | abort => cases h
    | agentsFor | answer | resume | payment | count | free | finish =>
      exact htn (by rintro ⟨⟩) h
  | unregister =>
    obtain ⟨x, _, h⟩ := bind_eq_some_iff.mp h
    obtain ⟨_, h⟩ := ite_none_right_eq_some.mp h
    cases h
    exact .kept _ _ (kept_staged rfl rfl) rfl
  | settle a =>
    obtain ⟨x, _, h⟩ := bind_eq_some_iff.mp h
    obtain ⟨_, h⟩ := ite_none_right_eq_some.mp h
    obtain ⟨hkpt, htk⟩ := of_onQueue h
    have hst : Kept w { w with
        attempts := w.attempts.rewrite (fun k _ => decide (k = a)) fun x =>
          { x with stage := .returned } } := kept_staged rfl rfl
    exact .kept _ _ (hst.trans hkpt) (by rw [htk])
  | delete key =>
    cases h
    exact .deleted key
  | failRunningTasks =>
    cases h
    by_cases hrng : w.task.status = .running
    · refine .failed _ _ (kept_same rfl rfl) hrng ?_
      unfold failRunning
      rw [if_pos hrng]
    · refine .kept _ _ (kept_same rfl rfl) ?_
      unfold failRunning
      rw [if_neg hrng]
  | crash =>
    cases h
    refine .kept _ _ ⟨rfl, ?_⟩ rfl
    intro a y hy
    exact absurd (Register.of_get_drop hy).2 Bool.true_eq_false.mp

theorem sound_reachable (h : (system options taskId plan).Reachable Undisturbed w) : Sound w := by
  refine System.Reachable.invariant ?_ ?_ h
  · intro w ⟨_, _, _, _, hatm, _⟩
    have hno : ∀ a, w.attempts.get a = none := by
      intro a
      rw [hatm]
      rfl
    refine ⟨?_, ?_, fun _ => hno⟩
    · intro a x hx
      rw [hno a] at hx
      cases hx
    · intro a x hx
      rw [hno a] at hx
      cases hx
  · intro w e w' _ hg hw hsp
    cases step_moved hsp with
    | kept _ _ hkpt hst => exact hw.kept hkpt fun hqd => hst.symm.trans hqd
    | failed _ _ hkpt _ hfai =>
      refine hw.kept hkpt fun hqd => ?_
      cases hfai.symm.trans hqd
    | turned a x e run hx he hrun => exact hw.turn hx (fun hab => absurd hab he) hrun
    | began _ w₁ handler plan given hkpt hst =>
      have hw₁ := hw.kept hkpt fun hqd => hst.symm.trans hqd
      exact hw₁.executeDAG handler plan given
    | deleted => exact hw.delete hg

/-- **What is final stays so.** -/
theorem Final.step (h : Final before w) (hw : Sound w) (hg : Undisturbed w e)
    (hsp : step options taskId plan w e = some w') : Final before w' := by
  cases step_moved hsp with
  | kept _ _ hkpt hst => exact h.kept hkpt (hst.trans h.status)
  | failed _ _ _ hrng =>
    rw [h.status] at hrng
    cases hrng
  | turned a x e run hx he hrun => exact h.turn hw hx he (hg x hx) hrun
  | began _ _ _ _ _ _ _ hnot => exact absurd h.status hnot
  | deleted key =>
    -- a task that is cancelled is not cancelled again
    have hsm : (w.delete key).2 = w := by
      unfold World.delete
      split
      · rfl
      · rw [h.status]
    rw [hsm]
    exact h

/--
**Cancelled is final**, if every step meets the condition. Once a `DELETE` is answered with 200, the
status is `cancelled` in every later state, and no run dispatches or pays for a node that no run had
dispatched before.
-/
theorem cancelled_is_final {log : List (World κ τ ω n × Event τ ω n)}
    (h : (system options taskId plan).Logged Undisturbed w log)
    {before after : List (World κ τ ω n × Event τ ω n)} {w₀ : World κ τ ω n} {key : Option String}
    (hlog : log = before ++ (w₀, .delete key) :: after) (hok : (w₀.delete key).1.ok = true) :
    (w.task.status = .cancelled ∧ ∀ later ∈ after, later.1.task.status = .cancelled) ∧
      ∃ later, w.log = w₀.log ++ later ∧ NothingNew w₀.log later := by
  obtain ⟨hps, hg, _⟩ := h.split hlog
  have hbo : (Sound w ∧ Final w₀.log w) ∧ ∀ later ∈ after, Sound later.1 ∧ Final w₀.log later.1 := by
    refine h.since (I := fun w => Sound w ∧ Final w₀.log w) hlog ?_ ?_
    · intro w₁ hst
      cases hst
      have hw₀ := sound_reachable hps.reachable
      exact ⟨hw₀.delete hg, final_of_delete hw₀ hg hok⟩
    · intro p e p' hin hp hst
      obtain ⟨between, rest, haf⟩ := append_of_mem hin
      have hspl : log = (before ++ (w₀, .delete key) :: between) ++ (p, e) :: rest := by
        rw [hlog, haf, append_assoc, cons_append]
      obtain ⟨hlgd, hge, _⟩ := h.split hspl
      have hrea := hlgd.reachable.tail hge hst
      exact ⟨sound_reachable hrea, hp.2.step hp.1 hge hst⟩
  exact ⟨⟨hbo.1.2.status, fun later hin => (hbo.2 later hin).2.status⟩, hbo.1.2.later⟩

/-! ## Examples -/

omit [DecidableEq κ] [DecidableEq τ] [DecidableEq ω] in
theorem forall_attempts {q : Nat → Attempt κ n → Bool} :
    w.attempts.any (fun a x => !q a x) = false ↔ ∀ a x, w.attempts.get a = some x → q a x = true := by
  rw [Bool.eq_false_iff, ne_eq, Register.any_eq_true]
  constructor
  · intro h a x hx
    by_contra hq
    exact h ⟨a, x, hx, by simpa using hq⟩
  · rintro h ⟨a, x, hx, hq⟩
    rw [h a x hx] at hq
    cases hq

omit [DecidableEq τ] [DecidableEq ω] in
instance (w : World κ τ ω n) : ∀ e, Decidable (Undisturbed w e)
  | .delete key => decidable_of_iff (w.task.owned key = true → w.task.status = .running →
      w.attempts.any (fun a x => !decide (x.still = true ∨ w.runningController = some a ∧
        FiresClear x.run .abort)) = false) (by
        rw [forall_attempts]
        simp only [decide_eq_true_eq]
        rfl)
  | .resume a e => decidable_of_iff
      ((w.attempts.get a).all (fun x => decide (LastToFinish x.run e)) = true) (by
        cases hx : w.attempts.get a with
        | none => simp [Undisturbed, hx]
        | some => simp [Undisturbed, hx])
  | .queue _ | .claim _ _ _ _ | .unregister _ | .settle _ _ _ | .returned _ _ | .threw _ _ _ _
  | .failRunningTasks | .crash => .isTrue trivial

namespace Sample

def workers : Nat → Queue.JobWorkerOptions := fun _ => ⟨3, 30000⟩

/-- The world of a new task. -/
def start : World Nat Nat Nat 2 :=
  ⟨⟨.empty, .empty, .empty⟩, ⟨"owner", .queued, fun _ => ⟨.pending, none⟩⟩, none, .empty, []⟩

abbrev process : System (World Nat Nat Nat 2) (Event Nat Nat 2) :=
  system workers 7 Coordinator.Sample.chain

theorem started : process.start start := ⟨rfl, rfl, fun _ => rfl, rfl, rfl, rfl⟩

/-- The job is submitted, and a worker claims it. -/
def claimed : List (Event Nat Nat 2) :=
  [.queue (.enqueue ⟨7, none, none⟩ 3 0), .claim 0 0 0 fun _ => false]

/-- A run takes a node through. -/
def through (a : Nat) (i : Fin 2) : List (Event Nat Nat 2) :=
  (Coordinator.Sample.through i).map (.resume a)

end Sample

/-- The owner cancels while the first of two nodes runs. The node is completed and paid for, the
second one never begins, and the job is done. -/
theorem cancelled_is_final_once : ∃ w log before after w₀,
    Sample.process.Logged Undisturbed w log ∧ log = before ++ (w₀, .delete (some "owner")) :: after ∧
      ((w.task.status = .cancelled ∧ ∀ later ∈ after, later.1.task.status = .cancelled) ∧
        ∃ later, w.log = w₀.log ++ later ∧ NothingNew w₀.log later) ∧
      (w₀.delete (some "owner")).1 = .cancelling ∧ (0, .paid 0 true) ∈ w.log ∧
        (0, .dispatch 1) ∉ w.log := by
  have hpl : ((Sample.process.play Undisturbed Sample.claimed Sample.start).any fun w₀ =>
      decide (Undisturbed w₀ (.delete (some "owner"))) &&
        decide ((w₀.delete (some "owner")).1 = .cancelling) &&
        (Sample.process.play Undisturbed (Sample.through 0 0 ++ [.unregister 0, .settle 0 100 0])
          (w₀.delete (some "owner")).2).any fun w =>
            decide ((0, .paid 0 true) ∈ w.log ∧ (0, .dispatch 1) ∉ w.log)) = true := by
    decide
  obtain ⟨w₀, hcmd, hrst⟩ := (Option.any_eq_true _ _).mp hpl
  obtain ⟨hans, hrst⟩ := Bool.and_eq_true_iff.mp hrst
  obtain ⟨hg, hans⟩ := Bool.and_eq_true_iff.mp hans
  obtain ⟨w, hdn, hend⟩ := (Option.any_eq_true _ _).mp hrst
  have hans := of_decide_eq_true hans
  have hlgd := (logged_of_play Sample.started hcmd).step (of_decide_eq_true hg) rfl
  obtain ⟨after, hlog⟩ := hlgd.run (run_of_play hdn)
  rw [append_assoc] at hlog
  exact ⟨w, _, _, after, w₀, hlog, rfl,
    cancelled_is_final hlog rfl (by rw [hans]; rfl), hans, of_decide_eq_true hend⟩

/--
A worker is stopped while the handler of its job runs, gives back the lease, starts again and claims
the job. The second run registers its controller over that of the first; the owner cancels, is
answered 200, and the second run settles. The first one completes its node, dispatches the second
node, pays for it and ends the task as completed.
-/
theorem cancelled_is_overwritten : ∃ w log before after w₀, Sample.process.Logged (fun _ _ => True) w log ∧
      log = before ++ (w₀, .delete (some "owner")) :: after ∧
      (w₀.delete (some "owner")).1.ok = true ∧ w.task.status = .completed ∧
      ∃ later, w.log = w₀.log ++ later ∧ (0, .dispatch 1) ∈ later ∧ (0, .paid 1 true) ∈ later ∧
        ∀ b, (b, .dispatch 1) ∉ w₀.log := by
  have hpl : ((Sample.process.play (fun _ _ => True) (Sample.claimed ++
      [.queue (.release 0 1000), .queue (.recover 2000), .claim 0 0 2000 fun _ => false])
        Sample.start).any fun w₀ => decide ((w₀.delete (some "owner")).1.ok = true) &&
      decide (∀ entry ∈ w₀.log, entry.2 ≠ .dispatch 1) &&
      (Sample.process.play (fun _ _ => True) (Sample.through 0 0 ++ Sample.through 0 1)
        (w₀.delete (some "owner")).2).any fun w => decide (w.task.status = .completed ∧
          w.log = w₀.log ++ w.log.drop w₀.log.length ∧
          (0, .dispatch 1) ∈ w.log.drop w₀.log.length ∧
          (0, .paid 1 true) ∈ w.log.drop w₀.log.length)) = true := by
    decide
  obtain ⟨w₀, hcmd, hrst⟩ := (Option.any_eq_true _ _).mp hpl
  obtain ⟨hans, hrst⟩ := Bool.and_eq_true_iff.mp hrst
  obtain ⟨hans, hnev⟩ := Bool.and_eq_true_iff.mp hans
  obtain ⟨w, hdn, hend⟩ := (Option.any_eq_true _ _).mp hrst
  obtain ⟨hcmp, hspl, hdi, hpd⟩ := of_decide_eq_true hend
  have hlgd := (logged_of_play Sample.started hcmd).step
    (e := .delete (some "owner")) trivial rfl
  obtain ⟨after, hlog⟩ := hlgd.run (run_of_play hdn)
  rw [append_assoc] at hlog
  exact ⟨w, _, _, after, w₀, hlog, rfl, of_decide_eq_true hans, hcmp, _, hspl, hdi,
    hpd, fun b hin => of_decide_eq_true hnev _ hin rfl⟩

end AiNet.TaskRoutes
