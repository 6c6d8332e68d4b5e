import AiNet.Queue.Worker

/-!
# Who settles a job

The write at the end of a handler is guarded by the status of the job only. It comes from the
lease holder as long as an active job whose handler still runs is left with its worker: no
recovery pass takes it back, though its lease may lapse, and a handler whose worker was stopped and
gave back the lease does not finish any more. If a worker is slow to renew its lease and another
one starts, the job is taken back, claimed and run once more, and the slow one then completes what
the other is working on.
-/

namespace AiNet.Queue

open Core List Option System

section

variable {τ ω : Type} [DecidableEq τ] [DecidableEq ω] {options : ω → JobWorkerOptions}
  {s s' : State τ ω} {e : Event τ ω}

/--
No recovery pass takes back a job whose handler runs, and no handler finishes after its worker has
given back the lease.
-/
def undisturbed (s : State τ ω) : Event τ ω → Bool
  | .recover now => !s.running.any fun _ y => (s.jobs.get y.jobId).any fun job =>
    decide (job.status = .active) && job.lapsed now
  | .returned x _ | .threw x _ _ _ => !(s.running.get x).any fun y =>
    (s.jobs.get y.jobId).any fun job => job.leaseOwner.isNone
  | _ => true

/-- The job of a handler is active, and leased to its worker or to nobody; it has one handler. -/
structure Leased (s : State τ ω) : Prop where
  owned : ∀ x y, s.running.get x = some y → ∀ job, s.jobs.get y.jobId = some job →
    job.status = .active ∧ (job.leaseOwner = some y.worker ∨ job.leaseOwner = none)
  alone : ∀ x y x' y', s.running.get x = some y → s.running.get x' = some y' → y.jobId = y'.jobId → x = x'
  known : ∀ x y, s.running.get x = some y → y.jobId < s.jobs.next

omit [DecidableEq τ] [DecidableEq ω] in
theorem Job.not_active {job : Job τ ω} {now : Nat} (h : job.runnable now = true) :
    job.status ≠ .active := by
  intro hact
  unfold Job.runnable Job.claimable at h
  rw [hact] at h
  simp at h

theorem step_next (h : step options s e = some s') : s.jobs.next ≤ s'.jobs.next := by
  cases e with
  | enqueue =>
    cases h
    exact Nat.le_succ _
  | insertUnique =>
    obtain ⟨_, _, rfl⟩ := map_eq_some_iff.mp h
    exact Nat.le_succ _
  | check =>
    obtain ⟨_, h⟩ := ite_none_left_eq_some.mp h
    cases h
    exact Nat.le_refl _
  | claim =>
    obtain ⟨_, h⟩ := ite_none_right_eq_some.mp h
    obtain ⟨_, _, rfl⟩ := map_eq_some_iff.mp h
    exact Nat.le_refl _
  | threw =>
    obtain ⟨_, _, rfl⟩ := map_eq_some_iff.mp h
    dsimp only [handlerThrew]
    split
    · exact Nat.le_refl _
    · exact Nat.le_refl _
  | heartbeat | progress | returned | crash | release =>
    obtain ⟨_, _, rfl⟩ := map_eq_some_iff.mp h
    exact Nat.le_refl _
  | recover | retryDeadLetter | purge | delete =>
    cases h
    exact Nat.le_refl _

/-- **Where a handler goes on, its row is at most touched, or its lease given back.** -/
theorem Leased.row_of_running (h : Leased s) (hg : undisturbed s e = true)
    (hst : step options s e = some s') {x : Nat} {y : Execution τ ω}
    (hx : s.running.get x = some y) (hsty : e.settles x = false) {job' : Job τ ω}
    (hrow' : s'.jobs.get y.jobId = some job') :
    ∃ job, s.jobs.get y.jobId = some job ∧ job'.status = job.status ∧
      job'.attempts = job.attempts ∧ job'.maxAttempts = job.maxAttempts ∧
      (job'.leaseOwner = job.leaseOwner ∨ job'.leaseOwner = none) := by
  have hown := h.owned x y hx
  have hwr := step_wrote hst y.jobId
  rw [hrow'] at hwr
  generalize hrow : s.jobs.get y.jobId = row at hwr
  generalize hid : y.jobId = id at hwr
  generalize hso : some job' = row' at hwr
  cases hwr with
  | kept => exact ⟨job', hso.symm, rfl, rfl, rfl, .inl rfl⟩
  | @touched _ _ job _ ht =>
    cases hso
    exact ⟨job, rfl, ht.status, ht.attempts, ht.maxAttempts, .inl ht.leaseOwner⟩
  | enqueued | inserted =>
    have hlt := h.known x y hx
    omega
  | claimed hjob => exact absurd (hown _ hrow).1 (Job.not_active hjob)
  | returned hx' | retried hx' | parked hx' =>
    obtain rfl := h.alone _ _ _ _ hx hx' hid
    exact absurd hsty (by simp [Event.settles])
  | @released _ _ _ job hx' hact =>
    cases hso
    exact ⟨job, rfl, rfl, rfl, rfl, .inr rfl⟩
  | recovered hact hla =>
    -- such a recovery pass is excluded
    unfold undisturbed at hg
    rw [Bool.not_eq_true', ← Bool.not_eq_true, Register.any_eq_true] at hg
    refine absurd ⟨x, y, hx, ?_⟩ hg
    rw [hrow, any_some, hla, decide_eq_true hact]
    rfl
  | replayed hdd =>
    rw [(hown _ hrow).1] at hdd
    cases hdd
  | removed => cases hso

/-- **Every undisturbed step leaves the jobs of running handlers leased.** -/
theorem Leased.step (h : Leased s) (hg : undisturbed s e = true)
    (hsp : step options s e = some s') : Leased s' where
  owned := by
    intro x y hx job' hrow'
    rcases step_running hsp hx with
      ⟨hold, hsty⟩ | ⟨worker, id, now, job, rfl, hrow, hjob, _, rfl⟩
    · obtain ⟨job, hrow, hst, _, _, hlea⟩ := h.row_of_running hg hsp hold hsty hrow'
      obtain ⟨hact, hown⟩ := h.owned x y hold job hrow
      refine ⟨hst.trans hact, ?_⟩
      rcases hlea with hsm | hno
      · rw [hsm]
        exact hown
      · exact .inr hno
    · -- the claim has just leased it
      obtain ⟨_, hsp⟩ := ite_none_right_eq_some.mp hsp
      obtain ⟨_, _, rfl⟩ := map_eq_some_iff.mp hsp
      dsimp only [JobStore.claimNextPendingJob] at hrow'
      rw [Register.get_rewrite_of_some hrow, if_pos (decide_eq_true rfl)] at hrow'
      cases hrow'
      exact ⟨rfl, .inl rfl⟩
  alone := by
    intro x y x' y' hx hx' hid
    rcases step_running hsp hx with
      ⟨hold, _⟩ | ⟨worker, id, now, job, he, hrow, hjob, hnew, rfl⟩
    · rcases step_running hsp hx' with
        ⟨hold', _⟩ | ⟨worker, id, now, job, _, hrow, hjob, _, rfl⟩
      · exact h.alone x y x' y' hold hold' hid
      · exact absurd (h.owned x y hold job (hid ▸ hrow)).1 (Job.not_active hjob)
    · rcases step_running hsp hx' with ⟨hold', _⟩ | ⟨_, _, _, _, _, _, _, hnew', _⟩
      · exact absurd (h.owned x' y' hold' job (hid ▸ hrow)).1 (Job.not_active hjob)
      · exact hnew.trans hnew'.symm
  known := by
    intro x y hx
    rcases step_running hsp hx with
      ⟨hold, _⟩ | ⟨worker, id, now, job, _, hrow, _, _, rfl⟩
    · exact Nat.lt_of_lt_of_le (h.known x y hold) (step_next hsp)
    · exact Nat.lt_of_lt_of_le (Register.lt_next hrow) (step_next hsp)

theorem leased_reachable
    (h : (system options).Reachable (fun s e => undisturbed s e = true) s) : Leased s := by
  refine System.Reachable.invariant ?_ ?_ h
  · intro s h0
    rw [show s = ⟨.empty, .empty, .empty⟩ from h0]
    refine ⟨fun x y hx => ?_, fun x y x' y' hx => ?_, fun x y hx => ?_⟩
    all_goals cases hx
  · intro s e s' _ hg hs hst
    exact hs.step hg hst

omit [DecidableEq τ] [DecidableEq ω] in
theorem Leased.holds (h : Leased s) (hg : undisturbed s e = true) {x : Nat} {y : Execution τ ω}
    (hsts : e.settles x = true) (hx : s.running.get x = some y) {job : Job τ ω}
    (hrow : s.jobs.get y.jobId = some job) :
    job.status = .active ∧ job.leaseOwner = some y.worker := by
  obtain ⟨hact, hlea⟩ := h.owned x y hx job hrow
  refine ⟨hact, hlea.resolve_right fun hno => ?_⟩
  cases e with
  | returned | threw =>
    obtain rfl := of_decide_eq_true hsts
    simp [undisturbed, hx, hrow, hno] at hg
  | _ => cases hsts

/--
**Only the lease holder settles a job, if running jobs are left alone.** In every run without
recovery passes that take back the job of a running handler, and in which no handler finishes
after its worker gave back the lease: a write at the end of a handler takes effect only if its worker holds the lease and no
other handler has the job, and at every moment a job has at most one handler.
-/
theorem lease_holder_settles (options : ω → JobWorkerOptions) {s : State τ ω}
    (h : (system options).Reachable (fun s e => undisturbed s e = true) s) :
    (∀ e s' x y, undisturbed s e = true → step options s e = some s' → e.settles x = true →
      s.running.get x = some y → s'.jobs.get y.jobId ≠ s.jobs.get y.jobId →
        (∃ job, s.jobs.get y.jobId = some job ∧ job.status = .active ∧ job.leaseOwner = some y.worker) ∧
        ∀ x' y', s.running.get x' = some y' → y'.jobId = y.jobId → x' = x) ∧
    ∀ x y x' y', s.running.get x = some y → s.running.get x' = some y' → y.jobId = y'.jobId → x = x' := by
  have hlsd := leased_reachable h
  refine ⟨?_, hlsd.alone⟩
  intro e s' x y hg hst hsts hx hwrt
  constructor
  · cases hrow : s.jobs.get y.jobId with
    | some job => exact ⟨job, rfl, hlsd.holds hg hsts hx hrow⟩
    | none =>
      -- a row that was deleted is not written
      have hwr := step_wrote hst y.jobId
      rw [hrow] at hwr hwrt
      generalize s'.jobs.get y.jobId = row' at hwr hwrt
      generalize y.jobId = id at hwr
      cases hwr with
      | kept => exact absurd rfl hwrt
      | enqueued | inserted => cases hsts
  · intro x' y' hx' hid
    exact hlsd.alone x' y' x y hx' hx hid

/-! ## Examples -/

namespace Sample

/-- Two workers with the leases that ship. -/
def workers : Nat → JobWorkerOptions := fun _ => ⟨3, 30000⟩

/-- A job for task 7. -/
def order : EnqueueOptions Nat := ⟨7, none, none⟩

/-- Worker 1 claims the job, and does not renew its lease; worker 2 starts and claims it too. -/
def takeover : List (Event Nat Nat) :=
  [.enqueue order 3 0, .claim 1 0 0, .recover 40000, .claim 2 0 40000]

end Sample

/-- A worker claims a job and renews its lease in time; another one starts. -/
theorem lease_holder_settles_once : ∃ s : State Nat Nat,
    (system Sample.workers).Reachable (fun s e => undisturbed s e = true) s ∧
    ((∀ e s' x y, undisturbed s e = true → step Sample.workers s e = some s' →
      e.settles x = true → s.running.get x = some y → s'.jobs.get y.jobId ≠ s.jobs.get y.jobId →
        (∃ job, s.jobs.get y.jobId = some job ∧ job.status = .active ∧ job.leaseOwner = some y.worker) ∧
        ∀ x' y', s.running.get x' = some y' → y'.jobId = y.jobId → x' = x) ∧
    ∀ x y x' y', s.running.get x = some y → s.running.get x' = some y' → y.jobId = y'.jobId → x = x') ∧
    (s.running.get 0).isSome = true := by
  have hpl : ((system Sample.workers).play (fun s e => undisturbed s e = true)
      [.enqueue Sample.order 3 0, .claim 1 0 0, .heartbeat 0 10000, .recover 35000]
      (⟨.empty, .empty, .empty⟩ : State Nat Nat)).any
        (fun s => decide ((s.running.get 0).isSome = true)) = true := by decide
  obtain ⟨s, hs, hrng⟩ := exists_reachable (S := system Sample.workers) rfl hpl
  exact ⟨s, hs, lease_holder_settles Sample.workers hs, hrng⟩

/--
Worker 1 loses its lease to worker 2 and then completes the job, which worker 2 holds and still
works on.
-/
theorem former_holder_settles : ∃ s s' : State Nat Nat,
    (system Sample.workers).Reachable (fun _ _ => True) s ∧
      step Sample.workers s (.returned 0 41000) = some s' ∧
      (s.running.get 0).map Execution.worker = some 1 ∧
      (s.running.get 1).map Execution.worker = some 2 ∧
      (s.running.get 1).map Execution.jobId = some 0 ∧
      (s.jobs.get 0).bind Job.leaseOwner = some 2 ∧
      (s.jobs.get 0).map Job.status = some .active ∧
      (s'.jobs.get 0).map Job.status = some .completed := by
  have hpl : ((system Sample.workers).play (fun _ _ => True) Sample.takeover
      (⟨.empty, .empty, .empty⟩ : State Nat Nat)).any (fun s =>
        (step Sample.workers s (.returned 0 41000)).any fun s' => decide (
          (s.running.get 0).map Execution.worker = some 1 ∧
          (s.running.get 1).map Execution.worker = some 2 ∧
          (s.running.get 1).map Execution.jobId = some 0 ∧
          (s.jobs.get 0).bind Job.leaseOwner = some 2 ∧
          (s.jobs.get 0).map Job.status = some .active ∧
          (s'.jobs.get 0).map Job.status = some .completed)) = true := by decide
  obtain ⟨s, hs, hnx⟩ := exists_reachable_of_play (S := system Sample.workers) rfl hpl
  obtain ⟨s', hs', hend⟩ := (Option.any_eq_true _ _).mp hnx
  exact ⟨s, s', hs, hs', of_decide_eq_true hend⟩

end

/-!
## One live job per task

`enqueueUnique` asks whether a job of the task is live and then inserts one; between the two
statements another submitter may insert, too. A replay makes a dead letter live again and does not
ask at all. What a statement that brings a job in finds at that moment decides: a task has one
live job at a time exactly in the runs in which every such statement finds none.
-/

variable {τ ω : Type} [DecidableEq τ] [DecidableEq ω] {options : ω → JobWorkerOptions}
  {s s' : State τ ω} {e : Event τ ω} {task : τ}

/-- The jobs of the task are only created through `enqueueUnique`. -/
def uniquely (task : τ) : Event τ ω → Bool
  | .enqueue o _ _ => !decide (o.taskId = task)
  | _ => true

/-- The job of the task that the event makes live. -/
def Event.enters (s : State τ ω) (task : τ) : Event τ ω → Option Nat
  | .enqueue o _ _ => if o.taskId = task then some s.jobs.next else none
  | .insertUnique k _ => (s.submitting.get k).bind fun submission =>
    if submission.1.taskId = task then some s.jobs.next else none
  | .retryDeadLetter id _ => (s.jobs.get id).bind fun job =>
    if job.status = .deadLetter ∧ job.taskId = task then some id else none
  | _ => none

/-- The job `id` is one of the task, and live. -/
def LiveAt (s : State τ ω) (task : τ) (id : Nat) : Prop :=
  ∃ job, s.jobs.get id = some job ∧ job.taskId = task ∧ job.live = true

/-- No two live jobs. -/
def OneLive (s : State τ ω) (task : τ) : Prop :=
  ∀ i j, LiveAt s task i → LiveAt s task j → i = j

omit [DecidableEq ω] in
theorem hasPendingJobForTask_iff :
    s.jobs.hasPendingJobForTask task = true ↔ ∃ id, LiveAt s task id := by
  unfold JobStore.hasPendingJobForTask
  rw [Register.any_eq_true]
  constructor
  · intro ⟨id, job, hrow, hjob⟩
    rw [Bool.and_eq_true] at hjob
    exact ⟨id, job, hrow, of_decide_eq_true hjob.1, hjob.2⟩
  · intro ⟨id, job, hrow, htk, hlv⟩
    refine ⟨id, job, hrow, ?_⟩
    rw [decide_eq_true htk, hlv]
    rfl

/-! ## Steps -/

/-- **A job that is live was so before, or the event made it so.** -/
theorem live_step (hst : step options s e = some s') {id : Nat} (h : LiveAt s' task id) :
    LiveAt s task id ∨ e.enters s task = some id := by
  obtain ⟨job', hrow', htk, hlv⟩ := h
  have hwr := step_wrote hst id
  rw [hrow'] at hwr
  unfold LiveAt
  generalize hrow : s.jobs.get id = row at hwr
  generalize hso : some job' = row' at hwr
  cases hwr with
  | kept => exact .inl ⟨job', hso.symm, htk, hlv⟩
  | touched ht =>
    cases hso
    unfold Job.live at *
    rw [ht.status] at hlv
    exact .inl ⟨_, rfl, ht.taskId.symm.trans htk, hlv⟩
  | enqueued =>
    cases hso
    exact .inr (if_pos htk)
  | inserted hk =>
    cases hso
    refine .inr ?_
    dsimp only [Event.enters]
    rw [hk, bind_some]
    exact if_pos htk
  | claimed hjob =>
    cases hso
    refine .inl ⟨_, rfl, htk, ?_⟩
    unfold Job.runnable Job.claimable at hjob
    unfold Job.live
    split
    · rfl
    · rfl
    · rfl
    · rename_i hcmp
      simp [hcmp] at hjob
    · rename_i hdd
      simp [hdd] at hjob
  | returned | parked =>
    cases hso
    cases hlv
  | retried hx hact | recovered hact =>
    cases hso
    exact .inl ⟨_, rfl, htk, by rw [Job.live, hact]⟩
  | released =>
    cases hso
    exact .inl ⟨_, rfl, htk, hlv⟩
  | replayed hdd =>
    cases hso
    refine .inr ?_
    dsimp only [Event.enters]
    rw [hrow, bind_some]
    exact if_pos ⟨hdd, htk⟩
  | removed => cases hso

theorem live_enters (hst : step options s e = some s') {id : Nat}
    (hen : e.enters s task = some id) :
    LiveAt s' task id ∧ ∀ j, LiveAt s task j → j ≠ id ∧ LiveAt s' task j := by
  cases e with
  | enqueue =>
    obtain rfl := Option.some.inj hst
    obtain ⟨htk, hid⟩ := ite_none_right_eq_some.mp hen
    obtain rfl := Option.some.inj hid
    refine ⟨⟨_, Register.get_add_self, htk, rfl⟩, fun j ⟨job, hrow, hjob⟩ => ?_⟩
    exact ⟨Nat.ne_of_lt (Register.lt_next hrow), job, Register.get_add_of_some hrow, hjob⟩
  | insertUnique =>
    obtain ⟨submission, hk, rfl⟩ := map_eq_some_iff.mp hst
    dsimp only [Event.enters] at hen
    rw [hk, bind_some] at hen
    obtain ⟨htk, hid⟩ := ite_none_right_eq_some.mp hen
    obtain rfl := Option.some.inj hid
    refine ⟨⟨_, Register.get_add_self, htk, rfl⟩, fun j ⟨job, hrow, hjob⟩ => ?_⟩
    exact ⟨Nat.ne_of_lt (Register.lt_next hrow), job, Register.get_add_of_some hrow, hjob⟩
  | retryDeadLetter k now =>
    obtain rfl := Option.some.inj hst
    obtain ⟨job, hrow, hjob⟩ := bind_eq_some_iff.mp hen
    obtain ⟨⟨hdd, htk⟩, hid⟩ := ite_none_right_eq_some.mp hjob
    obtain rfl := Option.some.inj hid
    constructor
    · refine ⟨job.replayed now, ?_, htk, rfl⟩
      dsimp only [JobStore.retryDeadLetterJob]
      rw [Register.get_rewrite_of_some hrow, if_pos (by simp [hdd])]
    · intro j ⟨job', hrow', htk', hlv⟩
      have hne : j ≠ k := by
        intro hj
        rw [hj, hrow] at hrow'
        obtain rfl := Option.some.inj hrow'
        simp [Job.live, hdd] at hlv
      refine ⟨hne, job', ?_, htk', hlv⟩
      dsimp only [JobStore.retryDeadLetterJob]
      rw [Register.get_rewrite_of_some hrow', if_neg (by simp [hne])]
  | _ => cases hen

/-- **A step keeps one live job exactly if what it makes live finds none.** -/
theorem oneLive_step (hst : step options s e = some s') (h : OneLive s task) :
    OneLive s' task ↔ ((e.enters s task).isSome = true → s.jobs.hasPendingJobForTask task = false) := by
  constructor
  · intro h' hen
    obtain ⟨id, hid⟩ := isSome_iff_exists.mp hen
    obtain ⟨hnew, hold⟩ := live_enters hst hid
    rw [Bool.eq_false_iff, Ne, hasPendingJobForTask_iff]
    intro ⟨j, hj⟩
    exact (hold j hj).1 (h' j id (hold j hj).2 hnew)
  · intro hfin
    have hno : ∀ i j, e.enters s task = some i → ¬LiveAt s task j := by
      intro i j hi hj
      have hfr := hfin (by rw [hi]; rfl)
      rw [hasPendingJobForTask_iff.mpr ⟨j, hj⟩] at hfr
      cases hfr
    intro i j hi hj
    rcases live_step hst hi with hi | hi
    · rcases live_step hst hj with hj | hj
      · exact h i j hi hj
      · exact absurd hi (hno j i hj)
    · rcases live_step hst hj with hj | hj
      · exact absurd hj (hno i j hi)
      · exact Option.some.inj (hi.symm.trans hj)

/-! ## The theorem -/

/--
**One live job per task, exactly if nothing becomes live beside another.** In every run in which
jobs of the task are only created through `enqueueUnique`, and at every moment of it, the task has
at most one job that is pending, active or failed, if and only if every insert of `enqueueUnique`
for the task, and every replay of one of its dead letters, finds no such job.
-/
theorem one_live_job (options : ω → JobWorkerOptions) (task : τ) {s : State τ ω}
    {log : List (State τ ω × Event τ ω)}
    (h : (system options).Logged (fun _ e => uniquely task e = true) s log) :
    (∀ p ∈ log.map Prod.fst ++ [s], OneLive p task) ↔
      ∀ entry ∈ log, (entry.2.enters entry.1 task).isSome = true →
        entry.1.jobs.hasPendingJobForTask task = false := by
  refine h.forall_passed_iff (I := fun p => OneLive p task)
    (K := fun s e => (e.enters s task).isSome = true → s.jobs.hasPendingJobForTask task = false)
    ?_ ?_
  · intro s h0 i j ⟨job, hrow, _⟩
    rw [show s = ⟨.empty, .empty, .empty⟩ from h0] at hrow
    cases hrow
  · intro s e s' _ _ hst hone
    exact oneLive_step hst hone

/-! ## Examples -/

namespace Sample

/-- A submission for task 7, with one attempt. -/
def submission : EnqueueOptions Nat := ⟨7, none, some 1⟩

/-- Two submitters ask before either inserts. -/
def together : List (Event Nat Nat) :=
  [.check submission 3, .check submission 3, .insertUnique 0 0, .insertUnique 1 1]

/-- A dead letter, a new job of the task, and the replay of the dead letter. -/
def replay : List (Event Nat Nat) :=
  [.check submission 3, .insertUnique 0 0, .claim 1 0 0, .threw 0 5 0 "down",
    .check submission 3, .insertUnique 1 10, .retryDeadLetter 0 20]

theorem not_oneLive {s : State Nat Nat} (h : ((s.jobs.get 0).any fun job =>
    decide (job.taskId = 7) && job.live) = true) (h' : ((s.jobs.get 1).any fun job =>
    decide (job.taskId = 7) && job.live) = true) : ¬OneLive s 7 := by
  have hlv : ∀ id, ((s.jobs.get id).any fun job => decide (job.taskId = 7) && job.live) = true →
      LiveAt s 7 id := by
    intro id hid
    obtain ⟨job, hrow, hjob⟩ := (Option.any_eq_true _ _).mp hid
    rw [Bool.and_eq_true] at hjob
    exact ⟨job, hrow, of_decide_eq_true hjob.1, hjob.2⟩
  intro hone
  exact Nat.zero_ne_one (hone 0 1 (hlv 0 h) (hlv 1 h'))

end Sample

/-- A dead letter, and a new job beside it: one live job all along, since nothing is replayed. -/
theorem one_live_job_anew : ∃ (s : State Nat Nat) (log : List (State Nat Nat × Event Nat Nat)),
    (system Sample.workers).Logged (fun _ e => uniquely 7 e = true) s log ∧ s.jobs.next = 2 ∧
    ((∀ p ∈ log.map Prod.fst ++ [s], OneLive p 7) ↔
      ∀ entry ∈ log, (entry.2.enters entry.1 7).isSome = true →
        entry.1.jobs.hasPendingJobForTask 7 = false) := by
  have hpl : ((system Sample.workers).play (fun _ e => uniquely 7 e = true)
      Sample.replay.dropLast (⟨.empty, .empty, .empty⟩ : State Nat Nat)).any
        (fun s => decide (s.jobs.next = 2)) = true := by decide
  obtain ⟨s, hlog, hnx⟩ := exists_logged (S := system Sample.workers) rfl hpl
  exact ⟨s, _, hlog, hnx, one_live_job Sample.workers 7 hlog⟩

/--
Two submitters both find no live job, and insert; and a dead letter is replayed beside the job that
was submitted after it.
-/
theorem two_live_jobs :
    (∃ s : State Nat Nat, (system Sample.workers).play (fun _ e => uniquely 7 e = true)
      Sample.together ⟨.empty, .empty, .empty⟩ = some s ∧
      (system Sample.workers).Reachable (fun _ e => uniquely 7 e = true) s ∧ ¬OneLive s 7) ∧
    ∃ s : State Nat Nat, (system Sample.workers).play (fun _ e => uniquely 7 e = true)
      Sample.replay ⟨.empty, .empty, .empty⟩ = some s ∧
      (system Sample.workers).Reachable (fun _ e => uniquely 7 e = true) s ∧ ¬OneLive s 7 := by
  have hpl : ∀ es ∈ [Sample.together, Sample.replay],
      ((system Sample.workers).play (fun _ e => uniquely 7 e = true) es
        (⟨.empty, .empty, .empty⟩ : State Nat Nat)).any (fun s =>
          ((s.jobs.get 0).any fun job => decide (job.taskId = 7) && job.live) &&
          (s.jobs.get 1).any fun job => decide (job.taskId = 7) && job.live) = true := by
    decide
  constructor
  · obtain ⟨s, hs, htwo⟩ := (Option.any_eq_true _ _).mp (hpl _ mem_cons_self)
    rw [Bool.and_eq_true] at htwo
    exact ⟨s, hs, reachable_of_play rfl hs, Sample.not_oneLive htwo.1 htwo.2⟩
  · obtain ⟨s, hs, htwo⟩ := (Option.any_eq_true _ _).mp
      (hpl _ (mem_cons_of_mem _ mem_cons_self))
    rw [Bool.and_eq_true] at htwo
    exact ⟨s, hs, reachable_of_play rfl hs, Sample.not_oneLive htwo.1 htwo.2⟩

end AiNet.Queue
