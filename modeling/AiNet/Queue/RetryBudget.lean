import AiNet.Queue.Leases

/-!
# The retry budget

A job says how often it may fail. The claim compares that number with the failures; the worker
does so too, but takes a number of its own where the job says zero, so a job that asks for no
attempt fails, waits for a second attempt that no worker will ever claim, and blocks every
further job of its task. Otherwise every failure counts, and ends in another attempt or in the
dead letters.
-/

namespace AiNet.Queue

open Core Option

variable {τ ω : Type} [DecidableEq τ] [DecidableEq ω] {options : ω → JobWorkerOptions}
  {s s' : State τ ω} {e : Event τ ω} {job : Job τ ω}

/-- How often a job may fail: once, if it asks for no attempt. -/
def Job.budget (job : Job τ ω) : Int := max 1 job.maxAttempts

/--
A handler that fails has a job with at least one attempt, or with none and a worker that gives it
one.
-/
def counted (options : ω → JobWorkerOptions) (s : State τ ω) : Event τ ω → Bool
  | .threw x _ _ _ => (s.running.get x).all fun y =>
    decide (1 ≤ y.job.maxAttempts) ||
      decide (y.job.maxAttempts = 0) && decide ((options y.worker).maxAttempts = 1)
  | _ => true

/-- The failures of a job, by where it stands. -/
def Job.Within (job : Job τ ω) : Prop :=
  match job.status with
  | .deadLetter => (job.attempts : Int) = job.budget
  | .failed => (job.attempts : Int) < job.maxAttempts
  | .pending | .active | .completed => (job.attempts : Int) < job.budget

/-- Every job is within its budget, and a handler knows the failures of its job. -/
structure Budgeted (s : State τ ω) : Prop where
  within : ∀ id job, s.jobs.get id = some job → job.Within
  known : ∀ x y, s.running.get x = some y → ∀ job, s.jobs.get y.jobId = some job →
    y.job.attempts = job.attempts ∧ y.job.maxAttempts = job.maxAttempts

/-! ## One job -/

section Job

omit [DecidableEq τ] [DecidableEq ω]

theorem Job.budget_pos (job : Job τ ω) : 0 < job.budget := by
  unfold Job.budget
  omega

theorem Job.le_budget (job : Job τ ω) : job.maxAttempts ≤ job.budget := by
  unfold Job.budget
  omega

theorem Job.Within.lt (h : job.Within) (hst : job.status ≠ .deadLetter) :
    (job.attempts : Int) < job.budget := by
  have hbu := job.le_budget
  unfold Job.Within at h
  split at h
  · contradiction
  · omega
  · exact h
  · exact h
  · exact h

theorem Job.Within.le (h : job.Within) : (job.attempts : Int) ≤ job.budget := by
  by_cases hdd : job.status = .deadLetter
  · unfold Job.Within at h
    rw [hdd] at h
    exact Int.le_of_eq h
  · exact Int.le_of_lt (h.lt hdd)

theorem Job.Within.congr {job' : Job τ ω} (h : job.Within) (hst : job'.status = job.status)
    (hatm : job'.attempts = job.attempts) (hmax : job'.maxAttempts = job.maxAttempts) :
    job'.Within := by
  unfold Job.Within Job.budget at *
  rw [hst, hatm, hmax]
  exact h

/-- **A job that waits is claimed when its time has come.** -/
theorem Job.Within.runnable (h : job.Within)
    (hst : job.status = .pending ∨ job.status = .failed) {now : Nat}
    (hnow : job.nextRunAt ≤ now) : job.runnable now = true := by
  unfold Job.runnable Job.claimable
  unfold Job.Within at h
  rcases hst with hpnd | hfai
  · simp [hpnd, hnow]
  · rw [hfai] at h
    simp [hfai, h, hnow]

theorem maxAllowedAttempts_eq {options : JobWorkerOptions}
    (h : (decide (1 ≤ job.maxAttempts) ||
      decide (job.maxAttempts = 0) && decide (options.maxAttempts = 1)) = true) :
    maxAllowedAttempts options job = job.budget := by
  simp only [Bool.or_eq_true, Bool.and_eq_true, decide_eq_true_eq] at h
  unfold maxAllowedAttempts Job.budget
  rcases h with hone | ⟨hz, hde⟩
  · rw [if_neg (by omega)]
    omega
  · rw [if_pos hz, hde, hz]
    rfl

end Job

open Job

/-! ## Every step -/

variable {error : String} {y : Execution τ ω}

section

omit [DecidableEq τ] [DecidableEq ω]

theorem Budgeted.threw (h : Budgeted s) (hlsd : Leased s) {x now delayMs : Nat}
    (hc : counted options s (.threw x now delayMs error) = true) (hx : s.running.get x = some y)
    (hrow : s.jobs.get y.jobId = some job) :
    (job.attempts : Int) < job.budget ∧ y.job.attempts = job.attempts ∧
      maxAllowedAttempts (options y.worker) y.job = job.budget := by
  obtain ⟨hatm, hmax⟩ := h.known x y hx job hrow
  have hact := (hlsd.owned x y hx job hrow).1
  refine ⟨(h.within _ _ hrow).lt (by rw [hact]; decide), hatm, ?_⟩
  dsimp only [counted] at hc
  rw [hx, all_some] at hc
  rw [maxAllowedAttempts_eq hc]
  unfold budget
  rw [hmax]

theorem Budgeted.within_step (h : Budgeted s) (hlsd : Leased s)
    (hc : counted options s e = true) {id : Nat} {row : Option (Job τ ω)} {job' : Job τ ω}
    (hwr : Wrote options s e id row (some job')) (hrow : s.jobs.get id = row) : job'.Within := by
  generalize hso : some job' = row' at hwr
  cases hwr with
  | kept => exact h.within _ _ (hrow.trans hso.symm)
  | touched ht =>
    cases hso
    exact (h.within _ _ hrow).congr ht.status ht.attempts ht.maxAttempts
  | enqueued | inserted | replayed =>
    cases hso
    exact budget_pos _
  | claimed hjob =>
    cases hso
    refine (h.within _ _ hrow).lt fun hdd => ?_
    simp [runnable, claimable, hdd] at hjob
  | returned hx hact | recovered hact =>
    cases hso
    exact (h.within _ _ hrow).lt (by rw [hact]; decide)
  | retried hx hact hle =>
    cases hso
    obtain ⟨_, hatm, hmax⟩ := h.threw hlsd hc hx hrow
    -- a further attempt means that the job asks for more than one
    rw [hmax] at hle
    unfold budget at hle
    dsimp only [Job.Within, updated, retryUpdates, getD_some]
    omega
  | parked hx hst hmax' =>
    cases hso
    obtain ⟨hlt, hatm, hmax⟩ := h.threw hlsd hc hx hrow
    rw [hmax] at hmax'
    unfold budget at hlt hmax'
    dsimp only [Job.Within, budget, updated, parkUpdates, getD_some]
    omega
  | released =>
    cases hso
    exact (h.within _ _ hrow).congr rfl rfl rfl
  | removed => cases hso

end

/-- **Every undisturbed step in which failures are counted keeps the budget.** -/
theorem Budgeted.step (h : Budgeted s) (hlsd : Leased s) (hg : undisturbed s e = true)
    (hc : counted options s e = true) (hst : step options s e = some s') : Budgeted s' where
  within := by
    intro id job' hrow'
    have hwr := step_wrote hst id
    rw [hrow'] at hwr
    exact h.within_step hlsd hc hwr rfl
  known := by
    intro x y hx job' hrow'
    rcases step_running hst hx with
      ⟨hold, hsty⟩ | ⟨worker, id, now, job, rfl, hrow, hjob, _, rfl⟩
    · obtain ⟨job, hrow, _, hatm, hmax, _⟩ :=
        hlsd.row_of_running hg hst hold hsty hrow'
      rw [hatm, hmax]
      exact h.known x y hold job hrow
    · -- the handler starts from the row that the claim returned
      obtain ⟨_, hst⟩ := ite_none_right_eq_some.mp hst
      obtain ⟨_, _, rfl⟩ := map_eq_some_iff.mp hst
      dsimp only [JobStore.claimNextPendingJob] at hrow'
      rw [Register.get_rewrite_of_some hrow, if_pos (decide_eq_true rfl)] at hrow'
      cases hrow'
      exact ⟨rfl, rfl⟩

theorem budgeted_reachable (h : (system options).Reachable
    (fun s e => undisturbed s e = true ∧ counted options s e = true) s) : Budgeted s := by
  refine System.Reachable.invariant ?_ ?_ h
  · intro s h0
    rw [show s = ⟨.empty, .empty, .empty⟩ from h0]
    refine ⟨fun id job hrow => ?_, fun x y hx => ?_⟩
    all_goals simp at *
  · intro s e s' hr hg hs hst
    have hlsd := leased_reachable (hr.weaken fun _ _ hg => hg.1)
    exact hs.step hlsd hg.1 hg.2 hst

/-! ## A failure -/

omit [DecidableEq τ] [DecidableEq ω] in
theorem get_handlerThrew {options : JobWorkerOptions} {store : JobStore τ ω} {now delayMs : Nat}
    (hrow : store.get y.jobId = some job) (hact : job.status = .active) :
    (handlerThrew options store y now delayMs error).get y.jobId =
      some (if ((y.job.attempts + 1 : Nat) : Int) < maxAllowedAttempts options y.job then
          job.updated now .failed (retryUpdates (y.job.attempts + 1) (now + delayMs) error)
        else job.updated now .deadLetter (parkUpdates now (y.job.attempts + 1)
          (maxAllowedAttempts options y.job) error)) := by
  unfold handlerThrew push JobStore.updateStatus
  dsimp only
  split
  · rw [Register.get_rewrite_of_some hrow, if_pos (by simp [retryUpdates, hact])]
  · rw [Register.get_rewrite_of_some hrow, if_pos (by simp [parkUpdates, hact])]

/-- **A failure counts, and leaves another attempt or a dead letter.** -/
theorem failure_counts (h : Budgeted s) (hlsd : Leased s) {x now delayMs : Nat}
    (hc : counted options s (.threw x now delayMs error) = true)
    (hst : step options s (.threw x now delayMs error) = some s') (hx : s.running.get x = some y)
    (hrow : s.jobs.get y.jobId = some job) :
    ∃ job', s'.jobs.get y.jobId = some job' ∧ job'.attempts = job.attempts + 1 ∧
      job'.maxAttempts = job.maxAttempts ∧ (job'.attempts : Int) ≤ job'.budget ∧
      (job'.status = .deadLetter ∧ (job'.attempts : Int) = job'.budget ∨
        job'.status = .failed ∧ (job'.attempts : Int) < job'.maxAttempts ∧
          ∀ at', job'.nextRunAt ≤ at' → job'.runnable at' = true) := by
  obtain ⟨_, hatm, hmax⟩ := h.threw hlsd hc hx hrow
  have hact := (hlsd.owned x y hx job hrow).1
  simp only [step, hx, map_some] at hst
  cases hst
  refine ⟨_, get_handlerThrew hrow hact, ?_⟩
  by_cases hle : ((y.job.attempts + 1 : Nat) : Int) < maxAllowedAttempts (options y.worker) y.job
  · have hw := h.within_step hlsd hc (.retried hx hact hle) hrow
    simp only [if_pos hle]
    refine ⟨?_, rfl, hw.le, .inr ⟨rfl, hw, fun at' hat => hw.runnable (.inr rfl) hat⟩⟩
    rw [← hatm]
    rfl
  · have hw := h.within_step hlsd hc (.parked hx (.inl hact) (Int.not_lt.mp hle)) hrow
    simp only [if_neg hle]
    refine ⟨?_, rfl, hw.le, .inl ⟨rfl, hw⟩⟩
    rw [← hatm]
    rfl

/-! ## Dead letters -/

/-- The event puts the job back into the queue. -/
def Event.replays (id : Nat) : Event τ ω → Bool
  | .retryDeadLetter k _ => decide (k = id)
  | _ => false

/-- The job is a dead letter, or gone. -/
structure Parked (s : State τ ω) (id : Nat) : Prop where
  known : id < s.jobs.next
  dead : ∀ job, s.jobs.get id = some job → job.status = .deadLetter

theorem Parked.step {id : Nat} (h : Parked s id) (hsp : step options s e = some s')
    (hre : e.replays id = false) : Parked s' id where
  known := Nat.lt_of_lt_of_le h.known (step_next hsp)
  dead := by
    intro job' hrow'
    have hknw := h.known
    have hdd := h.dead
    have hwr := step_wrote hsp id
    rw [hrow'] at hwr
    generalize s.jobs.get id = row at hwr hdd
    generalize hso : some job' = row' at hwr
    cases hwr with
    | kept => exact hdd job' hso.symm
    | touched ht =>
      cases hso
      exact ht.status.trans (hdd _ rfl)
    | enqueued | inserted => omega
    | claimed hjob => simp [runnable, claimable, hdd _ rfl] at hjob
    | returned hx hact | retried hx hact | released hx hact | recovered hact =>
      simp [hdd _ rfl] at hact
    | parked hx hst => simp [hdd _ rfl] at hst
    | replayed => simp [Event.replays] at hre
    | removed => cases hso

theorem claim_eq_none {id now : Nat} {worker : ω}
    (h : ∀ job, s.jobs.get id = some job → job.runnable now = false) :
    step options s (.claim worker id now) = none := by
  dsimp only [step]
  split
  · rename_i hnx
    obtain ⟨job, hrow, hjob⟩ := runnable_of_isNext hnx
    rw [h job hrow] at hjob
    cases hjob
  · rfl

omit [DecidableEq τ] [DecidableEq ω] in
theorem Parked.not_runnable {id : Nat} (h : Parked s id) (now : Nat) :
    ∀ job, s.jobs.get id = some job → job.runnable now = false := by
  intro job hrow
  simp [runnable, claimable, h.dead job hrow]

/-- **A dead letter stays one**, whatever else happens, until it is replayed. -/
theorem Parked.run {id : Nat} (h : Parked s id)
    (hrun : (system options).Run (fun _ e => e.replays id = false) s s') : Parked s' id := by
  refine hrun.preserves (I := fun s => Parked s id) ?_ h
  intro s e s' hre h hst
  exact h.step hst hre

/-! ## Stranded jobs -/

/-- The job has failed, has no handler, and is not claimed again. -/
def Stranded (s : State τ ω) (id : Nat) (taskId : τ) : Prop :=
  (∃ job, s.jobs.get id = some job ∧ job.taskId = taskId ∧ job.status = .failed ∧
    job.maxAttempts ≤ (job.attempts : Int)) ∧
  ∀ x y, s.running.get x = some y → y.jobId ≠ id

variable {taskId : τ}

omit [DecidableEq τ] [DecidableEq ω] in
theorem Stranded.not_runnable {id : Nat} (h : Stranded s id taskId) (now : Nat) :
    ∀ job, s.jobs.get id = some job → job.runnable now = false := by
  obtain ⟨⟨job, hrow, _, hfai, hmax⟩, _⟩ := h
  intro job' hrow'
  rw [hrow] at hrow'
  cases hrow'
  unfold runnable claimable
  simp [hfai, Int.not_lt.mpr hmax]

theorem Stranded.step {id : Nat} (h : Stranded s id taskId) (hst : step options s e = some s')
    (hde : e ≠ .delete id) : Stranded s' id taskId := by
  have hnev := h.not_runnable
  obtain ⟨⟨job, hrow, htk, hfai, hmax⟩, hno⟩ := h
  constructor
  · have hwr := step_wrote hst id
    rw [hrow] at hwr
    generalize s'.jobs.get id = row' at hwr ⊢
    generalize hso : some job = row at hwr
    generalize hid : id = k at hwr
    cases hwr with
    | kept => exact ⟨job, hso.symm, htk, hfai, hmax⟩
    | touched ht =>
      cases hso
      refine ⟨_, rfl, ht.taskId.trans htk, ht.status.trans hfai, ?_⟩
      rw [ht.attempts, ht.maxAttempts]
      exact hmax
    | enqueued | inserted => cases hso
    | claimed hjob =>
      cases hso
      exact absurd hjob (Bool.eq_false_iff.mp (hnev _ job hrow))
    | returned hx | retried hx | parked hx | released hx => exact absurd hid.symm (hno _ _ hx)
    | recovered hact =>
      cases hso
      simp [hfai] at hact
    | replayed hdd =>
      cases hso
      simp [hfai] at hdd
    | removed hrmv =>
      cases hso
      rcases hrmv with hdel | hdd
      · exact absurd (hid ▸ hdel) hde
      · simp [hfai] at hdd
  · intro x y hx
    rcases step_running hst hx with ⟨hold, _⟩ | ⟨_, _, now, job', _, hrow', hjob, _, rfl⟩
    · exact hno x y hold
    · rintro rfl
      exact Bool.false_ne_true ((hnev now job' hrow').symm.trans hjob)

/-- **A stranded job stays stranded**, whatever else happens, until it is deleted. -/
theorem Stranded.run {id : Nat} (h : Stranded s id taskId)
    (hrun : (system options).Run (fun _ e => e ≠ .delete id) s s') : Stranded s' id taskId := by
  refine hrun.preserves (I := fun s => Stranded s id taskId) ?_ h
  intro s e s' hde h hst
  exact h.step hst hde

omit [DecidableEq ω] in
theorem Stranded.blocks {id : Nat} (h : Stranded s id taskId) :
    s.jobs.hasPendingJobForTask taskId = true := by
  obtain ⟨⟨job, hrow, htk, hfai, _⟩, _⟩ := h
  refine Register.any_eq_true.mpr ⟨id, job, hrow, ?_⟩
  unfold live
  rw [hfai, decide_eq_true htk]
  rfl

/-! ## The theorem -/

/--
**The retry budget, where worker and claim mean the same number.** In every run that leaves the
jobs of running handlers alone, and in which handlers fail only on jobs with at least one attempt
(or with none, under a worker that gives them one): a failure counts once, stays within the budget,
and leaves a dead letter with its budget spent or a job that is claimed when its time has come; no
job that waits is stranded; a dead letter has spent its budget and is not claimed unless replayed.
-/
theorem failures_within_budget (options : ω → JobWorkerOptions) {s : State τ ω}
    (h : (system options).Reachable
      (fun s e => undisturbed s e = true ∧ counted options s e = true) s) :
    (∀ x now delayMs error y job s', counted options s (.threw x now delayMs error) = true →
      step options s (.threw x now delayMs error) = some s' → s.running.get x = some y →
      s.jobs.get y.jobId = some job →
        ∃ job', s'.jobs.get y.jobId = some job' ∧ job'.attempts = job.attempts + 1 ∧
          job'.maxAttempts = job.maxAttempts ∧ (job'.attempts : Int) ≤ job'.budget ∧
          (job'.status = .deadLetter ∧ (job'.attempts : Int) = job'.budget ∨
            job'.status = .failed ∧ (job'.attempts : Int) < job'.maxAttempts ∧
              ∀ at', job'.nextRunAt ≤ at' → job'.runnable at' = true)) ∧
    (∀ id job, s.jobs.get id = some job → (job.attempts : Int) ≤ job.budget ∧
      (job.status = .pending ∨ job.status = .failed → ∀ at', job.nextRunAt ≤ at' →
        job.runnable at' = true) ∧
      (job.status = .deadLetter → (job.attempts : Int) = job.budget ∧
        ∀ s', (system options).Run (fun _ e => e.replays id = false) s s' →
          (∀ job', s'.jobs.get id = some job' → job'.status = .deadLetter) ∧
          ∀ worker now, step options s' (.claim worker id now) = none)) := by
  have hlsd := leased_reachable (h.weaken fun _ _ hg => hg.1)
  have hbu := budgeted_reachable h
  constructor
  · intro x now delayMs error y job s' hc hsp hx hrow
    exact failure_counts hbu hlsd hc hsp hx hrow
  · intro id job hrow
    have hwi := hbu.within id job hrow
    refine ⟨hwi.le, fun hst at' hat => hwi.runnable hst hat, fun hdd => ?_⟩
    constructor
    · unfold Job.Within at hwi
      rw [hdd] at hwi
      exact hwi
    · intro s' hrun
      have hpa : Parked s id := ⟨Register.lt_next hrow, fun job' hrow' => by
        rw [hrow] at hrow'
        cases hrow'
        exact hdd⟩
      have hpa' := hpa.run hrun
      exact ⟨hpa'.dead, fun worker now => claim_eq_none (hpa'.not_runnable now)⟩

/-! ## Examples -/

namespace Sample

/-- A job for task 7 that may be tried twice. -/
def twice : EnqueueOptions Nat := ⟨7, none, some 2⟩

/-- A job for task 7 that asks for no attempt. -/
def never : EnqueueOptions Nat := ⟨7, none, some 0⟩

end Sample

open Sample

/-- The job fails, is tried again, and fails again. -/
theorem failures_within_budget_twice : ∃ s : State Nat Nat, ((∀ x now delayMs error y job s',
      counted workers s (.threw x now delayMs error) = true →
      step workers s (.threw x now delayMs error) = some s' → s.running.get x = some y →
      s.jobs.get y.jobId = some job →
        ∃ job', s'.jobs.get y.jobId = some job' ∧ job'.attempts = job.attempts + 1 ∧
          job'.maxAttempts = job.maxAttempts ∧ (job'.attempts : Int) ≤ job'.budget ∧
          (job'.status = .deadLetter ∧ (job'.attempts : Int) = job'.budget ∨
            job'.status = .failed ∧ (job'.attempts : Int) < job'.maxAttempts ∧
              ∀ at', job'.nextRunAt ≤ at' → job'.runnable at' = true)) ∧
    (∀ id job, s.jobs.get id = some job → (job.attempts : Int) ≤ job.budget ∧
      (job.status = .pending ∨ job.status = .failed → ∀ at', job.nextRunAt ≤ at' →
        job.runnable at' = true) ∧
      (job.status = .deadLetter → (job.attempts : Int) = job.budget ∧
        ∀ s', (system workers).Run (fun _ e => e.replays id = false) s s' →
          (∀ job', s'.jobs.get id = some job' → job'.status = .deadLetter) ∧
          ∀ worker now, step workers s' (.claim worker id now) = none))) ∧
    (s.jobs.get 0).map status = some .deadLetter := by
  have hpl : ((system workers).play
      (fun s e => undisturbed s e = true ∧ counted workers s e = true)
      [.enqueue Sample.twice 3 0, .claim 1 0 0, .threw 0 5 10 "down", .claim 2 0 15,
        .threw 1 20 0 "down"] (⟨.empty, .empty, .empty⟩ : State Nat Nat)).any
      (fun s => decide ((s.jobs.get 0).map status = some .deadLetter)) = true := by
    decide
  obtain ⟨s, hs, hdd⟩ := System.exists_reachable (S := system workers) rfl hpl
  exact ⟨s, failures_within_budget workers hs, hdd⟩

/--
A job that asks for no attempt fails, and waits for another one that does not come: in every run
from there it is not claimed and keeps out every other job of its task. And a failure after the
lease was lost does not count: two handlers fail, and the job has failed once.
-/
theorem failure_strands_job :
    (∃ s : State Nat Nat, (system workers).Reachable (fun _ _ => True) s ∧
      (s.jobs.get 0).map attempts = some 1 ∧
      ∀ s', (system workers).Run (fun _ e => e ≠ .delete 0) s s' →
        (s'.jobs.get 0).map status = some .failed ∧
        s'.jobs.hasPendingJobForTask 7 = true ∧
        ∀ worker now, step workers s' (.claim worker 0 now) = none) ∧
    ∃ s s' : State Nat Nat, (system workers).Reachable (fun _ _ => True) s ∧
      step workers s (.threw 1 42000 10 "down") = some s' ∧
      (s.jobs.get 0).map attempts = some 1 ∧ (s'.jobs.get 0).map attempts = some 1 := by
  constructor
  · have hpl : ((system workers).play (fun _ _ => True)
        [.enqueue Sample.never 3 0, .claim 1 0 0, .threw 0 5 10 "down"]
        (⟨.empty, .empty, .empty⟩ : State Nat Nat)).any (fun s => decide (s.running.next = 1) &&
          decide (s.running.get 0 = none) && (s.jobs.get 0).any fun job => decide (
            job.taskId = 7 ∧ job.status = .failed ∧ job.attempts = 1 ∧ job.maxAttempts = 0)) =
          true := by decide
    obtain ⟨s, hs, hend⟩ := System.exists_reachable_of_play (S := system workers) rfl hpl
    simp only [Bool.and_eq_true, decide_eq_true_eq, Option.any_eq_true] at hend
    obtain ⟨⟨hnx, hil⟩, job, hrow, htk, hfai, hatm, hmax⟩ := hend
    have hst : Stranded s 0 7 := by
      refine ⟨⟨job, hrow, htk, hfai, by omega⟩, fun x y hx => ?_⟩
      have hlt := Register.lt_next hx
      obtain rfl : x = 0 := by omega
      rw [hil] at hx
      cases hx
    refine ⟨s, hs, by rw [hrow, map_some, hatm], fun s' hrun => ?_⟩
    have hst' := hst.run hrun
    refine ⟨?_, hst'.blocks, fun worker now => claim_eq_none (hst'.not_runnable now)⟩
    obtain ⟨⟨job', hrow', _, hfai', _⟩, _⟩ := hst'
    rw [hrow', map_some, hfai']
  · have hpl : ((system workers).play (fun _ _ => True)
        (takeover ++ [.threw 0 41000 10 "down"])
        (⟨.empty, .empty, .empty⟩ : State Nat Nat)).any (fun s =>
          (step workers s (.threw 1 42000 10 "down")).any fun s' => decide (
            (s.jobs.get 0).map attempts = some 1 ∧
            (s'.jobs.get 0).map attempts = some 1)) = true := by decide
    obtain ⟨s, hs, hnx⟩ := System.exists_reachable_of_play (S := system workers) rfl hpl
    obtain ⟨s', hs', hend⟩ := (Option.any_eq_true _ _).mp hnx
    obtain ⟨hbf, haf⟩ := of_decide_eq_true hend
    exact ⟨s, s', hs, hs', hbf, haf⟩

end AiNet.Queue
