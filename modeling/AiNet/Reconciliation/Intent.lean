import AiNet.Reconciliation.Repair

/-!
# What remediation completes

Runs of reconciliation among everything else that happens: payments are locked, released and
refunded, queued jobs are executed, the process restarts, chain and tasks change, and Horizon answers
what it likes. A run reads the records, detects drift in them when Horizon has answered, and comes
to a discrepancy when the records may have changed. A payment call is one step, that of its claim.

A refund is then for a record that is locked and whose escrow has expired. A release is for a
record that is released, unless the run had a listed balance of a refunded or an orphaned one:
detection takes every settled record for a released one.
-/

namespace AiNet.Reconciliation

open Core List Option System
open AiNet.Payment (PaymentStatus)

variable {τ ν β : Type} [DecidableEq τ] [DecidableEq ν] [DecidableEq β]

/-! ## The service among the others -/

/-- A run waits for Horizon, or goes through its discrepancies. -/
inductive Pass (τ ν β : Type) where
  | reading (now : Int) (localRecords : List (PaymentRecord τ ν β))
  | remediating (options : DriftDetectionOptions τ) (remaining : List (Discrepancy τ ν β))
      (report : List (Discrepancy τ ν β × Remediation))

/-- The world, and the run in it, if there is one. -/
structure Service (τ ν β : Type) where
  world : World τ ν β
  running : Option (Pass τ ν β)

inductive Event (τ ν β : Type) where
  | lock (record : PaymentRecord τ ν β)
  | release (key : τ × ν) (accepts : β → Bool)
  | refund (key : τ × ν) (accepts : β → Bool)
  | execute (n : Nat) (accepts : β → Bool)
  | others (chain : Chain β)
  | restart
  | start (now : Int)
  | detect (horizon : Horizon β) (taskState : τ → Option TaskState)
  | remediate (accepts : β → Bool)
  | finish

/-- Insert a row, unless its key is taken. -/
def Payments.insert (p : Payments τ ν β) (r : PaymentRecord τ ν β) : Payments τ ν β :=
  if h : r.key ∈ p.rows.map PaymentRecord.key then p
  else
    { rows := p.rows ++ [r]
      keys := by
        rw [map_append, map_singleton, nodup_append]
        refine ⟨p.keys, nodup_singleton _, fun key hkey key' hkey' heq => ?_⟩
        rw [heq, mem_singleton.mp hkey'] at hkey
        exact h hkey }

/-- `PaymentService.lock`, whose balance was created. -/
def World.lock (w : World τ ν β) (r : PaymentRecord τ ν β) : World τ ν β :=
  { w with
    chain := ⟨w.chain.balances ++ [⟨r.balanceId, r.amountStroops⟩], w.chain.transactions ++ [r.balanceId]⟩
    payments := w.payments.insert { r with status := .locked, txHash := none } }

def step (cfg : Config) (s : Service τ ν β) : Event τ ν β → Option (Service τ ν β)
  | .lock record => some { s with world := s.world.lock record }
  | .release key accepts => some { s with world := (s.world.release accepts key).1 }
  | .refund key accepts => some { s with world := (s.world.refund accepts key).1 }
  | .execute n accepts =>
    s.world.queue[n]?.map fun job => { s with world := s.world.execute accepts job }
  | .others chain => some { s with world := { s.world with chain := chain } }
  | .restart => some { s with running := none }
  | .start now =>
    match s.running with
    | some _ => none
    | none => some { s with running := some (.reading now s.world.payments.rows) }
  | .detect horizon taskState =>
    match s.running with
    | some (.reading now localRecords) =>
      let options := ⟨cfg.escrowExpiryMs, now, taskState⟩
      let detection := detectPaymentDrift localRecords horizon.listBalances options
        (verifyReleaseTransactions horizon cfg.maxTxLookups localRecords)
      some { s with running := some (.remediating options detection.discrepancies []) }
    | _ => none
  | .remediate accepts =>
    match s.running with
    | some (.remediating options (d :: remaining) report) =>
      let (world, outcome) := s.world.handle cfg accepts d
      some ⟨world, some (.remediating options remaining (report ++ [(d, outcome)]))⟩
    | _ => none
  | .finish =>
    match s.running with
    | some (.remediating _ [] report) =>
      let pendingIds := (report.filter fun (_, outcome) =>
        decide (outcome.status ≠ .remediated)).map fun (d, _) => d.driftId
      some ⟨s.world.retain pendingIds, none⟩
    | _ => none

/-- Any payments, any chain, and nothing queued or running. -/
def system (cfg : Config) : System (Service τ ν β) (Event τ ν β) where
  start s := s.running = none ∧ s.world.queue = [] ∧ s.world.submitted = []
  step := step cfg

/-- **A run that nothing interrupts is `run`.** -/
theorem run_of_events (cfg : Config) (w : World τ ν β) (horizon : Horizon β)
    (taskState : τ → Option TaskState) (now : Int) (accepts : β → Bool) :
    (system cfg).Run (fun _ _ => True) ⟨w, none⟩
      ⟨(w.run cfg horizon taskState now accepts).1, none⟩ := by
  have hlo : ∀ (options : DriftDetectionOptions τ) (ds : List (Discrepancy τ ν β)) w report,
      (system cfg).Run (fun _ _ => True) ⟨w, some (.remediating options ds report)⟩
        ⟨(w.handleAll cfg accepts ds).1,
          some (.remediating options [] (report ++ (w.handleAll cfg accepts ds).2))⟩ := by
    intro options ds
    induction ds with
    | nil =>
      intro w report
      rw [show (w.handleAll cfg accepts []).2 = [] from rfl, append_nil]
      exact .refl
    | cons d rest ih =>
      intro w report
      have hrst := ih (w.handle cfg accepts d).1 (report ++ [(d, (w.handle cfg accepts d).2)])
      rw [append_assoc] at hrst
      exact .head ⟨.remediate accepts, trivial, rfl⟩ hrst
  refine .head ⟨.start now, trivial, rfl⟩ ?_
  refine .head ⟨.detect horizon taskState, trivial, rfl⟩ ?_
  refine .tail (hlo _ _ _ _) ⟨.finish, trivial, ?_⟩
  rfl

/-- The jobs that a step queues or submits. -/
def Service.issued (s s' : Service τ ν β) : List (Job τ ν β) :=
  s'.world.queue.drop s.world.queue.length ++ s'.world.submitted.drop s.world.submitted.length

/-- What a job completes: a release its record says happened, or a refund of an expired escrow. -/
def Service.Intended (s : Service τ ν β) (job : Job τ ν β) : Prop :=
  ∃ r, s.world.payments.findByKey job.key = some r ∧ (job.kind = .release ∧ r.status = .released ∨
      job.kind = .refund ∧ r.status = .locked ∧ ∃ options remaining report,
        s.running = some (.remediating options remaining report) ∧ Expired options r)

/-- The run does not see a listed balance of a refunded or an orphaned record. -/
def cleared (cfg : Config) (s : Service τ ν β) : Event τ ν β → Bool
  | .detect horizon _ =>
    match s.running with
    | some (.reading _ localRecords) => !cfg.remediationEnabled || localRecords.all fun r =>
      decide (r.status = .locked) || decide (r.status = .released) ||
        (onChainByBalanceId horizon.listBalances r.balanceId).isNone
    | _ => true
  | _ => true

/-! ## Rows over time -/

variable {cfg : Config} {accepts : β → Bool} {w w' w'' : World τ ν β} {s s' : Service τ ν β}
  {e : Event τ ν β} {d : Discrepancy τ ν β}

/-- Rows stay, as they were or settled, and what is released stays so. -/
def Later (w w' : World τ ν β) : Prop :=
  ∀ k r, w.payments.findByKey k = some r → ∃ r', w'.payments.findByKey k = some r' ∧ Kept r r' ∧
    (r.status = .released → r'.status = .released)

section

omit [DecidableEq β]

theorem later_of_payments (h : w'.payments = w.payments) : Later w w' := by
  intro k r hr
  rw [h]
  exact ⟨r, hr, .refl r, id⟩

theorem Later.trans (h : Later w w') (h' : Later w' w'') : Later w w'' := by
  intro k r hr
  obtain ⟨r', hr', hkpt, hrel⟩ := h k r hr
  obtain ⟨r'', hr'', hkpt', hrel'⟩ := h' k r' hr'
  exact ⟨r'', hr'', hkpt.trans hkpt', fun hr => hrel' (hrel hr)⟩

theorem later_updateStatus {key : τ × ν} {status : PaymentStatus} {h : TxHash}
    (hw : w'.payments = w.payments.updateStatus key status h)
    (hstl : isSettledPaymentStatus status = true)
    (hrel : ∀ r, w.payments.findByKey key = some r → r.status = .released → status = .released) :
    Later w w' := by
  intro k r hr
  obtain ⟨r', hr', hkpt⟩ := (advances_updateStatus w.payments key h hstl).1 k r hr
  refine ⟨r', by rw [hw]; exact hr', hkpt, fun hst => ?_⟩
  rw [Payments.findByKey_updateStatus, hr] at hr'
  cases hr'
  split
  · rename_i hkey
    rw [hkey] at hr
    exact hrel r hr hst
  · exact hst

end

theorem later_claim {r : PaymentRecord τ ν β} {status : PaymentStatus}
    (hr : w.payments.findByKey r.key = some r) (hstl : isSettledPaymentStatus status = true)
    (hrel : r.status = .released → status = .released) :
    Later w (w.claim accepts r status).1 := by
  unfold World.claim
  split
  · exact later_of_payments rfl
  · refine later_updateStatus rfl hstl fun r' hr' hst => ?_
    cases hr.symm.trans hr'
    exact hrel hst

theorem later_release (key : τ × ν) : Later w (w.release accepts key).1 := by
  unfold World.release
  split
  · exact later_of_payments rfl
  · rename_i r hr
    split
    · exact later_of_payments rfl
    · have hkey := (Payments.findByKey_eq_some.mp hr).2
      rw [← hkey] at hr
      exact later_claim hr rfl fun _ => rfl

theorem later_refund (key : τ × ν) : Later w (w.refund accepts key).1 := by
  unfold World.refund
  split
  · exact later_of_payments rfl
  · rename_i r hr
    split
    · exact later_of_payments rfl
    · rename_i hnot
      have hkey := (Payments.findByKey_eq_some.mp hr).2
      rw [← hkey] at hr
      exact later_claim hr rfl fun hst => absurd hst hnot

theorem later_settle (job : Job τ ν β) : Later w (w.settle accepts job).1 := by
  unfold World.settle
  cases job.kind with
  | release => exact later_release job.key
  | refund => exact later_refund job.key

omit [DecidableEq β] in
theorem later_lock (record : PaymentRecord τ ν β) : Later w (w.lock record) := by
  intro k r hr
  refine ⟨r, ?_, .refl r, id⟩
  unfold World.lock Payments.insert
  dsimp only
  split
  · exact hr
  · unfold Payments.findByKey at hr ⊢
    dsimp only
    rw [List.find?_append, hr, some_or]

theorem later_perhaps : Later w (w.perhaps accepts (d.op cfg)) := by
  unfold World.perhaps
  cases hop : d.op cfg with
  | none => exact later_of_payments rfl
  | some op =>
    dsimp only
    cases op with
    | settle job => exact later_settle job
    | write key expected status h hstl =>
      unfold World.apply
      dsimp only
      split
      · exact later_of_payments rfl
      · rename_i payments hpa
        obtain ⟨⟨r, hr, hee⟩, rfl⟩ := Payments.updateStatusIfCurrent_eq_some.mp hpa
        refine later_updateStatus rfl hstl fun r' hr' hst => ?_
        cases hr.symm.trans hr'
        -- a locked row is expected, or a released one is written again
        unfold Discrepancy.op at hop
        obtain ⟨_, hop⟩ := ite_none_right_eq_some.mp hop
        obtain ⟨key', _, hop⟩ := bind_eq_some_iff.mp hop
        split at hop
        · obtain ⟨_, rfl, _⟩ := Op.write.inj (some.inj hop)
          rw [hee] at hst
          cases hst
        · obtain ⟨_, _, hop⟩ := map_eq_some_iff.mp hop
          exact (Op.write.inj hop).2.2.1.symm
        · split at hop
          · obtain ⟨_, _, hop⟩ := map_eq_some_iff.mp hop
            cases hop
          · cases hop
        · split at hop
          · obtain ⟨_, _, hop⟩ := map_eq_some_iff.mp hop
            cases hop
          · cases hop
        · cases hop
        · cases hop

/-! ## Handling a discrepancy when the rows have changed -/

theorem handle_unfit (cfg : Config) (accepts : β → Bool) (hunf : ¬Fits w d) : (w.handle cfg accepts d).1.payments = w.payments ∧
    (w.handle cfg accepts d).1.queue = w.queue ∧ (w.handle cfg accepts d).1.submitted = w.submitted := by
  unfold Fits at hunf
  rw [Classical.not_imp] at hunf
  obtain ⟨hty, hunf⟩ := hunf
  obtain ⟨key, hunf⟩ := not_forall.mp hunf
  obtain ⟨hkey, hnot⟩ := Classical.not_imp.mp hunf
  have hsk : w.remediate cfg accepts d = (w, ⟨.refundEscrow, .skipped, none⟩) := by
    unfold World.remediate planRemediation
    rw [hty, hkey]
    exact if_pos hnot
  unfold World.handle
  rw [hsk]
  cases cfg.remediationEnabled with
  | true | false => exact ⟨rfl, rfl, rfl⟩

theorem later_handle (cfg : Config) (accepts : β → Bool) (w : World τ ν β) (d : Discrepancy τ ν β) :
    Later w (w.handle cfg accepts d).1 := by
  by_cases hft : Fits w d
  · have hhnd := handled_handle cfg accepts hft
    exact later_perhaps.trans (later_of_payments hhnd.agree.1)
  · exact later_of_payments (handle_unfit cfg accepts hft).1

theorem handle_disabled (accepts : β → Bool) (w : World τ ν β) (d : Discrepancy τ ν β)
    (h : cfg.remediationEnabled = false) :
    (w.handle cfg accepts d).1.queue = w.queue ∧ (w.handle cfg accepts d).1.submitted = w.submitted := by
  unfold World.handle
  rw [h]
  exact ⟨rfl, rfl⟩

/-- **A job is issued for its discrepancy, and a refund while the record is locked.** -/
theorem job_of_handle {job : Job τ ν β}
    (hjob : job ∈ (w.handle cfg accepts d).1.queue.drop w.queue.length ++
      (w.handle cfg accepts d).1.submitted.drop w.submitted.length) :
    d.job = some job ∧ Fits w d ∧ cfg.remediationEnabled = true := by
  have henb : cfg.remediationEnabled = true := by
    rw [← Bool.not_eq_false]
    intro hdi
    obtain ⟨hque, hsbd⟩ := handle_disabled accepts w d hdi
    rw [hque, hsbd, drop_length, drop_length] at hjob
    cases hjob
  by_cases hft : Fits w d
  · refine ⟨?_, hft, henb⟩
    have hhnd := handled_handle cfg accepts hft
    rcases mem_append.mp hjob with hqd | hsbd
    · rw [hhnd.queue, drop_left, mem_toList] at hqd
      exact (queued_eq_some.mp hqd).2.2
    · rcases hhnd.submitted with hsm | ⟨job', hjob', hmo⟩
      · rw [hsm, drop_length] at hsbd
        cases hsbd
      · rw [hmo, drop_left, mem_singleton] at hsbd
        rw [hsbd]
        exact hjob'
  · obtain ⟨_, hque, hsbd⟩ := handle_unfit cfg accepts hft
    rw [hque, hsbd, drop_length, drop_length] at hjob
    cases hjob

/-! ## The invariant -/

/-- The reason for a job, as the rows are now. -/
def Backed (cfg : Config) (w : World τ ν β) (options : DriftDetectionOptions τ)
    (d : Discrepancy τ ν β) : Prop :=
  ∀ key, d.record = some key → ∃ r, w.payments.findByKey key = some r ∧
    (d.driftType = .releaseUnconfirmed → cfg.remediationEnabled = true → r.status = .released) ∧
    (d.driftType = .expiredEscrow → r.status = .locked → Expired options r)

omit [DecidableEq β] in
theorem Backed.later {options : DriftDetectionOptions τ} (h : Backed cfg w options d)
    (hltr : Later w w') : Backed cfg w' options d := by
  intro key hkey
  obtain ⟨r, hr, hrel, hexp⟩ := h key hkey
  obtain ⟨r', hr', hkpt, hsty⟩ := hltr key r hr
  refine ⟨r', hr', fun hty henb => hsty (hrel hty henb), fun hty hlck => ?_⟩
  -- a row that is locked now was not touched
  rcases hkpt.2.2 with rfl | hstl
  · exact hexp hty hlck
  · rw [hlck] at hstl
    cases hstl

/-- What is read is as the rows were, and what is left to do is backed by them. -/
def Service.Sound (cfg : Config) (s : Service τ ν β) : Prop :=
  match s.running with
  | none => True
  | some (.reading _ localRecords) => ∀ r ∈ localRecords, ∃ r',
      s.world.payments.findByKey r.key = some r' ∧ Kept r r' ∧
        (r.status = .released → r'.status = .released)
  | some (.remediating options remaining _) => ∀ d ∈ remaining, Backed cfg s.world options d

omit [DecidableEq β] in
theorem Service.Sound.later (h : s.Sound cfg) (hltr : Later s.world s'.world)
    (hrng : s'.running = s.running) : s'.Sound cfg := by
  unfold Service.Sound at h ⊢
  rw [hrng]
  cases hpa : s.running with
  | none => trivial
  | some pass =>
    rw [hpa] at h
    cases pass with
    | reading =>
      intro r hr
      obtain ⟨r', hr', hkpt, hrel⟩ := h r hr
      obtain ⟨r'', hr'', hkpt', hrel'⟩ := hltr _ r' hr'
      exact ⟨r'', hr'', hkpt.trans hkpt', fun hst => hrel' (hrel hst)⟩
    | remediating => exact fun d hd => (h d hd).later hltr

theorem backed_detect {now : Int} {localRecords : List (PaymentRecord τ ν β)} {horizon : Horizon β}
    {taskState : τ → Option TaskState} (h : s.Sound cfg)
    (hpa : s.running = some (.reading now localRecords))
    (hcl : cleared cfg s (.detect horizon taskState) = true)
    (hd : d ∈ (detectPaymentDrift localRecords horizon.listBalances ⟨cfg.escrowExpiryMs, now, taskState⟩
      (verifyReleaseTransactions horizon cfg.maxTxLookups localRecords)).discrepancies) :
    Backed cfg s.world ⟨cfg.escrowExpiryMs, now, taskState⟩ d := by
  unfold Service.Sound at h
  rw [hpa] at h
  rw [discrepancies_detectPaymentDrift] at hd
  rcases mem_append.mp hd with hrec | hmis
  · obtain ⟨r, hr, hdft⟩ := mem_filterMap.mp hrec
    have hcss := drift_of_driftOf hdft
    obtain ⟨r', hr', hkpt, hrel⟩ := h r hr
    intro key hkey
    cases hcss.key.1.symm.trans hkey
    refine ⟨r', hr', fun hty henb => ?_, fun hty hlck => ?_⟩
    · cases hcss with
      | unconfirmed hstl hlst =>
        -- the record is settled and listed, so it is released
        refine hrel ?_
        unfold cleared at hcl
        rw [hpa] at hcl
        dsimp only at hcl
        rw [henb, Bool.not_true, Bool.false_or, List.all_eq_true] at hcl
        have hst := hcl r hr
        obtain ⟨balance, hbal⟩ := onChain_of_listed hlst
        rw [hbal, isNone_some, Bool.or_false, Bool.or_eq_true, decide_eq_true_eq, decide_eq_true_eq] at hst
        rcases hst with hlck | hrel
        · rw [hlck] at hstl
          cases hstl
        · exact hrel
      | orphaned | expired | mismatch | missing => cases hty
    · cases hcss with
      | expired _ _ hexp =>
        rcases hkpt.2.2 with rfl | hstl
        · exact hexp
        · rw [hlck] at hstl
          cases hstl
      | orphaned | unconfirmed | mismatch | missing => cases hty
  · obtain ⟨balance, _, rfl⟩ := List.mem_map.mp hmis
    intro key hkey
    cases hkey

theorem Service.Sound.step (h : s.Sound cfg) (hcl : cleared cfg s e = true)
    (hs : step cfg s e = some s') : s'.Sound cfg := by
  unfold AiNet.Reconciliation.step at hs
  cases e with
  | lock record =>
    cases hs
    exact h.later (later_lock record) rfl
  | release key =>
    cases hs
    exact h.later (later_release key) rfl
  | refund key =>
    cases hs
    exact h.later (later_refund key) rfl
  | execute =>
    obtain ⟨job, _, rfl⟩ := map_eq_some_iff.mp hs
    exact h.later (later_settle job) rfl
  | others =>
    cases hs
    exact h.later (later_of_payments rfl) rfl
  | restart =>
    cases hs
    trivial
  | start =>
    dsimp only at hs
    split at hs
    · cases hs
    · cases hs
      intro r hr
      exact ⟨r, Payments.findByKey_self hr, .refl r, id⟩
  | detect horizon taskState =>
    dsimp only at hs
    split at hs
    · rename_i now localRecords hpa
      cases hs
      have hbkd := fun d => backed_detect (d := d) h hpa hcl
      exact hbkd
    · cases hs
  | remediate accepts =>
    dsimp only at hs
    split at hs
    · rename_i options d remaining report hpa
      cases hs
      unfold Service.Sound at h
      rw [hpa] at h
      intro d' hd'
      exact (h d' (mem_cons_of_mem d hd')).later (later_handle cfg accepts s.world d)
    · cases hs
  | finish =>
    dsimp only at hs
    split at hs
    · cases hs
      trivial
    · cases hs

theorem sound_reachable
    (h : (system cfg).Reachable (fun s e => cleared cfg s e = true) s) : s.Sound cfg := by
  refine System.Reachable.invariant (I := fun s => s.Sound cfg) ?_ ?_ h
  · intro s hsta
    unfold Service.Sound
    rw [hsta.1]
    trivial
  · intro s e s' _ hcl hsnd hs
    exact hsnd.step hcl hs

theorem claim_keeps (r : PaymentRecord τ ν β) (status : PaymentStatus) :
    (w.claim accepts r status).1.queue = w.queue ∧
      (w.claim accepts r status).1.submitted = w.submitted := by
  unfold World.claim
  split
  · exact ⟨rfl, rfl⟩
  · exact ⟨rfl, rfl⟩

theorem release_keeps (w : World τ ν β) (accepts : β → Bool) (key : τ × ν) :
    (w.release accepts key).1.queue = w.queue ∧
    (w.release accepts key).1.submitted = w.submitted := by
  unfold World.release
  split
  · exact ⟨rfl, rfl⟩
  · split
    · exact ⟨rfl, rfl⟩
    · exact claim_keeps _ _

theorem refund_keeps (w : World τ ν β) (accepts : β → Bool) (key : τ × ν) :
    (w.refund accepts key).1.queue = w.queue ∧
    (w.refund accepts key).1.submitted = w.submitted := by
  unfold World.refund
  split
  · exact ⟨rfl, rfl⟩
  · split
    · exact ⟨rfl, rfl⟩
    · exact claim_keeps _ _

theorem issued_of_step {job : Job τ ν β} (hs : step cfg s e = some s') (hjob : job ∈ s.issued s') :
    ∃ options d remaining report, s.running = some (.remediating options (d :: remaining) report) ∧
      d.job = some job ∧ Fits s.world d ∧ cfg.remediationEnabled = true := by
  have hsm : s'.world.queue = s.world.queue → s'.world.submitted = s.world.submitted → False := by
    intro hque hsbd
    unfold Service.issued at hjob
    rw [hque, hsbd, drop_length, drop_length] at hjob
    cases hjob
  unfold step at hs
  cases e with
  | lock | others | restart =>
    cases hs
    exact (hsm rfl rfl).elim
  | release key accepts =>
    cases hs
    have hkps := release_keeps s.world accepts key
    exact (hsm hkps.1 hkps.2).elim
  | refund key accepts =>
    cases hs
    have hkps := refund_keeps s.world accepts key
    exact (hsm hkps.1 hkps.2).elim
  | execute n accepts =>
    obtain ⟨job', _, rfl⟩ := map_eq_some_iff.mp hs
    obtain ⟨hque, hsbd, _⟩ : (s.world.settle accepts job').1.queue = s.world.queue ∧
        (s.world.settle accepts job').1.submitted = s.world.submitted ∧ _ := settle_keeps job'
    exact (hsm hque hsbd).elim
  | start =>
    dsimp only at hs
    split at hs
    · cases hs
    · cases hs
      exact (hsm rfl rfl).elim
  | detect | finish =>
    dsimp only at hs
    split at hs
    · cases hs
      exact (hsm rfl rfl).elim
    · cases hs
  | remediate accepts =>
    dsimp only at hs
    split at hs
    · rename_i options d remaining report hpa
      cases hs
      exact ⟨options, d, remaining, report, hpa, job_of_handle hjob⟩
    · cases hs

/--
**What remediation completes.** In every run of the service among payment operations, changes of the
chain and of tasks, and any answers of Horizon, in which remediation is off or no run has a listed
balance of a record that it read as refunded or orphaned: a release that remediation submits or
queues is for a record that is released, and a refund for one that is locked and whose escrow has
expired, its task having failed or been cancelled.
-/
theorem remediation_intended (cfg : Config) {s s' : Service τ ν β} {e : Event τ ν β}
    (h : (system cfg).Reachable (fun s e => cleared cfg s e = true) s)
    (hs : step cfg s e = some s') {job : Job τ ν β} (hjob : job ∈ s.issued s') : s.Intended job := by
  obtain ⟨options, d, remaining, report, hpa, hof, hft, henb⟩ := issued_of_step hs hjob
  have hsnd := sound_reachable h
  unfold Service.Sound at hsnd
  rw [hpa] at hsnd
  obtain ⟨hkey, _, hty⟩ := key_job hof
  obtain ⟨r, hr, hrel, hexp⟩ := hsnd d mem_cons_self job.key hkey
  refine ⟨r, hr, ?_⟩
  rcases hty with ⟨hty, hkd⟩ | ⟨hty, hkd⟩
  · exact .inl ⟨hkd, hrel hty henb⟩
  · have hlck : r.status = .locked := by
      have hrow := hft hty job.key hkey
      rw [hr] at hrow
      exact some.inj hrow
    exact .inr ⟨hkd, hlck, options, _, report, hpa, hexp hty hlck⟩

/-! ## Examples -/

namespace Sample

/-- A run of which the listing fails, and one that sees the balance. -/
def twoRuns : List (Event Nat Nat Nat) :=
  [.start 0, .detect failing fun _ => none, .remediate fun _ => true, .finish,
    .start 1, .detect (world 0).chain.horizon fun _ => none]

/-- A run that sees the balance of a payment whose task failed a day ago. -/
def failedTask : List (Event Nat Nat Nat) :=
  [.start 86400000, .detect (world 0).chain.horizon fun _ => some ⟨"failed", none⟩]

end Sample

open Sample

/-- The escrow of a failed task is refunded. -/
theorem remediation_intended_refund : ∃ s : Service Nat Nat Nat,
    (system settling).Reachable (fun s e => cleared settling s e = true) s ∧
      s.Intended ⟨.refund, (7, 1), 5⟩ := by
  have hpl : ((system settling).play (fun s e => cleared settling s e = true)
      Sample.failedTask ⟨Sample.world 0, none⟩).any (fun s =>
        (step settling s (.remediate fun _ => true)).any fun s' =>
          decide (⟨.refund, (7, 1), 5⟩ ∈ s.issued s')) = true := by decide +kernel
  obtain ⟨s, hs, hiss⟩ := exists_reachable_of_play (S := system settling)
    ⟨rfl, rfl, rfl⟩ hpl
  obtain ⟨s', hst, hjob⟩ := (Option.any_eq_true _ _).mp hiss
  exact ⟨s, hs, remediation_intended settling hs hst (of_decide_eq_true hjob)⟩

/--
One run orphans a locked record because the listing failed; the next one releases its balance.
The record was never released before.
-/
theorem orphan_released : ∃ (s s' : Service Nat Nat Nat)
    (log : List (Service Nat Nat Nat × Event Nat Nat Nat)),
    (system settling).Logged (fun _ _ => True) s log ∧
      step settling s (.remediate fun _ => true) = some s' ∧
      ⟨.release, (7, 1), 5⟩ ∈ s.issued s' ∧
      (∀ p ∈ log.map Prod.fst ++ [s],
        (p.world.payments.findByKey (7, 1)).map PaymentRecord.status ≠ some .released) ∧
      (s.world.payments.findByKey (7, 1)).map PaymentRecord.status = some .orphaned ∧
      s.world.chain.holds 5 = true ∧ s'.world.chain.holds 5 = false := by
  have hpl : ((system settling).play (fun _ _ => True) Sample.twoRuns
      ⟨Sample.world 0, none⟩).any (fun s =>
        (step settling s (.remediate fun _ => true)).any fun s' =>
          decide (⟨.release, (7, 1), 5⟩ ∈ s.issued s' ∧
            (∀ p ∈ ((system settling).record Sample.twoRuns ⟨Sample.world 0, none⟩).map Prod.fst ++
              [s], (p.world.payments.findByKey (7, 1)).map PaymentRecord.status ≠ some .released) ∧
            (s.world.payments.findByKey (7, 1)).map PaymentRecord.status = some .orphaned ∧
            s.world.chain.holds 5 = true ∧ s'.world.chain.holds 5 = false)) = true := by
    decide
  obtain ⟨s, hs, hany⟩ := (Option.any_eq_true _ _).mp hpl
  obtain ⟨s', hst, hend⟩ := (Option.any_eq_true _ _).mp hany
  exact ⟨s, s', _, logged_of_play (S := system settling) ⟨rfl, rfl, rfl⟩ hs, hst,
    of_decide_eq_true hend⟩

end AiNet.Reconciliation
