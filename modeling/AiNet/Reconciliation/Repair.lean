import AiNet.Reconciliation.Orphans

/-!
# Whether a repair holds

A second run follows the first, after the queued jobs were worked off and the chain shows what was
submitted. What the first run has remediated is not detected again, with two exceptions, for which
the report is ahead of what happened. A release of a record that says released with a hash returns
that hash and submits nothing, so a balance that is still there stays there. And a queued job
counts as remediated when it is queued, whether or not the network lets the claim through.
-/

namespace AiNet.Reconciliation

open AiNet.Payment (PaymentStatus)
open List Option Payments

variable {τ ν β : Type} [DecidableEq τ] [DecidableEq ν] [DecidableEq β] {cfg : Config}
  {taskState : τ → Option TaskState} {now : Int} {accepts : β → Bool} {w : World τ ν β}
  {d d' : Discrepancy τ ν β}

/-- The same discrepancy, in another report. -/
def Discrepancy.Same (d d' : Discrepancy τ ν β) : Prop :=
  d'.driftType = d.driftType ∧ d'.record = d.record ∧ d'.balanceId = d.balanceId

/-- The queued jobs are executed, and their records cleared. -/
def World.workOff (accepts : β → Bool) (w : World τ ν β) : World τ ν β :=
  { w.queue.foldl (fun w job => w.execute accepts job) w with queue := [], submitted := [] }

/-- The balances that an honest Horizon lists. -/
def Chain.shown (c : Chain β) : List (ClaimableBalanceOnChain β) :=
  c.balances.take (listBalancesMaxPages * listBalancesPageLimit)

def Final (r : PaymentRecord τ ν β) : Prop := r.status = .released ∧ r.txHash.isSome = true

/-- Remediation of the record claims its balance. -/
def Attempts (w : World τ ν β) (options : DriftDetectionOptions τ) (r : PaymentRecord τ ν β) : Prop :=
  Listed w.chain.shown r.balanceId ∧
    (isSettledPaymentStatus r.status = true ∧ ¬Final r ∨ r.status = .locked ∧ Expired options r)

/-- The balance is claimed: by the remediation of a record, and the network lets it through. -/
def ClaimedFor (accepts : β → Bool) (w : World τ ν β) (options : DriftDetectionOptions τ) (b : β) :
    Prop :=
  ∃ r ∈ w.payments.rows, r.balanceId = b ∧ Attempts w options r ∧ accepts b = true

/-- A listed balance is claimed for every record of which the run says so without knowing. -/
def Repairable (cfg : Config) (accepts : β → Bool) (w : World τ ν β)
    (options : DriftDetectionOptions τ) : Prop :=
  cfg.remediationEnabled = true → ∀ r ∈ w.payments.rows, Listed w.chain.shown r.balanceId →
    (cfg.settlementQueue = true ∧
        (isSettledPaymentStatus r.status = true ∨ r.status = .locked ∧ Expired options r) ∨
      cfg.inline = true ∧ Final r) →
    ClaimedFor accepts w options r.balanceId

/-! ## A run and the jobs that it queued -/

/-- What is done for a discrepancy, in the run or as a job. -/
def Discrepancy.plan (cfg : Config) (d : Discrepancy τ ν β) : Option (Op τ ν β) :=
  (d.op cfg).or ((d.queued cfg).map .settle)

/-- Jobs are settled, in the run or later. -/
def Config.settles (cfg : Config) : Bool :=
  cfg.remediationEnabled && (cfg.settlementQueue || cfg.inline)

variable {job : Job τ ν β}

section

omit [DecidableEq τ] [DecidableEq ν] [DecidableEq β]

theorem key_job (h : d.job = some job) :
    d.record = some job.key ∧ d.balanceId = job.balanceId ∧
      (d.driftType = .releaseUnconfirmed ∧ job.kind = .release ∨
        d.driftType = .expiredEscrow ∧ job.kind = .refund) := by
  unfold Discrepancy.job at h
  obtain ⟨key, hkey, h⟩ := bind_eq_some_iff.mp h
  rw [hkey]
  split at h
  · rename_i hty
    cases h
    exact ⟨rfl, rfl, .inl ⟨hty, rfl⟩⟩
  · rename_i hty
    cases h
    exact ⟨rfl, rfl, .inr ⟨hty, rfl⟩⟩
  · cases h

theorem same_of_job (h : d.job = some job) (h' : d'.job = some job) : d.Same d' := by
  obtain ⟨hkey, hid, hty⟩ := key_job h
  obtain ⟨hkey', hid', hty'⟩ := key_job h'
  refine ⟨?_, hkey'.trans hkey.symm, hid'.trans hid.symm⟩
  rcases hty with ⟨hty, hkd⟩ | ⟨hty, hkd⟩
  · rcases hty' with ⟨hty', _⟩ | ⟨_, hkd'⟩
    · rw [hty, hty']
    · rw [hkd] at hkd'
      cases hkd'
  · rcases hty' with ⟨_, hkd'⟩ | ⟨hty', _⟩
    · rw [hkd] at hkd'
      cases hkd'
    · rw [hty, hty']

theorem queued_eq_some : d.queued cfg = some job ↔
    cfg.remediationEnabled = true ∧ cfg.settlementQueue = true ∧ d.job = some job := by
  unfold Discrepancy.queued
  rw [ite_none_right_eq_some, Bool.and_eq_true, and_assoc]

theorem op_of_job (h : d.job = some job) :
    d.op cfg = if cfg.remediationEnabled && cfg.inline then some (.settle job) else none := by
  obtain ⟨hrec, _, hty⟩ := key_job h
  unfold Discrepancy.op
  cases henb : cfg.remediationEnabled with
  | false => rfl
  | true =>
    rw [if_pos rfl, hrec, bind_some, h, Bool.true_and]
    rcases hty with ⟨hty, _⟩ | ⟨hty, _⟩
    · rw [hty]
      rfl
    · rw [hty]
      rfl

theorem job_of_op (h : d.op cfg = some (.settle job)) : d.job = some job := by
  cases hjob : d.job with
  | some =>
    rw [op_of_job hjob] at h
    obtain ⟨_, h⟩ := ite_none_right_eq_some.mp h
    rw [Op.settle.inj (some.inj h)]
  | none =>
    unfold Discrepancy.op at h
    obtain ⟨_, h⟩ := ite_none_right_eq_some.mp h
    obtain ⟨key, _, h⟩ := bind_eq_some_iff.mp h
    split at h
    · cases h
    · obtain ⟨_, _, h⟩ := map_eq_some_iff.mp h
      cases h
    · rw [hjob, map_none, ite_self] at h
      cases h
    · rw [hjob, map_none, ite_self] at h
      cases h
    · cases h
    · cases h

theorem plan_settle :
    d.plan cfg = some (.settle job) ↔ cfg.settles = true ∧ d.job = some job := by
  have hpn : ∀ job', d.job = some job' →
      d.plan cfg = if cfg.settles then some (.settle job') else none := by
    intro job' hjob
    unfold Discrepancy.plan Discrepancy.queued Config.settles
    rw [op_of_job hjob, hjob]
    cases cfg.remediationEnabled with
    | false => rfl
    | true =>
      cases cfg.inline with
      | true =>
        rw [Bool.or_true]
        rfl
      | false =>
        rw [Bool.or_false]
        cases cfg.settlementQueue with
        | false | true => rfl
  constructor
  · intro h
    have hjob : d.job = some job := by
      unfold Discrepancy.plan at h
      rcases or_eq_some_iff.mp h with hop | ⟨_, hqd⟩
      · exact job_of_op hop
      · obtain ⟨job', hjob', heq⟩ := map_eq_some_iff.mp hqd
        rw [← Op.settle.inj heq]
        exact (queued_eq_some.mp hjob').2.2
    rw [hpn job hjob] at h
    exact ⟨(ite_none_right_eq_some.mp h).1, hjob⟩
  · intro ⟨hsts, hjob⟩
    rw [hpn job hjob, if_pos hsts]

theorem key_plan {op : Op τ ν β} (h : d.plan cfg = some op) : d.record = some op.key := by
  unfold Discrepancy.plan at h
  rcases or_eq_some_iff.mp h with hop | ⟨_, hqd⟩
  · exact key_op hop
  · obtain ⟨job, hjob, rfl⟩ := map_eq_some_iff.mp hqd
    exact (key_job (queued_eq_some.mp hjob).2.2).1

end

section Settled

variable {horizon : Horizon β}

/-- The operations of a run and of the jobs that it queued. -/
def plans (cfg : Config) (ds : List (Discrepancy τ ν β)) : List (Op τ ν β) :=
  ds.filterMap (Discrepancy.op cfg) ++ (ds.filterMap (Discrepancy.queued cfg)).map .settle

/-- **After a run and its jobs, every planned operation was done.** -/
theorem agree_workOff (hque : w.queue = []) :
    (w.applyAll accepts (plans cfg (w.detect cfg horizon taskState now))).Agree
      ((w.run cfg horizon taskState now accepts).1.workOff accepts) := by
  have hrun := handled_run w cfg horizon taskState now accepts
  have hfo : ∀ (jobs : List (Job τ ν β)) (w : World τ ν β),
      jobs.foldl (fun w job => w.execute accepts job) w = w.applyAll accepts (jobs.map .settle) := by
    intro jobs w
    unfold World.applyAll
    rw [foldl_map]
    rfl
  unfold World.workOff plans
  rw [hfo, hrun.queue, hque, nil_append]
  unfold World.applyAll
  rw [foldl_append]
  exact World.Agree.applyAll hrun.agree

theorem mem_plans {op : Op τ ν β} : op ∈ plans cfg (w.detect cfg horizon taskState now) ↔
    ∃ d ∈ w.detect cfg horizon taskState now, d.plan cfg = some op := by
  unfold plans Discrepancy.plan
  rw [mem_append, mem_filterMap, List.mem_map]
  constructor
  · intro h
    rcases h with ⟨d, hd, hop⟩ | ⟨job, hjob, rfl⟩
    · exact ⟨d, hd, by rw [hop, some_or]⟩
    · obtain ⟨d, hd, hqd⟩ := mem_filterMap.mp hjob
      obtain ⟨henb, hque, hjob⟩ := queued_eq_some.mp hqd
      refine ⟨d, hd, plan_settle.mpr ⟨?_, hjob⟩⟩
      unfold Config.settles
      rw [henb, hque]
      rfl
  · intro ⟨d, hd, h⟩
    rcases or_eq_some_iff.mp h with hop | ⟨_, hqd⟩
    · exact .inl ⟨d, hd, hop⟩
    · obtain ⟨job, hjob, heq⟩ := map_eq_some_iff.mp hqd
      exact .inr ⟨job, mem_filterMap.mpr ⟨d, hd, hjob⟩, heq⟩

theorem detect_unique {key : τ × ν} (hd : d ∈ w.detect cfg horizon taskState now)
    (hd' : d' ∈ w.detect cfg horizon taskState now) (hkey : d.record = some key)
    (hkey' : d'.record = some key) : d = d' := by
  obtain ⟨r, hr, hdft, _⟩ := of_mem_detect hd hkey
  obtain ⟨r', hr', hdft', _⟩ := of_mem_detect hd' hkey'
  cases hr.symm.trans hr'
  exact some.inj (hdft.symm.trans hdft')

theorem keys_of_plans : ((plans cfg (w.detect cfg horizon taskState now)).map Op.key).Nodup := by
  unfold plans
  rw [map_append, nodup_append]
  refine ⟨keys_of_ops, ?_, ?_⟩
  · rw [List.map_map, map_filterMap]
    refine (recordsOf_detect (w := w)).sublist (sublist_filterMap (fun d key hkey => ?_) _)
    obtain ⟨job, hjob, rfl⟩ := map_eq_some_iff.mp hkey
    exact (key_job (queued_eq_some.mp hjob).2.2).1
  · -- what is queued is not done in the run
    intro key hkey key' hkey' heq
    obtain ⟨op, hop, rfl⟩ := List.mem_map.mp hkey
    obtain ⟨d, hd, hop⟩ := mem_filterMap.mp hop
    obtain ⟨_, hstt, rfl⟩ := List.mem_map.mp hkey'
    obtain ⟨job, hmem, rfl⟩ := List.mem_map.mp hstt
    obtain ⟨d', hd', hqd⟩ := mem_filterMap.mp hmem
    obtain ⟨_, hque, hjob⟩ := queued_eq_some.mp hqd
    have hrec : d'.record = some op.key := by
      rw [heq]
      exact (key_job hjob).1
    obtain rfl := detect_unique hd hd' (key_op hop) hrec
    rw [op_of_job hjob] at hop
    unfold Config.inline at hop
    rw [hque, Bool.not_true, Bool.false_and, Bool.and_false] at hop
    cases hop

/-! ## After the jobs -/

theorem drift_of_job (hd : d ∈ w.detect cfg w.chain.horizon taskState now)
    (hjob : d.job = some job) : ∃ r, w.payments.findByKey job.key = some r ∧ r.balanceId = job.balanceId ∧
      Listed w.chain.shown r.balanceId ∧
      (job.kind = .release ∧ isSettledPaymentStatus r.status = true ∨
        job.kind = .refund ∧ r.status = .locked ∧ Expired ⟨cfg.escrowExpiryMs, now, taskState⟩ r) := by
  obtain ⟨hkey, hid, hty⟩ := key_job hjob
  obtain ⟨r, hr, _, hdft⟩ := of_mem_detect hd hkey
  refine ⟨r, hr, hdft.key.2.symm.trans hid, ?_⟩
  unfold Chain.shown
  rw [← listBalances_horizon]
  cases hdft with
  | unconfirmed hstl hlst =>
    refine ⟨hlst, .inl ⟨?_, hstl⟩⟩
    rcases hty with ⟨_, hkd⟩ | ⟨hty, _⟩
    · exact hkd
    · cases hty
  | expired hlck hlst hexp =>
    refine ⟨hlst, .inr ⟨?_, hlck, hexp⟩⟩
    rcases hty with ⟨hty, _⟩ | ⟨_, hkd⟩
    · cases hty
    · exact hkd
  | orphaned | mismatch | missing =>
    rcases hty with ⟨hty, _⟩ | ⟨hty, _⟩
    · cases hty
    · cases hty

variable {r : PaymentRecord τ ν β}

theorem job_of_drift (hr : r ∈ w.payments.rows) (hlst : Listed w.chain.shown r.balanceId)
    (hst : isSettledPaymentStatus r.status = true ∨ r.status = .locked ∧ Expired ⟨cfg.escrowExpiryMs, now, taskState⟩ r) :
    ∃ d job, w.driftOf cfg w.chain.horizon taskState now r = some d ∧
      d ∈ w.detect cfg w.chain.horizon taskState now ∧ d.job = some job ∧ job.key = r.key ∧
      (isSettledPaymentStatus r.status = true ∧ job.kind = .release ∧ d = detectUnconfirmedRelease r ∨
        r.status = .locked ∧ job.kind = .refund ∧ d = detectExpiredEscrow r) := by
  unfold Chain.shown at hlst
  rw [← listBalances_horizon] at hlst
  rcases hst with hstl | ⟨hlck, hexp⟩
  · have hdft : w.driftOf cfg w.chain.horizon taskState now r = some (detectUnconfirmedRelease r) :=
      driftOf_unconfirmed hstl hlst
    exact ⟨_, _, hdft, mem_detect.mpr (.inl ⟨r, hr, hdft⟩), rfl, rfl, .inl ⟨hstl, rfl, rfl⟩⟩
  · have hdft : w.driftOf cfg w.chain.horizon taskState now r = some (detectExpiredEscrow r) :=
      driftOf_expired hlck hlst hexp
    exact ⟨_, _, hdft, mem_detect.mpr (.inl ⟨r, hr, hdft⟩), rfl, rfl, .inr ⟨hlck, rfl, rfl⟩⟩

omit [DecidableEq τ] [DecidableEq ν] [DecidableEq β] in
theorem claims_release : JobKind.release.claims r = true ↔ ¬Final r := by
  unfold JobKind.claims Final
  simp [imp_iff_not_or]

/-- **A balance is gone after a run and its jobs exactly when it was claimed for a record.** -/
theorem holds_workOff (cfg : Config) (taskState : τ → Option TaskState) (now : Int)
    (accepts : β → Bool) (hque : w.queue = []) (b : β) :
    ((w.run cfg w.chain.horizon taskState now accepts).1.workOff accepts).chain.holds b = true ↔
      w.chain.holds b = true ∧ ¬(cfg.settles = true ∧
        ClaimedFor accepts w ⟨cfg.escrowExpiryMs, now, taskState⟩ b) := by
  rw [(agree_workOff hque).2, holds_applyAll keys_of_plans]
  refine and_congr_right fun _ => ⟨fun h ⟨hsts, r, hr, hid, hatm, hacp⟩ => ?_, fun h => ?_⟩
  · obtain ⟨hlst, hst⟩ := hatm
    have hst' : isSettledPaymentStatus r.status = true ∨
        r.status = .locked ∧ Expired ⟨cfg.escrowExpiryMs, now, taskState⟩ r := by
      rcases hst with ⟨hstl, _⟩ | hlck
      · exact .inl hstl
      · exact .inr hlck
    obtain ⟨d, job, _, hd, hjob, hkey, hkd⟩ := job_of_drift hr hlst hst'
    refine h (.settle job) (mem_plans.mpr ⟨d, hd, plan_settle.mpr ⟨hsts, hjob⟩⟩)
      ⟨job, r, rfl, ?_, hid, ?_, hacp⟩
    · rw [hkey]
      exact findByKey_self hr
    · rcases hkd with ⟨hstl, hkd, _⟩ | ⟨hlck, hkd, _⟩
      · rw [hkd, claims_release]
        rcases hst with ⟨_, hnot⟩ | ⟨hlck, _⟩
        · exact hnot
        · rw [hlck] at hstl
          cases hstl
      · rw [hkd]
        unfold JobKind.claims
        rw [hlck]
        rfl
  · intro op hop ⟨job, r, hop', hr, hid, hcls, hacp⟩
    obtain ⟨d, hd, hpn⟩ := mem_plans.mp hop
    rw [hop'] at hpn
    obtain ⟨hsts, hjob⟩ := plan_settle.mp hpn
    obtain ⟨r', hr', _, hlst, hkd⟩ := drift_of_job hd hjob
    cases hr.symm.trans hr'
    refine h ⟨hsts, r, (findByKey_eq_some.mp hr).1, hid, ⟨hlst, ?_⟩, hacp⟩
    rcases hkd with ⟨hkd, hstl⟩ | ⟨_, hlck⟩
    · rw [hkd, claims_release] at hcls
      exact .inl ⟨hstl, hcls⟩
    · exact .inr hlck

/-! ## The second run -/

theorem mem_take_filter {α : Type} {p : α → Bool} {a : α} (hp : p a = true) :
    ∀ {n : Nat} {l : List α}, a ∈ l.take n → a ∈ (l.filter p).take n
  | 0, _, h => by cases h
  | n + 1, [], h => by cases h
  | n + 1, b :: l, h => by
    rw [take_succ_cons] at h
    cases hb : p b with
    | true =>
      rw [filter_cons_of_pos hb, take_succ_cons]
      rcases mem_cons.mp h with rfl | hrst
      · exact mem_cons_self
      · exact mem_cons_of_mem _ (mem_take_filter hp hrst)
    | false =>
      rw [filter_cons_of_neg (by rw [hb]; exact Bool.false_ne_true)]
      rcases mem_cons.mp h with rfl | hrst
      · rw [hp] at hb
        cases hb
      · have hmem := mem_take_filter hp hrst
        exact take_subset_take_left _ (Nat.le_succ n) hmem

variable {w' : World τ ν β}

theorem listed_later (h : Advances w w') {b : β} (hlst : Listed w.chain.shown b)
    (hhds : w'.chain.holds b = true) : Listed w'.chain.shown b := by
  obtain ⟨balance, hmem, hid⟩ := hlst
  refine ⟨balance, ?_, hid⟩
  unfold Chain.shown
  rw [h.balances]
  refine mem_take_filter ?_ hmem
  rw [hid]
  exact hhds

omit [DecidableEq τ] [DecidableEq ν] in
theorem holds_of_listed {b : β} (h : Listed w.chain.shown b) : w.chain.holds b = true := by
  obtain ⟨balance, hmem, hid⟩ := h
  exact Chain.holds_eq_true.mpr ⟨balance, mem_of_mem_take hmem, hid⟩

theorem advances_workOff (cfg : Config) (horizon : Horizon β) (taskState : τ → Option TaskState)
    (now : Int) (accepts : β → Bool) (hque : w.queue = []) :
    Advances w ((w.run cfg horizon taskState now accepts).1.workOff accepts) :=
  (advances_applyAll _).trans (agree_workOff hque).advances

/-- **The row of a record after a run and its jobs.** -/
theorem row_workOff (accepts : β → Bool) (hque : w.queue = []) (hr : r ∈ w.payments.rows) :
    ((∀ d, w.driftOf cfg horizon taskState now r = some d → d.plan cfg = none) ∧
      ((w.run cfg horizon taskState now accepts).1.workOff accepts).payments.findByKey r.key = some r) ∨
    ∃ d op, ∃ w₁ : World τ ν β, w.driftOf cfg horizon taskState now r = some d ∧ d.plan cfg = some op ∧
      op.key = r.key ∧ w₁.payments.findByKey r.key = some r ∧
      ((w.run cfg horizon taskState now accepts).1.workOff accepts).payments.findByKey r.key =
        (w₁.apply accepts op).payments.findByKey r.key := by
  rw [(agree_workOff hque).1]
  exact row_applyAll accepts (fun d op h => key_plan h) (fun op => mem_plans) keys_of_plans hr

variable {now' : Int} {outcome : Remediation}

theorem drift_again (haa : Advances w w') (hr : r ∈ w.payments.rows) (hkey : d.record = some r.key)
    (hd' : d' ∈ w'.detect cfg w'.chain.horizon taskState now') (hsm : d.Same d') :
    ∃ r', w'.payments.findByKey r.key = some r' ∧ Kept r r' ∧
      Drift w'.chain.shown ⟨cfg.escrowExpiryMs, now', taskState⟩
        (verifyReleaseTransactions w'.chain.horizon cfg.maxTxLookups w'.payments.rows) r' d' := by
  obtain ⟨r', hr', _, hdft⟩ := of_mem_detect hd' (hsm.2.1.trans hkey)
  obtain ⟨r'', hr'', hkpt⟩ := haa.rows r.key r (findByKey_self hr)
  cases hr'.symm.trans hr''
  rw [listBalances_horizon] at hdft
  exact ⟨r', hr', hkpt, hdft⟩

theorem written_later (accepts : β → Bool) (hque : w.queue = []) (hr : r ∈ w.payments.rows)
    {expected status : PaymentStatus} {h : TxHash} {hs : isSettledPaymentStatus status = true}
    (hdft : w.driftOf cfg horizon taskState now r = some d)
    (hop : d.op cfg = some (.write r.key expected status h hs)) (hee : r.status = expected) :
    ((w.run cfg horizon taskState now accepts).1.workOff accepts).payments.findByKey r.key =
      some (settle status h r) := by
  have hpn : d.plan cfg = some (.write r.key expected status h hs) := by
    unfold Discrepancy.plan
    rw [hop, some_or]
  rcases row_workOff accepts hque hr with
    ⟨hno, _⟩ | ⟨d', op, w₁, hd, hop, _, hrow, haf⟩
  · rw [hno _ hdft] at hpn
    cases hpn
  · cases hdft.symm.trans hd
    cases hpn.symm.trans hop
    rw [haf]
    exact findByKey_apply_write status h hs hrow hee

omit [DecidableEq β] in
theorem of_verification {records : List (PaymentRecord τ ν β)} {limit : Nat} {key : τ × ν}
    {v : ReleaseVerification} (h : verifyReleaseTransactions horizon limit records key = some v) :
    ∃ r ∈ records, r.key = key ∧ v = horizon.resolve r := by
  obtain ⟨r, hr, rfl⟩ := map_eq_some_iff.mp h
  have hkey := List.find?_some hr
  have hmem := mem_filter.mp (mem_of_mem_take (List.mem_of_find?_eq_some hr))
  exact ⟨r, hmem.1, of_decide_eq_true hkey, rfl⟩

section

omit [DecidableEq τ] [DecidableEq ν]

/-- **A hash that was filled in is found again**: it is that of the first transaction of the balance. -/
theorem verified_later {c c' : Chain β} {r r' : PaymentRecord τ ν β} {realHash : Nat}
    (hgrn : c.transactions <+: c'.transactions) (hbal : r'.balanceId = r.balanceId)
    (hsh : r'.txHash = some (.transaction realHash))
    (hfnd : (c.horizon.resolve r).onChainTx = some realHash)
    (hdif : some (TxHash.transaction realHash) ≠ (c.horizon.resolve r).recordedTxHash) :
    c'.horizon.resolve r' = ⟨some (.transaction realHash), some realHash⟩ := by
  have hclm : c.horizon.findClaim r.balanceId = some realHash := by
    unfold Horizon.resolve at hfnd hdif
    cases hclm : c.horizon.findClaim r.balanceId with
    | some =>
      rw [hclm] at hfnd
      exact hfnd
    | none =>
      rw [hclm] at hfnd hdif
      cases hre : r.txHash with
      | none =>
        rw [hre] at hfnd
        cases hfnd
      | some recorded =>
        rw [hre] at hfnd hdif
        -- a transaction is found under its own hash
        cases recorded with
        | reconciledRepair => cases hfnd
        | transaction t =>
          obtain ⟨_, ht⟩ := ite_none_right_eq_some.mp
            (show (if t < c.transactions.length then some t else none) = some realHash from hfnd)
          rw [some.inj ht] at hdif
          exact absurd rfl hdif
  have hclm' : c'.horizon.findClaim r'.balanceId = some realHash := by
    obtain ⟨rest, hrst⟩ := hgrn
    unfold Chain.horizon at hclm ⊢
    dsimp only at hclm ⊢
    rw [hbal, ← hrst, List.findIdx?_append, hclm, some_or]
  unfold Horizon.resolve
  rw [hclm', hsh]

theorem not_found_gone {verifications : τ × ν → Option ReleaseVerification}
    {options : DriftDetectionOptions τ} (hgn : w'.chain.holds r.balanceId = false)
    (hty : d'.driftType = .releaseUnconfirmed ∨ d'.driftType = .expiredEscrow) :
    ¬Drift w'.chain.shown options verifications r d' := by
  have hnot : ¬Listed w'.chain.shown r.balanceId := by
    intro hlst
    rw [holds_of_listed hlst] at hgn
    cases hgn
  intro hdft
  cases hdft with
  | unconfirmed _ hlst | expired _ hlst => exact hnot hlst
  | orphaned | mismatch | missing =>
    rcases hty with hty | hty
    · cases hty
    · cases hty

end

theorem claimed_of_remediated (hre : Repairable cfg accepts w ⟨cfg.escrowExpiryMs, now, taskState⟩)
    (hd : d ∈ w.detect cfg w.chain.horizon taskState now) (hjob : d.job = some job)
    (hrep : (d, outcome) ∈ (w.run cfg w.chain.horizon taskState now accepts).2)
    (hrem : outcome.status = .remediated) : ∃ r, w.payments.findByKey job.key = some r ∧
      cfg.settles = true ∧ ClaimedFor accepts w ⟨cfg.escrowExpiryMs, now, taskState⟩ r.balanceId := by
  obtain ⟨w₁, w₂, hrow, hhnd⟩ :=
    (handled_run w cfg w.chain.horizon taskState now accepts).handled d outcome hrep
  have henb := hhnd.enabled hrem
  obtain ⟨r, hr, _, hlst, hkd⟩ := drift_of_job hd hjob
  have hmem := (findByKey_eq_some.mp hr).1
  refine ⟨r, hr, ?_⟩
  unfold Config.settles
  rw [henb, Bool.true_and]
  cases hque : cfg.settlementQueue with
  | true =>
    refine ⟨rfl, hre henb r hmem hlst (.inl ⟨hque, ?_⟩)⟩
    rcases hkd with ⟨_, hstl⟩ | ⟨_, hlck⟩
    · exact .inl hstl
    · exact .inr hlck
  | false =>
    -- then it was submitted in the run
    have hin : cfg.inline = true := by
      cases hin : cfg.inline with
      | true => rfl
      | false =>
        have hop : d.op cfg = none := by
          rw [op_of_job hjob, hin, Bool.and_false]
          rfl
        have hqd : d.queued cfg = none := by
          unfold Discrepancy.queued
          rw [hque, Bool.and_false]
          rfl
        rcases hhnd.automatic hrem with hso | hso
        · rw [hop] at hso
          cases hso
        · rw [hqd] at hso
          cases hso
    have hop : d.op cfg = some (.settle job) := by
      rw [op_of_job hjob, henb, hin]
      rfl
    refine ⟨hin, ?_⟩
    obtain ⟨r₁, hr₁, hstl⟩ := hhnd.claims hrem job hop
    rw [hrow job.key (key_job hjob).1, hr] at hr₁
    cases hr₁
    rcases hstl with ⟨_, hrel, hsh⟩ | ⟨hcls, hacp⟩
    · exact hre henb r hmem hlst (.inr ⟨hin, hrel, hsh⟩)
    · refine ⟨r, hmem, rfl, ⟨hlst, ?_⟩, hacp⟩
      rcases hkd with ⟨hkd, hstl⟩ | ⟨_, hlck⟩
      · rw [hkd, claims_release] at hcls
        exact .inl ⟨hstl, hcls⟩
      · exact .inr hlck

omit [DecidableEq τ] [DecidableEq ν] [DecidableEq β] in
theorem plan_eq_none (hop : d.op cfg = none) (hjob : d.job = none) : d.plan cfg = none := by
  unfold Discrepancy.plan Discrepancy.queued
  rw [hop, hjob, ite_self]
  rfl

theorem Handled.planned {w w' : World τ ν β} (h : Handled cfg accepts w d w' outcome)
    (hrem : outcome.status = .remediated) : d.plan cfg ≠ none := by
  intro hno
  unfold Discrepancy.plan at hno
  rw [or_eq_none_iff, map_eq_none_iff] at hno
  rcases h.automatic hrem with hso | hso
  · rw [hno.1] at hso
    cases hso
  · rw [hno.2] at hso
    cases hso

/-- **What was remediated is not found again, if the run is repairable.** -/
theorem not_found_again (hque : w.queue = [])
    (hre : Repairable cfg accepts w ⟨cfg.escrowExpiryMs, now, taskState⟩)
    (hrep : (d, outcome) ∈ (w.run cfg w.chain.horizon taskState now accepts).2)
    (hrem : outcome.status = .remediated)
    (hd' : d' ∈ ((w.run cfg w.chain.horizon taskState now accepts).1.workOff accepts).detect cfg
      ((w.run cfg w.chain.horizon taskState now accepts).1.workOff accepts).chain.horizon taskState
      now') : ¬d.Same d' := by
  intro hsm
  have hrun := handled_run w cfg w.chain.horizon taskState now accepts
  have hd : d ∈ w.detect cfg w.chain.horizon taskState now := by
    rw [← hrun.reported]
    exact List.mem_map_of_mem hrep
  obtain ⟨w₁, w₂, _, hhnd⟩ := hrun.handled d outcome hrep
  have henb := hhnd.enabled hrem
  have haa := advances_workOff cfg w.chain.horizon taskState now accepts hque
  have hhds := holds_workOff cfg taskState now accepts hque
  rcases mem_detect.mp hd with ⟨r, hr, hdft⟩ | ⟨balance, _, rfl, _⟩
  · have hcss := drift_of_driftOf hdft
    obtain ⟨r', hr', hkpt, hagn⟩ := drift_again haa hr hcss.key.1 hd' hsm
    -- a job: the balance is gone
    have hgn : ∀ job, d.job = some job →
        ((w.run cfg w.chain.horizon taskState now accepts).1.workOff accepts).chain.holds
          r'.balanceId = false := by
      intro job hjob
      obtain ⟨r₁, hr₁, hcmd⟩ := claimed_of_remediated hre hd hjob hrep hrem
      have hkey : job.key = r.key := by
        have hrec := (key_job hjob).1
        rw [hcss.key.1] at hrec
        exact (some.inj hrec).symm
      rw [hkey, findByKey_self hr] at hr₁
      cases hr₁
      rw [hkpt.2.1, Bool.eq_false_iff]
      intro hthe
      exact ((hhds r.balanceId).mp hthe).2 hcmd
    cases hcss with
    | orphaned hlck =>
      have hwrt := written_later accepts hque hr hdft
        (show (detectOrphanedLock r).op cfg = some (.write r.key .locked .orphaned .reconciledRepair rfl) by
            unfold Discrepancy.op
            rw [if_pos henb]
            rfl) hlck
      cases hwrt.symm.trans hr'
      cases hagn with
      | orphaned hlck' => cases hlck'
      | expired | mismatch | unconfirmed | missing => cases hsm.1
    | expired => exact not_found_gone (hgn _ rfl) (.inr hsm.1) hagn
    | unconfirmed => exact not_found_gone (hgn _ rfl) (.inl hsm.1) hagn
    | mismatch =>
      refine hhnd.planned hrem (plan_eq_none ?_ rfl)
      unfold Discrepancy.op
      rw [if_pos henb]
      rfl
    | @missing v realHash hrel hnot hv hfnd hdif =>
      cases realHash with
      | none =>
        refine hhnd.planned hrem (plan_eq_none ?_ rfl)
        unfold Discrepancy.op
        rw [if_pos henb]
        rfl
      | some h =>
        have hwrt := written_later accepts hque hr hdft
          (show Discrepancy.op cfg ⟨.missingReleaseTx, r.balanceId, some r.key, some h⟩ =
            some (.write r.key .released .released (.transaction h) rfl) by
              unfold Discrepancy.op
              rw [if_pos henb]
              rfl) hrel
        cases hwrt.symm.trans hr'
        obtain ⟨r₀, hr₀, hkey₀, rfl⟩ := of_verification hv
        obtain rfl := inj_on_of_nodup_map w.payments.keys hr₀ hr hkey₀
        cases hagn with
        | missing _ _ hv' hfnd' hdif' =>
          obtain ⟨r₁, hr₁, hkey₁, rfl⟩ := of_verification hv'
          have hsf := (findByKey_eq_some.mpr ⟨hr₁, hkey₁⟩).symm.trans hr'
          cases hsf
          -- the second run finds the hash that the first one found
          have hrsv : Horizon.resolve (Chain.horizon _)
              (settle .released (.transaction h) r₀) = ⟨some (.transaction h), some h⟩ :=
            verified_later haa.transactions hkpt.2.1 rfl hfnd (hdif rfl)
          rw [hrsv] at hfnd' hdif'
          rw [← hfnd'] at hdif'
          exact hdif' rfl rfl
        | orphaned | expired | mismatch | unconfirmed => cases hsm.1
  · exact hhnd.planned hrem (plan_eq_none (ite_self _) rfl)

omit [DecidableEq τ] [DecidableEq ν] [DecidableEq β] in
theorem Expired.later {expiry : Int} (h : Expired ⟨expiry, now, taskState⟩ r)
    (elapsed : Nat) : Expired ⟨expiry, now + elapsed, taskState⟩ r := by
  obtain ⟨htrm, hexp⟩ := h
  refine ⟨htrm, ?_⟩
  unfold isEscrowExpired at hexp ⊢
  dsimp only at hexp ⊢
  split
  · rfl
  · rename_i hwin
    rw [if_neg hwin] at hexp
    -- the age has grown by what has elapsed
    have hage : ∀ start : Int, expiry ≤ max 0 (now - start) →
        decide (expiry ≤ max 0 (now + elapsed - start)) = true := by
      intro start hle
      rw [decide_eq_true_eq]
      omega
    unfold paymentAgeMs at hexp ⊢
    cases hcrt : r.createdAt with
    | some created =>
      rw [hcrt] at hexp
      exact hage created (of_decide_eq_true hexp)
    | none =>
      rw [hcrt] at hexp
      dsimp only at hexp ⊢
      cases hup : (taskState r.taskId).bind TaskState.updatedAt with
      | none => rfl
      | some updated =>
        rw [hup] at hexp
        exact hage updated (of_decide_eq_true hexp)

theorem row_unclaimed (hque : w.queue = []) (hr : r ∈ w.payments.rows)
    (hdft : w.driftOf cfg horizon taskState now r = some d) (hjob : d.job = some job)
    (hacp : accepts r.balanceId = false) :
    ((w.run cfg horizon taskState now accepts).1.workOff accepts).payments.findByKey r.key = some r := by
  rcases row_workOff accepts hque hr with ⟨_, hrow⟩ | ⟨d', op, w₁, hd, hop, hkey, hrow, haf⟩
  · exact hrow
  · cases hdft.symm.trans hd
    have hstt : op = .settle job := by
      unfold Discrepancy.plan Discrepancy.queued at hop
      rw [op_of_job hjob, hjob] at hop
      rcases or_eq_some_iff.mp hop with hop | ⟨_, hop⟩
      · exact (some.inj (ite_none_right_eq_some.mp hop).2).symm
      · obtain ⟨job', hjob', heq⟩ := map_eq_some_iff.mp hop
        rw [← heq, some.inj (ite_none_right_eq_some.mp hjob').2]
    subst hstt
    have hkey' : job.key = r.key := hkey
    rw [haf]
    unfold World.apply World.execute
    dsimp only
    have hs := settles_settle accepts w₁ job
    generalize w₁.settle accepts job = result at hs
    obtain ⟨w₂, settlement⟩ := result
    cases hs with
    | refused | known | failed => exact hrow
    | landed hr₁ _ hclm =>
      rw [hkey', hrow] at hr₁
      cases hr₁
      rw [(Chain.claim_eq_some hclm).2.1] at hacp
      cases hacp

/-- **What nobody claims is remediated, and found again.** -/
theorem found_again (hque : w.queue = []) (elapsed : Nat) (hr : r ∈ w.payments.rows)
    (henb : cfg.remediationEnabled = true) (hlst : Listed w.chain.shown r.balanceId)
    (hstu : cfg.settlementQueue = true ∧ (isSettledPaymentStatus r.status = true ∨ r.status = .locked ∧ Expired ⟨cfg.escrowExpiryMs, now, taskState⟩ r) ∨ cfg.inline = true ∧ Final r)
    (hun : ¬ClaimedFor accepts w ⟨cfg.escrowExpiryMs, now, taskState⟩ r.balanceId) :
    ∃ d outcome d', (d, outcome) ∈ (w.run cfg w.chain.horizon taskState now accepts).2 ∧
      outcome.status = .remediated ∧ d.Same d' ∧
      d' ∈ ((w.run cfg w.chain.horizon taskState now accepts).1.workOff accepts).detect cfg
        ((w.run cfg w.chain.horizon taskState now accepts).1.workOff accepts).chain.horizon taskState
        (now + elapsed) := by
  have hrun := handled_run w cfg w.chain.horizon taskState now accepts
  have hst : isSettledPaymentStatus r.status = true ∨
      r.status = .locked ∧ Expired ⟨cfg.escrowExpiryMs, now, taskState⟩ r := by
    rcases hstu with ⟨_, hst⟩ | ⟨_, hrel, _⟩
    · exact hst
    · rw [hrel]
      exact .inl rfl
  obtain ⟨d, job, hdft, hd, hjob, hkey, hkd⟩ := job_of_drift hr hlst hst
  have hmem := hd
  rw [← hrun.reported] at hmem
  obtain ⟨⟨d₁, outcome⟩, hrep, heq⟩ := List.mem_map.mp hmem
  rw [show d₁ = d from heq] at hrep
  obtain ⟨w₁, w₂, hrow, hhnd⟩ := hrun.handled d outcome hrep
  have hrow₁ : w₁.payments.findByKey job.key = some r := by
    rw [hrow job.key (key_job hjob).1, hkey]
    exact findByKey_self hr
  have hrem : outcome.status = .remediated := by
    rcases hstu with ⟨hque, _⟩ | ⟨hin, hrel, hsh⟩
    · refine hhnd.queues ?_
      rw [queued_eq_some.mpr ⟨henb, hque, hjob⟩]
      rfl
    · refine hhnd.knows job r ?_ ?_ hrow₁ hrel hsh
      · rw [op_of_job hjob, henb, hin]
        rfl
      · rcases hkd with ⟨_, hkd, _⟩ | ⟨hlck, _⟩
        · exact hkd
        · rw [hlck] at hrel
          cases hrel
  have hhds := (holds_workOff cfg taskState now accepts hque r.balanceId).mpr
    ⟨holds_of_listed hlst, fun h => hun h.2⟩
  have haa := advances_workOff cfg w.chain.horizon taskState now accepts hque
  have hlst' := listed_later haa hlst hhds
  obtain ⟨r', hr', hkpt⟩ := haa.rows r.key r (findByKey_self hr)
  -- a locked record is as it was: the network did not let its refund through
  have hlck' : r.status = .locked → r' = r := by
    intro hlck
    have hexp : Expired ⟨cfg.escrowExpiryMs, now, taskState⟩ r := by
      rcases hst with hstl | ⟨_, hexp⟩
      · rw [hlck] at hstl
        cases hstl
      · exact hexp
    have hacp : accepts r.balanceId = false := by
      rw [Bool.eq_false_iff]
      intro hacp
      exact hun ⟨r, hr, rfl, ⟨hlst, .inr ⟨hlck, hexp⟩⟩, hacp⟩
    exact some.inj (hr'.symm.trans (row_unclaimed hque hr hdft hjob hacp))
  have hstl' : isSettledPaymentStatus r.status = true → isSettledPaymentStatus r'.status = true := by
    intro hstl
    rcases hkpt.2.2 with rfl | hstl'
    · exact hstl
    · exact hstl'
  generalize (w.run cfg w.chain.horizon taskState now accepts).1.workOff accepts = w' at *
  have hmem' := (findByKey_eq_some.mp hr').1
  rw [← hkpt.2.1] at hlst'
  unfold Chain.shown at hlst'
  rw [← listBalances_horizon] at hlst'
  rcases hkd with ⟨hstl, _, rfl⟩ | ⟨hlck, _, rfl⟩
  · have hdft' : w'.driftOf cfg w'.chain.horizon taskState (now + elapsed) r' =
        some (detectUnconfirmedRelease r') := driftOf_unconfirmed (hstl' hstl) hlst'
    refine ⟨_, outcome, detectUnconfirmedRelease r', hrep, hrem, ⟨rfl, ?_, hkpt.2.1⟩,
      mem_detect.mpr (.inl ⟨r', hmem', hdft'⟩)⟩
    exact congrArg some hkpt.1
  · obtain rfl := hlck' hlck
    have hexp : Expired ⟨cfg.escrowExpiryMs, now, taskState⟩ r' := by
      rcases hst with hstl | ⟨_, hexp⟩
      · rw [hlck] at hstl
        cases hstl
      · exact hexp
    have hdft' : w'.driftOf cfg w'.chain.horizon taskState (now + elapsed) r' =
        some (detectExpiredEscrow r') := driftOf_expired hlck hlst' (hexp.later elapsed)
    exact ⟨_, outcome, _, hrep, hrem, ⟨rfl, rfl, rfl⟩, mem_detect.mpr (.inl ⟨r', hmem', hdft'⟩)⟩

end Settled

def Again (d : Discrepancy τ ν β) (second : World τ ν β × List (Discrepancy τ ν β × Remediation)) :
    Prop :=
  ∃ d' ∈ second.2.map Prod.fst, d.Same d'

/-- What a first run reports as remediated is not in the second report, which has no job for it
either, and everything else is in the list of pending drifts. -/
def StaysRepaired (first second : World τ ν β × List (Discrepancy τ ν β × Remediation)) : Prop :=
  ∀ d outcome, (d, outcome) ∈ first.2 → (outcome.status = .remediated → ¬Again d second ∧
      ∀ job, d.job = some job → job ∉ second.1.queue ∧ job ∉ second.1.submitted) ∧
    (outcome.status ≠ .remediated ∨ Again d second → Parked first.1 d)

/--
**When a repair holds.** For all payments, every chain and both configurations: what a run reports
as remediated stays so in a second run, and the rest is parked, if and only if remediation is off or
each listed balance that the run only says it settles, because it queues the job or because the
record has its hash, is claimed for some record, and the network accepts that.
-/
theorem stays_repaired_iff (payments : Payments τ ν β) (chain : Chain β)
    (pendingDrift : List (PendingDrift τ ν β)) (cfg : Config) (taskState : τ → Option TaskState)
    (now : Int) (elapsed : Nat) (accepts accepts' : β → Bool) :
    let w : World τ ν β := ⟨payments, chain, pendingDrift, [], []⟩
    let first := w.run cfg w.chain.horizon taskState now accepts
    let later := first.1.workOff accepts
    StaysRepaired first (later.run cfg later.chain.horizon taskState (now + elapsed) accepts') ↔
      Repairable cfg accepts w ⟨cfg.escrowExpiryMs, now, taskState⟩ := by
  intro w first later
  have hsec := handled_run later cfg later.chain.horizon taskState (now + elapsed) accepts'
  constructor
  · intro hsty henb r hr hlst hstu
    by_contra hun
    obtain ⟨d, outcome, d', hrep, hrem, hsm, hd'⟩ :=
      found_again (w := w) rfl elapsed hr henb hlst hstu hun
    refine ((hsty d outcome hrep).1 hrem).1 ⟨d', ?_, hsm⟩
    rw [hsec.reported]
    exact hd'
  · intro hre d outcome hrep
    have hagn : outcome.status = .remediated →
        ¬Again d (later.run cfg later.chain.horizon taskState (now + elapsed) accepts') := by
      intro hrem ⟨d', hd', hsm⟩
      rw [hsec.reported] at hd'
      exact not_found_again rfl hre hrep hrem hd' hsm
    refine ⟨fun hrem => ⟨hagn hrem, fun job hjob => ?_⟩, fun h => ?_⟩
    · -- a job of the second run is that of a discrepancy of its report
      have hno : ∀ d' ∈ later.detect cfg later.chain.horizon taskState (now + elapsed),
          d'.job ≠ some job := by
        intro d' hd' hjob'
        refine hagn hrem ⟨d', ?_, same_of_job hjob hjob'⟩
        rw [hsec.reported]
        exact hd'
      constructor
      · rw [hsec.queue]
        intro hmem
        obtain ⟨d', hd', hqd⟩ := mem_filterMap.mp ((mem_append.mp hmem).resolve_left
          not_mem_nil)
        exact hno d' hd' (queued_eq_some.mp hqd).2.2
      · intro hmem
        rcases hsec.submitted job hmem with hold | ⟨d', hd', hjob'⟩
        · exact absurd hold not_mem_nil
        · exact hno d' hd' hjob'
    · refine parked_run hrep fun hrem => ?_
      rcases h with hnot | hagn'
      · exact hnot hrem
      · exact hagn hrem hagn'

namespace Sample

/-- The payment of task 7 is released with its hash, and its balance is on the chain. -/
def released : Payments Nat Nat Nat :=
  ⟨[⟨7, 1, 5, .released, 500, some (.transaction 0), some 0⟩], by decide⟩

def unclaimed : World Nat Nat Nat := ⟨released, ⟨[⟨5, 500⟩], []⟩, [], [], []⟩

def queueing : Config := ⟨true, false, true, 86400000, 200⟩

def first (cfg : Config) : World Nat Nat Nat × List (Discrepancy Nat Nat Nat × Remediation) :=
  unclaimed.run cfg unclaimed.chain.horizon (fun _ => none) 0 fun _ => true

def second (cfg : Config) : World Nat Nat Nat × List (Discrepancy Nat Nat Nat × Remediation) :=
  let later := (first cfg).1.workOff fun _ => true
  later.run cfg later.chain.horizon (fun _ => none) 0 fun _ => true

end Sample

/-- A release with a hash is remediated without effect, by a settler and through the queue. -/
theorem not_repaired :
    ¬StaysRepaired (Sample.first Sample.settling) (Sample.second Sample.settling) ∧
      ¬StaysRepaired (Sample.first Sample.queueing) (Sample.second Sample.queueing) := by
  constructor
  · intro h
    have hrem := (h ⟨.releaseUnconfirmed, 5, some (7, 1), none⟩
      ⟨.requeueRelease, .remediated, some (.transaction 0)⟩ (by decide)).1 rfl
    exact hrem.1 ⟨⟨.releaseUnconfirmed, 5, some (7, 1), none⟩, by decide, rfl, rfl, rfl⟩
  · intro h
    have hrem := (h ⟨.releaseUnconfirmed, 5, some (7, 1), none⟩
      ⟨.requeueRelease, .remediated, none⟩ (by decide)).1 rfl
    exact hrem.1 ⟨⟨.releaseUnconfirmed, 5, some (7, 1), none⟩, by decide, rfl, rfl, rfl⟩

end AiNet.Reconciliation
