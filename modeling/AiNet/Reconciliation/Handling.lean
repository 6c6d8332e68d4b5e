import AiNet.Reconciliation.Steps

/-!
# What a run leaves behind

The discrepancies of a run are of different records, so a run does their operations one after the
other on the rows that detection saw. What was not remediated is parked.
-/

namespace AiNet.Reconciliation

open AiNet.Payment (PaymentStatus)
open List Option

variable {τ ν β : Type} [DecidableEq τ] [DecidableEq ν] [DecidableEq β] {cfg : Config}
  {accepts : β → Bool} {w w' : World τ ν β} {d : Discrepancy τ ν β} {ds : List (Discrepancy τ ν β)}

def Discrepancy.job (d : Discrepancy τ ν β) : Option (Job τ ν β) :=
  d.record.bind fun key =>
    match d.driftType with
    | .releaseUnconfirmed => some ⟨.release, key, d.balanceId⟩
    | .expiredEscrow => some ⟨.refund, key, d.balanceId⟩
    | _ => none

/-- Jobs are submitted in the run itself. -/
def Config.inline (cfg : Config) : Bool := !cfg.settlementQueue && cfg.settler

/-- What a run does about a discrepancy. -/
def Discrepancy.op (cfg : Config) (d : Discrepancy τ ν β) : Option (Op τ ν β) :=
  if cfg.remediationEnabled then
    d.record.bind fun key =>
      match d.driftType with
      | .orphanedLocked => some (.write key .locked .orphaned .reconciledRepair rfl)
      | .missingReleaseTx =>
        d.onChainTxHash.map fun h => .write key .released .released (.transaction h) rfl
      | .releaseUnconfirmed | .expiredEscrow =>
        if cfg.inline then d.job.map .settle else none
      | .missingLocal | .amountMismatch => none
  else none

def Discrepancy.queued (cfg : Config) (d : Discrepancy τ ν β) : Option (Job τ ν β) :=
  if cfg.remediationEnabled && cfg.settlementQueue then d.job else none

def World.perhaps (accepts : β → Bool) (w : World τ ν β) : Option (Op τ ν β) → World τ ν β
  | none => w
  | some op => w.apply accepts op

def Fits (w : World τ ν β) (d : Discrepancy τ ν β) : Prop :=
  d.driftType = .expiredEscrow → ∀ key, d.record = some key →
    (w.payments.findByKey key).map PaymentRecord.status = some .locked

/-- What handling a discrepancy does: the operation, and the jobs. -/
structure Handled (cfg : Config) (accepts : β → Bool) (w : World τ ν β) (d : Discrepancy τ ν β)
    (w' : World τ ν β) (outcome : Remediation) : Prop where
  agree : (w.perhaps accepts (d.op cfg)).Agree w'
  queue : w'.queue = w.queue ++ (d.queued cfg).toList
  submitted : w'.submitted = w.submitted ∨ ∃ job, d.job = some job ∧ w'.submitted = w.submitted ++ [job]
  enabled : outcome.status = .remediated → cfg.remediationEnabled = true
  automatic : outcome.status = .remediated → (d.op cfg).isSome ∨ (d.queued cfg).isSome
  writes : outcome.status = .remediated → ∀ key expected status h hs,
    d.op cfg = some (.write key expected status h hs) →
    ∃ r, w.payments.findByKey key = some r ∧ r.status = expected
  claims : outcome.status = .remediated → ∀ job, d.op cfg = some (.settle job) →
    ∃ r, w.payments.findByKey job.key = some r ∧
      (job.kind = .release ∧ r.status = .released ∧ r.txHash.isSome ∨
        job.kind.claims r = true ∧ accepts r.balanceId = true)
  queues : (d.queued cfg).isSome → outcome.status = .remediated
  knows : ∀ job r, d.op cfg = some (.settle job) → job.kind = .release →
    w.payments.findByKey job.key = some r → r.status = .released → r.txHash.isSome →
    outcome.status = .remediated

variable {outcome : Remediation}

theorem Handled.left (hagr : (w.perhaps accepts (d.op cfg)).Agree w)
    (hop : ∀ job, d.op cfg ≠ some (.settle job)) (hqd : d.queued cfg = none)
    (hlf : outcome.status ≠ .remediated) :
    Handled cfg accepts w d w outcome where
  agree := hagr
  queue := by rw [hqd, toList_none, append_nil]
  submitted := .inl rfl
  enabled := fun h => absurd h hlf
  automatic := fun h => absurd h hlf
  writes := fun h => absurd h hlf
  claims := fun h => absurd h hlf
  queues := fun h => by
    rw [hqd] at h
    cases h
  knows := fun job _ h => absurd h (hop job)

theorem Handled.idle (hop : d.op cfg = none) (hqd : d.queued cfg = none)
    (hlf : outcome.status ≠ .remediated) : Handled cfg accepts w d w outcome := by
  refine .left ?_ (fun job hjob => ?_) hqd hlf
  · rw [hop]
    exact ⟨rfl, rfl⟩
  · rw [hop] at hjob
    cases hjob

variable {key : τ × ν}

theorem handled_write {expected status : PaymentStatus} {txHash : TxHash}
    {hs : isSettledPaymentStatus status = true} (action : RemediationAction)
    (hop : d.op cfg = some (.write key expected status txHash hs)) (hqd : d.queued cfg = none)
    (henb : cfg.remediationEnabled = true)
    (hre : w.remediate cfg accepts d = match w.payments.updateStatusIfCurrent key expected status txHash with | none => (w, ⟨action, .skipped, none⟩) | some payments => ({ w with payments := payments }, ⟨action, .remediated, some txHash⟩)) :
    Handled cfg accepts w d (w.remediate cfg accepts d).1 (w.remediate cfg accepts d).2 := by
  have happ : w.perhaps accepts (d.op cfg) =
      match w.payments.updateStatusIfCurrent key expected status txHash with
      | none => w
      | some payments => { w with payments := payments } := by
    rw [hop]
    rfl
  have hnoj : ∀ job, d.op cfg ≠ some (.settle job) := by
    intro job hjob
    rw [hop] at hjob
    cases hjob
  rw [hre]
  cases hp : w.payments.updateStatusIfCurrent key expected status txHash with
  | none =>
    rw [hp] at happ
    refine .left ?_ hnoj hqd (fun h => by cases h)
    rw [happ]
    exact ⟨rfl, rfl⟩
  | some =>
    rw [hp] at happ
    obtain ⟨hrow, _⟩ := Payments.updateStatusIfCurrent_eq_some.mp hp
    refine ⟨?_, ?_, .inl rfl, fun _ => henb, fun _ => .inl (by rw [hop]; rfl), ?_,
      fun _ job hjob => absurd hjob (hnoj job), fun _ => rfl, fun job _ hjob => absurd hjob (hnoj job)⟩
    · rw [happ]
      exact ⟨rfl, rfl⟩
    · rw [hqd]
      exact (append_nil _).symm
    · intro _ key' expected' status' h' hs' hop'
      rw [hop] at hop'
      obtain ⟨rfl, rfl, _⟩ := Op.write.inj (some.inj hop')
      exact hrow

variable {job : Job τ ν β}

theorem handled_enqueue {action : RemediationAction} (hjob : d.job = some job)
    (henb : cfg.remediationEnabled = true) (hque : cfg.settlementQueue = true) (hop : d.op cfg = none) :
    Handled cfg accepts w d (w.enqueue job) ⟨action, .remediated, none⟩ := by
  have hqd : d.queued cfg = some job := by
    unfold Discrepancy.queued
    rw [henb, hque, Bool.and_true, if_pos rfl, hjob]
  have hno : ∀ op, d.op cfg ≠ some op := by
    intro op hop'
    rw [hop] at hop'
    cases hop'
  refine ⟨?_, ?_, .inl rfl, fun _ => henb, fun _ => .inr (by rw [hqd]; rfl),
    fun _ _ _ _ _ _ hop' => absurd hop' (hno _), fun _ _ hop' => absurd hop' (hno _), fun _ => rfl,
    fun _ _ hop' => absurd hop' (hno _)⟩
  · rw [hop]
    exact ⟨rfl, rfl⟩
  · rw [hqd]
    rfl

theorem settle_keeps (job : Job τ ν β) : (w.settle accepts job).1.queue = w.queue ∧
    (w.settle accepts job).1.submitted = w.submitted ∧
    (w.settle accepts job).1.pendingDrift = w.pendingDrift := by
  have hs := settles_settle accepts w job
  generalize w.settle accepts job = result at hs
  obtain ⟨w', settlement⟩ := result
  cases hs with
  | refused | known | failed | landed => exact ⟨rfl, rfl, rfl⟩

theorem refund_written {balanceId : β} {hash : TxHash}
    (h : (w.settle accepts ⟨.refund, key, balanceId⟩).2.txHash = some hash) :
    (w.settle accepts ⟨.refund, key, balanceId⟩).1.payments.updateStatus key .refunded hash =
      (w.settle accepts ⟨.refund, key, balanceId⟩).1.payments := by
  have hs := settles_settle accepts w ⟨.refund, key, balanceId⟩
  generalize w.settle accepts ⟨.refund, key, balanceId⟩ = result at hs h
  obtain ⟨w', settlement⟩ := result
  cases hs with
  | refused | failed => cases h
  | known hkd => cases hkd
  | landed hr hcls hclm hst hrfd =>
    cases h
    rw [hrfd rfl]
    exact Payments.updateStatus_twice _ _

theorem settle_returned (h : (w.settle accepts job).2.txHash.isSome) :
    ∃ r, w.payments.findByKey job.key = some r ∧
      (job.kind = .release ∧ r.status = .released ∧ r.txHash.isSome ∨
        job.kind.claims r = true ∧ accepts r.balanceId = true) := by
  have hs := settles_settle accepts w job
  generalize w.settle accepts job = result at hs h
  obtain ⟨w', settlement⟩ := result
  cases hs with
  | refused | failed => cases h
  | @known r hash hkd hr hst hsh =>
    exact ⟨r, hr, .inl ⟨hkd, hst, by rw [hsh]; rfl⟩⟩
  | @landed r _ _ _ hr hcls hclm =>
    exact ⟨r, hr, .inr ⟨hcls, (Chain.claim_eq_some hclm).2.1⟩⟩

variable {r : PaymentRecord τ ν β}

theorem known_returned (hkd : job.kind = .release) (hr : w.payments.findByKey job.key = some r)
    (hrel : r.status = .released) (hsh : r.txHash.isSome) : (w.settle accepts job).2.txHash.isSome := by
  obtain ⟨h, hh⟩ := isSome_iff_exists.mp hsh
  unfold World.settle World.release
  rw [hkd, hr]
  dsimp only
  rw [hrel, hh]
  rfl

theorem handled_submit (hjob : d.job = some job) (hop : d.op cfg = some (.settle job))
    (hqd : d.queued cfg = none) (henb : cfg.remediationEnabled = true)
    (hst : outcome.status = .remediated ↔ (w.submit accepts job).2.isSome)
    (hagr : (w.execute accepts job).Agree w') (hque : w'.queue = (w.submit accepts job).1.queue)
    (hsbd : w'.submitted = (w.submit accepts job).1.submitted) :
    Handled cfg accepts w d w' outcome := by
  obtain ⟨hkpt, hkpt', _⟩ := settle_keeps (w := w) job
  refine ⟨?_, ?_, ?_, fun _ => henb, fun _ => .inl (by rw [hop]; rfl), ?_, ?_, ?_, ?_⟩
  · rw [hop]
    exact hagr
  · rw [hqd, hque]
    exact hkpt.trans (append_nil _).symm
  · rw [hsbd]
    unfold World.submit
    dsimp only
    split
    · exact .inr ⟨job, hjob, by rw [hkpt']⟩
    · exact .inl hkpt'
  · intro _ _ _ _ _ _ hop'
    rw [hop] at hop'
    cases hop'
  · intro hrem job' hop'
    rw [hop] at hop'
    obtain rfl := Op.settle.inj (some.inj hop')
    exact settle_returned (hst.mp hrem)
  · intro hso
    rw [hqd] at hso
    cases hso
  · intro job' r hop' hkd hr hrel hsh
    rw [hop] at hop'
    obtain rfl := Op.settle.inj (some.inj hop')
    exact hst.mpr (known_returned hkd hr hrel hsh)

theorem handled_settlement (action : RemediationAction) (write : World τ ν β → TxHash → World τ ν β)
    (hjob : d.job = some job) (hop : d.op cfg = if cfg.inline then some (.settle job) else none)
    (henb : cfg.remediationEnabled = true) (hwr : ∀ hash, (w.settle accepts job).2.txHash = some hash →
      write (w.submit accepts job).1 hash = (w.submit accepts job).1)
    (hre : w.remediate cfg accepts d =
      if cfg.settlementQueue then (w.enqueue job, ⟨action, .remediated, none⟩)
      else if cfg.settler then
        match w.submit accepts job with
        | (w', some txHash) => (write w' txHash, ⟨action, .remediated, some txHash⟩)
        | (w', none) => (w', ⟨action, .failed, none⟩)
      else (w, ⟨action, .skipped, none⟩)) :
    Handled cfg accepts w d (w.remediate cfg accepts d).1 (w.remediate cfg accepts d).2 := by
  rw [hre]
  cases hque : cfg.settlementQueue with
  | true => exact handled_enqueue hjob henb hque (by rw [hop, Config.inline, hque]; rfl)
  | false =>
    have hqd : d.queued cfg = none := by
      unfold Discrepancy.queued
      rw [hque, Bool.and_false]
      rfl
    rw [if_neg Bool.false_ne_true]
    cases hse : cfg.settler with
    | false =>
      rw [Config.inline, hque, hse] at hop
      exact .idle hop hqd (fun h => by cases h)
    | true =>
      rw [Config.inline, hque, hse] at hop
      rw [if_pos rfl]
      cases hsub : w.submit accepts job with
      | mk w' hash =>
        have hw' : w' = (w.submit accepts job).1 := by rw [hsub]
        cases hash with
        | none =>
          exact handled_submit hjob hop hqd henb
            (by rw [hsub]; exact ⟨fun h => (by cases h), fun h => (by cases h)⟩)
            (by rw [hw']; exact ⟨rfl, rfl⟩) (by rw [hw']) (by rw [hw'])
        | some hash =>
          dsimp only
          rw [hw', hwr hash (congrArg Prod.snd hsub)]
          exact handled_submit hjob hop hqd henb
            (by rw [hsub]; exact ⟨fun _ => rfl, fun _ => rfl⟩) ⟨rfl, rfl⟩ rfl rfl

theorem handled_release (hty : d.driftType = .releaseUnconfirmed) (hrec : d.record = some key)
    (henb : cfg.remediationEnabled = true) :
    Handled cfg accepts w d (w.remediate cfg accepts d).1 (w.remediate cfg accepts d).2 := by
  have hjob : d.job = some ⟨.release, key, d.balanceId⟩ := by
    unfold Discrepancy.job
    rw [hrec, bind_some, hty]
  refine handled_settlement .requeueRelease (fun w' _ => w') hjob ?_ henb (fun _ _ => rfl) ?_
  · unfold Discrepancy.op
    rw [if_pos henb, hrec, bind_some, hty, hjob]
    rfl
  · unfold World.remediate planRemediation
    rw [hty, hrec]
    rfl

theorem handled_refund (hty : d.driftType = .expiredEscrow) (hrec : d.record = some key)
    (henb : cfg.remediationEnabled = true) (hft : Fits w d) :
    Handled cfg accepts w d (w.remediate cfg accepts d).1 (w.remediate cfg accepts d).2 := by
  have hjob : d.job = some ⟨.refund, key, d.balanceId⟩ := by
    unfold Discrepancy.job
    rw [hrec, bind_some, hty]
  refine handled_settlement .refundEscrow
    (fun w' txHash => { w' with payments := w'.payments.updateStatus key .refunded txHash }) hjob ?_ henb (fun hash hsh => ?_) ?_
  · unfold Discrepancy.op
    rw [if_pos henb, hrec, bind_some, hty, hjob]
    rfl
  · -- the service has written the row already
    exact congrArg (fun payments => { (w.submit accepts ⟨.refund, key, d.balanceId⟩).1 with payments := payments })
      (refund_written hsh)
  · unfold World.remediate planRemediation
    rw [hty, hrec]
    dsimp only
    rw [if_neg (not_not_intro (hft hty key hrec))]
    rfl

theorem handled_backfill (hty : d.driftType = .missingReleaseTx) (hrec : d.record = some key)
    (henb : cfg.remediationEnabled = true) :
    Handled cfg accepts w d (w.remediate cfg accepts d).1 (w.remediate cfg accepts d).2 := by
  have hop : d.op cfg =
      d.onChainTxHash.map fun h => .write key .released .released (.transaction h) rfl := by
    unfold Discrepancy.op
    rw [if_pos henb, hrec, bind_some, hty]
  have hjob : d.job = none := by
    unfold Discrepancy.job
    rw [hrec, bind_some, hty]
  have hqd : d.queued cfg = none := by
    unfold Discrepancy.queued
    rw [hjob, ite_self]
  cases hsh : d.onChainTxHash with
  | none =>
    rw [hsh] at hop
    unfold World.remediate planRemediation
    rw [hty, hsh]
    exact .idle hop hqd (fun h => by cases h)
  | some =>
    rw [hsh] at hop
    refine handled_write .backfillTxHash hop hqd henb ?_
    unfold World.remediate planRemediation
    rw [hty, hsh, hrec]
    rfl

theorem handled_orphan (hty : d.driftType = .orphanedLocked) (hrec : d.record = some key)
    (henb : cfg.remediationEnabled = true) :
    Handled cfg accepts w d (w.remediate cfg accepts d).1 (w.remediate cfg accepts d).2 := by
  have hop : d.op cfg = some (.write key .locked .orphaned .reconciledRepair rfl) := by
    unfold Discrepancy.op
    rw [if_pos henb, hrec, bind_some, hty]
  have hjob : d.job = none := by
    unfold Discrepancy.job
    rw [hrec, bind_some, hty]
  have hqd : d.queued cfg = none := by
    unfold Discrepancy.queued
    rw [hjob, ite_self]
  refine handled_write .markOrphaned hop hqd henb ?_
  unfold World.remediate planRemediation
  rw [hty, hrec]
  rfl

theorem handled_remediate (hft : Fits w d) (henb : cfg.remediationEnabled = true) :
    Handled cfg accepts w d (w.remediate cfg accepts d).1 (w.remediate cfg accepts d).2 := by
  have hnth : d.record = none → d.op cfg = none ∧ d.queued cfg = none := by
    intro hrec
    unfold Discrepancy.op Discrepancy.queued Discrepancy.job
    rw [hrec]
    exact ⟨ite_self _, ite_self _⟩
  cases hrec : d.record with
  | none =>
    obtain ⟨hop, hqd⟩ := hnth hrec
    have hlf : (w.remediate cfg accepts d).1 = w ∧ (w.remediate cfg accepts d).2.status ≠ .remediated := by
      unfold World.remediate
      dsimp only
      rw [hrec]
      split
      · exact ⟨rfl, fun h => by cases h⟩
      · exact ⟨rfl, fun h => by cases h⟩
    rw [hlf.1]
    exact .idle hop hqd hlf.2
  | some =>
    cases hty : d.driftType with
    | orphanedLocked => exact handled_orphan hty hrec henb
    | missingReleaseTx => exact handled_backfill hty hrec henb
    | releaseUnconfirmed => exact handled_release hty hrec henb
    | expiredEscrow => exact handled_refund hty hrec henb hft
    | missingLocal | amountMismatch =>
      have hop : d.op cfg = none := by
        unfold Discrepancy.op
        rw [hrec, bind_some, hty]
        exact ite_self _
      have hqd : d.queued cfg = none := by
        unfold Discrepancy.queued Discrepancy.job
        rw [hrec, bind_some, hty]
        exact ite_self _
      unfold World.remediate planRemediation
      rw [hty]
      exact .idle hop hqd (fun h => by cases h)

/-! ## The loop -/

theorem handled_handle (cfg : Config) (accepts : β → Bool) (hft : Fits w d) :
    Handled cfg accepts w d (w.handle cfg accepts d).1 (w.handle cfg accepts d).2 := by
  have hkpt : ∀ (result : World τ ν β × Remediation), Handled cfg accepts w d result.1 result.2 →
      Handled cfg accepts w d (if result.2.status = .remediated then result.1 else result.1.park d)
        result.2 := by
    intro result h
    split
    · exact h
    · exact ⟨h.agree, h.queue, h.submitted, h.enabled, h.automatic, h.writes, h.claims, h.queues, h.knows⟩
  unfold World.handle
  cases henb : cfg.remediationEnabled with
  | true => exact hkpt _ (handled_remediate hft henb)
  | false =>
    refine hkpt (w, ⟨(planRemediation d).action, .skipped, none⟩) (.idle ?_ ?_ (fun h => by cases h))
    · unfold Discrepancy.op
      rw [henb]
      rfl
    · unfold Discrepancy.queued
      rw [henb]
      rfl

/-! ### Worlds that agree -/

theorem World.Agree.settle (h : w.Agree w') :
    (w.execute accepts job).Agree (w'.execute accepts job) := by
  obtain ⟨payments, chain, pendingDrift, queue, submitted⟩ := w
  obtain ⟨payments', chain', pendingDrift', queue', submitted'⟩ := w'
  obtain ⟨hpa, hchn⟩ := h
  dsimp only at hpa hchn
  subst hpa hchn
  have hclm : ∀ r status,
      (World.claim ⟨payments', chain', pendingDrift, queue, submitted⟩ accepts r status).1.Agree
        (World.claim ⟨payments', chain', pendingDrift', queue', submitted'⟩ accepts r status).1 := by
    intro r status
    unfold World.claim
    dsimp only
    split
    · exact ⟨rfl, rfl⟩
    · exact ⟨rfl, rfl⟩
  unfold World.execute World.settle
  cases job.kind with
  | release =>
    dsimp only
    unfold World.release
    dsimp only
    split
    · exact ⟨rfl, rfl⟩
    · split
      · exact ⟨rfl, rfl⟩
      · exact hclm _ _
  | refund =>
    dsimp only
    unfold World.refund
    dsimp only
    split
    · exact ⟨rfl, rfl⟩
    · split
      · exact ⟨rfl, rfl⟩
      · exact hclm _ _

theorem World.Agree.apply {op : Op τ ν β} (h : w.Agree w') :
    (w.apply accepts op).Agree (w'.apply accepts op) := by
  cases op with
  | settle => exact h.settle
  | write =>
    unfold World.apply
    dsimp only
    rw [h.1]
    split
    · exact h
    · exact ⟨rfl, h.2⟩

theorem World.Agree.applyAll {ops : List (Op τ ν β)} (h : w.Agree w') :
    (w.applyAll accepts ops).Agree (w'.applyAll accepts ops) := by
  induction ops generalizing w w' with
  | nil => exact h
  | cons op rest ih => exact ih h.apply

omit [DecidableEq τ] [DecidableEq ν] [DecidableEq β] in
theorem World.Agree.trans {w'' : World τ ν β} (h : w.Agree w') (h' : w'.Agree w'') : w.Agree w'' :=
  ⟨h'.1.trans h.1, h'.2.trans h.2⟩

theorem World.Agree.advances (h : w.Agree w') : Advances w w' where
  rows := fun _ r hr => ⟨r, by rw [h.1]; exact hr, .refl r⟩
  keys := by rw [h.1]
  balances := by
    rw [h.2]
    exact w.chain.filter_holds
  transactions := h.2 ▸ prefix_rfl

/-! ### All discrepancies -/

def recordsOf (ds : List (Discrepancy τ ν β)) : List (τ × ν) := ds.filterMap Discrepancy.record

omit [DecidableEq τ] [DecidableEq ν] [DecidableEq β] in
theorem key_op {op : Op τ ν β} (h : d.op cfg = some op) : d.record = some op.key := by
  unfold Discrepancy.op at h
  obtain ⟨_, h⟩ := ite_none_right_eq_some.mp h
  obtain ⟨key, hkey, h⟩ := bind_eq_some_iff.mp h
  rw [hkey]
  congr 1
  have hjob : ∀ {b : Bool} {job : Option (Job τ ν β)}, job = d.job →
      (if b then job.map Op.settle else none) = some op → key = op.key := by
    intro b job hjob h
    obtain ⟨_, h⟩ := ite_none_right_eq_some.mp h
    obtain ⟨job, hj, rfl⟩ := map_eq_some_iff.mp h
    rw [hjob] at hj
    unfold Discrepancy.job at hj
    rw [hkey, bind_some] at hj
    split at hj
    · cases hj
      rfl
    · cases hj
      rfl
    · cases hj
  split at h
  · cases h
    rfl
  · obtain ⟨_, _, rfl⟩ := map_eq_some_iff.mp h
    rfl
  · exact hjob rfl h
  · exact hjob rfl h
  · cases h
  · cases h

theorem Handled.frame (h : Handled cfg accepts w d w' outcome) {k : τ × ν}
    (hk : d.record ≠ some k) : w'.payments.findByKey k = w.payments.findByKey k := by
  rw [h.agree.1]
  cases hop : d.op cfg with
  | none => rfl
  | some =>
    refine findByKey_apply_ne fun heq => ?_
    exact hk (by rw [key_op hop, heq])

/-- What handling a list of discrepancies does. -/
structure AllHandled (cfg : Config) (accepts : β → Bool) (w : World τ ν β)
    (ds : List (Discrepancy τ ν β)) (w' : World τ ν β)
    (report : List (Discrepancy τ ν β × Remediation)) : Prop where
  agree : (w.applyAll accepts (ds.filterMap (Discrepancy.op cfg))).Agree w'
  queue : w'.queue = w.queue ++ ds.filterMap (Discrepancy.queued cfg)
  submitted : ∀ job ∈ w'.submitted, job ∈ w.submitted ∨ ∃ d ∈ ds, d.job = some job
  reported : report.map Prod.fst = ds
  handled : ∀ d outcome, (d, outcome) ∈ report →
    ∃ w₁ w₂, (∀ key, d.record = some key → w₁.payments.findByKey key = w.payments.findByKey key) ∧
      Handled cfg accepts w₁ d w₂ outcome

/-- **The loop does the operations of the discrepancies on the rows that were detected.** -/
theorem handled_all (cfg : Config) (accepts : β → Bool) (hke : (recordsOf ds).Nodup) (hft : ∀ d ∈ ds, Fits w d) :
    AllHandled cfg accepts w ds (w.handleAll cfg accepts ds).1 (w.handleAll cfg accepts ds).2 := by
  induction ds generalizing w with
  | nil => exact ⟨⟨rfl, rfl⟩, (append_nil _).symm, fun _ h => .inl h, rfl, fun _ _ h => (by cases h)⟩
  | cons d rest ih =>
    have hd := handled_handle cfg accepts (hft d mem_cons_self)
    -- the other records are not touched, so they are as they were detected
    have hots : ∀ d' ∈ rest, ∀ key, d'.record = some key →
        (w.handle cfg accepts d).1.payments.findByKey key = w.payments.findByKey key := by
      intro d' hd' key hkey
      refine hd.frame fun hsm => ?_
      unfold recordsOf at hke
      rw [filterMap_cons_some hsm, nodup_cons] at hke
      exact hke.1 (mem_filterMap.mpr ⟨d', hd', hkey⟩)
    have hke' : (recordsOf rest).Nodup := by
      unfold recordsOf at hke ⊢
      exact hke.sublist ((sublist_cons_self d rest).filterMap _)
    have hft' : ∀ d' ∈ rest, Fits (w.handle cfg accepts d).1 d' := by
      intro d' hd' hty key hkey
      rw [hots d' hd' key hkey]
      exact hft d' (mem_cons_of_mem _ hd') hty key hkey
    have hrst := ih hke' hft'
    refine ⟨?_, ?_, ?_, ?_, ?_⟩
    · refine World.Agree.trans ?_ hrst.agree
      cases hop : d.op cfg with
      | none =>
        rw [filterMap_cons_none hop]
        have hagr := hd.agree
        rw [hop] at hagr
        exact hagr.applyAll
      | some =>
        rw [filterMap_cons_some hop]
        have hagr := hd.agree
        rw [hop] at hagr
        exact hagr.applyAll
    · show (World.handleAll cfg accepts (w.handle cfg accepts d).1 rest).1.queue = _
      rw [hrst.queue, hd.queue, append_assoc]
      cases hqd : d.queued cfg with
      | none => rw [filterMap_cons_none hqd, toList_none, nil_append]
      | some => rw [filterMap_cons_some hqd, toList_some, singleton_append]
    · intro job hjob
      rcases hrst.submitted job hjob with hbf | ⟨d', hd', hjob'⟩
      · rcases hd.submitted with hsm | ⟨job', hjob', had⟩
        · exact .inl (hsm ▸ hbf)
        · rw [had] at hbf
          rcases mem_append.mp hbf with hold | hnew
          · exact .inl hold
          · rw [mem_singleton.mp hnew]
            exact .inr ⟨d, mem_cons_self, hjob'⟩
      · exact .inr ⟨d', mem_cons_of_mem _ hd', hjob'⟩
    · exact congrArg (d :: ·) hrst.reported
    · intro d' outcome hmem
      rcases mem_cons.mp hmem with heq | hmem
      · cases heq
        exact ⟨w, _, fun _ _ => rfl, hd⟩
      · obtain ⟨w₁, w₂, hrow, hhnd⟩ := hrst.handled d' outcome hmem
        have hd' : d' ∈ rest := by
          rw [← hrst.reported]
          exact List.mem_map_of_mem hmem
        exact ⟨w₁, w₂, fun key hkey => (hrow key hkey).trans (hots d' hd' key hkey), hhnd⟩

/-! ## Detection before the loop -/

section Detection

variable {horizon : Horizon β} {taskState : τ → Option TaskState} {now : Int}

/-- What detection makes of a record in this run. -/
def World.driftOf (w : World τ ν β) (cfg : Config) (horizon : Horizon β)
    (taskState : τ → Option TaskState) (now : Int) (r : PaymentRecord τ ν β) :
    Option (Discrepancy τ ν β) :=
  Reconciliation.driftOf horizon.listBalances ⟨cfg.escrowExpiryMs, now, taskState⟩
    (verifyReleaseTransactions horizon cfg.maxTxLookups w.payments.rows) r

theorem mem_detect : d ∈ w.detect cfg horizon taskState now ↔
    (∃ r ∈ w.payments.rows, w.driftOf cfg horizon taskState now r = some d) ∨
    ∃ balance ∈ horizon.listBalances, d = detectMissingLocal balance ∧
      ∀ r ∈ w.payments.rows, r.balanceId ≠ balance.balanceId := by
  unfold World.detect World.driftOf
  rw [discrepancies_detectPaymentDrift, mem_append, mem_filterMap, List.mem_map]
  refine or_congr_right ⟨?_, ?_⟩
  · intro ⟨balance, hmem, hd⟩
    obtain ⟨hlst, hnot⟩ := mem_filter.mp hmem
    refine ⟨balance, hlst, hd.symm, fun r hr heq => ?_⟩
    exact of_decide_eq_true hnot (heq ▸ List.mem_map_of_mem hr)
  · intro ⟨balance, hlst, hd, hnot⟩
    refine ⟨balance, mem_filter.mpr ⟨hlst, decide_eq_true fun hmem => ?_⟩, hd.symm⟩
    obtain ⟨r, hr, heq⟩ := List.mem_map.mp hmem
    exact hnot r hr heq

theorem of_mem_detect (h : d ∈ w.detect cfg horizon taskState now)
    (hkey : d.record = some key) : ∃ r, w.payments.findByKey key = some r ∧
      w.driftOf cfg horizon taskState now r = some d ∧
      Drift horizon.listBalances ⟨cfg.escrowExpiryMs, now, taskState⟩
        (verifyReleaseTransactions horizon cfg.maxTxLookups w.payments.rows) r d := by
  rcases mem_detect.mp h with ⟨r, hr, hdft⟩ | ⟨balance, _, rfl, _⟩
  · have hd := drift_of_driftOf hdft
    rw [hd.key.1] at hkey
    cases hkey
    exact ⟨r, Payments.findByKey_self hr, hdft, hd⟩
  · cases hkey

omit [DecidableEq τ] [DecidableEq ν] [DecidableEq β] in
theorem sublist_filterMap {α γ : Type} {f g : α → Option γ} (h : ∀ a c, f a = some c → g a = some c)
    (l : List α) : (l.filterMap f).Sublist (l.filterMap g) := by
  induction l with
  | nil => exact .slnil
  | cons a rest ih =>
    cases hf : f a with
    | none =>
      rw [filterMap_cons_none hf]
      exact ih.trans ((sublist_cons_self a rest).filterMap g)
    | some c =>
      rw [filterMap_cons_some hf, filterMap_cons_some (h a c hf)]
      exact ih.cons_cons _

theorem recordsOf_detect : (recordsOf (w.detect cfg horizon taskState now)).Nodup := by
  unfold recordsOf World.detect
  rw [discrepancies_detectPaymentDrift, filterMap_append]
  have hno : ∀ balances : List (ClaimableBalanceOnChain β),
      (balances.map (@detectMissingLocal τ ν β)).filterMap Discrepancy.record = [] := by
    intro balances
    rw [filterMap_map]
    exact filterMap_eq_nil_iff.mpr fun _ _ => rfl
  rw [hno, append_nil, filterMap_filterMap]
  -- each record has one discrepancy at most
  have hke := w.payments.keys
  rw [← filterMap_eq_map] at hke
  refine hke.sublist (sublist_filterMap (fun r key hkey => ?_) _)
  obtain ⟨d, hd, hrec⟩ := bind_eq_some_iff.mp hkey
  rw [(drift_of_driftOf hd).key.1] at hrec
  exact hrec

theorem fits_detect (h : d ∈ w.detect cfg horizon taskState now) : Fits w d := by
  intro hty key hkey
  obtain ⟨r, hr, _, hdft⟩ := of_mem_detect h hkey
  rw [hr, map_some]
  cases hdft with
  | expired hst => rw [hst]
  | orphaned | mismatch | unconfirmed | missing => cases hty

theorem driftType_of_driftId {d' : Discrepancy τ ν β} (h : d ∈ w.detect cfg horizon taskState now)
    (h' : d' ∈ w.detect cfg horizon taskState now) (hid : d.driftId = d'.driftId) :
    d.driftType = d'.driftType := by
  have hloc : ∀ {d : Discrepancy τ ν β}, d ∈ w.detect cfg horizon taskState now → d.record = none →
      d.driftType = .missingLocal := by
    intro d hd hno
    rcases mem_detect.mp hd with ⟨r, _, hdft⟩ | ⟨_, _, rfl, _⟩
    · rw [(drift_of_driftOf hdft).key.1] at hno
      cases hno
    · rfl
  unfold Discrepancy.driftId at hid
  cases hrec : d.record with
  | none =>
    cases hrec' : d'.record with
    | none => rw [hloc h hrec, hloc h' hrec']
    | some =>
      rw [hrec, hrec'] at hid
      cases hid
  | some =>
    cases hrec' : d'.record with
    | none =>
      rw [hrec, hrec'] at hid
      cases hid
    | some =>
      rw [hrec, hrec'] at hid
      cases hid
      obtain ⟨r, hr, hdft, _⟩ := of_mem_detect h hrec
      obtain ⟨r', hr', hdft', _⟩ := of_mem_detect h' hrec'
      cases hr.symm.trans hr'
      rw [some.inj (hdft.symm.trans hdft')]

/-! ## Parking -/

def Parked (w : World τ ν β) (d : Discrepancy τ ν β) : Prop :=
  ∃ p ∈ w.pendingDrift, p.id = d.driftId ∧ p.driftType = d.driftType

theorem parked_park : Parked (w.park d) d := by
  unfold Parked World.park
  dsimp only
  split
  · rename_i hany
    rw [List.any_eq_true] at hany
    obtain ⟨p, hp, hid⟩ := hany
    refine ⟨_, List.mem_map_of_mem hp, ?_⟩
    rw [if_pos (of_decide_eq_true hid)]
    exact ⟨of_decide_eq_true hid, rfl⟩
  · exact ⟨_, mem_append_right _ mem_cons_self, rfl, rfl⟩

theorem Parked.park {d' : Discrepancy τ ν β} (h : Parked w d)
    (hsm : d.driftId = d'.driftId → d.driftType = d'.driftType) : Parked (w.park d') d := by
  obtain ⟨p, hp, hid, hty⟩ := h
  unfold Parked World.park
  dsimp only
  split
  · refine ⟨_, List.mem_map_of_mem hp, ?_⟩
    split
    · rename_i heq
      exact ⟨hid, (hsm (hid.symm.trans heq)).symm⟩
    · exact ⟨hid, hty⟩
  · exact ⟨p, mem_append_left _ hp, hid, hty⟩

theorem pendingDrift_remediate : (w.remediate cfg accepts d).1.pendingDrift = w.pendingDrift := by
  have hsub : ∀ job, (w.submit accepts job).1.pendingDrift = w.pendingDrift :=
    fun job => (settle_keeps job).2.2
  unfold World.remediate
  dsimp only
  split
  · rfl
  · split
    · rfl
    · split
      · split
        · rfl
        · rfl
      · split
        · rfl
        · split
          · rfl
          · rfl
      · split
        · rfl
        · split
          · split
            · rename_i hres
              exact (congrArg (fun x => x.1.pendingDrift) hres).symm.trans (hsub _)
            · rename_i hres
              exact (congrArg (fun x => x.1.pendingDrift) hres).symm.trans (hsub _)
          · rfl
      · split
        · rfl
        · split
          · rfl
          · split
            · split
              · rename_i hres
                exact (congrArg (fun x => x.1.pendingDrift) hres).symm.trans (hsub _)
              · rename_i hres
                exact (congrArg (fun x => x.1.pendingDrift) hres).symm.trans (hsub _)
            · rfl
      · rfl

theorem handle_parks (cfg : Config) (accepts : β → Bool) (w : World τ ν β) (d : Discrepancy τ ν β) :
    ((w.handle cfg accepts d).2.status = .remediated ∧
      (w.handle cfg accepts d).1.pendingDrift = w.pendingDrift) ∨
    ∃ w' : World τ ν β, w'.pendingDrift = w.pendingDrift ∧ (w.handle cfg accepts d).1 = w'.park d := by
  unfold World.handle
  have hpnd : (if cfg.remediationEnabled then w.remediate cfg accepts d
      else (w, ⟨(planRemediation d).action, .skipped, none⟩)).1.pendingDrift = w.pendingDrift := by
    split
    · exact pendingDrift_remediate
    · rfl
  generalize (if cfg.remediationEnabled then w.remediate cfg accepts d
      else (w, ⟨(planRemediation d).action, .skipped, none⟩)) = result at hpnd
  obtain ⟨w', outcome⟩ := result
  dsimp only
  by_cases hst : outcome.status = .remediated
  · rw [if_pos hst]
    exact .inl ⟨hst, hpnd⟩
  · rw [if_neg hst]
    exact .inr ⟨w', hpnd, rfl⟩

/-- **What a loop did not remediate is parked after it.** -/
theorem parked_handleAll
    (hsm : ∀ d ∈ ds, ∀ d' ∈ ds, d.driftId = d'.driftId → d.driftType = d'.driftType) :
    (∀ d, (∀ d' ∈ ds, d.driftId = d'.driftId → d.driftType = d'.driftType) → Parked w d →
      Parked (w.handleAll cfg accepts ds).1 d) ∧
    ∀ d outcome, (d, outcome) ∈ (w.handleAll cfg accepts ds).2 → outcome.status ≠ .remediated →
      Parked (w.handleAll cfg accepts ds).1 d := by
  induction ds generalizing w with
  | nil => exact ⟨fun _ _ h => h, fun _ _ h => (by cases h)⟩
  | cons first rest ih =>
    obtain ⟨hkpt, hpar⟩ := ih (w := (w.handle cfg accepts first).1)
      fun d hd d' hd' => hsm d (mem_cons_of_mem _ hd) d' (mem_cons_of_mem _ hd')
    constructor
    · intro d hd hw
      refine hkpt d (fun d' hd' => hd d' (mem_cons_of_mem _ hd')) ?_
      rcases handle_parks cfg accepts w first with ⟨_, hpnd⟩ | ⟨w', hpnd, hpa⟩
      · unfold Parked
        rw [hpnd]
        exact hw
      · rw [hpa]
        refine Parked.park ?_ (hd first mem_cons_self)
        unfold Parked
        rw [hpnd]
        exact hw
    · intro d outcome hmem hlf
      rcases mem_cons.mp hmem with heq | hmem
      · obtain ⟨rfl, rfl⟩ := Prod.mk.inj heq
        refine hkpt d (fun d' hd' => hsm d mem_cons_self d' (mem_cons_of_mem _ hd')) ?_
        rcases handle_parks cfg accepts w d with ⟨hrem, _⟩ | ⟨w', _, hpa⟩
        · exact absurd hrem hlf
        · rw [hpa]
          exact parked_park
      · exact hpar d outcome hmem hlf

/-! ## A run -/

/-- **A run handles what it detects.** -/
theorem handled_run (w : World τ ν β) (cfg : Config) (horizon : Horizon β)
    (taskState : τ → Option TaskState) (now : Int) (accepts : β → Bool) :
    AllHandled cfg accepts w (w.detect cfg horizon taskState now)
      (w.run cfg horizon taskState now accepts).1 (w.run cfg horizon taskState now accepts).2 := by
  have hall := handled_all (w := w) cfg accepts recordsOf_detect
    fun d (hd : d ∈ w.detect cfg horizon taskState now) => fits_detect hd
  exact ⟨hall.agree, hall.queue, hall.submitted, hall.reported, hall.handled⟩

/-- **What a run did not remediate is parked after it.** -/
theorem parked_run (h : (d, outcome) ∈ (w.run cfg horizon taskState now accepts).2)
    (hlf : outcome.status ≠ .remediated) : Parked (w.run cfg horizon taskState now accepts).1 d := by
  have hpa := (parked_handleAll (w := w) fun d hd d' hd' =>
    driftType_of_driftId (d := d) (w := w) hd hd').2 d outcome h hlf
  obtain ⟨p, hp, hid, hty⟩ := hpa
  refine ⟨p, mem_filter.mpr ⟨hp, decide_eq_true ?_⟩, hid, hty⟩
  rw [hid]
  exact List.mem_map.mpr ⟨(d, outcome), mem_filter.mpr ⟨h, decide_eq_true hlf⟩, rfl⟩

theorem keys_of_ops : (((w.detect cfg horizon taskState now).filterMap
    (Discrepancy.op cfg)).map Op.key).Nodup := by
  rw [map_filterMap]
  refine (recordsOf_detect (w := w)).sublist (sublist_filterMap (fun d key hkey => ?_) _)
  obtain ⟨op, hop, rfl⟩ := map_eq_some_iff.mp hkey
  exact key_op hop

theorem row_applyAll (accepts : β → Bool) {f : Discrepancy τ ν β → Option (Op τ ν β)}
    (hf : ∀ d op, f d = some op → d.record = some op.key) {ops : List (Op τ ν β)}
    (hops : ∀ op, op ∈ ops ↔ ∃ d ∈ w.detect cfg horizon taskState now, f d = some op)
    (hke : (ops.map Op.key).Nodup) (hr : r ∈ w.payments.rows) :
    ((∀ d, w.driftOf cfg horizon taskState now r = some d → f d = none) ∧
      (w.applyAll accepts ops).payments.findByKey r.key = some r) ∨
    ∃ d op, ∃ w₁ : World τ ν β, w.driftOf cfg horizon taskState now r = some d ∧ f d = some op ∧
      op.key = r.key ∧ w₁.payments.findByKey r.key = some r ∧
      (w.applyAll accepts ops).payments.findByKey r.key =
        (w₁.apply accepts op).payments.findByKey r.key := by
  have hsf := Payments.findByKey_self hr
  by_cases hop : ∃ d op, w.driftOf cfg horizon taskState now r = some d ∧ f d = some op
  · obtain ⟨d, op, hdft, hop⟩ := hop
    have hmem := mem_detect.mpr (.inl ⟨r, hr, hdft⟩)
    have hkey : op.key = r.key := by
      have hrec := hf d op hop
      rw [(drift_of_driftOf hdft).key.1] at hrec
      exact (some.inj hrec).symm
    obtain ⟨w₁, hrow, haf⟩ := findByKey_applyAll_mem (w := w) hke ((hops op).mpr ⟨d, hmem, hop⟩)
    rw [hkey] at hrow haf
    exact .inr ⟨d, op, w₁, hdft, hop, hkey, hrow.trans hsf, haf⟩
  · have hno : ∀ d, w.driftOf cfg horizon taskState now r = some d → f d = none := by
      intro d hdft
      cases hd : f d with
      | none => rfl
      | some op => exact absurd ⟨d, op, hdft, hd⟩ hop
    refine .inl ⟨hno, ?_⟩
    rw [findByKey_applyAll, hsf]
    intro hmem
    obtain ⟨op, hmem, hkey⟩ := List.mem_map.mp hmem
    obtain ⟨d, hd, hop'⟩ := (hops op).mp hmem
    have hrec := hf d op hop'
    rw [hkey] at hrec
    obtain ⟨r', hr', hdft, _⟩ := of_mem_detect hd hrec
    cases hsf.symm.trans hr'
    rw [hno d hdft] at hop'
    cases hop'

/-- **The row of a record after a run.** -/
theorem row_run (cfg : Config) (horizon : Horizon β) (taskState : τ → Option TaskState) (now : Int)
    (accepts : β → Bool) (hr : r ∈ w.payments.rows) :
    ((∀ d, w.driftOf cfg horizon taskState now r = some d → d.op cfg = none) ∧
      (w.run cfg horizon taskState now accepts).1.payments.findByKey r.key = some r) ∨
    ∃ d op, ∃ w₁ : World τ ν β, w.driftOf cfg horizon taskState now r = some d ∧ d.op cfg = some op ∧
      op.key = r.key ∧ w₁.payments.findByKey r.key = some r ∧
      (w.run cfg horizon taskState now accepts).1.payments.findByKey r.key =
        (w₁.apply accepts op).payments.findByKey r.key := by
  rw [(handled_run w cfg horizon taskState now accepts).agree.1]
  exact row_applyAll accepts (fun d op h => key_op h) (fun op => mem_filterMap) keys_of_ops hr

/-- **A balance is gone after a run exactly when an operation of the run claims it.** -/
theorem holds_run (b : β) : (w.run cfg horizon taskState now accepts).1.chain.holds b = true ↔
    w.chain.holds b = true ∧ ∀ d ∈ w.detect cfg horizon taskState now, ∀ op, d.op cfg = some op →
      ¬op.Claims accepts w b := by
  have hrun := handled_run w cfg horizon taskState now accepts
  rw [hrun.agree.2, holds_applyAll keys_of_ops]
  refine and_congr_right fun _ => ⟨fun h d hd op hop => ?_, fun h op hmem => ?_⟩
  · exact h op (mem_filterMap.mpr ⟨d, hd, hop⟩)
  · obtain ⟨d, hd, hop⟩ := mem_filterMap.mp hmem
    exact h d hd op hop

end Detection

end AiNet.Reconciliation
