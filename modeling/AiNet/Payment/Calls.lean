import AiNet.Payment.Stellar

/-!
# What calls have done

`Stepped` lists the steps. Whatever happens, calls keep what they were called with and the
transaction they sent, records keep their balance, and a transaction that was through stays as
it is (`Grows`). So what a finished call achieved is a fact about every later state: `Consistent`
collects these facts.
-/

namespace AiNet.Payment

open Core List Option Storage System

section

variable {τ ν κ : Type} [DecidableEq τ] [DecidableEq ν] [DecidableEq κ] {coordinator : κ}
  {s s' : Books τ ν κ} {e : Event τ ν κ}

/-- What a step does. -/
inductive Stepped (coordinator : κ) (s : Books τ ν κ) : Event τ ν κ → Books τ ν κ → Prop where
  | called {taskId nodeId request} : Stepped coordinator s (.call taskId nodeId request)
      { s with calls := s.calls.add (begin s.payments taskId nodeId request) }
  | submitted {c call account operation} : s.calls.get c = some call → call.outcome = .running →
      call.tx = none → s.ledger.accounts.get coordinator = some account →
      call.operation coordinator = some operation →
      Stepped coordinator s (.submit c)
        ({ s with ledger := s.ledger.send coordinator (account.sequence + 1) operation }.setCall c
          fun call => { call with tx := some s.ledger.transactions.next })
  | closed {t ledger} : s.ledger.close t = some ledger →
      Stepped coordinator s (.close t) { s with ledger := ledger }
  | answered {c call t tx} : s.calls.get c = some call → call.outcome = .running →
      call.tx = some t → s.ledger.transactions.get t = some tx → tx.status = .success →
      Stepped coordinator s (.answer c) (s.answered coordinator c call t tx)
  | failed {c call} : s.calls.get c = some call → call.outcome = .running →
      Stepped coordinator s (.fail c) (s.conclude c .threw)
  | others {source sequence operation} : Stepped coordinator s (.other source sequence operation)
      { s with ledger := s.ledger.send source sequence operation }

theorem step_stepped (h : step coordinator s e = some s') : Stepped coordinator s e s' := by
  cases e with
  | call =>
    cases h
    exact .called
  | submit =>
    obtain ⟨call, hcl, h⟩ := bind_eq_some_iff.mp h
    obtain ⟨⟨hrng, hno⟩, h⟩ := ite_none_right_eq_some.mp h
    obtain ⟨account, hacc, h⟩ := bind_eq_some_iff.mp h
    obtain ⟨operation, hopn, rfl⟩ := map_eq_some_iff.mp h
    exact .submitted hcl hrng hno hacc hopn
  | close =>
    obtain ⟨ledger, hclo, rfl⟩ := map_eq_some_iff.mp h
    exact .closed hclo
  | answer =>
    obtain ⟨call, hcl, h⟩ := bind_eq_some_iff.mp h
    obtain ⟨t, ht, h⟩ := bind_eq_some_iff.mp h
    obtain ⟨tx, htx, h⟩ := bind_eq_some_iff.mp h
    obtain ⟨⟨hrng, hsuc⟩, h⟩ := ite_none_right_eq_some.mp h
    cases h
    exact .answered hcl hrng ht htx hsuc
  | fail =>
    obtain ⟨call, hcl, h⟩ := bind_eq_some_iff.mp h
    obtain ⟨hrng, h⟩ := ite_none_right_eq_some.mp h
    cases h
    exact .failed hcl hrng
  | other =>
    cases h
    exact .others

/-! ## Calls and records after a step -/

omit [DecidableEq τ] [DecidableEq ν] [DecidableEq κ] in
theorem get_setCall {c : Nat} (f : Call τ ν κ → Call τ ν κ) (k : Nat) :
    (s.setCall c f).calls.get k = (s.calls.get k).map fun call => if k = c then f call else call := by
  unfold Books.setCall
  dsimp only
  rw [Register.get_rewrite]
  cases s.calls.get k with
  | none => rfl
  | some => simp only [map_some, decide_eq_true_eq]

omit [DecidableEq κ] in
theorem get_updateStatus {payments : Storage (τ × ν) (PaymentRecord κ)} {taskId : τ} {nodeId : ν}
    {status : PaymentStatus} {t : Nat} (key : τ × ν) :
    (updateStatus payments taskId nodeId status t).get key = (payments.get key).map fun r =>
        if key = (taskId, nodeId) then { r with status := status, txHash := some t } else r := by
  unfold updateStatus
  rw [get_adjust]
  by_cases hkey : key = (taskId, nodeId)
  · rw [if_pos hkey, hkey]
    simp
  · simp only [if_neg hkey, Option.map_id']

/-- What an answered call returns. -/
def Books.result (coordinator : κ) (s : Books τ ν κ) (call : Call τ ν κ) (t : Nat)
    (tx : Transaction κ) : Outcome κ :=
  match call.request with
  | .lock .. =>
    if s.payments.has (call.taskId, call.nodeId) then .threw else .locked (coordinator, tx.sequence)
  | .release | .refund => .settled t

section

omit [DecidableEq κ]

theorem calls_answered {c : Nat} {call : Call τ ν κ} {t : Nat} {tx : Transaction κ} :
    (s.answered coordinator c call t tx).calls = (s.conclude c (s.result coordinator call t tx)).calls := by
  unfold Books.answered Books.result
  cases call.request with
  | lock =>
    dsimp only
    split
    · rfl
    · rfl
  | release | refund => rfl

theorem ledger_answered {c : Nat} {call : Call τ ν κ} {t : Nat} {tx : Transaction κ} :
    (s.answered coordinator c call t tx).ledger = s.ledger := by
  unfold Books.answered
  cases call.request with
  | lock =>
    dsimp only
    split
    · rfl
    · rfl
  | release | refund => rfl

theorem payments_answered {c : Nat} {call : Call τ ν κ} {t : Nat} {tx : Transaction κ} (key : τ × ν) :
    (s.answered coordinator c call t tx).payments.get key = if key = (call.taskId, call.nodeId) then
        match call.request with
        | .lock _ amount =>
          (s.payments.get key).or (some ⟨(coordinator, tx.sequence), .locked, amount, none⟩)
        | .release => (s.payments.get key).map fun r => { r with status := .released, txHash := some t }
        | .refund => (s.payments.get key).map fun r => { r with status := .refunded, txHash := some t }
      else s.payments.get key := by
  unfold Books.answered
  cases call.request with
  | lock agent amount =>
    dsimp only
    by_cases hhas : s.payments.has (call.taskId, call.nodeId) = true
    · rw [if_pos hhas]
      split
      · rename_i hkey
        obtain ⟨r, hr⟩ := has_eq_true.mp hhas
        rw [hkey]
        show s.payments.get _ = _
        rw [hr]
        rfl
      · rfl
    · rw [if_neg hhas]
      have hno := has_eq_false.mp (Bool.eq_false_iff.mpr hhas)
      show (s.payments.set _ _).get key = _
      rw [get_set]
      split
      · rename_i hkey
        rw [hkey, hno]
        rfl
      · rfl
  | release | refund =>
    show (updateStatus s.payments _ _ _ _).get key = _
    rw [get_updateStatus]
    split
    · rfl
    · exact Option.map_id'

end

/-! ## What stays -/

/-- A later stage of the same call. -/
structure Later (call call' : Call τ ν κ) : Prop where
  taskId : call'.taskId = call.taskId
  nodeId : call'.nodeId = call.nodeId
  request : call'.request = call.request
  record : call'.record = call.record
  tx : ∀ t, call.tx = some t → call'.tx = some t
  outcome : call.outcome ≠ .running → call'.outcome = call.outcome

/-- What no step takes back. -/
structure Grows (s s' : Books τ ν κ) : Prop where
  calls : ∀ c call, s.calls.get c = some call → ∃ call', s'.calls.get c = some call' ∧ Later call call'
  payments : ∀ key r, s.payments.get key = some r → ∃ r', s'.payments.get key = some r' ∧
    r'.balanceId = r.balanceId ∧ r'.amountStroops = r.amountStroops
  transactions : ∀ t tx, s.ledger.transactions.get t = some tx →
    ∃ tx', s'.ledger.transactions.get t = some tx' ∧ tx'.source = tx.source ∧
      tx'.sequence = tx.sequence ∧ tx'.operation = tx.operation ∧
      (tx.status ≠ .pending → tx' = tx)

omit [DecidableEq τ] [DecidableEq ν] [DecidableEq κ] in
theorem Later.refl (call : Call τ ν κ) : Later call call :=
  ⟨rfl, rfl, rfl, rfl, fun _ h => h, fun _ => rfl⟩

omit [DecidableEq κ] in
theorem payments_keep {c : Nat} {call : Call τ ν κ} {t : Nat} {tx : Transaction κ} {key : τ × ν}
    {r : PaymentRecord κ} (h : s.payments.get key = some r) :
    ∃ r', (s.answered coordinator c call t tx).payments.get key = some r' ∧
      r'.balanceId = r.balanceId ∧ r'.amountStroops = r.amountStroops := by
  rw [payments_answered, h]
  split
  · cases call.request with
    | lock => exact ⟨r, rfl, rfl, rfl⟩
    | release | refund => exact ⟨_, rfl, rfl, rfl⟩
  · exact ⟨r, rfl, rfl, rfl⟩

section

omit [DecidableEq τ] [DecidableEq ν] [DecidableEq κ]

theorem calls_keep {c : Nat} {f : Call τ ν κ → Call τ ν κ}
    (hf : ∀ call, s.calls.get c = some call → Later call (f call)) {k : Nat}
    {call : Call τ ν κ} (h : s.calls.get k = some call) :
    ∃ call', (s.setCall c f).calls.get k = some call' ∧ Later call call' := by
  rw [get_setCall, h]
  refine ⟨_, rfl, ?_⟩
  split
  · rename_i hk
    exact hf call (hk ▸ h)
  · exact .refl call

theorem conclude_keep {c : Nat} {call : Call τ ν κ} (hcl : s.calls.get c = some call)
    (hrng : call.outcome = .running) (outcome : Outcome κ) :
    ∀ call', s.calls.get c = some call' → Later call' { call' with outcome := outcome } := by
  intro call' hcl'
  rw [hcl] at hcl'
  cases hcl'
  exact ⟨rfl, rfl, rfl, rfl, fun _ h => h, fun h => absurd hrng h⟩

end

/-- **Whatever a step does, it takes none of this back.** -/
theorem grows_step (h : Stepped coordinator s e s') : Grows s s' := by
  have hsm : ∀ t tx, s.ledger.transactions.get t = some tx →
      ∃ tx', s.ledger.transactions.get t = some tx' ∧ tx'.source = tx.source ∧
        tx'.sequence = tx.sequence ∧ tx'.operation = tx.operation ∧
        (tx.status ≠ .pending → tx' = tx) :=
    fun t tx htx => ⟨tx, htx, rfl, rfl, rfl, fun _ => rfl⟩
  cases h with
  | called =>
    exact ⟨fun c call hcl => ⟨call, Register.get_add_of_some hcl, .refl call⟩,
      fun key r hr => ⟨r, hr, rfl, rfl⟩, hsm⟩
  | submitted hcl hrng hno =>
    refine ⟨fun c call' hcl' => calls_keep ?_ hcl', fun key r hr => ⟨r, hr, rfl, rfl⟩, ?_⟩
    · intro call' hcl'
      cases hcl.symm.trans hcl'
      refine ⟨rfl, rfl, rfl, rfl, fun t ht => ?_, fun _ => rfl⟩
      rw [hno] at ht
      cases ht
    · intro t tx htx
      exact ⟨tx, Register.get_add_of_some htx, rfl, rfl, rfl, fun _ => rfl⟩
  | closed hclo =>
    refine ⟨fun c call hcl => ⟨call, hcl, .refl call⟩, fun key r hr => ⟨r, hr, rfl, rfl⟩, ?_⟩
    intro k tx' htx'
    obtain ⟨tx, status, hc⟩ := close_cases hclo
    by_cases hdn : tx'.status = .pending
    · refine ⟨_, by rw [hc.transactions, get_conclude, htx']; rfl, ?_⟩
      split
      · exact ⟨rfl, rfl, rfl, fun h => absurd hdn h⟩
      · exact ⟨rfl, rfl, rfl, fun _ => rfl⟩
    · exact ⟨tx', hc.get_of_concluded htx' hdn, rfl, rfl, rfl, fun _ => rfl⟩
  | answered hcl hrng =>
    refine ⟨fun c call' hcl' => ?_, fun key r hr => payments_keep hr, ?_⟩
    · rw [calls_answered]
      exact calls_keep (conclude_keep hcl hrng _) hcl'
    · rw [ledger_answered]
      exact hsm
  | failed hcl hrng =>
    exact ⟨fun c call' hcl' => calls_keep (conclude_keep hcl hrng _) hcl',
      fun key r hr => ⟨r, hr, rfl, rfl⟩, hsm⟩
  | others =>
    refine ⟨fun c call hcl => ⟨call, hcl, .refl call⟩, fun key r hr => ⟨r, hr, rfl, rfl⟩, ?_⟩
    intro t tx htx
    exact ⟨tx, Register.get_add_of_some htx, rfl, rfl, rfl, fun _ => rfl⟩

/-! ## What finished calls achieved -/

/-- A call of the kind has claimed the balance of the record with this transaction. -/
def Claimed (coordinator : κ) (s : Books τ ν κ) (key : τ × ν) (request : Request κ) (t : Nat) : Prop :=
  ∃ c call r sequence, s.calls.get c = some call ∧ (call.taskId, call.nodeId) = key ∧
    call.request = request ∧ call.tx = some t ∧ s.payments.get key = some r ∧
    s.ledger.transactions.get t = some ⟨coordinator, sequence, .claimClaimableBalance r.balanceId, .success⟩

/-- A call has locked this amount for the agent in the balance, and the record says so. -/
structure Locked (coordinator : κ) (s : Books τ ν κ) (call : Call τ ν κ) (balanceId : BalanceId κ) :
    Prop where
  request : ∃ agent amount t, call.request = .lock agent amount ∧ call.tx = some t ∧
    s.ledger.transactions.get t = some ⟨coordinator, balanceId.2,
      .createClaimableBalance amount [agent, coordinator], .success⟩ ∧
    ∃ r, s.payments.get (call.taskId, call.nodeId) = some r ∧ r.balanceId = balanceId ∧
      r.amountStroops = amount
  source : balanceId.1 = coordinator

/-- What calls sent, read and returned agrees with the ledger and the records. -/
structure Consistent (coordinator : κ) (s : Books τ ν κ) : Prop where
  ledger : Sound s.ledger
  sent : ∀ c call t, s.calls.get c = some call → call.tx = some t →
    ∃ tx, s.ledger.transactions.get t = some tx ∧ tx.source = coordinator ∧
      call.operation coordinator = some tx.operation
  own : ∀ c call c' call' t, s.calls.get c = some call → call.tx = some t →
    s.calls.get c' = some call' → call'.tx = some t → c = c'
  read : ∀ c call r, s.calls.get c = some call → call.record = some r →
    ∃ r', s.payments.get (call.taskId, call.nodeId) = some r' ∧ r'.balanceId = r.balanceId
  locked : ∀ c call balanceId, s.calls.get c = some call → call.outcome = .locked balanceId →
    Locked coordinator s call balanceId
  settled : ∀ c call t, s.calls.get c = some call → call.outcome = .settled t →
    (call.request = .release ∨ call.request = .refund) ∧
      Claimed coordinator s (call.taskId, call.nodeId) call.request t
  recorded : ∀ key r, s.payments.get key = some r →
    (∀ t, r.status = .released → r.txHash = some t → Claimed coordinator s key .release t) ∧
    ∃ c call, s.calls.get c = some call ∧ (call.taskId, call.nodeId) = key ∧
      call.outcome = .locked r.balanceId

section

omit [DecidableEq κ]

theorem Claimed.grows {key : τ × ν} {request : Request κ} {t : Nat}
    (h : Claimed coordinator s key request t) (hg : Grows s s') :
    Claimed coordinator s' key request t := by
  obtain ⟨c, call, r, sequence, hcl, hkey, hreq, ht, hr, htx⟩ := h
  obtain ⟨call', hcl', hco⟩ := hg.calls c call hcl
  obtain ⟨r', hr', hbal, _⟩ := hg.payments key r hr
  obtain ⟨tx', htx', _, _, _, hdn⟩ := hg.transactions t _ htx
  refine ⟨c, call', r', sequence, hcl', ?_, hco.request.trans hreq, hco.tx t ht, hr', ?_⟩
  · rw [hco.taskId, hco.nodeId, hkey]
  · rw [htx', hdn nofun, hbal]

theorem Locked.grows {call call' : Call τ ν κ} {balanceId : BalanceId κ}
    (h : Locked coordinator s call balanceId) (hg : Grows s s') (hco : Later call call') :
    Locked coordinator s' call' balanceId := by
  obtain ⟨⟨agent, amount, t, hreq, ht, htx, r, hr, hbal, hamt⟩, hsrc⟩ := h
  obtain ⟨r', hr', hbal', hamt'⟩ := hg.payments _ r hr
  obtain ⟨tx', htx', _, _, _, hdn⟩ := hg.transactions t _ htx
  refine ⟨⟨agent, amount, t, hco.request.trans hreq, hco.tx t ht, ?_, r', ?_,
    hbal'.trans hbal, hamt'.trans hamt⟩, hsrc⟩
  · rw [htx', hdn nofun]
  · rw [hco.taskId, hco.nodeId]
    exact hr'

end

/-! ## Calls after a step -/

/-- Where a call comes from. -/
inductive Origin (coordinator : κ) (s s' : Books τ ν κ) (e : Event τ ν κ) (c : Nat) :
    Call τ ν κ → Prop where
  | same {call} : s.calls.get c = some call → Origin coordinator s s' e c call
  | begun {taskId nodeId request} : c = s.calls.next →
      Origin coordinator s s' e c (begin s.payments taskId nodeId request)
  | submitted {call operation sequence} : s.calls.get c = some call → call.outcome = .running →
      call.tx = none → call.operation coordinator = some operation → e = .submit c →
      s'.ledger = s.ledger.send coordinator sequence operation →
      Origin coordinator s s' e c { call with tx := some s.ledger.transactions.next }
  | answered {call t tx} : s.calls.get c = some call → call.outcome = .running →
      call.tx = some t → s.ledger.transactions.get t = some tx → tx.status = .success →
      e = .answer c → s' = s.answered coordinator c call t tx →
      Origin coordinator s s' e c { call with outcome := s.result coordinator call t tx }
  | failed {call} : s.calls.get c = some call → call.outcome = .running → e = .fail c →
      Origin coordinator s s' e c { call with outcome := .threw }

omit [DecidableEq τ] [DecidableEq ν] [DecidableEq κ] in
theorem of_setCall {c k : Nat} {f : Call τ ν κ → Call τ ν κ} {call' : Call τ ν κ}
    (h : (s.setCall c f).calls.get k = some call') :
    (k = c ∧ ∃ call, s.calls.get c = some call ∧ call' = f call) ∨ s.calls.get k = some call' := by
  rw [get_setCall] at h
  obtain ⟨call, hcl, hnew⟩ := map_eq_some_iff.mp h
  split at hnew
  · rename_i hk
    exact .inl ⟨hk, call, hk ▸ hcl, hnew.symm⟩
  · exact .inr (hnew ▸ hcl)

theorem origin_step (h : Stepped coordinator s e s') {c : Nat} {call' : Call τ ν κ}
    (hcl' : s'.calls.get c = some call') : Origin coordinator s s' e c call' := by
  cases h with
  | called =>
    rcases Register.of_get_add hcl' with ⟨hc, rfl⟩ | hold
    · exact .begun hc
    · exact .same hold
  | submitted hcl hrng hno hacc hopn =>
    rcases of_setCall hcl' with ⟨rfl, call, hget, rfl⟩ | hold
    · cases hcl.symm.trans hget
      exact .submitted hcl hrng hno hopn rfl rfl
    · exact .same hold
  | closed | others => exact .same hcl'
  | answered hcl hrng ht htx hsuc =>
    rw [calls_answered] at hcl'
    rcases of_setCall hcl' with ⟨rfl, call, hget, rfl⟩ | hold
    · cases hcl.symm.trans hget
      exact .answered hcl hrng ht htx hsuc rfl rfl
    · exact .same hold
  | failed hcl hrng =>
    rcases of_setCall hcl' with ⟨rfl, call, hget, rfl⟩ | hold
    · cases hcl.symm.trans hget
      exact .failed hcl hrng rfl
    · exact .same hold

/-! ## Every step -/

theorem sound_step (h : Sound s.ledger) (hs : Stepped coordinator s e s') : Sound s'.ledger := by
  cases hs with
  | called | failed => exact h
  | submitted | others => exact h.send _ _ _
  | closed hclo =>
    obtain ⟨tx, status, hc⟩ := close_cases hclo
    exact h.close hc
  | answered =>
    rw [ledger_answered]
    exact h

omit [DecidableEq κ] in
theorem begin_spec (payments : Storage (τ × ν) (PaymentRecord κ)) (taskId : τ) (nodeId : ν)
    (request : Request κ) : let call := begin payments taskId nodeId request
    call.taskId = taskId ∧ call.nodeId = nodeId ∧ call.tx = none ∧
      call.record = payments.get (taskId, nodeId) ∧
      (∀ balanceId, call.outcome ≠ .locked balanceId) ∧
      ∀ t, call.outcome = .settled t → call.request = .release ∧
        ∃ r, payments.get (taskId, nodeId) = some r ∧ r.status = .released ∧ r.txHash = some t := by
  unfold begin
  dsimp only
  split
  · exact ⟨rfl, rfl, rfl, rfl, by rintro _ ⟨⟩, by rintro _ ⟨⟩⟩
  · exact ⟨rfl, rfl, rfl, rfl, by rintro _ ⟨⟩, by rintro _ ⟨⟩⟩
  · rename_i r hr
    split
    · rename_i hst htx
      refine ⟨rfl, rfl, rfl, rfl, by rintro _ ⟨⟩, fun t h => ?_⟩
      cases h
      exact ⟨rfl, r, hr, hst, htx⟩
    · exact ⟨rfl, rfl, rfl, rfl, by rintro _ ⟨⟩, by rintro _ ⟨⟩⟩
  · exact ⟨rfl, rfl, rfl, rfl, by rintro _ ⟨⟩, by rintro _ ⟨⟩⟩
  · rename_i r hr
    refine ⟨rfl, rfl, rfl, rfl, fun _ h => ?_, fun _ h => ?_⟩
    · dsimp only at h
      split at h
      · cases h
      · cases h
    · dsimp only at h
      split at h
      · cases h
      · cases h

theorem of_payments (h : Stepped coordinator s e s') {key : τ × ν} {r' : PaymentRecord κ}
    (hr' : s'.payments.get key = some r') :
    (∃ c call t tx agent amount, s.calls.get c = some call ∧ call.outcome = .running ∧
      call.tx = some t ∧ s.ledger.transactions.get t = some tx ∧ tx.status = .success ∧
      (call.taskId, call.nodeId) = key ∧ call.request = .lock agent amount ∧
      s.payments.get key = none ∧ s' = s.answered coordinator c call t tx ∧
      r' = ⟨(coordinator, tx.sequence), .locked, amount, none⟩) ∨
    ∃ r, s.payments.get key = some r ∧ r'.balanceId = r.balanceId ∧
      (r' = r ∨ ∃ c call t tx, s.calls.get c = some call ∧ call.tx = some t ∧
        s.ledger.transactions.get t = some tx ∧ tx.status = .success ∧
        (call.taskId, call.nodeId) = key ∧ s' = s.answered coordinator c call t tx ∧
        r'.txHash = some t ∧ (call.request = .release ∧ r'.status = .released ∨
          call.request = .refund ∧ r'.status = .refunded)) := by
  cases h with
  | @answered c call t tx hcl hrng ht htx hsuc =>
    rw [payments_answered] at hr'
    by_cases hkey : key = (call.taskId, call.nodeId)
    · rw [if_pos hkey] at hr'
      cases hreq : call.request with
      | lock agent amount =>
        rw [hreq] at hr'
        dsimp only at hr'
        cases hr : s.payments.get key with
        | some r =>
          rw [hr, some_or] at hr'
          exact .inr ⟨r, rfl, by rw [some.inj hr'], .inl (some.inj hr').symm⟩
        | none =>
          rw [hr, none_or] at hr'
          exact .inl ⟨c, call, t, tx, agent, amount, hcl, hrng, ht, htx, hsuc,
            hkey.symm, hreq, rfl, rfl, (some.inj hr').symm⟩
      | release =>
        rw [hreq] at hr'
        obtain ⟨r, hr, rfl⟩ := map_eq_some_iff.mp hr'
        exact .inr ⟨r, hr, rfl, .inr ⟨c, call, t, tx, hcl, ht, htx, hsuc, hkey.symm, rfl, rfl,
          .inl ⟨hreq, rfl⟩⟩⟩
      | refund =>
        rw [hreq] at hr'
        obtain ⟨r, hr, rfl⟩ := map_eq_some_iff.mp hr'
        exact .inr ⟨r, hr, rfl, .inr ⟨c, call, t, tx, hcl, ht, htx, hsuc, hkey.symm, rfl, rfl,
          .inr ⟨hreq, rfl⟩⟩⟩
    · rw [if_neg hkey] at hr'
      exact .inr ⟨r', hr', rfl, .inl rfl⟩
  | called | submitted | closed | failed | others => exact .inr ⟨r', hr', rfl, .inl rfl⟩

theorem Consistent.claims (h : Consistent coordinator s) {c t : Nat} {call : Call τ ν κ}
    {tx : Transaction κ} (hcl : s.calls.get c = some call) (ht : call.tx = some t)
    (htx : s.ledger.transactions.get t = some tx) (hsuc : tx.status = .success)
    (hreq : call.request = .release ∨ call.request = .refund) :
    Claimed coordinator s (call.taskId, call.nodeId) call.request t := by
  obtain ⟨tx', htx', hsrc, hopn⟩ := h.sent c call t hcl ht
  cases htx.symm.trans htx'
  have hclm : ∃ r, call.record = some r ∧ tx.operation = .claimClaimableBalance r.balanceId := by
    unfold Call.operation at hopn
    rcases hreq with hreq | hreq
    · rw [hreq] at hopn
      obtain ⟨r, hr, hop⟩ := map_eq_some_iff.mp hopn
      exact ⟨r, hr, hop.symm⟩
    · rw [hreq] at hopn
      obtain ⟨r, hr, hop⟩ := map_eq_some_iff.mp hopn
      exact ⟨r, hr, hop.symm⟩
  obtain ⟨r, hr, hop⟩ := hclm
  obtain ⟨r', hr', hbal⟩ := h.read c call r hcl hr
  obtain ⟨source, sequence, operation, status⟩ := tx
  dsimp only at hsrc hop hsuc
  refine ⟨c, call, r', sequence, hcl, rfl, rfl, ht, hr', ?_⟩
  rw [htx, hsrc, hop, hsuc, hbal]

theorem Consistent.funds (h : Consistent coordinator s) {c t : Nat} {call : Call τ ν κ}
    {tx : Transaction κ} (hcl : s.calls.get c = some call) (ht : call.tx = some t)
    (htx : s.ledger.transactions.get t = some tx) (hsuc : tx.status = .success) {agent : κ}
    {amount : Nat} (hreq : call.request = .lock agent amount) :
    s.ledger.transactions.get t = some ⟨coordinator, tx.sequence,
      .createClaimableBalance amount [agent, coordinator], .success⟩ := by
  obtain ⟨tx', htx', hsrc, hopn⟩ := h.sent c call t hcl ht
  cases htx.symm.trans htx'
  unfold Call.operation at hopn
  rw [hreq] at hopn
  have hop := some.inj hopn
  obtain ⟨source, sequence, operation, status⟩ := tx
  dsimp only at hsrc hop hsuc
  rw [htx, hsrc, ← hop, hsuc]

section

omit [DecidableEq κ]

theorem result_locked {call : Call τ ν κ} {t : Nat} {tx : Transaction κ} {balanceId : BalanceId κ}
    (h : s.result coordinator call t tx = .locked balanceId) :
    ∃ agent amount, call.request = .lock agent amount ∧
      s.payments.get (call.taskId, call.nodeId) = none ∧ balanceId = (coordinator, tx.sequence) := by
  unfold Books.result at h
  split at h
  · rename_i agent amount hreq
    split at h
    · cases h
    · rename_i hfr
      exact ⟨agent, amount, hreq, has_eq_false.mp (Bool.eq_false_iff.mpr hfr),
        (Outcome.locked.inj h).symm⟩
  · cases h
  · cases h

theorem result_settled {call : Call τ ν κ} {t t' : Nat} {tx : Transaction κ}
    (h : s.result coordinator call t tx = .settled t') :
    t = t' ∧ (call.request = .release ∨ call.request = .refund) := by
  unfold Books.result at h
  split at h
  · split at h
    · cases h
    · cases h
  · rename_i hreq
    exact ⟨Outcome.settled.inj h, .inl hreq⟩
  · rename_i hreq
    exact ⟨Outcome.settled.inj h, .inr hreq⟩

end

/-- **Every step keeps calls, records and ledger consistent.** -/
theorem Consistent.step (h : Consistent coordinator s) (hs : Stepped coordinator s e s') :
    Consistent coordinator s' := by
  have hg := grows_step hs
  refine ⟨sound_step h.ledger hs, ?_, ?_, ?_, ?_, ?_, ?_⟩
  · -- sent
    intro c call' t hcl' ht
    have hkpt : ∀ call, s.calls.get c = some call → call.tx = some t →
        ∃ tx, s'.ledger.transactions.get t = some tx ∧ tx.source = coordinator ∧
          call.operation coordinator = some tx.operation := by
      intro call hcl ht
      obtain ⟨tx, htx, hsrc, hopn⟩ := h.sent c call t hcl ht
      obtain ⟨tx', htx', hsrc', _, hop, _⟩ := hg.transactions t tx htx
      exact ⟨tx', htx', hsrc'.trans hsrc, hop ▸ hopn⟩
    cases origin_step hs hcl' with
    | same hcl => exact hkpt call' hcl ht
    | begun =>
      rw [(begin_spec _ _ _ _).2.2.1] at ht
      cases ht
    | submitted hcl hrng hno hopn he hldg =>
      cases ht
      rw [hldg]
      exact ⟨_, Register.get_add_self, rfl, hopn⟩
    | @answered call _ _ hcl | @failed call hcl => exact hkpt call hcl ht
  · -- own
    intro c call₁ c' call₂ t hcl₁ ht₁ hcl₂ ht₂
    have hold : ∀ k call', s'.calls.get k = some call' → call'.tx = some t →
        (∃ call, s.calls.get k = some call ∧ call.tx = some t) ∨
          t = s.ledger.transactions.next ∧ e = .submit k := by
      intro k call' hcl' ht
      cases origin_step hs hcl' with
      | same hcl => exact .inl ⟨call', hcl, ht⟩
      | begun =>
        rw [(begin_spec _ _ _ _).2.2.1] at ht
        cases ht
      | submitted hcl hrng hno hopn he =>
        exact .inr ⟨(some.inj ht).symm, he⟩
      | answered hcl | failed hcl => exact .inl ⟨_, hcl, ht⟩
    -- the new transaction is nobody else's
    have hfr : ∀ k call, s.calls.get k = some call → call.tx = some t → t ≠ s.ledger.transactions.next := by
      intro k call hcl ht
      obtain ⟨tx, htx, _⟩ := h.sent k call t hcl ht
      exact Nat.ne_of_lt (Register.lt_next htx)
    rcases hold c call₁ hcl₁ ht₁ with ⟨call, hcl, ht⟩ | ⟨hnx, he⟩
    · rcases hold c' call₂ hcl₂ ht₂ with ⟨call', hcl', ht'⟩ | ⟨hnx, _⟩
      · exact h.own c call c' call' t hcl ht hcl' ht'
      · exact absurd hnx (hfr c call hcl ht)
    · rcases hold c' call₂ hcl₂ ht₂ with ⟨call', hcl', ht'⟩ | ⟨_, he'⟩
      · exact absurd hnx (hfr c' call' hcl' ht')
      · rw [he] at he'
        exact Event.submit.inj he'
  · -- read
    intro c call' r hcl' hrec
    have hkpt : ∀ call, s.calls.get c = some call → call.record = some r →
        ∃ r', s'.payments.get (call.taskId, call.nodeId) = some r' ∧ r'.balanceId = r.balanceId := by
      intro call hcl hrec
      obtain ⟨r₁, hr₁, hbal⟩ := h.read c call r hcl hrec
      obtain ⟨r₂, hr₂, hbal', _⟩ := hg.payments _ r₁ hr₁
      exact ⟨r₂, hr₂, hbal'.trans hbal⟩
    cases origin_step hs hcl' with
    | same hcl => exact hkpt call' hcl hrec
    | @begun taskId nodeId request hc =>
      obtain ⟨htk, hne, _, hrd, _, _⟩ := begin_spec s.payments taskId nodeId request
      rw [hrd] at hrec
      obtain ⟨r', hr', hbal, _⟩ := hg.payments _ r hrec
      rw [htk, hne]
      exact ⟨r', hr', hbal⟩
    | @submitted call _ _ hcl | @answered call _ _ hcl | @failed call hcl => exact hkpt call hcl hrec
  · -- locked
    intro c call' balanceId hcl' hout
    cases origin_step hs hcl' with
    | same hcl => exact (h.locked c call' balanceId hcl hout).grows hg (.refl call')
    | begun => exact absurd hout ((begin_spec _ _ _ _).2.2.2.2.1 balanceId)
    | submitted hcl hrng =>
      rw [hrng] at hout
      cases hout
    | failed => cases hout
    | @answered call t tx hcl hrng ht htx hsuc he hs' =>
      obtain ⟨agent, amount, hreq, hno, rfl⟩ := result_locked hout
      refine ⟨⟨agent, amount, t, hreq, ht, ?_, ⟨_, .locked, amount, none⟩, ?_, rfl, rfl⟩, rfl⟩
      · rw [hs', ledger_answered]
        exact h.funds hcl ht htx hsuc hreq
      · rw [hs', payments_answered, if_pos rfl, hreq, hno]
        rfl
  · -- settled
    intro c call' t hcl' hout
    cases origin_step hs hcl' with
    | same hcl =>
      obtain ⟨hreq, hcmd⟩ := h.settled c call' t hcl hout
      exact ⟨hreq, hcmd.grows hg⟩
    | @begun taskId nodeId request hc =>
      obtain ⟨htk, hne, _, _, _, hret⟩ := begin_spec s.payments taskId nodeId request
      obtain ⟨hreq, r, hr, hrel, hsh⟩ := hret t hout
      rw [htk, hne, hreq]
      exact ⟨.inl rfl, ((h.recorded _ r hr).1 t hrel hsh).grows hg⟩
    | submitted hcl hrng =>
      rw [hrng] at hout
      cases hout
    | failed => cases hout
    | @answered call t' tx hcl hrng ht htx hsuc he hs' =>
      obtain ⟨rfl, hreq⟩ := result_settled hout
      exact ⟨hreq, (h.claims hcl ht htx hsuc hreq).grows hg⟩
  · -- recorded
    intro key r' hr'
    rcases of_payments hs hr' with
      ⟨c, call, t, tx, agent, amount, hcl, hrng, ht, htx, hsuc, hkey, hreq, hno, hs',
        rfl⟩ | ⟨r, hr, hbal, hwrt⟩
    · refine ⟨nofun, c, { call with outcome := .locked (coordinator, tx.sequence) }, ?_, hkey, rfl⟩
      rw [hs', calls_answered]
      unfold Books.conclude
      rw [get_setCall, hcl, map_some, if_pos rfl]
      unfold Books.result
      rw [hreq]
      dsimp only
      rw [hkey, if_neg (by rw [has_eq_false.mpr hno]; exact Bool.false_ne_true)]
    · obtain ⟨hcls, c, call, hcl, hkey, hout⟩ := h.recorded key r hr
      obtain ⟨call', hcl', hltr⟩ := hg.calls c call hcl
      refine ⟨fun t hrel hsh => ?_, c, call', hcl', ?_, ?_⟩
      · rcases hwrt with rfl |
          ⟨c₁, call₁, t₁, tx₁, hcl₁, ht₁, htx₁, hsuc, hkey₁, _, hsh₁, hst⟩
        · exact (hcls t hrel hsh).grows hg
        · cases hsh₁.symm.trans hsh
          rcases hst with ⟨hreq, _⟩ | ⟨_, hrfd⟩
          · have hcmd := h.claims hcl₁ ht₁ htx₁ hsuc (.inl hreq)
            rw [hreq, hkey₁] at hcmd
            exact hcmd.grows hg
          · rw [hrel] at hrfd
            cases hrfd
      · rw [hltr.taskId, hltr.nodeId, hkey]
      · rw [hltr.outcome (by rw [hout]; exact nofun), hout, hbal]

theorem consistent_reachable {guard : Books τ ν κ → Event τ ν κ → Prop}
    (h : (system coordinator).Reachable guard s) : Consistent coordinator s := by
  refine System.Reachable.invariant ?_ ?_ h
  · intro s ⟨accounts, h0⟩
    rw [h0]
    exact ⟨sound_opening accounts, fun _ _ _ h => (by cases h), fun _ _ _ _ _ h => (by cases h),
      fun _ _ _ h => (by cases h), fun _ _ _ h => (by cases h), fun _ _ _ h => (by cases h),
      fun _ _ h => (by cases h)⟩
  · intro s e s' _ _ hs hst
    exact hs.step (step_stepped hst)

end

/-!
## Who is paid

A balance that `lock` made may be claimed by the agent or by the coordinator, and a claim credits
the account that is the source of the transaction. Both `release` and `refund` are sent by the
coordinator. So a refund does what it says, and a release does the same: the agent gets nothing.
A balance is claimed once, and that is why the two exclude each other.
-/

variable {τ ν κ : Type} [DecidableEq τ] [DecidableEq ν] [DecidableEq κ] {coordinator : κ}
  {s : Books τ ν κ} {l l' : Ledger κ}

/-- **A balance is paid out in full, to the one account that claimed it.** -/
theorem Sound.paid (h : Sound l) {c : Claim κ} (hc : c ∈ l.claimed) (k : κ) :
    l.paid c.balanceId k = if k = c.account then c.amount else 0 := by
  have hoc := h.once
  unfold Ledger.paid
  generalize l.claimed = claims at hc hoc
  induction claims with
  | nil => cases hc
  | cons first rest ih =>
    rw [map_cons, nodup_cons] at hoc
    rcases mem_cons.mp hc with rfl | hrst
    · -- no other claim is one of this balance
      have hno : (rest.filter fun c' =>
          decide (c'.balanceId = c.balanceId ∧ c'.account = k)) = [] := by
        rw [filter_eq_nil_iff]
        intro c' hc' hsm
        rw [decide_eq_true_eq] at hsm
        exact hoc.1 (hsm.1 ▸ List.mem_map_of_mem hc')
      by_cases hk : k = c.account
      · rw [filter_cons_of_pos (by simp [hk]), hno, if_pos hk]
        simp
      · rw [filter_cons_of_neg (by simp [Ne.symm hk]), hno, if_neg hk]
        rfl
    · have hne : first.balanceId ≠ c.balanceId := by
        intro heq
        exact hoc.1 (heq ▸ List.mem_map_of_mem hrst)
      rw [filter_cons_of_neg (by simp [hne])]
      exact ih hrst hoc.2

/-- **Accounts gain by claims only**, and by what they claim, less the fee. -/
theorem close_credits {t : Nat} (h : l.close t = some l') :
    (l'.claimed = l.claimed ∧ ∀ k, l'.balanceOf k ≤ l.balanceOf k) ∨
    ∃ c, l'.claimed = l.claimed ++ [c] ∧
      l'.balanceOf c.account + baseFee = l.balanceOf c.account + c.amount ∧
      ∀ k, k ≠ c.account → l'.balanceOf k = l.balanceOf k := by
  obtain ⟨tx, status, hc⟩ := close_cases h
  have hots : ∀ k, k ≠ tx.source → l'.balanceOf k = l.balanceOf k := by
    intro k hk
    unfold Ledger.balanceOf
    rw [hc.others k hk]
  have hle : ∀ n, l'.balanceOf tx.source + baseFee + n = l.balanceOf tx.source →
      ∀ k, l'.balanceOf k ≤ l.balanceOf k := by
    intro n hn k
    by_cases hk : k = tx.source
    · rw [hk]
      omega
    · exact Nat.le_of_eq (hots k hk)
  cases hc.effect with
  | failed _ hcmd hbal => exact .inl ⟨hcmd, hle 0 hbal⟩
  | created _ _ _ _ hcmd hbal => exact .inl ⟨hcmd, hle _ hbal⟩
  | claimed _ _ _ _ hcmd hbal => exact .inr ⟨_, hcmd, hbal, hots⟩

/-- **Once a release or refund has returned, the coordinator has the amount, and the agent nothing.** -/
theorem Consistent.paid (h : Consistent coordinator s) {c c' : Nat} {call call' : Call τ ν κ}
    {agent : κ} {amount t : Nat} {balanceId : BalanceId κ} (hcl : s.calls.get c = some call)
    (hlk : call.request = .lock agent amount) (hlck : call.outcome = .locked balanceId)
    (hcl' : s.calls.get c' = some call') (htk : call'.taskId = call.taskId)
    (hno : call'.nodeId = call.nodeId) (hstl : call'.outcome = .settled t) :
    0 < amount ∧ s.ledger.paid balanceId coordinator = amount ∧ s.ledger.paid balanceId agent = 0 := by
  obtain ⟨⟨agent', amount', t', hreq, _, hfun, r, hr, hbal, _⟩, hsrc⟩ :=
    h.locked c call balanceId hcl hlck
  rw [hlk] at hreq
  obtain ⟨rfl, rfl⟩ := Request.lock.inj hreq
  obtain ⟨_, _, r', sequence, _, _, _, _, hr', hclm⟩ := (h.settled c' call' t hcl' hstl).2
  rw [htk, hno, hr] at hr'
  cases hr'
  -- the claim is the coordinator's, and of the amount that was locked
  obtain ⟨claim, hmem, hid, hacc⟩ := h.ledger.credited t coordinator sequence r.balanceId hclm
  rw [hbal] at hid
  obtain ⟨_, claimants, ⟨t'', hcrt⟩, _⟩ := h.ledger.claimed claim hmem
  rw [hid, hsrc] at hcrt
  have ht : t'' = t' := h.ledger.single t'' _ t' _ hcrt nofun hfun
    nofun rfl rfl
  rw [ht, hfun] at hcrt
  have hopn := congrArg Transaction.operation (Option.some.inj hcrt)
  obtain ⟨hamt, rfl⟩ := Operation.createClaimableBalance.inj hopn
  obtain ⟨hpos, hnd⟩ := h.ledger.wellFormed balanceId amount [agent, coordinator]
    ⟨t', by rw [hfun, hsrc]⟩
  have hne : agent ≠ coordinator := by
    intro heq
    rw [heq] at hnd
    simp at hnd
  have hpd := h.ledger.paid hmem
  rw [hid, hacc, ← hamt] at hpd
  refine ⟨hpos, ?_, ?_⟩
  · rw [hpd, if_pos rfl]
  · rw [hpd, if_neg hne]

theorem Consistent.exclusive (h : Consistent coordinator s) {c c' : Nat} {call call' : Call τ ν κ}
    {t t' : Nat} (hcl : s.calls.get c = some call) (hrel : call.outcome = .settled t)
    (hcl' : s.calls.get c' = some call') (hrfd : call'.outcome = .settled t')
    (htk : call'.taskId = call.taskId) (hno : call'.nodeId = call.nodeId) :
    call'.request = call.request := by
  obtain ⟨c₁, call₁, r, q, hcl₁, _, hreq, ht, hr, htx⟩ := (h.settled c call t hcl hrel).2
  obtain ⟨c₂, call₂, r', q', hcl₂, _, hreq', ht', hr', htx'⟩ :=
    (h.settled c' call' t' hcl' hrfd).2
  rw [htk, hno, hr] at hr'
  cases hr'
  -- one transaction claimed the balance, and it is of one call
  have hsm : t = t' := h.ledger.lone t _ t' _ r.balanceId htx rfl htx' rfl rfl rfl
  rw [← hsm] at ht'
  have hc := h.own c₁ call₁ c₂ call₂ t hcl₁ ht hcl₂ ht'
  rw [hc, hcl₂] at hcl₁
  cases hcl₁
  rw [← hreq', hreq]

/--
**A release pays the coordinator.** In every run of calls, of the network and of others: when a
payment was locked and a release of it has returned, it is not so that the agent was paid the
amount and the coordinator nothing, but the reverse; when a refund has returned, the coordinator has
the amount back; the two do not both return; and what a balance paid to an account is what the
account gained.
-/
theorem release_pays_coordinator (coordinator : κ) {s : Books τ ν κ}
    (h : (system coordinator).Reachable (fun _ _ => True) s) :
    (∀ c call agent amount balanceId c' call' t, s.calls.get c = some call →
      call.request = .lock agent amount → call.outcome = .locked balanceId →
      s.calls.get c' = some call' → call'.taskId = call.taskId → call'.nodeId = call.nodeId →
      call'.outcome = .settled t →
      (call'.request = .release →
        ¬(s.ledger.paid balanceId agent = amount ∧ s.ledger.paid balanceId coordinator = 0) ∧
          s.ledger.paid balanceId agent = 0 ∧ s.ledger.paid balanceId coordinator = amount) ∧
      (call'.request = .refund → s.ledger.paid balanceId coordinator = amount)) ∧
    (∀ c call t c' call' t', s.calls.get c = some call → call.request = .release →
      call.outcome = .settled t → s.calls.get c' = some call' → call'.request = .refund →
      call'.outcome = .settled t' → ¬(call'.taskId = call.taskId ∧ call'.nodeId = call.nodeId)) ∧
    ∀ t l', s.ledger.close t = some l' →
      (l'.claimed = s.ledger.claimed ∧ ∀ k, l'.balanceOf k ≤ s.ledger.balanceOf k) ∨
      ∃ c, l'.claimed = s.ledger.claimed ++ [c] ∧
        l'.balanceOf c.account + baseFee = s.ledger.balanceOf c.account + c.amount ∧
        ∀ k, k ≠ c.account → l'.balanceOf k = s.ledger.balanceOf k := by
  have hcst := consistent_reachable h
  refine ⟨?_, ?_, fun t l' hclo => close_credits hclo⟩
  · intro c call agent amount balanceId c' call' t hcl hlk hlck hcl' htk hno hstl
    obtain ⟨hpos, hco, hagt⟩ :=
      hcst.paid hcl hlk hlck hcl' htk hno hstl
    refine ⟨fun _ => ⟨fun hpd => ?_, hagt, hco⟩, fun _ => hco⟩
    omega
  · intro c call t c' call' t' hcl hrls hrel hcl' hrfd href ⟨htk, hno⟩
    have hsm := hcst.exclusive hcl hrel hcl' href htk hno
    rw [hrls, hrfd] at hsm
    cases hsm

/-! ## Examples -/

namespace Sample

/-- The coordinator is account 1, the agent account 2. -/
def accounts : Storage Nat Account :=
  set (set ∅ 1 ⟨10000, 0⟩) 2 ⟨300, 0⟩

/-- 500 stroops are locked for the agent, and released. -/
def released : List (Event Nat Nat Nat) :=
  [.call 7 1 (.lock 2 500), .submit 0, .close 0, .answer 0, .call 7 1 .release, .submit 1, .close 1,
    .answer 1]

end Sample

/-- A payment is locked, and released. -/
theorem release_pays_coordinator_once : ∃ s : Books Nat Nat Nat,
    (s.calls.get 0).map Call.outcome = some (.locked (1, 1)) ∧
    (s.calls.get 1).map Call.outcome = some (.settled 1) ∧
    (∀ c call agent amount balanceId c' call' t, s.calls.get c = some call →
      call.request = .lock agent amount → call.outcome = .locked balanceId →
      s.calls.get c' = some call' → call'.taskId = call.taskId → call'.nodeId = call.nodeId →
      call'.outcome = .settled t →
      (call'.request = .release →
        ¬(s.ledger.paid balanceId agent = amount ∧ s.ledger.paid balanceId 1 = 0) ∧
          s.ledger.paid balanceId agent = 0 ∧ s.ledger.paid balanceId 1 = amount) ∧
      (call'.request = .refund → s.ledger.paid balanceId 1 = amount)) ∧
    (∀ c call t c' call' t', s.calls.get c = some call → call.request = .release →
      call.outcome = .settled t → s.calls.get c' = some call' → call'.request = .refund →
      call'.outcome = .settled t' → ¬(call'.taskId = call.taskId ∧ call'.nodeId = call.nodeId)) ∧
    ∀ t l', s.ledger.close t = some l' →
      (l'.claimed = s.ledger.claimed ∧ ∀ k, l'.balanceOf k ≤ s.ledger.balanceOf k) ∨
      ∃ c, l'.claimed = s.ledger.claimed ++ [c] ∧
        l'.balanceOf c.account + baseFee = s.ledger.balanceOf c.account + c.amount ∧
        ∀ k, k ≠ c.account → l'.balanceOf k = s.ledger.balanceOf k := by
  have hpl : ((system 1).play (fun _ _ => True) Sample.released
      (⟨.opening Sample.accounts, ∅, .empty⟩ : Books Nat Nat Nat)).any (fun s => decide (
        (s.calls.get 0).map Call.outcome = some (.locked (1, 1)) ∧
        (s.calls.get 1).map Call.outcome = some (.settled 1))) = true := by decide
  obtain ⟨s, hs, hlck, hrel⟩ := exists_reachable (S := system 1) ⟨_, rfl⟩ hpl
  exact ⟨s, hlck, hrel, release_pays_coordinator 1 hs⟩

/-- After the release the agent has what it had, and the coordinator is short of two fees only. -/
theorem release_leaves_agent : ∃ s : Books Nat Nat Nat, (system 1).Reachable (fun _ _ => True) s ∧
    (s.calls.get 0).map Call.request = some (.lock 2 500) ∧
    (s.calls.get 0).map Call.outcome = some (.locked (1, 1)) ∧
    (s.calls.get 1).map Call.request = some .release ∧
    (s.calls.get 1).map Call.outcome = some (.settled 1) ∧
    s.ledger.paid (1, 1) 2 = 0 ∧ s.ledger.paid (1, 1) 1 = 500 ∧
    s.ledger.balanceOf 2 = 300 ∧ s.ledger.balanceOf 1 = 9800 := by
  have hpl : ((system 1).play (fun _ _ => True) Sample.released
      (⟨.opening Sample.accounts, ∅, .empty⟩ : Books Nat Nat Nat)).any (fun s => decide (
        (s.calls.get 0).map Call.request = some (.lock 2 500) ∧
        (s.calls.get 0).map Call.outcome = some (.locked (1, 1)) ∧
        (s.calls.get 1).map Call.request = some .release ∧
        (s.calls.get 1).map Call.outcome = some (.settled 1) ∧
        s.ledger.paid (1, 1) 2 = 0 ∧ s.ledger.paid (1, 1) 1 = 500 ∧
        s.ledger.balanceOf 2 = 300 ∧ s.ledger.balanceOf 1 = 9800)) = true := by decide
  exact exists_reachable (S := system 1) ⟨_, rfl⟩ hpl

end AiNet.Payment
