import AiNet.ErrorResolver.Contract

/-!
# What the multisig of the error resolver guarantees

Four things are followed along a run: the council of signers (`Council`), the list of callers (`Allowlist`),
the counters (`Counted`) and the pending operations with what became of the others (`Scheduled`). The council
needs no condition. The list can outgrow its bound through an operation; approvals stay when their signer is
removed; and the nonce of the ids is a counter that a caller can clear.
-/

namespace AiNet.ErrorResolver

open Core List Storage System Nat

variable {Addr Sym : Type} [DecidableEq Addr] [DecidableEq Sym]

/-- The record of a run. -/
abbrev Log (Addr Sym : Type) := List (World Addr Sym × Event Addr Sym)

variable (env : Env Addr Sym)

/-! ## What is asked of it -/

/-- The calls that a member has signed for an operation. -/
def HasApproved (log : Log Addr Sym) (member : Addr) (opId : BytesN 32) : Prop :=
  ∃ entry ∈ log, ∃ signed, signed member = true ∧
    (entry.2 = .invoke signed (.approveAllowlistOp member opId) ∨
      ∃ opType target, entry.2 = .invoke signed (.proposeAllowlistOp member opType target) ∧
        nextOpId env entry.1 = opId)

def Event.executes : Event Addr Sym → Option (BytesN 32)
  | .invoke _ (.executeAllowlistOp _ opId) => some opId
  | _ => none

/-- The operations that were executed, the last one at the end. -/
def executed (log : Log Addr Sym) : List (BytesN 32) := log.filterMap fun entry => entry.2.executes

/-- What an event makes of the number of errors recorded since the last clear. -/
def Event.recorded (agentId : Sym) (n : Nat) : Event Addr Sym → Nat
  | .invoke _ (.recordError _ agentId') => if agentId' = agentId then n + 1 else n
  | .invoke _ (.clearAgentErrors _ agentId') => if agentId' = agentId then 0 else n
  | _ => n

def recorded (agentId : Sym) (log : Log Addr Sym) : Nat :=
  log.foldl (fun n entry => entry.2.recorded agentId n) 0

/-- An execution was approved by a quorum of the present signers, and its timelock had passed. -/
def Authorised (before : Log Addr Sym) (w : World Addr Sym) (opId : BytesN 32) : Prop :=
  ∃ op ∈ w.pendingOps, op.opId = opId ∧ op.createdAt + defaultTimelock ≤ w.now ∧
    ∃ approvers : List Addr, approvers.Nodup ∧ w.quorum ≤ approvers.length ∧
      ∀ a ∈ approvers, a ∈ w.signers ∧ HasApproved env before a opId

structure Real (w : World Addr Sym) (log : Log Addr Sym) : Prop where
  executions : ∀ before entry after opId, log = before ++ entry :: after →
    entry.2.executes = some opId → Authorised env before entry.1 opId
  named : (w.pendingOps.map PendingOp.opId).Nodup
  once : (executed log).Nodup
  quorum : w.admin.isSome = true → 1 ≤ w.quorum ∧ w.quorum ≤ w.signers.length ∧ w.signers.Nodup
  allowlist : w.authorizedCallers.Nodup ∧ w.authorizedCallers.length ≤ maxAuthorizedCallers
  counters : ∀ agentId, agentId ≠ env.symbols.opNonce → getAgentErrorCount w agentId = recorded agentId log

/-! ## The condition -/

/--
An operation is executed while all who approved it are signers, and adds a caller only where there is room.
The nonce is not cleared, nor used up, in a ledger in which an operation was proposed. No counter is at its
limit when an error is recorded.
-/
def Safe (w : World Addr Sym) : Event Addr Sym → Prop
  | .invoke _ (.executeAllowlistOp _ opId) => ∀ op ∈ w.pendingOps, op.opId = opId →
      (∀ a ∈ op.approvals, a ∈ w.signers) ∧ (op.opType = env.symbols.add → op.target ∈ w.authorizedCallers ∨
          w.authorizedCallers.length < maxAuthorizedCallers)
  | .invoke _ (.proposeAllowlistOp _ _ _) => getAgentErrorCount w env.symbols.opNonce < u32Max ∨
      ∀ op ∈ w.pendingOps, op.createdAt ≠ w.now
  | .invoke _ (.clearAgentErrors _ agentId) => agentId = env.symbols.opNonce →
      ∀ op ∈ w.pendingOps, op.createdAt ≠ w.now
  | .invoke _ (.recordError _ agentId) => agentId ≠ env.symbols.opNonce →
      getAgentErrorCount w agentId < u32Max
  | _ => True

/-- The hash binds on the texts of twelve bytes that ids are made from. -/
def Binds : Prop := ∀ text text' : List UInt8, text.length = 12 → text'.length = 12 →
  env.sha256 text = env.sha256 text' → text = text'

variable {env} {w w' : World Addr Sym} {e : Event Addr Sym} {log : Log Addr Sym}

/-! ## The council -/

structure Council (w : World Addr Sym) : Prop where
  signers : w.signers.Nodup
  quorum : w.admin.isSome = true → 1 ≤ w.quorum ∧ w.quorum ≤ w.signers.length

omit [DecidableEq Addr] [DecidableEq Sym] in
theorem Council.congr (h : Council w)
    (hsm : w'.admin = w.admin ∧ w'.quorum = w.quorum ∧ w'.signers = w.signers) : Council w' := by
  obtain ⟨hadm, hqrm, hsg⟩ := hsm
  refine ⟨?_, ?_⟩
  · rw [hsg]
    exact h.signers
  · rw [hadm, hqrm, hsg]
    exact h.quorum

variable {signed : Addr → Bool} {op : Op Addr Sym}

theorem Council.exec (h : Council w) (hec : exec env signed w op = .ok w') : Council w' := by
  cases op with
  | initializeContract admin =>
    obtain ⟨-, rfl⟩ := initializeContract_ok hec
    exact ⟨nodup_singleton admin, fun _ => ⟨le_refl 1, le_refl 1⟩⟩
  | setQuorum =>
    obtain ⟨-, hpos, hbd, hsm⟩ := setQuorum_ok hec
    rw [hsm]
    exact ⟨h.signers, fun _ => ⟨hpos, hbd⟩⟩
  | addSigner proposer signer =>
    obtain ⟨-, hsm⟩ := addSigner_ok hec
    rw [hsm]
    by_cases hmem : signer ∈ w.signers
    · refine h.congr ⟨rfl, rfl, if_pos hmem⟩
    · have had : (if signer ∈ w.signers then w.signers else w.signers ++ [signer]) =
          w.signers ++ [signer] := if_neg hmem
      refine ⟨?_, fun hadm => ?_⟩
      · dsimp only
        rw [had, nodup_append]
        refine ⟨h.signers, nodup_singleton signer, fun a ha b hb => ?_⟩
        rw [mem_singleton.mp hb]
        exact fun heq => hmem (heq ▸ ha)
      · dsimp only at hadm ⊢
        have hbo := h.quorum hadm
        rw [had, length_append]
        omega
  | removeSigner =>
    obtain ⟨hbd, hsm⟩ := removeSigner_ok hec
    rw [hsm]
    exact ⟨h.signers.filter _, fun hadm => ⟨(h.quorum hadm).1, hbd⟩⟩
  | _ => exact h.congr ((exec_kept hec).council rfl)

/-! ## The list of callers -/

structure Allowlist (w : World Addr Sym) : Prop where
  nodup : w.authorizedCallers.Nodup
  bounded : w.authorizedCallers.length ≤ maxAuthorizedCallers

section

omit [DecidableEq Addr] [DecidableEq Sym]

theorem Allowlist.congr (h : Allowlist w) (hsm : w'.authorizedCallers = w.authorizedCallers) :
    Allowlist w' := by
  refine ⟨?_, ?_⟩
  · rw [hsm]
    exact h.nodup
  · rw [hsm]
    exact h.bounded

theorem Allowlist.added (h : Allowlist w) {caller : Addr} (hnew : caller ∉ w.authorizedCallers)
    (hro : w.authorizedCallers.length < maxAuthorizedCallers)
    (had : w'.authorizedCallers = w.authorizedCallers ++ [caller]) : Allowlist w' := by
  refine ⟨?_, ?_⟩
  · rw [had, nodup_append]
    refine ⟨h.nodup, nodup_singleton caller, fun a ha b hb => ?_⟩
    rw [mem_singleton.mp hb]
    exact fun heq => hnew (heq ▸ ha)
  · rw [had, length_append, length_singleton]
    exact hro

end

omit [DecidableEq Sym] in
theorem Allowlist.removed (h : Allowlist w) {caller : Addr}
    (hrmv : w'.authorizedCallers = w.authorizedCallers.filter fun c => decide (c ≠ caller)) :
    Allowlist w' := by
  refine ⟨?_, ?_⟩
  · rw [hrmv]
    exact h.nodup.filter _
  · rw [hrmv]
    exact le_trans (length_filter_le _ _) h.bounded

theorem Allowlist.exec (h : Allowlist w) (hsf : Safe env w (.invoke signed op))
    (hec : exec env signed w op = .ok w') : Allowlist w' := by
  cases op with
  | initializeContract =>
    obtain ⟨-, rfl⟩ := initializeContract_ok hec
    exact ⟨nodup_nil, zero_le _⟩
  | executeAllowlistOp =>
    obtain ⟨-, op, hop, hid, hsm⟩ := executeAllowlistOp_ok hec
    have hro := (hsf op hop hid).2
    have hcl : w'.authorizedCallers = (applyAllowlistOp env op w).authorizedCallers := by
      rw [hsm]
    rw [applyAllowlistOp] at hcl
    dsimp only at hcl
    by_cases hadd : op.opType = env.symbols.add
    · rw [if_pos hadd] at hcl
      by_cases hmem : op.target ∈ w.authorizedCallers
      · rw [if_pos hmem] at hcl
        exact h.congr hcl
      · rw [if_neg hmem] at hcl
        exact h.added hmem ((hro hadd).resolve_left hmem) hcl
    · rw [if_neg hadd] at hcl
      exact h.removed hcl
  | addAuthorizedCaller =>
    rcases (addAuthorizedCaller_ok hec).2 with hsm | ⟨hnew, hro, had⟩
    · exact h.congr hsm
    · exact h.added hnew hro had
  | removeAuthorizedCaller caller =>
    have hrmv : w'.authorizedCallers = w.authorizedCallers.filter fun c => decide (c ≠ caller) := by
      rw [removeAuthorizedCaller_ok hec]
    exact h.removed hrmv
  | _ => exact h.congr ((exec_kept hec).callers rfl)

/-! ## The counters -/

omit [DecidableEq Addr] in
theorem recorded_snoc (agentId : Sym) (entry : World Addr Sym × Event Addr Sym) :
    recorded agentId (log ++ [entry]) = entry.2.recorded agentId (recorded agentId log) := by
  unfold recorded
  rw [foldl_append]
  rfl

structure Counted (env : Env Addr Sym) (w : World Addr Sym) (log : Log Addr Sym) : Prop where
  counters : ∀ agentId, agentId ≠ env.symbols.opNonce → getAgentErrorCount w agentId = recorded agentId log
  bounded : ∀ agentId, getAgentErrorCount w agentId ≤ u32Max

section

omit [DecidableEq Addr]

theorem getAgentErrorCount_set {agentId agentId' : Sym} {n : Nat}
    (h : w'.agentErrorCount = w.agentErrorCount.set agentId' n) :
    getAgentErrorCount w' agentId = if agentId = agentId' then n else getAgentErrorCount w agentId := by
  rw [getAgentErrorCount, h, get_set]
  by_cases hid : agentId = agentId'
  · rw [if_pos hid, if_pos hid]
    rfl
  · rw [if_neg hid, if_neg hid]
    rfl

theorem getAgentErrorCount_remove {agentId agentId' : Sym}
    (h : w'.agentErrorCount = w.agentErrorCount.remove agentId') :
    getAgentErrorCount w' agentId = if agentId = agentId' then 0 else getAgentErrorCount w agentId := by
  rw [getAgentErrorCount, h, get_remove]
  by_cases hid : agentId = agentId'
  · rw [if_pos hid, if_pos hid]
    rfl
  · rw [if_neg hid, if_neg hid]
    rfl

end

omit [DecidableEq Addr] [DecidableEq Sym] in
theorem satAdd32_le (n m : Nat) : satAdd32 n m ≤ u32Max := min_le_right _ _

omit [DecidableEq Addr] in
theorem Counted.congr (h : Counted env w log) (hsm : w'.agentErrorCount = w.agentErrorCount)
    (he : ∀ agentId n, e.recorded agentId n = n) : Counted env w' (log ++ [(w, e)]) := by
  have hcnt : ∀ agentId, getAgentErrorCount w' agentId = getAgentErrorCount w agentId := by
    intro agentId
    rw [getAgentErrorCount, hsm]
    rfl
  refine ⟨fun agentId hid => ?_, fun agentId => ?_⟩
  · rw [hcnt, h.counters agentId hid, recorded_snoc, he]
  · rw [hcnt]
    exact h.bounded agentId

theorem Counted.exec (h : Counted env w log) (hsf : Safe env w (.invoke signed op))
    (hec : exec env signed w op = .ok w') :
    Counted env w' (log ++ [(w, .invoke signed op)]) := by
  cases op with
  | proposeAllowlistOp =>
    obtain ⟨opId, hok⟩ := bind_snd_eq_ok.mp hec
    have hset : w'.agentErrorCount = w.agentErrorCount.set env.symbols.opNonce
        (satAdd32 (getAgentErrorCount w env.symbols.opNonce) 1) := by
      rw [(proposeAllowlistOp_ok hok).2.2.2.2]
    refine ⟨fun agentId hid => ?_, fun agentId => ?_⟩
    · rw [getAgentErrorCount_set hset, if_neg hid, h.counters agentId hid, recorded_snoc]
      rfl
    · rw [getAgentErrorCount_set hset]
      split
      · exact satAdd32_le _ _
      · exact h.bounded agentId
  | recordError caller agentId' =>
    obtain ⟨newCount, hok⟩ := bind_snd_eq_ok.mp hec
    obtain ⟨rfl, hsm⟩ := recordError_ok hok
    have hset : w'.agentErrorCount = w.agentErrorCount.set agentId'
        (satAdd32 (getAgentErrorCount w agentId') 1) := by
      rw [hsm]
    refine ⟨fun agentId hid => ?_, fun agentId => ?_⟩
    · rw [getAgentErrorCount_set hset, recorded_snoc]
      show _ = if agentId' = agentId then _ else _
      by_cases heq : agentId = agentId'
      · have hro := hsf (heq ▸ hid)
        rw [if_pos heq, if_pos heq.symm, ← heq, ← h.counters agentId hid]
        rw [← heq] at hro
        exact satAdd32_of_le hro
      · rw [if_neg heq, if_neg fun h' => heq h'.symm, h.counters agentId hid]
    · rw [getAgentErrorCount_set hset]
      split
      · exact satAdd32_le _ _
      · exact h.bounded agentId
  | clearAgentErrors caller agentId' =>
    have hrmv : w'.agentErrorCount = w.agentErrorCount.remove agentId' := by
      rw [clearAgentErrors_ok hec]
    refine ⟨fun agentId hid => ?_, fun agentId => ?_⟩
    · rw [getAgentErrorCount_remove hrmv, recorded_snoc]
      show _ = if agentId' = agentId then _ else _
      by_cases heq : agentId = agentId'
      · rw [if_pos heq, if_pos heq.symm]
      · rw [if_neg heq, if_neg fun h' => heq h'.symm, h.counters agentId hid]
    · rw [getAgentErrorCount_remove hrmv]
      split
      · exact zero_le _
      · exact h.bounded agentId
  | _ => exact h.congr ((exec_kept hec).counters rfl) fun _ _ => rfl

/-! ## The operations -/

def opIdOf (env : Env Addr Sym) (nonce time : Nat) : BytesN 32 :=
  env.sha256 (toBeBytes 4 nonce ++ toBeBytes 8 time)

omit [DecidableEq Addr] [DecidableEq Sym] in
theorem opIdOf_injective (hbds : Binds env) {n n' t t' : Nat} (hn : n ≤ u32Max) (hn' : n' ≤ u32Max)
    (ht : t ≤ u64Max) (ht' : t' ≤ u64Max) (h : opIdOf env n t = opIdOf env n' t') : n = n' ∧ t = t' := by
  have hlen : ∀ n t, (toBeBytes 4 n ++ toBeBytes 8 t).length = 12 := by
    intro n t
    rw [length_append, length_toBeBytes, length_toBeBytes]
  have htx := hbds _ _ (hlen n t) (hlen n' t') h
  have hsm : (toBeBytes 4 n).length = (toBeBytes 4 n').length := by
    rw [length_toBeBytes, length_toBeBytes]
  obtain ⟨hncc, htm⟩ := append_inj htx hsm
  have h32 : u32Max < 256 ^ 4 := by decide
  have h64 : u64Max < 256 ^ 8 := by decide
  exact ⟨toBeBytes_injective (by omega) (by omega) hncc, toBeBytes_injective (by omega) (by omega) htm⟩

/-- What is known of a pending operation. -/
structure Pending (env : Env Addr Sym) (w : World Addr Sym) (log : Log Addr Sym)
    (op : PendingOp Addr Sym) : Prop where
  approvals : op.approvals.Nodup
  signed : ∀ a ∈ op.approvals, HasApproved env log a op.opId
  timelock : op.executeAfter = op.createdAt + defaultTimelock
  proposed : op.createdAt ≤ w.now
  fits : op.executeAfter ≤ u64Max
  /-- Its id was made from a nonce that has been passed since, if it was made in this ledger. -/
  named : ∃ n ≤ u32Max, op.opId = opIdOf env n op.createdAt ∧
    (op.createdAt = w.now → n < getAgentErrorCount w env.symbols.opNonce ∨
      getAgentErrorCount w env.symbols.opNonce = u32Max)

/-- An id that was executed was made in an earlier ledger. -/
def Retired (env : Env Addr Sym) (w : World Addr Sym) (opId : BytesN 32) : Prop :=
  ∃ n t, n ≤ u32Max ∧ t + defaultTimelock ≤ u64Max ∧ opId = opIdOf env n t ∧ t + defaultTimelock ≤ w.now

/-- The ids of the pending and of the executed operations are all different. -/
structure Scheduled (env : Env Addr Sym) (w : World Addr Sym) (log : Log Addr Sym) : Prop where
  pending : ∀ op ∈ w.pendingOps, Pending env w log op
  ids : (w.pendingOps.map PendingOp.opId).Nodup
  once : (executed log).Nodup
  retired : ∀ opId ∈ executed log, Retired env w opId ∧ opId ∉ w.pendingOps.map PendingOp.opId
  executions : ∀ before entry after opId, log = before ++ entry :: after →
    entry.2.executes = some opId → Authorised env before entry.1 opId

variable {opId : BytesN 32}

omit [DecidableEq Addr] in
theorem HasApproved.mono {member : Addr} (h : HasApproved env log member opId)
    (entry : World Addr Sym × Event Addr Sym) : HasApproved env (log ++ [entry]) member opId := by
  obtain ⟨entry', hmem, hsgn⟩ := h
  exact ⟨entry', mem_append_left _ hmem, hsgn⟩

section

omit [DecidableEq Addr] [DecidableEq Sym]

theorem Retired.mono (h : Retired env w opId) (hnow : w.now ≤ w'.now) :
    Retired env w' opId := by
  obtain ⟨n, t, hn, ht, hid, hps⟩ := h
  exact ⟨n, t, hn, ht, hid, le_trans hps hnow⟩

theorem executed_snoc (entry : World Addr Sym × Event Addr Sym) :
    executed (log ++ [entry]) = executed log ++ entry.2.executes.toList := by
  unfold executed
  rw [filterMap_append]
  refine congrArg (executed log ++ ·) ?_
  cases h : entry.2.executes with
  | none => exact filterMap_cons_none h
  | some => exact filterMap_cons_some h

end

section

omit [DecidableEq Addr]

theorem executions_snoc (h : Scheduled env w log)
    (hla : ∀ opId, e.executes = some opId → Authorised env log w opId) :
    ∀ before entry after opId, log ++ [(w, e)] = before ++ entry :: after →
      entry.2.executes = some opId → Authorised env before entry.1 opId := by
  intro before entry after opId heq hexs
  rcases eq_nil_or_concat after with rfl | ⟨after', last, rfl⟩
  · obtain ⟨rfl, hent⟩ := append_inj' heq rfl
    obtain rfl := (List.cons.inj hent).1
    exact hla opId hexs
  · rw [concat_eq_append, ← cons_append, ← append_assoc] at heq
    exact h.executions before entry after' opId (append_inj' heq rfl).1 hexs

theorem Pending.mono {op : PendingOp Addr Sym} (h : Pending env w log op) (hnow : w.now ≤ w'.now)
    (hncc : w'.now = w.now → op.createdAt = w.now →
      getAgentErrorCount w env.symbols.opNonce ≤ getAgentErrorCount w' env.symbols.opNonce ∧
        getAgentErrorCount w' env.symbols.opNonce ≤ u32Max)
    (entry : World Addr Sym × Event Addr Sym) : Pending env w' (log ++ [entry]) op where
  approvals := h.approvals
  signed := fun a ha => (h.signed a ha).mono entry
  timelock := h.timelock
  proposed := le_trans h.proposed hnow
  fits := h.fits
  named := by
    obtain ⟨n, hn, hid, hpsd⟩ := h.named
    refine ⟨n, hn, hid, fun hcrt => ?_⟩
    have hpr := h.proposed
    have hsm : w'.now = w.now := by omega
    obtain ⟨hle, hmax⟩ := hncc hsm (by omega)
    rcases hpsd (by omega) with hlt | hfl
    · exact .inl (by omega)
    · exact .inr (by omega)

theorem Scheduled.kept (h : Scheduled env w log) (hpnd : w'.pendingOps = w.pendingOps)
    (hnow : w.now ≤ w'.now) (he : e.executes = none)
    (hncc : ∀ op ∈ w.pendingOps, w'.now = w.now → op.createdAt = w.now →
      getAgentErrorCount w env.symbols.opNonce ≤ getAgentErrorCount w' env.symbols.opNonce ∧
        getAgentErrorCount w' env.symbols.opNonce ≤ u32Max) :
    Scheduled env w' (log ++ [(w, e)]) := by
  have hexd : executed (log ++ [(w, e)]) = executed log := by
    rw [executed_snoc, he]
    exact append_nil _
  refine ⟨?_, ?_, ?_, ?_, ?_⟩
  · rw [hpnd]
    exact fun op hop => (h.pending op hop).mono hnow (hncc op hop) _
  · rw [hpnd]
    exact h.ids
  · rw [hexd]
    exact h.once
  · rw [hexd, hpnd]
    exact fun opId hid => ⟨(h.retired opId hid).1.mono hnow, (h.retired opId hid).2⟩
  · refine executions_snoc h fun opId hid => ?_
    rw [he] at hid
    cases hid

end

theorem Scheduled.propose {proposer target : Addr} {opType : Sym} (hbds : Binds env)
    (h : Scheduled env w log) (hctd : Counted env w log)
    (hsf : Safe env w (.invoke signed (.proposeAllowlistOp proposer opType target)))
    (hok : proposeAllowlistOp env signed proposer opType target w = .ok (opId, w')) :
    Scheduled env w' (log ++ [(w, .invoke signed (.proposeAllowlistOp proposer opType target))]) := by
  obtain ⟨-, hsgn, hft, -, hsm⟩ := proposeAllowlistOp_ok hok
  have hncMa := hctd.bounded env.symbols.opNonce
  have hnow : w'.now = w.now := by rw [hsm]
  have hpnd : w'.pendingOps = w.pendingOps ++
      [⟨nextOpId env w, opType, target, [proposer], w.now, w.now + defaultTimelock⟩] := by
    rw [hsm]
  have hncc : getAgentErrorCount w' env.symbols.opNonce =
      satAdd32 (getAgentErrorCount w env.symbols.opNonce) 1 := by
    have hset : w'.agentErrorCount = w.agentErrorCount.set env.symbols.opNonce
        (satAdd32 (getAgentErrorCount w env.symbols.opNonce) 1) := by
      rw [hsm]
    rw [getAgentErrorCount_set hset, if_pos rfl]
  have hgrw : getAgentErrorCount w env.symbols.opNonce < getAgentErrorCount w' env.symbols.opNonce ∨
      getAgentErrorCount w' env.symbols.opNonce = u32Max := by
    rw [hncc]
    rcases Nat.lt_or_ge (getAgentErrorCount w env.symbols.opNonce) u32Max with hlt | hge
    · exact .inl (by rw [satAdd32_of_le hlt]; omega)
    · exact .inr (Nat.le_antisymm (satAdd32_le _ _) (Nat.le_min.mpr ⟨by omega, Nat.le_refl _⟩))
  have hmax : getAgentErrorCount w' env.symbols.opNonce ≤ u32Max := by
    rw [hncc]
    exact satAdd32_le _ _
  -- the new id differs from the pending ones, by the nonce or by the time
  have hfr : ∀ op ∈ w.pendingOps, op.opId ≠ nextOpId env w := by
    intro op hop heq
    have hknw := h.pending op hop
    obtain ⟨n, hn, hid, hpsd⟩ := hknw.named
    have htm := hknw.timelock
    have hoi := hknw.fits
    obtain ⟨hso, hsi⟩ := opIdOf_injective hbds hn hncMa (by omega) (by omega)
      (hid.symm.trans heq)
    rcases hpsd hsi with hlt | hfl
    · omega
    · rcases hsf with hro | hno
      · omega
      · exact hno op hop hsi
  have hexd : executed (log ++ [(w, .invoke signed (.proposeAllowlistOp proposer opType target))]) =
      executed log := by
    rw [executed_snoc]
    exact append_nil _
  refine ⟨?_, ?_, ?_, ?_, ?_⟩
  · rw [hpnd]
    intro op hop
    rcases mem_append.mp hop with hold | hnew
    · refine (h.pending op hold).mono (Nat.le_of_eq hnow.symm) (fun _ _ => ⟨?_, hmax⟩) _
      omega
    · rw [mem_singleton.mp hnew]
      refine ⟨nodup_singleton proposer, fun a ha => ?_, rfl, Nat.le_of_eq hnow.symm, hft,
        ⟨_, hncMa, rfl, fun _ => hgrw⟩⟩
      rw [mem_singleton.mp ha]
      exact ⟨_, mem_append_right _ (mem_singleton_self _), signed, hsgn, .inr ⟨opType, target, rfl, rfl⟩⟩
  · rw [hpnd, map_append, nodup_append]
    refine ⟨h.ids, nodup_singleton _, fun id hid id' hid' heq => ?_⟩
    obtain ⟨op, hop, rfl⟩ := List.mem_map.mp hid
    rw [mem_singleton.mp hid'] at heq
    exact hfr op hop heq
  · rw [hexd]
    exact h.once
  · rw [hexd, hpnd]
    intro id hid
    obtain ⟨hre, hnot⟩ := h.retired id hid
    refine ⟨hre.mono (Nat.le_of_eq hnow.symm), fun hmem => ?_⟩
    rw [map_append] at hmem
    rcases mem_append.mp hmem with hold | hnew
    · exact hnot hold
    · obtain ⟨n, t, hn, ht, hif, hps⟩ := hre
      have heq := hif.symm.trans (mem_singleton.mp hnew)
      have hsi := (opIdOf_injective hbds hn hncMa (by omega) (by omega) heq).2
      -- a day has passed since
      have hday : 0 < defaultTimelock := by decide
      omega
  · exact executions_snoc h fun id hid => by cases hid

theorem Scheduled.approve {approver : Addr} (h : Scheduled env w log) (hctd : Counted env w log)
    (hok : approveAllowlistOp env signed approver opId w = .ok w') :
    Scheduled env w' (log ++ [(w, .invoke signed (.approveAllowlistOp approver opId))]) := by
  obtain ⟨hsgn, hapr, hsm⟩ := approveAllowlistOp_ok hok
  have hnow : w'.now = w.now := by rw [hsm]
  have hncc : getAgentErrorCount w' env.symbols.opNonce = getAgentErrorCount w env.symbols.opNonce := by
    rw [hsm]
    rfl
  have hmax := hctd.bounded env.symbols.opNonce
  have hexd : executed (log ++ [(w, .invoke signed (.approveAllowlistOp approver opId))]) =
      executed log := by
    rw [executed_snoc]
    exact append_nil _
  have hold : ∀ op ∈ w.pendingOps,
      Pending env w' (log ++ [(w, .invoke signed (.approveAllowlistOp approver opId))]) op := by
    intro op hop
    refine (h.pending op hop).mono (le_of_eq hnow.symm) (fun _ _ => ⟨?_, ?_⟩) _
    · exact le_of_eq hncc.symm
    · rw [hncc]
      exact hmax
  refine ⟨?_, ?_, ?_, ?_, ?_⟩
  · intro op' hop'
    rcases hapr.changed op' hop' with hmem | ⟨op, hmem, hid, hnew, rfl⟩
    · exact hold op' hmem
    · have hknw := hold op hmem
      refine ⟨?_, fun a ha => ?_, hknw.timelock, hknw.proposed, hknw.fits, hknw.named⟩
      · rw [nodup_append]
        refine ⟨hknw.approvals, nodup_singleton approver, fun a ha b hb => ?_⟩
        rw [mem_singleton.mp hb]
        exact fun heq => hnew (heq ▸ ha)
      · rcases mem_append.mp ha with hbf | hla
        · exact hknw.signed a hbf
        · rw [mem_singleton.mp hla, hid]
          exact ⟨_, mem_append_right _ (mem_singleton_self _), signed, hsgn, .inl rfl⟩
  · rw [hapr.ids]
    exact h.ids
  · rw [hexd]
    exact h.once
  · rw [hexd, hapr.ids]
    exact fun id hid => ⟨(h.retired id hid).1.mono (le_of_eq hnow.symm), (h.retired id hid).2⟩
  · exact executions_snoc h fun id hid => by cases hid

/-- **An execution** in which all approvals are those of signers was approved by a quorum of them. -/
theorem Scheduled.execute {executor : Addr} (h : Scheduled env w log) (hctd : Counted env w log)
    (hsf : Safe env w (.invoke signed (.executeAllowlistOp executor opId)))
    (hok : executeAllowlistOp env signed executor opId w = .ok w') :
    Scheduled env w' (log ++ [(w, .invoke signed (.executeAllowlistOp executor opId))]) := by
  obtain ⟨hrdy, op, hop, hid, hsm⟩ := executeAllowlistOp_ok hok
  have hknw := h.pending op hop
  obtain ⟨hqrm, hps⟩ := hrdy op hop hid
  have hnow : w'.now = w.now := by rw [hsm]
  have hncc : getAgentErrorCount w' env.symbols.opNonce = getAgentErrorCount w env.symbols.opNonce := by
    rw [hsm]
    rfl
  have hpnd : w'.pendingOps = w.pendingOps.filter fun op => decide (op.opId ≠ opId) := by rw [hsm]
  have hexd : executed (log ++ [(w, .invoke signed (.executeAllowlistOp executor opId))]) =
      executed log ++ [opId] := executed_snoc _
  have hsu : ∀ id ∈ w'.pendingOps.map PendingOp.opId, id ∈ w.pendingOps.map PendingOp.opId ∧ id ≠ opId := by
    intro id hmem
    rw [hpnd] at hmem
    obtain ⟨op', hop', rfl⟩ := List.mem_map.mp hmem
    obtain ⟨hmem', hne⟩ := mem_filter.mp hop'
    exact ⟨List.mem_map_of_mem hmem', of_decide_eq_true hne⟩
  have htm := hknw.timelock
  refine ⟨?_, ?_, ?_, ?_, ?_⟩
  · rw [hpnd]
    intro op' hop'
    refine (h.pending op' (mem_filter.mp hop').1).mono (le_of_eq hnow.symm) (fun _ _ => ⟨?_, ?_⟩) _
    · exact le_of_eq hncc.symm
    · rw [hncc]
      exact hctd.bounded _
  · rw [hpnd]
    exact h.ids.sublist (filter_sublist.map _)
  · rw [hexd, nodup_append]
    refine ⟨h.once, nodup_singleton opId, fun id hmem id' hmem' heq => ?_⟩
    rw [mem_singleton.mp hmem', ← hid] at heq
    refine (h.retired id hmem).2 ?_
    rw [heq]
    exact List.mem_map_of_mem hop
  · rw [hexd]
    intro id hmem
    rcases mem_append.mp hmem with hbf | hla
    · obtain ⟨hre, hnot⟩ := h.retired id hbf
      exact ⟨hre.mono (le_of_eq hnow.symm), fun hstl => hnot (hsu id hstl).1⟩
    · rw [mem_singleton.mp hla]
      refine ⟨?_, fun hstl => (hsu opId hstl).2 rfl⟩
      obtain ⟨n, hn, hif, -⟩ := hknw.named
      have hft := hknw.fits
      exact ⟨n, op.createdAt, hn, by omega, hid.symm.trans hif, by omega⟩
  · refine executions_snoc h fun id heq => ?_
    cases heq
    refine ⟨op, hop, hid, by omega, op.approvals, hknw.approvals, hqrm, fun a ha => ?_⟩
    exact ⟨(hsf op hop hid).1 a ha, hid ▸ hknw.signed a ha⟩

theorem Scheduled.reset {admin : Addr} (h : Scheduled env w log)
    (hok : initializeContract env signed admin w = .ok w') :
    Scheduled env w' (log ++ [(w, .invoke signed (.initializeContract admin))]) := by
  obtain ⟨-, rfl⟩ := initializeContract_ok hok
  have hexd : executed (log ++ [(w, .invoke signed (.initializeContract admin))]) = executed log := by
    rw [executed_snoc]
    exact append_nil _
  refine ⟨fun op hop => absurd hop not_mem_nil, nodup_nil, ?_, ?_, ?_⟩
  · rw [hexd]
    exact h.once
  · rw [hexd]
    exact fun id hid => ⟨(h.retired id hid).1.mono (le_refl _), not_mem_nil⟩
  · exact executions_snoc h fun id hid => by cases hid

theorem Scheduled.exec (hbds : Binds env)
    (h : Scheduled env w log) (hctd : Counted env w log) (hsf : Safe env w (.invoke signed op))
    (hec : exec env signed w op = .ok w') : Scheduled env w' (log ++ [(w, .invoke signed op)]) := by
  have hkpt := exec_kept hec
  have hnow := Nat.le_of_eq hkpt.now.symm
  have hsm : op.counts = false → getAgentErrorCount w env.symbols.opNonce ≤
      getAgentErrorCount w' env.symbols.opNonce ∧ getAgentErrorCount w' env.symbols.opNonce ≤ u32Max := by
    intro hop
    have heq : getAgentErrorCount w' env.symbols.opNonce = getAgentErrorCount w env.symbols.opNonce := by
      rw [getAgentErrorCount, hkpt.counters hop]
      rfl
    rw [heq]
    exact ⟨Nat.le_refl _, hctd.bounded _⟩
  cases op with
  | initializeContract => exact h.reset hec
  | proposeAllowlistOp =>
    obtain ⟨opId, hok⟩ := bind_snd_eq_ok.mp hec
    exact h.propose hbds hctd hsf hok
  | approveAllowlistOp => exact h.approve hctd hec
  | executeAllowlistOp => exact h.execute hctd hsf hec
  | recordError caller agentId =>
    obtain ⟨newCount, hok⟩ := bind_snd_eq_ok.mp hec
    obtain ⟨rfl, hre⟩ := recordError_ok hok
    refine h.kept (hkpt.pending rfl) hnow rfl fun _ _ _ _ => ?_
    have hset : w'.agentErrorCount = w.agentErrorCount.set agentId
        (satAdd32 (getAgentErrorCount w agentId) 1) := by
      rw [hre]
    have hbo := hctd.bounded env.symbols.opNonce
    rw [getAgentErrorCount_set hset]
    split
    · rename_i hid
      rw [← hid]
      exact ⟨Nat.le_min.mpr ⟨by omega, hbo⟩, satAdd32_le _ _⟩
    · exact ⟨Nat.le_refl _, hbo⟩
  | clearAgentErrors caller agentId =>
    refine h.kept (hkpt.pending rfl) hnow rfl fun op hop _ hcrt => ?_
    have hrmv : w'.agentErrorCount = w.agentErrorCount.remove agentId := by
      rw [clearAgentErrors_ok hec]
    rw [getAgentErrorCount_remove hrmv]
    split
    · -- the nonce is not cleared in a ledger with a proposal
      rename_i hid
      exact absurd hcrt (hsf hid.symm op hop)
    · exact ⟨Nat.le_refl _, hctd.bounded _⟩
  | _ => exact h.kept (hkpt.pending rfl) hnow rfl fun _ _ _ _ => hsm rfl

/-! ## Runs -/

/-- All that is followed along a run. -/
structure Sound (env : Env Addr Sym) (w : World Addr Sym) (log : Log Addr Sym) : Prop where
  council : Council w
  allowlist : Allowlist w
  counted : Counted env w log
  scheduled : Scheduled env w log

omit [DecidableEq Addr] in
theorem sound_init (now : Nat) : Sound env (World.init now) [] := by
  refine ⟨⟨nodup_nil, nofun⟩, ⟨nodup_nil, zero_le _⟩, ⟨fun _ _ => rfl, fun _ => zero_le _⟩, ?_⟩
  refine ⟨fun op hop => absurd hop not_mem_nil, nodup_nil, nodup_nil,
    fun id hid => absurd hid not_mem_nil, fun before entry after opId heq => ?_⟩
  exact absurd heq.symm (append_ne_nil_of_right_ne_nil _ (cons_ne_nil _ _))

theorem Sound.step (hbds : Binds env) (h : Sound env w log) (hclk : ClockMonotone w e)
    (hsf : Safe env w e) (hs : (system env).step w e = some w') : Sound env w' (log ++ [(w, e)]) := by
  cases e with
  | close =>
    cases hs
    refine ⟨h.council.congr ⟨rfl, rfl, rfl⟩, h.allowlist.congr rfl, h.counted.congr rfl fun _ _ => rfl, ?_⟩
    refine h.scheduled.kept rfl hclk rfl fun _ _ _ _ => ?_
    exact ⟨le_refl _, h.counted.bounded _⟩
  | invoke =>
    have hec := toOption_eq_some.mp hs
    exact ⟨h.council.exec hec, h.allowlist.exec hsf hec, h.counted.exec hsf hec,
      h.scheduled.exec hbds h.counted hsf hec⟩

theorem sound_of_logged (hbds : Binds env) (h : (system env).Logged ClockMonotone w log)
    (hsf : ∀ entry ∈ log, Safe env entry.1 entry.2) : Sound env w log := by
  induction h with
  | start h0 =>
    obtain ⟨now, rfl⟩ := h0
    exact sound_init now
  | @step w w' e log _ hclk hs ih =>
    have hbf : Sound env w log := ih fun entry hent => hsf entry (mem_append_left _ hent)
    exact hbf.step hbds hclk (hsf (w, e) (mem_append_right _ mem_cons_self)) hs

/-- **The multisig is real** in every run whose steps are safe. -/
theorem multisig_real (hbinds : Binds env) (h : (system env).Logged ClockMonotone w log)
    (hsafe : ∀ entry ∈ log, Safe env entry.1 entry.2) : Real env w log := by
  have hsnd := sound_of_logged hbinds h hsafe
  exact
    { executions := hsnd.scheduled.executions
      named := hsnd.scheduled.ids
      once := hsnd.scheduled.once
      quorum := fun hadm => ⟨(hsnd.council.quorum hadm).1, (hsnd.council.quorum hadm).2,
        hsnd.council.signers⟩
      allowlist := ⟨hsnd.allowlist.nodup, hsnd.allowlist.bounded⟩
      counters := hsnd.counted.counters }

/-! ## Runs of it -/

section Sample

/-- SHA-256 of twelve zero bytes, the text of the first id at time 0. -/
def firstOpId : BytesN 32 :=
  ⟨[ 0x15, 0xec, 0x7b, 0xf0, 0xb5, 0x07, 0x32, 0xb4, 0x9f, 0x82, 0x28, 0xe0, 0x7d, 0x24, 0x36, 0x53,
     0x38, 0xf9, 0xe3, 0xab, 0x99, 0x4b, 0x00, 0xaf, 0x08, 0xe5, 0xa3, 0xbf, 0xfe, 0x55, 0xfd, 0x8b ], rfl⟩

/-- That digest; of any other text, the text with zeros after it. -/
def sampleSha256 (text : List UInt8) : BytesN 32 :=
  if text = List.replicate 12 0 then firstOpId else BytesN.pad 32 text

/-- The contract `0`, with addresses and symbols that are numbers. -/
def deployment : Env Nat Nat where
  self := 0
  sha256 := sampleSha256
  xdr :=
    { string := id
      address := fun _ => []
      symbol := fun _ => []
      i128 := fun _ => []
      bytes := id }
  symbols := ⟨100, 101, 102, 103, 104, 105, 106, 107, 108, 109⟩

theorem pad_bytes {text : List UInt8} (h : text.length = 12) :
    (BytesN.pad 32 text).bytes = text ++ List.replicate 20 0 := by
  show (text ++ List.replicate 32 0).take 32 = _
  rw [take_append, h, take_of_length_le (by omega), take_replicate]
  rfl

theorem binds_deployment : Binds deployment := by
  -- the digest does not end in zeros
  have hdi : ∀ text : List UInt8, text.length = 12 → BytesN.pad 32 text ≠ firstOpId := by
    intro text h heq
    have hbyt := congrArg (fun b => b.bytes.drop 12) heq
    rw [pad_bytes h, ← h, drop_left] at hbyt
    rw [h] at hbyt
    exact absurd hbyt (by decide)
  intro text text' h h' heq
  change sampleSha256 text = sampleSha256 text' at heq
  unfold sampleSha256 at heq
  by_cases hz : text = List.replicate 12 0
  · by_cases hz' : text' = List.replicate 12 0
    · rw [hz, hz']
    · rw [if_pos hz, if_neg hz'] at heq
      exact absurd heq.symm (hdi text' h')
  · by_cases hz' : text' = List.replicate 12 0
    · rw [if_neg hz, if_pos hz'] at heq
      exact absurd heq (hdi text h)
    · rw [if_neg hz, if_neg hz'] at heq
      have hbyt := congrArg BytesN.bytes heq
      rw [pad_bytes h, pad_bytes h'] at hbyt
      exact append_cancel_right hbyt

instance (w : World Nat Nat) (e : Event Nat Nat) : Decidable (ClockMonotone w e) := by
  cases e with
  | close timestamp => exact inferInstanceAs (Decidable (w.now ≤ timestamp))
  | invoke => exact .isTrue trivial

instance (w : World Nat Nat) (e : Event Nat Nat) : Decidable (Safe deployment w e) := by
  unfold Safe
  split
  · infer_instance
  · infer_instance
  · infer_instance
  · infer_instance
  · exact .isTrue trivial

def call (signer : Nat) (op : Op Nat Nat) : Event Nat Nat := .invoke (fun a => a == signer) op

/-- Two signers, `1` and `2`, let `20` be a caller. -/
def agreed : List (Event Nat Nat) :=
  [ call 1 (.initializeContract 1), call 1 (.addSigner 1 2), call 1 (.setQuorum 2),
    call 1 (.proposeAllowlistOp 1 101 20),
    call 2 (.approveAllowlistOp 2 firstOpId),
    .close 86400,
    call 2 (.executeAllowlistOp 2 firstOpId) ]

/-- An operation that two signers agreed on. -/
theorem multisig_real_agreed : ∃ (w : World Nat Nat) (log : Log Nat Nat),
    w.authorizedCallers = [20] ∧ Real deployment w log := by
  have hpl : ((system deployment).play (fun w e => ClockMonotone w e ∧ Safe deployment w e) agreed
      (World.init 0)).any (fun w => decide (w.authorizedCallers = [20])) = true := by
    decide
  obtain ⟨w, hlgd, hcl⟩ := exists_logged (S := system deployment) ⟨0, rfl⟩ hpl
  have hgrd : ∀ entry ∈ (system deployment).record agreed (World.init 0),
      ClockMonotone entry.1 entry.2 ∧ Safe deployment entry.1 entry.2 := by
    intro entry hent
    obtain ⟨before, after, hlog⟩ := append_of_mem hent
    exact (hlgd.split hlog).2.1
  exact ⟨w, _, hcl, multisig_real binds_deployment (hlgd.under fun entry hent => (hgrd entry hent).1)
      fun entry hent => (hgrd entry hent).2⟩

/--
**The nonce is cleared between two proposals** of one ledger, by a caller that clears the errors of the agent
with its name: two pending operations have the same id.
-/
theorem nonce_cleared : Binds deployment ∧ ∃ (w : World Nat Nat) (log : Log Nat Nat),
    (system deployment).Logged ClockMonotone w log ∧ ¬Real deployment w log := by
  have hpl : ((system deployment).play ClockMonotone
      [ call 1 (.initializeContract 1), call 1 (.addAuthorizedCaller 9),
        call 1 (.proposeAllowlistOp 1 101 20),
        call 9 (.clearAgentErrors 9 100),
        call 1 (.proposeAllowlistOp 1 101 21) ] (World.init 0)).any (fun w =>
        decide (¬(w.pendingOps.map PendingOp.opId).Nodup)) = true := by
    decide
  obtain ⟨w, hlgd, htwi⟩ := exists_logged (S := system deployment) ⟨0, rfl⟩ hpl
  exact ⟨binds_deployment, w, _, hlgd, fun hre => htwi hre.named⟩

end Sample

end AiNet.ErrorResolver
