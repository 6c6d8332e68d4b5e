import AiNet.Core.Machine
import AiNet.Core.Host
import AiNet.Core.Storage
import AiNet.Core.Transition

/-!
# The error resolver

The on-chain ledger of errors per agent, `error-resolver/src/agent_errors.rs`. Signers propose and approve
changes of the list of callers that may record and clear errors; the administrator changes it directly.
The nonce of the operation ids is stored among the agents' counters, under a symbol of its own.

Events and rent extension are left out: nothing reads them back. Nothing asks whether the contract is paused.
-/

namespace AiNet.ErrorResolver

open Core List Option

section

/-! ## Types -/

def maxAuthorizedCallers : Nat := 32

/-- Default timelock in ledger seconds (24 hours). -/
def defaultTimelock : Nat := 86400

inductive ContractError where
  | alreadyInitialized | notInitialized | unauthorized | quorumNotMet | timelockNotExpired
  | alreadyApproved | opNotFound | maxCallersReached
  deriving DecidableEq

/-- A pending allowlist operation awaiting quorum approvals. -/
structure PendingOp (Addr Sym : Type) where
  opId : BytesN 32
  opType : Sym
  target : Addr
  approvals : List Addr
  createdAt : Nat
  executeAfter : Nat
  deriving DecidableEq

/-- An audit log entry. -/
structure AuditEntry (Addr Sym : Type) where
  actor : Addr
  op : Sym
  target : Addr
  timestamp : Nat
  deriving DecidableEq

/-- The symbols that the contract names. -/
structure Symbols (Sym : Type) where
  /-- `__op_nonce`. -/
  opNonce : Sym
  add : Sym
  setQrm : Sym
  addSgnr : Sym
  rmSigner : Sym
  propose : Sym
  addCall : Sym
  rmCaller : Sym
  callerOk : Sym
  callerRm : Sym

/-- What is fixed for a deployment. -/
structure Env (Addr Sym : Type) extends Host Addr Sym where
  symbols : Symbols Sym

/-- The contract's storage and the ledger's clock. -/
structure World (Addr Sym : Type) where
  now : Nat
  admin : Option Addr
  paused : Bool
  authorizedCallers : List Addr
  agentErrorCount : Storage Sym Nat
  signers : List Addr
  /-- `1` where nothing is stored. -/
  quorum : Nat
  pendingOps : List (PendingOp Addr Sym)
  auditLog : List (AuditEntry Addr Sym)

/-- The contract as deployed, before any call. -/
def World.init {Addr Sym : Type} (now : Nat) : World Addr Sym where
  now := now
  admin := none
  paused := false
  authorizedCallers := []
  agentErrorCount := ∅
  signers := []
  quorum := 1
  pendingOps := []
  auditLog := []

variable {Addr Sym : Type} [DecidableEq Addr] [DecidableEq Sym]
variable (env : Env Addr Sym) (signed : Addr → Bool)

/-! ## Helpers -/

def requireAdmin (w : World Addr Sym) : Outcome ContractError Addr := do
  let admin ← okOr w.admin .notInitialized
  requireAuth env.toHost signed admin
  pure admin

def requireAuthorizedCaller (w : World Addr Sym) (caller : Addr) :
    Outcome ContractError Unit := do
  requireAuth env.toHost signed caller
  failIf (caller ∉ w.authorizedCallers) .unauthorized

def requireSigner (w : World Addr Sym) (addr : Addr) : Outcome ContractError Unit := do
  failIf (addr ∉ w.signers) .unauthorized
  requireAuth env.toHost signed addr

/-- The counter stored under an agent's id. -/
def getAgentErrorCount (w : World Addr Sym) (agentId : Sym) : Nat :=
  (w.agentErrorCount.get agentId).getD 0

/-- The id of the next operation: the hash of the nonce and the time. -/
def nextOpId (w : World Addr Sym) : BytesN 32 :=
  env.sha256 (toBeBytes 4 (getAgentErrorCount w env.symbols.opNonce) ++ toBeBytes 8 w.now)

def applyAllowlistOp (op : PendingOp Addr Sym) (w : World Addr Sym) :
    World Addr Sym :=
  { w with authorizedCallers :=
      if op.opType = env.symbols.add then
        if op.target ∈ w.authorizedCallers then w.authorizedCallers
        else w.authorizedCallers ++ [op.target]
      else w.authorizedCallers.filter fun c => decide (c ≠ op.target) }

def recordAudit (actor : Addr) (op : Sym) (target : Addr) (w : World Addr Sym) :
    World Addr Sym :=
  { w with auditLog := w.auditLog ++ [⟨actor, op, target, w.now⟩] }

/-! ## Signers and quorum -/

def initializeContract (admin : Addr) (w : World Addr Sym) :
    Outcome ContractError (World Addr Sym) := do
  failIf (w.admin.isSome = true) .alreadyInitialized
  requireAuth env.toHost signed admin
  pure { w with
    admin := some admin
    authorizedCallers := []
    signers := [admin]
    quorum := 1
    pendingOps := []
    auditLog := [] }

def setQuorum (newQuorum : Nat) (w : World Addr Sym) :
    Outcome ContractError (World Addr Sym) := do
  let admin ← requireAdmin env signed w
  failIf (newQuorum = 0 ∨ w.signers.length < newQuorum) .quorumNotMet
  pure (recordAudit admin env.symbols.setQrm admin { w with quorum := newQuorum })

def addSigner (proposer signer : Addr) (w : World Addr Sym) :
    Outcome ContractError (World Addr Sym) := do
  requireSigner env signed w proposer
  let signers := if signer ∈ w.signers then w.signers else w.signers ++ [signer]
  pure (recordAudit proposer env.symbols.addSgnr signer { w with signers := signers })

def removeSigner (proposer signer : Addr) (w : World Addr Sym) :
    Outcome ContractError (World Addr Sym) := do
  requireSigner env signed w proposer
  let updated := w.signers.filter fun s => decide (s ≠ signer)
  failIf (updated = [] ∨ updated.length < w.quorum) .quorumNotMet
  pure (recordAudit proposer env.symbols.rmSigner signer { w with signers := updated })

/-! ## Operations -/

def proposeAllowlistOp (proposer : Addr) (opType : Sym) (target : Addr)
    (w : World Addr Sym) : Outcome ContractError (BytesN 32 × World Addr Sym) := do
  requireSigner env signed w proposer
  let opId := nextOpId env w
  let nonce := getAgentErrorCount w env.symbols.opNonce
  let executeAfter ← orTrap (checked64 (w.now + defaultTimelock))
  let pending : PendingOp Addr Sym :=
    { opId := opId
      opType := opType
      target := target
      approvals := [proposer]
      createdAt := w.now
      executeAfter := executeAfter }
  pure (opId, recordAudit proposer env.symbols.propose target { w with
    agentErrorCount := w.agentErrorCount.set env.symbols.opNonce (satAdd32 nonce 1)
    pendingOps := w.pendingOps ++ [pending] })

/-- The loop of an approval: the first operation with the id. -/
def approveIn (approver : Addr) (opId : BytesN 32) :
    List (PendingOp Addr Sym) → Outcome ContractError (List (PendingOp Addr Sym))
  | [] => .error (.error .opNotFound)
  | op :: ops =>
    if op.opId = opId then do
      failIf (approver ∈ op.approvals) .alreadyApproved
      pure ({ op with approvals := op.approvals ++ [approver] } :: ops)
    else do
      let ops ← approveIn approver opId ops
      pure (op :: ops)

def approveAllowlistOp (approver : Addr) (opId : BytesN 32) (w : World Addr Sym) :
    Outcome ContractError (World Addr Sym) := do
  requireSigner env signed w approver
  let ops ← approveIn approver opId w.pendingOps
  pure { w with pendingOps := ops }

/-- The loop of an execution: the last operation with the id, and those with another one. -/
def takeOps (quorum now : Nat) (opId : BytesN 32) : List (PendingOp Addr Sym) →
    Option (PendingOp Addr Sym) → List (PendingOp Addr Sym) →
      Outcome ContractError (Option (PendingOp Addr Sym) × List (PendingOp Addr Sym))
  | [], executed, remaining => pure (executed, remaining)
  | op :: ops, executed, remaining =>
    if op.opId = opId then do
      failIf (op.approvals.length < quorum) .quorumNotMet
      failIf (now < op.executeAfter) .timelockNotExpired
      takeOps quorum now opId ops (some op) remaining
    else takeOps quorum now opId ops executed (remaining ++ [op])

def executeAllowlistOp (executor : Addr) (opId : BytesN 32) (w : World Addr Sym) :
    Outcome ContractError (World Addr Sym) := do
  requireSigner env signed w executor
  let (executed, remaining) ← takeOps w.quorum w.now opId w.pendingOps none []
  let op ← okOr executed .opNotFound
  let w := applyAllowlistOp env op { w with pendingOps := remaining }
  let auditOp := if op.opType = env.symbols.add then env.symbols.addCall else env.symbols.rmCaller
  pure (recordAudit executor auditOp op.target w)

/-! ## The administrator -/

def pause (w : World Addr Sym) : Outcome ContractError (World Addr Sym) := do
  let _ ← requireAdmin env signed w
  pure { w with paused := true }

def unpause (w : World Addr Sym) : Outcome ContractError (World Addr Sym) := do
  let _ ← requireAdmin env signed w
  pure { w with paused := false }

def addAuthorizedCaller (caller : Addr) (w : World Addr Sym) :
    Outcome ContractError (World Addr Sym) := do
  let _ ← requireAdmin env signed w
  let allowlist ←
    (if caller ∈ w.authorizedCallers then pure w.authorizedCallers
    else do
      failIf (maxAuthorizedCallers ≤ w.authorizedCallers.length) .maxCallersReached
      pure (w.authorizedCallers ++ [caller]))
  pure (recordAudit caller env.symbols.callerOk caller { w with authorizedCallers := allowlist })

def removeAuthorizedCaller (caller : Addr) (w : World Addr Sym) :
    Outcome ContractError (World Addr Sym) := do
  let _ ← requireAdmin env signed w
  let updated := w.authorizedCallers.filter fun c => decide (c ≠ caller)
  pure (recordAudit caller env.symbols.callerRm caller { w with authorizedCallers := updated })

/-! ## Errors -/

def recordError (caller : Addr) (agentId : Sym) (w : World Addr Sym) :
    Outcome ContractError (Nat × World Addr Sym) := do
  requireAuthorizedCaller env signed w caller
  let newCount := satAdd32 (getAgentErrorCount w agentId) 1
  pure (newCount, { w with agentErrorCount := w.agentErrorCount.set agentId newCount })

def clearAgentErrors (caller : Addr) (agentId : Sym) (w : World Addr Sym) :
    Outcome ContractError (World Addr Sym) := do
  requireAuthorizedCaller env signed w caller
  pure { w with agentErrorCount := w.agentErrorCount.remove agentId }

/-! ## The contract among its callers -/

inductive Op (Addr Sym : Type) where
  | initializeContract (admin : Addr)
  | setQuorum (newQuorum : Nat)
  | addSigner (proposer signer : Addr)
  | removeSigner (proposer signer : Addr)
  | proposeAllowlistOp (proposer : Addr) (opType : Sym) (target : Addr)
  | approveAllowlistOp (approver : Addr) (opId : BytesN 32)
  | executeAllowlistOp (executor : Addr) (opId : BytesN 32)
  | pause
  | unpause
  | addAuthorizedCaller (caller : Addr)
  | removeAuthorizedCaller (caller : Addr)
  | recordError (caller : Addr) (agentId : Sym)
  | clearAgentErrors (caller : Addr) (agentId : Sym)

def exec (w : World Addr Sym) : Op Addr Sym → Outcome ContractError (World Addr Sym)
  | .initializeContract admin => initializeContract env signed admin w
  | .setQuorum newQuorum => setQuorum env signed newQuorum w
  | .addSigner proposer signer => addSigner env signed proposer signer w
  | .removeSigner proposer signer => removeSigner env signed proposer signer w
  | .proposeAllowlistOp proposer opType target => do
    let result ← proposeAllowlistOp env signed proposer opType target w
    pure result.2
  | .approveAllowlistOp approver opId => approveAllowlistOp env signed approver opId w
  | .executeAllowlistOp executor opId => executeAllowlistOp env signed executor opId w
  | .pause => pause env signed w
  | .unpause => unpause env signed w
  | .addAuthorizedCaller caller => addAuthorizedCaller env signed caller w
  | .removeAuthorizedCaller caller => removeAuthorizedCaller env signed caller w
  | .recordError caller agentId => do
    let result ← recordError env signed caller agentId w
    pure result.2
  | .clearAgentErrors caller agentId => clearAgentErrors env signed caller agentId w

inductive Event (Addr Sym : Type) where
  /-- A ledger closes; calls from now on see its timestamp. -/
  | close (timestamp : Nat)
  | invoke (signed : Addr → Bool) (op : Op Addr Sym)

def system : System (World Addr Sym) (Event Addr Sym) where
  start w := ∃ now, w = World.init now
  step w
    | .close timestamp => some { w with now := timestamp }
    | .invoke signed op => (exec env signed w op).toOption

/-- The ledgers follow each other. -/
def ClockMonotone (w : World Addr Sym) : Event Addr Sym → Prop
  | .close timestamp => w.now ≤ timestamp
  | .invoke _ _ => True

end

/-!
## What the calls of the error resolver do

The loops over the pending operations first: an approval goes to the first operation with the id, an execution
asks all of them for the quorum and the timelock, takes all of them away and applies the last one. Then, for
each entry point, what a successful call has checked and what it leaves.
-/

variable {Addr Sym : Type} [DecidableEq Addr] [DecidableEq Sym]
variable {env : Env Addr Sym} {signed : Addr → Bool} {w w' : World Addr Sym}

/-! ## Loops -/

/-- An approval is added to one operation with the id. -/
structure Approved (approver : Addr) (opId : BytesN 32) (ops ops' : List (PendingOp Addr Sym)) :
    Prop where
  ids : ops'.map PendingOp.opId = ops.map PendingOp.opId
  changed : ∀ op' ∈ ops', op' ∈ ops ∨ ∃ op ∈ ops, op.opId = opId ∧ approver ∉ op.approvals ∧
    op' = { op with approvals := op.approvals ++ [approver] }

variable {opId : BytesN 32}

omit [DecidableEq Sym] in
theorem approveIn_ok {approver : Addr} {ops ops' : List (PendingOp Addr Sym)}
    (h : approveIn approver opId ops = .ok ops') : Approved approver opId ops ops' := by
  induction ops generalizing ops' with
  | nil => cases h
  | cons op ops ih =>
    rw [approveIn] at h
    by_cases hid : op.opId = opId
    · rw [if_pos hid] at h
      simp only [bind_eq_ok, failIf_eq_ok, pure_eq_ok] at h
      obtain ⟨-, hnew, rfl⟩ := h
      refine ⟨rfl, fun op' hop' => ?_⟩
      rcases mem_cons.mp hop' with rfl | hrst
      · exact .inr ⟨op, mem_cons_self, hid, hnew, rfl⟩
      · exact .inl (mem_cons_of_mem _ hrst)
    · rw [if_neg hid] at h
      obtain ⟨rest, hrst, hops⟩ := bind_eq_ok.mp h
      obtain rfl := pure_eq_ok.mp hops
      have hapr := ih hrst
      refine ⟨?_, fun op' hop' => ?_⟩
      · rw [map_cons, map_cons, hapr.ids]
      · rcases mem_cons.mp hop' with rfl | hmem
        · exact .inl mem_cons_self
        · rcases hapr.changed op' hmem with hold | ⟨op₀, hop₀, hid₀, hnew₀, heq₀⟩
          · exact .inl (mem_cons_of_mem _ hold)
          · exact .inr ⟨op₀, mem_cons_of_mem _ hop₀, hid₀, hnew₀, heq₀⟩

omit [DecidableEq Addr] [DecidableEq Sym] in
theorem takeOps_ok {quorum now : Nat} {ops remaining : List (PendingOp Addr Sym)}
    {executed : Option (PendingOp Addr Sym)}
    {result : Option (PendingOp Addr Sym) × List (PendingOp Addr Sym)}
    (h : takeOps quorum now opId ops executed remaining = .ok result) :
    (∀ op ∈ ops, op.opId = opId → quorum ≤ op.approvals.length ∧ op.executeAfter ≤ now) ∧
      (∀ op, result.1 = some op → op ∈ ops ∧ op.opId = opId ∨ executed = some op) ∧
      result.2 = remaining ++ ops.filter fun op => decide (op.opId ≠ opId) := by
  induction ops generalizing executed remaining with
  | nil =>
    obtain rfl := pure_eq_ok.mp h
    refine ⟨fun _ hop => absurd hop not_mem_nil, fun op hop => .inr hop, ?_⟩
    rw [filter_nil, append_nil]
  | cons op ops ih =>
    rw [takeOps] at h
    by_cases hid : op.opId = opId
    · rw [if_pos hid] at h
      simp only [bind_eq_ok, failIf_eq_ok] at h
      obtain ⟨-, hqrm, -, htm, h⟩ := h
      obtain ⟨hall, hexd, hre⟩ := ih h
      refine ⟨forall_mem_cons.mpr ⟨fun _ => ⟨by omega, by omega⟩, hall⟩, fun op' hop' => ?_, ?_⟩
      · rcases hexd op' hop' with ⟨hmem, hid'⟩ | hfst
        · exact .inl ⟨mem_cons_of_mem _ hmem, hid'⟩
        · cases hfst
          exact .inl ⟨mem_cons_self, hid⟩
      · rw [hre, filter_cons_of_neg (by simpa using hid)]
    · rw [if_neg hid] at h
      obtain ⟨hall, hexd, hre⟩ := ih h
      refine ⟨forall_mem_cons.mpr ⟨fun heq => absurd heq hid, hall⟩, fun op' hop' => ?_, ?_⟩
      · rcases hexd op' hop' with ⟨hmem, hid'⟩ | hfst
        · exact .inl ⟨mem_cons_of_mem _ hmem, hid'⟩
        · exact .inr hfst
      · rw [hre, filter_cons_of_pos (by simpa using hid), append_assoc]
        rfl

/-! ## Entry points -/

section

omit [DecidableEq Sym]

theorem requireAdmin_ok {admin : Addr} (h : requireAdmin env signed w = .ok admin) :
    w.admin = some admin ∧ signed admin = true := by
  simp only [requireAdmin, bind_eq_ok, okOr_eq_ok, requireAuth_eq_ok, pure_eq_ok] at h
  obtain ⟨_, hadm, -, ⟨-, hsgn⟩, rfl⟩ := h
  exact ⟨hadm, hsgn⟩

theorem requireSigner_ok {addr : Addr} {u : Unit} (h : requireSigner env signed w addr = .ok u) :
    addr ∈ w.signers ∧ signed addr = true := by
  simp only [requireSigner, bind_eq_ok, failIf_eq_ok, requireAuth_eq_ok, not_not] at h
  obtain ⟨-, hmem, -, hsgn⟩ := h
  exact ⟨hmem, hsgn⟩

theorem initializeContract_ok {admin : Addr} (h : initializeContract env signed admin w = .ok w') :
    w.admin = none ∧ w' = { w with
      admin := some admin
      authorizedCallers := []
      signers := [admin]
      quorum := 1
      pendingOps := []
      auditLog := [] } := by
  simp only [initializeContract, bind_eq_ok, failIf_eq_ok, pure_eq_ok] at h
  obtain ⟨-, hno, -, -, rfl⟩ := h
  exact ⟨not_isSome_iff_eq_none.mp hno, rfl⟩

theorem setQuorum_ok {newQuorum : Nat} (h : setQuorum env signed newQuorum w = .ok w') :
    w.admin.isSome = true ∧ 1 ≤ newQuorum ∧ newQuorum ≤ w.signers.length ∧
      w' = { w with quorum := newQuorum, auditLog := w'.auditLog } := by
  simp only [setQuorum, bind_eq_ok, failIf_eq_ok, pure_eq_ok] at h
  obtain ⟨admin, hadm, -, hbo, rfl⟩ := h
  refine ⟨?_, by omega, by omega, rfl⟩
  rw [(requireAdmin_ok hadm).1]
  rfl

theorem addSigner_ok {proposer signer : Addr} (h : addSigner env signed proposer signer w = .ok w') :
    proposer ∈ w.signers ∧ w' = { w with
      signers := if signer ∈ w.signers then w.signers else w.signers ++ [signer]
      auditLog := w'.auditLog } := by
  simp only [addSigner, bind_eq_ok, pure_eq_ok] at h
  obtain ⟨_, hsg, rfl⟩ := h
  exact ⟨(requireSigner_ok hsg).1, rfl⟩

theorem removeSigner_ok {proposer signer : Addr}
    (h : removeSigner env signed proposer signer w = .ok w') :
    w.quorum ≤ (w.signers.filter fun s => decide (s ≠ signer)).length ∧ w' = { w with
      signers := w.signers.filter fun s => decide (s ≠ signer)
      auditLog := w'.auditLog } := by
  simp only [removeSigner, bind_eq_ok, failIf_eq_ok, pure_eq_ok] at h
  obtain ⟨_, -, -, hlf, rfl⟩ := h
  refine ⟨?_, rfl⟩
  by_contra hlt
  exact hlf (.inr (by omega))

end

theorem proposeAllowlistOp_ok {proposer target : Addr} {opType : Sym}
    (h : proposeAllowlistOp env signed proposer opType target w = .ok (opId, w')) :
    proposer ∈ w.signers ∧ signed proposer = true ∧ w.now + defaultTimelock ≤ u64Max ∧
      opId = nextOpId env w ∧ w' = { w with
        agentErrorCount := w.agentErrorCount.set env.symbols.opNonce
          (satAdd32 (getAgentErrorCount w env.symbols.opNonce) 1)
        pendingOps := w.pendingOps ++
          [⟨nextOpId env w, opType, target, [proposer], w.now, w.now + defaultTimelock⟩]
        auditLog := w'.auditLog } := by
  simp only [proposeAllowlistOp, bind_eq_ok, orTrap_eq_ok, checked64_eq_some, pure_eq_ok] at h
  obtain ⟨_, hsg, _, ⟨hft, rfl⟩, hres⟩ := h
  cases hres
  obtain ⟨hmem, hsgn⟩ := requireSigner_ok hsg
  exact ⟨hmem, hsgn, hft, rfl, rfl⟩

omit [DecidableEq Sym] in
theorem approveAllowlistOp_ok {approver : Addr}
    (h : approveAllowlistOp env signed approver opId w = .ok w') :
    signed approver = true ∧ Approved approver opId w.pendingOps w'.pendingOps ∧
      w' = { w with pendingOps := w'.pendingOps } := by
  simp only [approveAllowlistOp, bind_eq_ok, pure_eq_ok] at h
  obtain ⟨_, hsg, ops, hops, rfl⟩ := h
  exact ⟨(requireSigner_ok hsg).2, approveIn_ok hops, rfl⟩

/-- **An execution** applies an operation that all with its id were ready for. -/
theorem executeAllowlistOp_ok {executor : Addr}
    (h : executeAllowlistOp env signed executor opId w = .ok w') :
    (∀ op ∈ w.pendingOps, op.opId = opId → w.quorum ≤ op.approvals.length ∧ op.executeAfter ≤ w.now) ∧
      ∃ op ∈ w.pendingOps, op.opId = opId ∧ w' = { w with
        pendingOps := w.pendingOps.filter fun op => decide (op.opId ≠ opId)
        authorizedCallers := (applyAllowlistOp env op w).authorizedCallers
        auditLog := w'.auditLog } := by
  simp only [executeAllowlistOp, bind_eq_ok, okOr_eq_ok, pure_eq_ok] at h
  obtain ⟨_, -, ⟨executed, remaining⟩, htkn, op, hop, rfl⟩ := h
  dsimp only at hop
  obtain ⟨hall, hexd, hre⟩ := takeOps_ok htkn
  rw [nil_append] at hre
  dsimp only at hre hexd
  subst hre
  rcases hexd op hop with ⟨hmem, hid⟩ | hno
  · exact ⟨hall, op, hmem, hid, rfl⟩
  · cases hno

variable {caller : Addr}

section

omit [DecidableEq Sym]

theorem addAuthorizedCaller_ok (h : addAuthorizedCaller env signed caller w = .ok w') :
    w' = { w with authorizedCallers := w'.authorizedCallers, auditLog := w'.auditLog } ∧
      (w'.authorizedCallers = w.authorizedCallers ∨
        caller ∉ w.authorizedCallers ∧ w.authorizedCallers.length < maxAuthorizedCallers ∧
          w'.authorizedCallers = w.authorizedCallers ++ [caller]) := by
  simp only [addAuthorizedCaller, bind_eq_ok, pure_eq_ok] at h
  obtain ⟨_, -, allowlist, hal, rfl⟩ := h
  refine ⟨rfl, ?_⟩
  by_cases hmem : caller ∈ w.authorizedCallers
  · rw [if_pos hmem] at hal
    exact .inl (pure_eq_ok.mp hal).symm
  · rw [if_neg hmem] at hal
    simp only [bind_eq_ok, failIf_eq_ok, pure_eq_ok] at hal
    obtain ⟨-, hro, had⟩ := hal
    exact .inr ⟨hmem, Nat.lt_of_not_le hro, had.symm⟩

theorem removeAuthorizedCaller_ok (h : removeAuthorizedCaller env signed caller w = .ok w') : w' = { w with
      authorizedCallers := w.authorizedCallers.filter fun c => decide (c ≠ caller)
      auditLog := w'.auditLog } := by
  simp only [removeAuthorizedCaller, bind_eq_ok, pure_eq_ok] at h
  obtain ⟨_, -, rfl⟩ := h
  rfl

end

theorem recordError_ok {agentId : Sym} {newCount : Nat}
    (h : recordError env signed caller agentId w = .ok (newCount, w')) :
    newCount = satAdd32 (getAgentErrorCount w agentId) 1 ∧
      w' = { w with agentErrorCount := w.agentErrorCount.set agentId newCount } := by
  simp only [recordError, bind_eq_ok, pure_eq_ok] at h
  obtain ⟨_, -, hres⟩ := h
  cases hres
  exact ⟨rfl, rfl⟩

theorem clearAgentErrors_ok {agentId : Sym} (h : clearAgentErrors env signed caller agentId w = .ok w') :
    w' = { w with agentErrorCount := w.agentErrorCount.remove agentId } := by
  simp only [clearAgentErrors, bind_eq_ok, pure_eq_ok] at h
  obtain ⟨_, -, rfl⟩ := h
  rfl

section

omit [DecidableEq Sym]

theorem pause_ok (h : pause env signed w = .ok w') : w' = { w with paused := true } := by
  simp only [pause, bind_eq_ok, pure_eq_ok] at h
  obtain ⟨_, -, rfl⟩ := h
  rfl

theorem unpause_ok (h : unpause env signed w = .ok w') : w' = { w with paused := false } := by
  simp only [unpause, bind_eq_ok, pure_eq_ok] at h
  obtain ⟨_, -, rfl⟩ := h
  rfl

end

/-! ## What a call leaves alone -/

/-- Does the call write signers or the quorum? -/
def Op.governs : Op Addr Sym → Bool
  | .initializeContract _ | .setQuorum _ | .addSigner _ _ | .removeSigner _ _ => true
  | _ => false

def Op.lists : Op Addr Sym → Bool
  | .initializeContract _ | .executeAllowlistOp _ _ | .addAuthorizedCaller _ | .removeAuthorizedCaller _ => true
  | _ => false

/-- Does the call write a counter? -/
def Op.counts : Op Addr Sym → Bool
  | .proposeAllowlistOp _ _ _ | .recordError _ _ | .clearAgentErrors _ _ => true
  | _ => false

/-- Does the call write the pending operations? -/
def Op.schedules : Op Addr Sym → Bool
  | .initializeContract _ | .proposeAllowlistOp _ _ _ | .approveAllowlistOp _ _
  | .executeAllowlistOp _ _ => true
  | _ => false

structure Kept (op : Op Addr Sym) (w w' : World Addr Sym) : Prop where
  now : w'.now = w.now
  council : op.governs = false → w'.admin = w.admin ∧ w'.quorum = w.quorum ∧ w'.signers = w.signers
  callers : op.lists = false → w'.authorizedCallers = w.authorizedCallers
  counters : op.counts = false → w'.agentErrorCount = w.agentErrorCount
  pending : op.schedules = false → w'.pendingOps = w.pendingOps

theorem exec_kept {op : Op Addr Sym} (h : exec env signed w op = .ok w') : Kept op w w' := by
  cases op with
  | initializeContract =>
    obtain ⟨-, rfl⟩ := initializeContract_ok h
    exact ⟨rfl, nofun, nofun, fun _ => rfl, nofun⟩
  | setQuorum =>
    rw [(setQuorum_ok h).2.2.2]
    exact ⟨rfl, nofun, fun _ => rfl, fun _ => rfl, fun _ => rfl⟩
  | addSigner =>
    rw [(addSigner_ok h).2]
    exact ⟨rfl, nofun, fun _ => rfl, fun _ => rfl, fun _ => rfl⟩
  | removeSigner =>
    rw [(removeSigner_ok h).2]
    exact ⟨rfl, nofun, fun _ => rfl, fun _ => rfl, fun _ => rfl⟩
  | proposeAllowlistOp =>
    obtain ⟨opId, hok⟩ := bind_snd_eq_ok.mp h
    rw [(proposeAllowlistOp_ok hok).2.2.2.2]
    exact ⟨rfl, fun _ => ⟨rfl, rfl, rfl⟩, fun _ => rfl, nofun, nofun⟩
  | approveAllowlistOp =>
    rw [(approveAllowlistOp_ok h).2.2]
    exact ⟨rfl, fun _ => ⟨rfl, rfl, rfl⟩, fun _ => rfl, fun _ => rfl, nofun⟩
  | executeAllowlistOp =>
    obtain ⟨-, op, -, -, hef⟩ := executeAllowlistOp_ok h
    rw [hef]
    exact ⟨rfl, fun _ => ⟨rfl, rfl, rfl⟩, nofun, fun _ => rfl, nofun⟩
  | pause =>
    obtain rfl := pause_ok h
    exact ⟨rfl, fun _ => ⟨rfl, rfl, rfl⟩, fun _ => rfl, fun _ => rfl, fun _ => rfl⟩
  | unpause =>
    obtain rfl := unpause_ok h
    exact ⟨rfl, fun _ => ⟨rfl, rfl, rfl⟩, fun _ => rfl, fun _ => rfl, fun _ => rfl⟩
  | addAuthorizedCaller =>
    rw [(addAuthorizedCaller_ok h).1]
    exact ⟨rfl, fun _ => ⟨rfl, rfl, rfl⟩, nofun, fun _ => rfl, fun _ => rfl⟩
  | removeAuthorizedCaller =>
    rw [removeAuthorizedCaller_ok h]
    exact ⟨rfl, fun _ => ⟨rfl, rfl, rfl⟩, nofun, fun _ => rfl, fun _ => rfl⟩
  | recordError =>
    obtain ⟨newCount, hok⟩ := bind_snd_eq_ok.mp h
    rw [(recordError_ok hok).2]
    exact ⟨rfl, fun _ => ⟨rfl, rfl, rfl⟩, fun _ => rfl, nofun, fun _ => rfl⟩
  | clearAgentErrors =>
    rw [clearAgentErrors_ok h]
    exact ⟨rfl, fun _ => ⟨rfl, rfl, rfl⟩, fun _ => rfl, nofun, fun _ => rfl⟩

end AiNet.ErrorResolver
