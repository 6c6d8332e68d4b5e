import AiNet.UpgradeManager.Contract

/-!
# What each call does

One lemma for each entry point: what it has checked when it succeeds, and the state it
leaves. Then what any step may make of one proposal: proposals are opened, collect
approvals, are validated, executed, rolled back or swept, and are otherwise kept.
-/

namespace AiNet.UpgradeManager

open Core List Option Storage

variable {Addr Sym : Type} [DecidableEq Addr] {host : Host Addr Sym}
  {call : Call Addr} {w w' : World Addr}

/-- The approval threshold in force. -/
def World.threshold (w : World Addr) : Nat := (effectiveConfig w).1

def World.timelockDelay (w : World Addr) : Nat := (effectiveConfig w).2

/-! ## Administration -/

theorem requireAdmin_ok {admin : Addr} (h : requireAdmin host call w = .ok admin) :
    w.admin = some admin := by
  unfold requireAdmin at h
  simp only [bind_eq_ok, okOr_eq_ok, pure_eq_ok] at h
  obtain ⟨a, ha, _, _, rfl⟩ := h
  exact ha

theorem requireGovernanceMember_ok {member : Addr} {u : Unit}
    (h : requireGovernanceMember host call w member = .ok u) : isGovernanceMember w member = true := by
  unfold requireGovernanceMember at h
  simp only [bind_eq_ok, failIf_eq_ok, Bool.not_eq_false] at h
  obtain ⟨_, _, hmbr⟩ := h
  exact hmbr

theorem no_member {member : Addr} (hadm : w.admin = none) (hmu : w.multisig = none) :
    isGovernanceMember w member = false := by
  unfold isGovernanceMember
  rw [hadm, hmu]
  rfl

/-- The state the initialization leaves. -/
def initialized (w : World Addr) (admin : Addr) (version : Tag) (hash : BytesN 32) :
    World Addr :=
  let initial : ContractVersion Addr :=
    ⟨version, hash, w.sequence, initialDescription, admin, 0⟩
  recordVersion (recordVersion { w with
    admin := some admin
    paused := false
    wasmHash := some hash
    currentVersion := some initial
    versions := w.versions.set version initial } version) version

omit [DecidableEq Addr] in
theorem initializeContract_ok {admin : Addr} {version : Tag} {hash : BytesN 32}
    (h : initializeContract admin version hash w = .ok w') :
    w.admin = none ∧ w' = initialized w admin version hash := by
  unfold initializeContract at h
  simp only [bind_eq_ok, failIf_eq_ok, pure_eq_ok, not_isSome_iff_eq_none] at h
  obtain ⟨_, hnew, rfl⟩ := h
  exact ⟨hnew, rfl⟩

theorem setAdmin_ok {newAdmin : Addr} (h : setAdmin host call newAdmin w = .ok w') :
    w.admin ≠ none ∧ w' = { w with admin := some newAdmin } := by
  unfold setAdmin at h
  simp only [bind_eq_ok, pure_eq_ok] at h
  obtain ⟨_, _, admin, hadm, rfl⟩ := h
  exact ⟨by simp [requireAdmin_ok hadm], rfl⟩

theorem setMultisigConfig_ok {admins : List Addr} {threshold timelockDelay : Nat}
    (h : setMultisigConfig host call admins threshold timelockDelay w = .ok w') :
    w.admin ≠ none ∧ 0 < threshold ∧ 0 < timelockDelay ∧
      w' = { w with multisig := some ⟨admins, threshold, timelockDelay⟩ } := by
  unfold setMultisigConfig at h
  simp only [bind_eq_ok, failIf_eq_ok, pure_eq_ok, not_or] at h
  obtain ⟨_, _, admin, hadm, _, ⟨_, hth, _⟩, _, hdel, rfl⟩ := h
  exact ⟨by simp [requireAdmin_ok hadm], Nat.pos_of_ne_zero hth, Nat.pos_of_ne_zero hdel, rfl⟩

theorem pause_ok (h : pause host call w = .ok w') :
    w.admin ≠ none ∧ w' = { w with paused := true } := by
  unfold pause at h
  simp only [bind_eq_ok, pure_eq_ok] at h
  obtain ⟨admin, hadm, rfl⟩ := h
  exact ⟨by simp [requireAdmin_ok hadm], rfl⟩

theorem unpause_ok (h : unpause host call w = .ok w') :
    w.admin ≠ none ∧ w' = { w with paused := false } := by
  unfold unpause at h
  simp only [bind_eq_ok, pure_eq_ok] at h
  obtain ⟨admin, hadm, rfl⟩ := h
  exact ⟨by simp [requireAdmin_ok hadm], rfl⟩

/-! ## Proposals -/

omit [DecidableEq Addr] in
theorem startTimelock_ok {p p' : UpgradeProposal Addr} (h : startTimelock w p = .ok p') :
    p' = { p with eta := w.now + w.timelockDelay, status := .pendingTimelock } := by
  unfold startTimelock at h
  simp only [bind_eq_ok, orTrap_eq_ok, checked64_eq_some, pure_eq_ok] at h
  obtain ⟨_, ⟨_, rfl⟩, rfl⟩ := h
  rfl

/-- A proposal as it is stored when it is made. -/
structure Opened (w : World Addr) (proposer : Addr) (newVersion : Tag)
    (newWasmHash : BytesN 32) (p : UpgradeProposal Addr) : Prop where
  id : p.id = w.nextProposalId
  newVersion : p.newVersion = newVersion
  newWasmHash : p.newWasmHash = newWasmHash
  approvals : p.approvals = [proposer]
  validated : p.validated = false
  status : p.status = .proposed ∨ p.status = .pendingTimelock
  /-- The clock starts at once where one approval is enough. -/
  clock : p.eta ≠ 0 → w.threshold ≤ 1 ∧ p.eta = w.now + w.timelockDelay

theorem proposeUpgrade_ok {proposer : Addr} {newVersion : Tag} {newWasmHash : BytesN 32}
    {description : List UInt8} {plan : MigrationPlan}
    (h : proposeUpgrade host call proposer newVersion newWasmHash description plan w = .ok w') :
    isGovernanceMember w proposer = true ∧ checkNewer w newVersion = .ok () ∧
      ∃ p, Opened w proposer newVersion newWasmHash p ∧ w' = { w with
          proposals := w.proposals.set w.nextProposalId p
          nextProposalId := w.nextProposalId + 1 } := by
  unfold proposeUpgrade at h
  simp only [bind_eq_ok, orTrap_eq_ok, checked64_eq_some, pure_eq_ok] at h
  obtain ⟨_, _, _, hmbr, _, hnwr, _, _, p, hp, _, ⟨_, rfl⟩, rfl⟩ := h
  have hopd : Opened w proposer newVersion newWasmHash p := by
    split at hp
    · rename_i hone
      rw [startTimelock_ok hp]
      exact ⟨rfl, rfl, rfl, rfl, rfl, .inr rfl, fun _ => ⟨hone, rfl⟩⟩
    · rw [pure_eq_ok] at hp
      subst hp
      exact ⟨rfl, rfl, rfl, rfl, rfl, .inl rfl, fun heta => absurd rfl heta⟩
  refine ⟨requireGovernanceMember_ok hmbr, hnwr, p, hopd, ?_⟩
  unfold saveProposal
  rw [hopd.id]

def UpgradeProposal.Unfinished (p : UpgradeProposal Addr) : Prop :=
  p.status ≠ .executed ∧ p.status ≠ .rolledBack

/-- A proposal with one approval more. -/
structure Approved (w : World Addr) (approver : Addr) (p p' : UpgradeProposal Addr) :
    Prop where
  rest : p' = { p with approvals := p.approvals ++ [approver], eta := p'.eta, status := p'.status }
  status : p'.status = p.status ∨ p'.status = .approved ∨ p'.status = .pendingTimelock
  /-- The clock runs as it did, or starts where the approvals now suffice. -/
  clock : p'.eta = p.eta ∨
    p.eta = 0 ∧ w.threshold ≤ p.approvals.length + 1 ∧ p'.eta = w.now + w.timelockDelay

variable {proposalId : Nat}

theorem approveUpgrade_ok {approver : Addr} (h : approveUpgrade host call approver proposalId w = .ok w') :
    isGovernanceMember w approver = true ∧
      ∃ p p', w.proposals.get proposalId = some p ∧ p.Unfinished ∧ w.now ≤ p.expiresAt ∧
        approver ∉ p.approvals ∧ Approved w approver p p' ∧ w' = saveProposal w p' := by
  unfold approveUpgrade at h
  simp only [bind_eq_ok, failIf_eq_ok, pure_eq_ok, not_lt, not_or, Bool.not_eq_true, loadProposal,
    okOr_eq_ok] at h
  obtain ⟨_, _, _, hmbr, p, hp, _, hunf, _, hlv, _, hfst, p', hp', rfl⟩ := h
  have hlen : (p.approvals ++ [approver]).length = p.approvals.length + 1 := length_append
  refine ⟨requireGovernanceMember_ok hmbr, p, p', hp, hunf, hlv, ?_, ?_, rfl⟩
  · intro hmem
    rw [contains_iff_mem.mpr hmem] at hfst
    cases hfst
  · rcases ite_eq_iff.mp hp' with ⟨hsta, hp'⟩ | ⟨_, hp'⟩
    · rw [startTimelock_ok hp']
      exact ⟨rfl, .inr (.inr rfl), .inr ⟨hsta.1, hlen ▸ hsta.2, rfl⟩⟩
    · rcases ite_eq_iff.mp hp' with ⟨_, hp'⟩ | ⟨_, hp'⟩
      · rw [pure_eq_ok] at hp'
        subst hp'
        exact ⟨rfl, .inr (.inl rfl), .inl rfl⟩
      · rw [pure_eq_ok] at hp'
        subst hp'
        exact ⟨rfl, .inl rfl, .inl rfl⟩

theorem validateProposal_ok {caller : Addr} (h : validateProposal host call caller proposalId w = .ok w') :
    isGovernanceMember w caller = true ∧ ∃ p gas, w.proposals.get proposalId = some p ∧
      w' = saveProposal w { p with validated := true, estimatedGas := gas } := by
  unfold validateProposal at h
  simp only [bind_eq_ok, failIf_eq_ok, pure_eq_ok, loadProposal, okOr_eq_ok] at h
  obtain ⟨_, _, _, hmbr, p, hp, _, _, gas, _, rfl⟩ := h
  exact ⟨requireGovernanceMember_ok hmbr, p, gas, hp, rfl⟩

theorem requireReady_ok {status : ProposalStatus} {u : Unit} (h : requireReady status = .ok u) :
    status = .ready := by
  cases status with
  | ready => rfl
  | proposed | approved | pendingTimelock | executed | rolledBack | expired => cases h

variable {p : UpgradeProposal Addr}

omit [DecidableEq Addr] in
theorem effectiveStatus_ready {now : Nat} (hsto : p.status ≠ .ready) (h : effectiveStatus p now = .ready) :
    p.status.isTerminal = false ∧ now ≤ p.expiresAt ∧ p.eta ≠ 0 ∧ p.eta ≤ now := by
  unfold effectiveStatus at h
  rcases ite_eq_iff.mp h with ⟨_, h⟩ | ⟨hon, h⟩
  · exact absurd h hsto
  · rcases ite_eq_iff.mp h with ⟨_, h⟩ | ⟨hlv, h⟩
    · cases h
    · rcases ite_eq_iff.mp h with ⟨⟨_, hstd, hdue⟩, _⟩ | ⟨_, h⟩
      · exact ⟨Bool.eq_false_of_not_eq_true hon, Nat.le_of_not_lt hlv, Nat.ne_of_gt hstd, hdue⟩
      · exact absurd h hsto

/-- The version a proposal installs, as `execute_upgrade` stores it. -/
def UpgradeProposal.installed (p : UpgradeProposal Addr) (w : World Addr)
    (executor : Addr) : ContractVersion Addr where
  version := p.newVersion
  wasmHash := p.newWasmHash
  upgradeLedger := w.sequence
  description := p.description
  admin := executor
  rollbackDeadline := w.sequence + rollbackWindowLedgers

/-- What `execute_upgrade` leaves. -/
structure Executed (w : World Addr) (executor : Addr) (proposalId : Nat)
    (p : UpgradeProposal Addr) (w' : World Addr) : Prop where
  currentVersion : w'.currentVersion = some (p.installed w executor)
  wasmHash : w'.wasmHash = some p.newWasmHash
  deployed : w'.deployed = w.deployed ++ [p.newWasmHash]
  /-- What ran before can be restored under the proposal's number. -/
  rollbacks : w'.rollbacks = w.currentVersion.elim w.rollbacks fun prev =>
    w.rollbacks.set proposalId ⟨prev, w.sequence + rollbackWindowLedgers, true⟩
  proposals : ∃ p', w'.proposals = w.proposals.set p.id p' ∧ p' = { p with
    status := .executed
    previousVersion := p'.previousVersion
    previousWasmHash := p'.previousWasmHash
    executedLedger := p'.executedLedger
    rollbackDeadline := p'.rollbackDeadline }
  rest : w' = { w with
    currentVersion := w'.currentVersion
    versions := w'.versions
    versionIndex := w'.versionIndex
    proposals := w'.proposals
    rollbacks := w'.rollbacks
    wasmHash := w'.wasmHash
    deployed := w'.deployed }

theorem executeUpgrade_ok {executor : Addr} (h : executeUpgrade host call executor proposalId w = .ok w') :
    isGovernanceMember w executor = true ∧
      ∃ p, w.proposals.get proposalId = some p ∧ effectiveStatus p w.now = .ready ∧
        w.threshold ≤ p.approvals.length ∧ p.validated = true ∧
        Executed w executor proposalId p w' := by
  unfold executeUpgrade swapWasm at h
  simp only [bind_eq_ok, failIf_eq_ok, pure_eq_ok, loadProposal, okOr_eq_ok, orTrap_eq_ok,
    checked32_eq_some, not_lt, Bool.not_eq_false, trapUnless_eq_ok] at h
  obtain ⟨_, _, _, hmbr, p, hp, _, hrdy, _, hcnt, _, hvld, _, ⟨_, rfl⟩, _, ⟨_, _, rfl⟩, hw'⟩ := h
  refine ⟨requireGovernanceMember_ok hmbr, p, hp, requireReady_ok hrdy, hcnt, hvld, ?_⟩
  cases hpr : w.currentVersion with
  | none | some =>
    rw [hpr] at hw'
    subst hw'
    exact ⟨rfl, rfl, rfl, by rw [hpr]; rfl, ⟨_, rfl, rfl⟩, rfl⟩

theorem rollbackUpgrade_ok {executor : Addr} (h : rollbackUpgrade host call executor proposalId w = .ok w') :
    isGovernanceMember w executor = true ∧
      ∃ p record, w.proposals.get proposalId = some p ∧ p.status = .executed ∧
        w.rollbacks.get proposalId = some record ∧
        w' = saveProposal { w with
          currentVersion := some record.previousVersion
          rollbacks := w.rollbacks.remove proposalId
          wasmHash := some record.previousVersion.wasmHash
          deployed := w.deployed ++ [record.previousVersion.wasmHash] }
          { p with status := .rolledBack } := by
  unfold rollbackUpgrade swapWasm at h
  simp only [bind_eq_ok, failIf_eq_ok, pure_eq_ok, loadProposal, okOr_eq_ok, not_not, trapUnless_eq_ok] at h
  obtain ⟨_, _, _, hmbr, p, hp, _, hexd, record, hrec, _, _, _, _, _, ⟨_, _, rfl⟩, rfl⟩ := h
  exact ⟨requireGovernanceMember_ok hmbr, p, record, hp, hexd, hrec, rfl⟩

/-! ## Sweeping -/

/-- The proposals are numbered in order, and each is stored under its number. -/
def Numbered (w : World Addr) : Prop :=
  ∀ id p, w.proposals.get id = some p → p.id = id ∧ id < w.nextProposalId

omit [DecidableEq Addr] in
theorem Numbered.next (hnum : Numbered w) : w.proposals.get w.nextProposalId = none := by
  cases hp : w.proposals.get w.nextProposalId with
  | none => rfl
  | some p => exact absurd (hnum _ p hp).2 (Nat.lt_irrefl _)

/-- What a sweep may do to a proposal: nothing, or mark it as expired once it is. -/
def Swept (now : Nat) (before after : Option (UpgradeProposal Addr)) : Prop :=
  after = before ∨ ∃ p, before = some p ∧ p.status.isTerminal = false ∧ p.expiresAt < now ∧
    after = some { p with status := .expired }

section

omit [DecidableEq Addr]

theorem sweepOne_cases (now : Nat) (acc : World Addr × Nat) (id : Nat) :
    sweepOne now acc id = acc ∨
      ∃ p, acc.1.proposals.get id = some p ∧ p.status.isTerminal = false ∧ p.expiresAt < now ∧
        sweepOne now acc id = (saveProposal acc.1 { p with status := .expired }, acc.2 + 1) := by
  unfold sweepOne
  split
  · split
    · rename_i p hp
      split
      · rename_i hdue
        exact .inr ⟨p, hp, hdue.1, hdue.2, rfl⟩
      · exact .inl rfl
    · exact .inl rfl
  · exact .inl rfl

theorem sweep_foldl (hnum : Numbered w) (ids : List Nat) (acc : World Addr × Nat)
    (hrst : acc.1 = { w with proposals := acc.1.proposals })
    (hswe : ∀ id, Swept w.now (w.proposals.get id) (acc.1.proposals.get id)) :
    (ids.foldl (sweepOne w.now) acc).1 =
        { w with proposals := (ids.foldl (sweepOne w.now) acc).1.proposals } ∧
      ∀ id, Swept w.now (w.proposals.get id) ((ids.foldl (sweepOne w.now) acc).1.proposals.get id) := by
  induction ids generalizing acc with
  | nil => exact ⟨hrst, hswe⟩
  | cons id ids ih =>
    rw [foldl_cons]
    rcases sweepOne_cases w.now acc id with hnth | ⟨p, hp, hon, hdue, hmkd⟩
    · rw [hnth]
      exact ih acc hrst hswe
    · -- an open proposal has not been marked before, so it is the one stored at first
      have hsto : w.proposals.get id = some p := by
        rcases hswe id with hkpt | ⟨q, _, _, _, hq⟩
        · exact hkpt.symm.trans hp
        · rw [hp] at hq
          rw [some.inj hq] at hon
          cases hon
      rw [hmkd]
      refine ih _ ?_ ?_
      · unfold saveProposal
        rw [hrst]
      · intro other
        obtain rfl := (hnum id p hsto).1
        unfold saveProposal
        dsimp only
        by_cases hoth : other = p.id
        · rw [hoth, get_set_self]
          exact .inr ⟨p, hsto, hon, hdue, rfl⟩
        · rw [get_set_ne _ _ hoth]
          exact hswe other

end

theorem sweepExpiredProposals_ok {caller : Addr} (hnum : Numbered w)
    (h : sweepExpiredProposals host call caller w = .ok w') :
    isGovernanceMember w caller = true ∧ w' = { w with proposals := w'.proposals } ∧
      ∀ id, Swept w.now (w.proposals.get id) (w'.proposals.get id) := by
  unfold sweepExpiredProposals at h
  simp only [bind_eq_ok, pure_eq_ok] at h
  obtain ⟨_, hmbr, rfl⟩ := h
  exact ⟨requireGovernanceMember_ok hmbr, sweep_foldl hnum _ (w, 0) rfl fun _ => .inl rfl⟩

/-! ## What a step makes of one proposal -/

def Op.about (w : World Addr) : Op Addr → Option Nat
  | .proposeUpgrade .. => some w.nextProposalId
  | .approveUpgrade _ id | .validateProposal _ id | .executeUpgrade _ id | .rollbackUpgrade _ id =>
    some id
  | .initializeContract .. | .setAdmin _ | .setMultisigConfig .. | .pause | .unpause
  | .sweepExpiredProposals _ => none

/-- What a call in the state `w` may make of the proposal stored under `id`. -/
inductive Change (w : World Addr) (id : Nat) :
    Op Addr → Option (UpgradeProposal Addr) → Option (UpgradeProposal Addr) → Prop
  | kept {op o} (hother : op.about w ≠ some id) : Change w id op o o
  | opened {proposer version hash description plan p} (hid : id = w.nextProposalId)
      (hmember : isGovernanceMember w proposer = true) (hnewer : checkNewer w version = .ok ())
      (hopened : Opened w proposer version hash p) :
      Change w id (.proposeUpgrade proposer version hash description plan) none (some p)
  | approved {approver p p'} (hmember : isGovernanceMember w approver = true)
      (hunfinished : p.Unfinished) (hlive : w.now ≤ p.expiresAt) (hfirst : approver ∉ p.approvals)
      (happroved : Approved w approver p p') :
      Change w id (.approveUpgrade approver id) (some p) (some p')
  | validated {caller p gas} :
      Change w id (.validateProposal caller id) (some p)
        (some { p with validated := true, estimatedGas := gas })
  | executed {executor p p'} (hready : effectiveStatus p w.now = .ready)
      (hcount : w.threshold ≤ p.approvals.length) (hvalidated : p.validated = true)
      (hp' : p' = { p with
        status := .executed
        previousVersion := p'.previousVersion
        previousWasmHash := p'.previousWasmHash
        executedLedger := p'.executedLedger
        rollbackDeadline := p'.rollbackDeadline }) :
      Change w id (.executeUpgrade executor id) (some p) (some p')
  | rolledBack {executor p} (hexecuted : p.status = .executed) :
      Change w id (.rollbackUpgrade executor id) (some p) (some { p with status := .rolledBack })
  | expired {caller p} (hopen : p.status.isTerminal = false) (hlate : p.expiresAt < w.now) :
      Change w id (.sweepExpiredProposals caller) (some p) (some { p with status := .expired })

/-- What stays the same about a proposal as long as it is stored. -/
structure SameTerms (p p' : UpgradeProposal Addr) : Prop where
  id : p'.id = p.id
  newVersion : p'.newVersion = p.newVersion
  newWasmHash : p'.newWasmHash = p.newWasmHash
  expiresAt : p'.expiresAt = p.expiresAt

variable {op : Op Addr} {p' : UpgradeProposal Addr}

theorem Change.origin {id : Nat} {o : Option (UpgradeProposal Addr)} (h : Change w id op o (some p')) :
    (id = w.nextProposalId ∧ ∃ proposer version hash description plan,
      op = .proposeUpgrade proposer version hash description plan ∧
        isGovernanceMember w proposer = true ∧ checkNewer w version = .ok () ∧
        Opened w proposer version hash p') ∨
      ∃ p, o = some p ∧ SameTerms p p' := by
  cases h with
  | kept => exact .inr ⟨p', rfl, rfl, rfl, rfl, rfl⟩
  | opened hid hmbr hnwr hopd =>
    exact .inl ⟨hid, _, _, _, _, _, rfl, hmbr, hnwr, hopd⟩
  | approved hmbr hunf hlv hfst hapr =>
    rw [hapr.rest]
    exact .inr ⟨_, rfl, rfl, rfl, rfl, rfl⟩
  | validated | rolledBack | expired => exact .inr ⟨_, rfl, rfl, rfl, rfl, rfl⟩
  | executed hrdy hcnt hvld hp' =>
    rw [hp']
    exact .inr ⟨_, rfl, rfl, rfl, rfl, rfl⟩

theorem change_set {target : Nat} (habo : op.about w = some target)
    (hchg : Change w target op (w.proposals.get target) (some p')) (id : Nat) :
    Change w id op (w.proposals.get id) ((w.proposals.set target p').get id) := by
  by_cases hid : id = target
  · subst hid
    rw [get_set_self]
    exact hchg
  · rw [get_set_ne _ _ hid]
    refine .kept ?_
    rw [habo]
    intro he
    exact hid (some.inj he).symm

theorem exec_change (hnum : Numbered w) (h : exec host call op w = .ok w')
    (id : Nat) : Change w id op (w.proposals.get id) (w'.proposals.get id) := by
  cases op with
  | initializeContract =>
    obtain ⟨_, rfl⟩ := initializeContract_ok h
    exact .kept nofun
  | setAdmin =>
    obtain ⟨_, rfl⟩ := setAdmin_ok h
    exact .kept nofun
  | setMultisigConfig =>
    obtain ⟨_, _, _, rfl⟩ := setMultisigConfig_ok h
    exact .kept nofun
  | pause =>
    obtain ⟨_, rfl⟩ := pause_ok h
    exact .kept nofun
  | unpause =>
    obtain ⟨_, rfl⟩ := unpause_ok h
    exact .kept nofun
  | proposeUpgrade =>
    obtain ⟨hmbr, hnwr, p, hopd, rfl⟩ := proposeUpgrade_ok h
    exact change_set rfl (hnum.next ▸ .opened rfl hmbr hnwr hopd) id
  | approveUpgrade approver proposalId =>
    obtain ⟨hmbr, p, p', hp, hunf, hlv, hfst, hapr, rfl⟩ := approveUpgrade_ok h
    have hid : p'.id = proposalId := by rw [hapr.rest]; exact (hnum _ p hp).1
    unfold saveProposal
    rw [hid]
    exact change_set rfl (hp ▸ .approved hmbr hunf hlv hfst hapr) id
  | validateProposal =>
    obtain ⟨_, p, gas, hp, rfl⟩ := validateProposal_ok h
    obtain rfl := (hnum _ p hp).1
    unfold saveProposal
    exact change_set rfl (hp ▸ .validated) id
  | executeUpgrade =>
    obtain ⟨_, p, hp, hrdy, hcnt, hvld, hexd⟩ := executeUpgrade_ok h
    obtain ⟨p', hpps, hp'⟩ := hexd.proposals
    rw [hpps, (hnum _ p hp).1]
    exact change_set rfl (hp ▸ .executed hrdy hcnt hvld hp') id
  | rollbackUpgrade =>
    obtain ⟨_, p, record, hp, hexd, _, rfl⟩ := rollbackUpgrade_ok h
    obtain rfl := (hnum _ p hp).1
    unfold saveProposal
    exact change_set rfl (hp ▸ .rolledBack hexd) id
  | sweepExpiredProposals =>
    obtain ⟨_, _, hswe⟩ := sweepExpiredProposals_ok hnum h
    rcases hswe id with hkpt | ⟨p, hp, hon, hla, hexp⟩
    · rw [hkpt]
      exact .kept nofun
    · rw [hp, hexp]
      exact .expired hon hla

/-! ## Open proposals -/

/-- Not executed, rolled back or expired. -/
def UpgradeProposal.Open (p : UpgradeProposal Addr) (now : Nat) : Prop :=
  p.status.isTerminal = false ∧ now ≤ p.expiresAt

instance (p : UpgradeProposal Addr) (now : Nat) : Decidable (p.Open now) :=
  inferInstanceAs (Decidable (_ ∧ _))

/-- The stored proposals that may still be executed. -/
def World.openProposals (w : World Addr) : List (UpgradeProposal Addr) :=
  (w.proposals.entries.map fun e => e.2).filter fun p => p.Open w.now

section

omit [DecidableEq Addr]

theorem mem_openProposals :
    p ∈ w.openProposals ↔ (∃ id, w.proposals.get id = some p) ∧ p.Open w.now := by
  unfold World.openProposals
  rw [mem_filter, decide_eq_true_eq, List.mem_map]
  refine and_congr_left' ⟨?_, ?_⟩
  · intro h
    obtain ⟨⟨id, _⟩, hmem, rfl⟩ := h
    exact ⟨id, mem_entries.mp hmem⟩
  · intro h
    obtain ⟨id, hp⟩ := h
    exact ⟨⟨id, p⟩, mem_entries.mpr hp, rfl⟩

theorem UpgradeProposal.Unfinished.isOpen (h : p.Unfinished)
    (hexp : p.status ≠ .expired) : p.status.isTerminal = false := by
  cases hst : p.status with
  | proposed | approved | pendingTimelock | ready => rfl
  | executed => exact absurd hst h.1
  | rolledBack => exact absurd hst h.2
  | expired => exact absurd hst hexp

theorem UpgradeProposal.Unfinished.of_isOpen (h : p.status.isTerminal = false) : p.Unfinished := by
  refine ⟨?_, ?_⟩
  · intro hst
    rw [hst] at h
    cases h
  · intro hst
    rw [hst] at h
    cases h

end

def Late (w : World Addr) : Prop :=
  ∀ id p, w.proposals.get id = some p → p.status = .expired → p.expiresAt < w.now

theorem exec_open {id : Nat} (hnum : Numbered w) (hla : Late w) (h : exec host call op w = .ok w')
    (hp' : w'.proposals.get id = some p') (hon : p'.Open w.now) :
    (∃ proposer version hash description plan, op = .proposeUpgrade proposer version hash description plan ∧
        checkNewer w version = .ok () ∧ Opened w proposer version hash p') ∨
      ∃ p, w.proposals.get id = some p ∧ p.Open w.now ∧ SameTerms p p' ∧
        ∀ executor, op ≠ .executeUpgrade executor id := by
  have hchg := hp' ▸ exec_change hnum h id
  rcases hchg.origin with ⟨_, proposer, version, hash, description, plan, hop, _, hnwr, hopd⟩ |
    ⟨p, hp, htrm⟩
  · exact .inl ⟨proposer, version, hash, description, plan, hop, hnwr, hopd⟩
  · rw [hp] at hchg
    refine .inr ⟨p, hp, ?_, htrm, ?_⟩
    · refine ⟨?_, htrm.expiresAt ▸ hon.2⟩
      cases hchg with
      | kept | validated => exact hon.1
      | approved hmbr hunf =>
        refine hunf.isOpen ?_
        intro hexp
        have := hla id p hp hexp
        omega
      | executed hrdy hcnt hvld hp' =>
        have hter := hon.1
        rw [hp'] at hter
        cases hter
      | rolledBack => cases hon.1
      | expired hon' => exact hon'
    · intro executor hop
      subst hop
      cases hchg with
      | kept hoth => exact hoth rfl
      | executed hrdy hcnt hvld hp' =>
        have hter := hon.1
        rw [hp'] at hter
        cases hter

/-! ## Who governs -/

/-- The state with the administrator and the settings that a call puts in force. -/
def Op.governed (w : World Addr) : Op Addr → World Addr
  | .initializeContract admin _ _ => { w with admin := some admin }
  | .setAdmin newAdmin => { w with admin := some newAdmin }
  | .setMultisigConfig admins threshold timelockDelay =>
    { w with multisig := some ⟨admins, threshold, timelockDelay⟩ }
  | .pause | .unpause | .proposeUpgrade .. | .approveUpgrade .. | .validateProposal ..
  | .executeUpgrade .. | .rollbackUpgrade .. | .sweepExpiredProposals _ => w

omit [DecidableEq Addr] in
theorem governed_admin (h : (op.governed w).admin = none) :
    (∀ admin version hash, op ≠ .initializeContract admin version hash) ∧ w.admin = none := by
  cases op with
  | initializeContract | setAdmin => cases h
  | setMultisigConfig | pause | unpause | proposeUpgrade | approveUpgrade | validateProposal
  | executeUpgrade | rollbackUpgrade | sweepExpiredProposals => exact ⟨nofun, h⟩

/-- The number the next proposal gets after a call. -/
def Op.nextId (w : World Addr) : Op Addr → Nat
  | .proposeUpgrade .. => w.nextProposalId + 1
  | .initializeContract .. | .setAdmin _ | .setMultisigConfig .. | .pause | .unpause
  | .approveUpgrade .. | .validateProposal .. | .executeUpgrade .. | .rollbackUpgrade ..
  | .sweepExpiredProposals _ => w.nextProposalId

/-- What a call leaves of the parts of the state that are not about one proposal. -/
structure Frame (w : World Addr) (op : Op Addr) (w' : World Addr) : Prop where
  now : w'.now = w.now
  sequence : w'.sequence = w.sequence
  admin : w'.admin = (op.governed w).admin
  multisig : w'.multisig = (op.governed w).multisig
  nextId : w'.nextProposalId = op.nextId w
  /-- Only the initialization works without an administrator or a member. -/
  authorized : (∃ admin version hash, op = .initializeContract admin version hash ∧ w.admin = none) ∨
    w.admin ≠ none ∨ ∃ member, isGovernanceMember w member = true

theorem exec_frame (hnum : Numbered w) (h : exec host call op w = .ok w') :
    Frame w op w' := by
  cases op with
  | initializeContract =>
    obtain ⟨hnew, rfl⟩ := initializeContract_ok h
    exact ⟨rfl, rfl, rfl, rfl, rfl, .inl ⟨_, _, _, rfl, hnew⟩⟩
  | setAdmin =>
    obtain ⟨hadm, rfl⟩ := setAdmin_ok h
    exact ⟨rfl, rfl, rfl, rfl, rfl, .inr (.inl hadm)⟩
  | setMultisigConfig =>
    obtain ⟨hadm, _, _, rfl⟩ := setMultisigConfig_ok h
    exact ⟨rfl, rfl, rfl, rfl, rfl, .inr (.inl hadm)⟩
  | pause =>
    obtain ⟨hadm, rfl⟩ := pause_ok h
    exact ⟨rfl, rfl, rfl, rfl, rfl, .inr (.inl hadm)⟩
  | unpause =>
    obtain ⟨hadm, rfl⟩ := unpause_ok h
    exact ⟨rfl, rfl, rfl, rfl, rfl, .inr (.inl hadm)⟩
  | proposeUpgrade =>
    obtain ⟨hmbr, _, p, _, rfl⟩ := proposeUpgrade_ok h
    exact ⟨rfl, rfl, rfl, rfl, rfl, .inr (.inr ⟨_, hmbr⟩)⟩
  | approveUpgrade =>
    obtain ⟨hmbr, _, _, _, _, _, _, _, rfl⟩ := approveUpgrade_ok h
    exact ⟨rfl, rfl, rfl, rfl, rfl, .inr (.inr ⟨_, hmbr⟩)⟩
  | validateProposal =>
    obtain ⟨hmbr, _, _, _, rfl⟩ := validateProposal_ok h
    exact ⟨rfl, rfl, rfl, rfl, rfl, .inr (.inr ⟨_, hmbr⟩)⟩
  | executeUpgrade =>
    obtain ⟨hmbr, _, _, _, _, _, hexd⟩ := executeUpgrade_ok h
    rw [hexd.rest]
    exact ⟨rfl, rfl, rfl, rfl, rfl, .inr (.inr ⟨_, hmbr⟩)⟩
  | rollbackUpgrade =>
    obtain ⟨hmbr, _, _, _, _, _, rfl⟩ := rollbackUpgrade_ok h
    exact ⟨rfl, rfl, rfl, rfl, rfl, .inr (.inr ⟨_, hmbr⟩)⟩
  | sweepExpiredProposals =>
    obtain ⟨hmbr, hrst, _⟩ := sweepExpiredProposals_ok hnum h
    rw [hrst]
    exact ⟨rfl, rfl, rfl, rfl, rfl, .inr (.inr ⟨_, hmbr⟩)⟩

/-! ## Which code runs -/

/-- Does a call put code in place? -/
def Op.installs : Op Addr → Bool
  | .initializeContract .. | .executeUpgrade .. | .rollbackUpgrade .. => true
  | .setAdmin _ | .setMultisigConfig .. | .pause | .unpause | .proposeUpgrade ..
  | .approveUpgrade .. | .validateProposal .. | .sweepExpiredProposals _ => false

/-- The same code runs, and the same can be restored. -/
structure SameCode (w w' : World Addr) : Prop where
  currentVersion : w'.currentVersion = w.currentVersion
  rollbacks : w'.rollbacks = w.rollbacks
  wasmHash : w'.wasmHash = w.wasmHash
  deployed : w'.deployed = w.deployed

theorem exec_sameCode (hnum : Numbered w) (h : exec host call op w = .ok w')
    (hop : op.installs = false) : SameCode w w' := by
  cases op with
  | initializeContract | executeUpgrade | rollbackUpgrade => cases hop
  | setAdmin =>
    obtain ⟨_, rfl⟩ := setAdmin_ok h
    exact ⟨rfl, rfl, rfl, rfl⟩
  | setMultisigConfig =>
    obtain ⟨_, _, _, rfl⟩ := setMultisigConfig_ok h
    exact ⟨rfl, rfl, rfl, rfl⟩
  | pause =>
    obtain ⟨_, rfl⟩ := pause_ok h
    exact ⟨rfl, rfl, rfl, rfl⟩
  | unpause =>
    obtain ⟨_, rfl⟩ := unpause_ok h
    exact ⟨rfl, rfl, rfl, rfl⟩
  | proposeUpgrade =>
    obtain ⟨_, _, p, _, rfl⟩ := proposeUpgrade_ok h
    exact ⟨rfl, rfl, rfl, rfl⟩
  | approveUpgrade =>
    obtain ⟨_, _, _, _, _, _, _, _, rfl⟩ := approveUpgrade_ok h
    exact ⟨rfl, rfl, rfl, rfl⟩
  | validateProposal =>
    obtain ⟨_, _, _, _, rfl⟩ := validateProposal_ok h
    exact ⟨rfl, rfl, rfl, rfl⟩
  | sweepExpiredProposals =>
    obtain ⟨_, hrst, _⟩ := sweepExpiredProposals_ok hnum h
    rw [hrst]
    exact ⟨rfl, rfl, rfl, rfl⟩

theorem Numbered.exec (hnum : Numbered w) (h : exec host call op w = .ok w') :
    Numbered w' := by
  have hfrm := exec_frame hnum h
  have hmo : w.nextProposalId ≤ w'.nextProposalId := by
    rw [hfrm.nextId]
    cases op <;> first | exact le_rfl | exact Nat.le_succ _
  intro id p' hp'
  rcases (hp' ▸ exec_change hnum h id).origin with
    ⟨hid, _, _, _, _, _, rfl, _, _, hopd⟩ | ⟨p, hp, htrm⟩
  · rw [hfrm.nextId, hopd.id]
    exact ⟨hid.symm, hid ▸ Nat.lt_succ_self _⟩
  · have := hnum id p hp
    have := htrm.id
    omega

theorem exec_first (hin : w = World.init w.now w.sequence) (h : exec host call op w = .ok w') :
    ∃ admin version hash, op = .initializeContract admin version hash := by
  have hnum : Numbered w := by
    rw [hin]
    intro id p hp
    cases hp
  rcases (exec_frame hnum h).authorized with ⟨admin, version, hash, hop, _⟩ | hset | ⟨member, hmbr⟩
  · exact ⟨admin, version, hash, hop⟩
  · rw [hin] at hset
    exact absurd rfl hset
  · rw [hin, no_member rfl rfl] at hmbr
    cases hmbr

section Run

variable {guard : World Addr → Event Addr → Prop}

theorem numbered_reachable (h : (system host).Reachable guard w) : Numbered w := by
  refine System.Reachable.invariant ?_ ?_ h
  · intro w h0
    obtain ⟨now, sequence, rfl⟩ := h0
    intro id p hp
    cases hp
  · intro w e w' _ _ hnum hs
    cases e with
    | close =>
      rw [step_close] at hs
      subst hs
      exact hnum
    | invoke => exact hnum.exec (step_invoke.mp hs)

theorem untouched_reachable (h : (system host).Reachable guard w) (hadm : w.admin = none) :
    w = World.init w.now w.sequence := by
  revert hadm
  refine System.Reachable.invariant (I := fun w => w.admin = none → w = World.init w.now w.sequence)
    ?_ ?_ h
  · intro w h0 _
    obtain ⟨now, sequence, rfl⟩ := h0
    rfl
  · intro w e w' hr _ hin hs hadm
    cases e with
    | close =>
      rw [step_close] at hs
      subst hs
      rw [hin hadm]
      rfl
    | invoke =>
      have hfrm := exec_frame (numbered_reachable hr) (step_invoke.mp hs)
      obtain ⟨hnot, hold⟩ := governed_admin (hfrm.admin.symm.trans hadm)
      obtain ⟨admin, version, hash, hop⟩ := exec_first (hin hold) (step_invoke.mp hs)
      exact absurd hop (hnot admin version hash)

theorem running_reachable (h : (system host).Reachable guard w) (hcur : w.currentVersion = none) :
    w.admin = none := by
  revert hcur
  refine System.Reachable.invariant (I := fun w => w.currentVersion = none → w.admin = none) ?_ ?_ h
  · intro w h0 _
    obtain ⟨now, sequence, rfl⟩ := h0
    rfl
  · intro w e w' hr _ hno hs hcur
    cases e with
    | close =>
      rw [step_close] at hs
      subst hs
      exact hno hcur
    | invoke call op =>
      have hok := step_invoke.mp hs
      cases hop : op.installs with
      | false =>
        rw [(exec_sameCode (numbered_reachable hr) hok hop).currentVersion] at hcur
        have hin := untouched_reachable hr (hno hcur)
        obtain ⟨admin, version, hash, rfl⟩ := exec_first hin hok
        cases hop
      | true =>
        cases op with
        | setAdmin | setMultisigConfig | pause | unpause | proposeUpgrade | approveUpgrade
        | validateProposal | sweepExpiredProposals => cases hop
        | initializeContract =>
          obtain ⟨_, rfl⟩ := initializeContract_ok hok
          cases hcur
        | executeUpgrade =>
          obtain ⟨_, p, _, _, _, _, hexd⟩ := executeUpgrade_ok hok
          rw [hexd.currentVersion] at hcur
          cases hcur
        | rollbackUpgrade =>
          obtain ⟨_, p, record, _, _, _, rfl⟩ := rollbackUpgrade_ok hok
          cases hcur

theorem now_mono (hg : ∀ w e, guard w e → ClockMonotone w e) (hr : (system host).Reachable guard w)
    (h : (system host).Run guard w w') : w.now ≤ w'.now := by
  refine System.Run.invariant (I := fun w₁ => w.now ≤ w₁.now) h le_rfl ?_
  intro w₁ e w₂ hrun hge hle hs
  cases e with
  | close =>
    rw [step_close] at hs
    subst hs
    exact Nat.le_trans hle (hg _ _ hge).1
  | invoke =>
    rw [(exec_frame (numbered_reachable (hr.run hrun)) (step_invoke.mp hs)).now]
    exact hle

theorem late_reachable (hg : ∀ w e, guard w e → ClockMonotone w e)
    (h : (system host).Reachable guard w) : Late w := by
  refine System.Reachable.invariant ?_ ?_ h
  · intro w h0
    obtain ⟨now, sequence, rfl⟩ := h0
    intro id p hp
    cases hp
  · intro w e w' hr hge hla hs
    cases e with
    | close =>
      rw [step_close] at hs
      subst hs
      exact fun id p hp hexp => Nat.lt_of_lt_of_le (hla id p hp hexp) (hg _ _ hge).1
    | invoke =>
      have hok := step_invoke.mp hs
      intro id p' hp' hexp
      have hchg := hp' ▸ exec_change (numbered_reachable hr) hok id
      rw [(exec_frame (numbered_reachable hr) hok).now]
      generalize hp : w.proposals.get id = o at hchg
      cases hchg with
      | kept => exact hla id p' hp hexp
      | opened hid hmbr hnwr hopd =>
        rcases hopd.status with hst | hst
        · cases hst.symm.trans hexp
        · cases hst.symm.trans hexp
      | @approved approver p p' hmbr hunf hlv hfst hapr =>
        rw [hapr.rest]
        rcases hapr.status with hst | hst | hst
        · exact hla id p hp (hst.symm.trans hexp)
        · cases hst.symm.trans hexp
        · cases hst.symm.trans hexp
      | @validated caller p gas => exact hla id p hp hexp
      | executed hrdy hcnt hvld hp' =>
        rw [hp'] at hexp
        cases hexp
      | rolledBack => cases hexp
      | expired hon hla' => exact hla'

end Run

end AiNet.UpgradeManager
