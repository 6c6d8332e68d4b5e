import AiNet.Core.Host
import AiNet.Core.Machine
import AiNet.Core.Storage
import AiNet.Core.SemVer
import AiNet.Core.Transition

/-!
# Upgrade manager types

The records and error codes of `upgrade-manager/src/lib.rs`. Texts are byte strings.
Events and rent extension are left out: nothing reads them back.

`deployed` is ours: it lists every hash handed to the deployer, in order, which the host
keeps outside the contract's storage. No function reads it.
-/

namespace AiNet.UpgradeManager

open Core List Option

/-! ## Constants -/

def rollbackWindowLedgers : Nat := 34560
def defaultTimelockDelay : Nat := 86400
def defaultProposalExpiry : Nat := 604800
def defaultThreshold : Nat := 1
def maxSweepProposals : Nat := 50
def maxVersionHistory : Nat := 100
def gasUpgradeBase : Nat := 500000
def gasMigrationPerItem : Nat := 10000
def gasMigrationStepOverhead : Nat := 5000

/-- The error codes the modelled functions return. -/
inductive UpgradeError where
  | unauthorized | invalidVersion | noProposal | proposalNotValidated | rollbackDeadlineExpired
  | noRollbackAvailable | downgradeNotAllowed | contractPaused | malformedVersion | alreadyApproved
  | insufficientApprovals | timelockNotElapsed | proposalExpired | proposalAlreadyExecuted
  | invalidMultisigConfig
  deriving DecidableEq

/-! ## Records -/

abbrev Tag := List UInt8

structure ContractVersion (Addr : Type) where
  version : Tag
  wasmHash : BytesN 32
  upgradeLedger : Nat
  description : List UInt8
  admin : Addr
  rollbackDeadline : Nat
  deriving DecidableEq

structure MigrationPlan where
  preMigrationChecks : List (List UInt8)
  dataTransformations : List (List UInt8)
  postMigrationValidations : List (List UInt8)
  estimatedItems : Nat
  deriving DecidableEq

structure RollbackRecord (Addr : Type) where
  previousVersion : ContractVersion Addr
  rollbackDeadline : Nat
  canRollback : Bool
  deriving DecidableEq

structure MultisigConfig (Addr : Type) where
  admins : List Addr
  threshold : Nat
  timelockDelay : Nat
  deriving DecidableEq

/-- `ProposalStatus`; `ready` is never stored. -/
inductive ProposalStatus where
  | proposed
  | approved
  | pendingTimelock
  | ready
  | executed
  | rolledBack
  | expired
  deriving DecidableEq

/-- `ProposalStatus::is_terminal`. -/
def ProposalStatus.isTerminal : ProposalStatus → Bool
  | .executed | .rolledBack | .expired => true
  | .proposed | .approved | .pendingTimelock | .ready => false

structure UpgradeProposal (Addr : Type) where
  id : Nat
  proposer : Addr
  newVersion : Tag
  newWasmHash : BytesN 32
  description : List UInt8
  migrationPlan : MigrationPlan
  createdAt : Nat
  /-- When it may be executed; `0` until the approval threshold is reached. -/
  eta : Nat
  expiresAt : Nat
  approvals : List Addr
  status : ProposalStatus
  validated : Bool
  estimatedGas : Nat
  previousVersion : Tag
  previousWasmHash : BytesN 32
  executedLedger : Nat
  rollbackDeadline : Nat
  deriving DecidableEq

/-! ## The world a call runs in -/

/-- The contract's storage, the ledger's clock and number, and the hashes swapped in. -/
structure World (Addr : Type) where
  /-- `env.ledger().timestamp()`. -/
  now : Nat
  /-- `env.ledger().sequence()`. -/
  sequence : Nat
  admin : Option Addr
  paused : Bool
  multisig : Option (MultisigConfig Addr)
  nextProposalId : Nat
  currentVersion : Option (ContractVersion Addr)
  versions : Storage Tag (ContractVersion Addr)
  versionIndex : List Tag
  proposals : Storage Nat (UpgradeProposal Addr)
  rollbacks : Storage Nat (RollbackRecord Addr)
  /-- What is stored under `wasm_hash`. -/
  wasmHash : Option (BytesN 32)
  deployed : List (BytesN 32)

/-- The contract as deployed, before any call. -/
def World.init {Addr : Type} (now sequence : Nat) : World Addr where
  now := now
  sequence := sequence
  admin := none
  paused := false
  multisig := none
  nextProposalId := 1
  currentVersion := none
  versions := ∅
  versionIndex := []
  proposals := ∅
  rollbacks := ∅
  wasmHash := none
  deployed := []

/-!
## Comparing version tags

The parser and the comparison of `strutil.rs`. They compute the precedence of version
tags in 32-bit numbers. A component of the version proper that does not fit makes the
tag malformed; an identifier of a pre-release that does not fit is compared as a text,
which orders it differently, so the two agree on the tags whose numbers all fit.
-/

open Core AiNet.Core.SemVer

def maxTagLen : Nat := 64
def maxVersionComponents : Nat := 8

/-- One step of `parse_numeric`: append a digit, if the value stays an `u32`. -/
def pushDigit (value : Nat) (b : UInt8) : Option Nat :=
  if isDigit b = true then (checked32 (value * 10)).bind fun v => checked32 (v + digit b) else none

def parseNumeric (bytes : List UInt8) : Option Nat :=
  if bytes = [] then none else bytes.foldlM pushDigit 0

/-- `ParsedVersion`; its `count` is the length of `parts`. -/
structure ParsedVersion where
  parts : List Nat
  /-- The pre-release, empty for a release. -/
  pre : List UInt8

def parseVersion (bytes : List UInt8) : Option ParsedVersion :=
  let (withoutBuild, build) := splitFirst (ascii '+') bytes
  let badBuild := build.any fun build => build.isEmpty ||
    !build.all fun b => isDigit b || isLetter b || b == ascii '.' || b == ascii '-'
  let (core, pre) := splitFirst (ascii '-') withoutBuild
  let badPre := pre.any fun pre => pre.isEmpty ||
    !(pre.splitOn (ascii '.')).all fun ident => !ident.isEmpty &&
      ident.all fun b => isDigit b || isLetter b || b == ascii '-'
  let components := core.splitOn (ascii '.')
  if badBuild = true ∨ badPre = true ∨ maxVersionComponents < components.length then none
  else (components.mapM parseNumeric).map fun parts => ⟨parts, pre.getD []⟩

/-- The comparison of two identifiers in `compare_pre_release`. -/
def compareIdentifiers (x y : List UInt8) : Ordering :=
  match parseNumeric x, parseNumeric y with
  | some nx, some ny => compare nx ny
  | some _, none => .lt
  | none, some _ => .gt
  | none, none => compare x y

def comparePreRelease (a b : List UInt8) : Ordering :=
  if a = [] then if b = [] then .eq else .gt
  else if b = [] then .lt
  else (a.splitOn (ascii '.')).compareLex compareIdentifiers (b.splitOn (ascii '.'))

def compareVersionBytes (a b : List UInt8) : Option Ordering := do
  let va ← parseVersion a
  let vb ← parseVersion b
  -- component by component; beyond its components a version holds zeros
  pure ((orderCore va.parts vb.parts).then (comparePreRelease va.pre vb.pre))

def compareVersions (a b : Tag) : Option Ordering :=
  if maxTagLen < a.length ∨ maxTagLen < b.length then none else compareVersionBytes a b

def isVersionNewer (current proposed : Tag) : Outcome UpgradeError Bool :=
  (okOr (compareVersions proposed current) .malformedVersion).map fun ord => ord == .gt

/-! ## Agreement with the precedence of version tags -/

/-- Numbers of a pre-release are at most `bound`. -/
def fits (bound : Nat) : Identifier → Bool
  | .numeric n => decide (n ≤ bound)
  | .alphanumeric _ => true

/-- The numbers in the pre-release of a tag are 32-bit numbers. -/
def Plain (tag : Tag) : Prop := (Version.ofTag tag).pre.all (fits u32Max) = true

instance (tag : Tag) : Decidable (Plain tag) := inferInstanceAs (Decidable (_ = true))

theorem le_foldl_digits (text : List UInt8) (value : Nat) :
    value ≤ text.foldl (fun value b => value * 10 + digit b) value := by
  induction text generalizing value with
  | nil => exact le_rfl
  | cons b text ih =>
    have := ih (value * 10 + digit b)
    rw [foldl_cons]
    omega

theorem foldlM_pushDigit (text : List UInt8) {value : Nat} (h : value ≤ u32Max) :
    text.foldlM pushDigit value = if text.all isDigit = true then
        checked32 (text.foldl (fun value b => value * 10 + digit b) value)
      else none := by
  induction text generalizing value with
  | nil => exact (checked32_eq_some.mpr ⟨h, rfl⟩).symm
  | cons b text ih =>
    rw [foldlM_cons, all_cons, foldl_cons, pushDigit]
    by_cases hb : isDigit b = true
    · rw [if_pos hb, hb, Bool.true_and]
      by_cases hft : value * 10 + digit b ≤ u32Max
      · have hten : checked32 (value * 10) = some (value * 10) :=
          checked32_eq_some.mpr ⟨by omega, rfl⟩
        rw [hten, bind_some, checked32_eq_some.mpr ⟨hft, rfl⟩, bind_eq_bind, bind_some, ih hft]
      · -- once it is too large the value stays too large
        have hst : ((checked32 (value * 10)).bind fun v => checked32 (v + digit b)) = none := by
          rw [eq_none_iff_forall_ne_some]
          intro v hv
          obtain ⟨ten, hten, hv⟩ := bind_eq_some_iff.mp hv
          obtain ⟨_, rfl⟩ := checked32_eq_some.mp hten
          exact hft (checked32_eq_some.mp hv).1
        have hlar := le_foldl_digits text (value * 10 + digit b)
        have hno : checked32 (text.foldl (fun value b => value * 10 + digit b)
            (value * 10 + digit b)) = none := if_neg (by omega)
        rw [hst, hno, bind_eq_bind, bind_none, ite_self]
    · rw [if_neg hb, Bool.eq_false_iff.mpr hb, Bool.false_and, bind_eq_bind, bind_none,
        if_neg Bool.false_ne_true]

theorem parseNumeric_ofText {text : List UInt8} {n : Nat} (h : parseNumeric text = some n) :
    Identifier.ofText text = .numeric n ∧ decimal text = n := by
  unfold parseNumeric at h
  split at h
  · cases h
  · rename_i hne
    rw [foldlM_pushDigit text (Nat.zero_le _)] at h
    split at h
    · rename_i hall
      obtain ⟨_, rfl⟩ := checked32_eq_some.mp h
      exact ⟨if_pos ⟨hne, hall⟩, rfl⟩
    · cases h

theorem parseNumeric_none {text : List UInt8} (hft : fits u32Max (Identifier.ofText text) = true)
    (h : parseNumeric text = none) : Identifier.ofText text = .alphanumeric text := by
  unfold Identifier.ofText at hft ⊢
  by_cases htx : text ≠ [] ∧ text.all isDigit = true
  · rw [if_pos htx] at hft
    unfold parseNumeric at h
    rw [if_neg htx.1, foldlM_pushDigit text (Nat.zero_le _), if_pos htx.2] at h
    have hso := checked32_eq_some.mpr ⟨of_decide_eq_true hft, rfl⟩
    cases h.symm.trans hso
  · rw [if_neg htx]

theorem compareIdentifiers_eq {x y : List UInt8} (hx : fits u32Max (Identifier.ofText x) = true)
    (hy : fits u32Max (Identifier.ofText y) = true) :
    compareIdentifiers x y = (Identifier.ofText x).order (Identifier.ofText y) := by
  unfold compareIdentifiers
  cases hnx : parseNumeric x with
  | some =>
    rw [(parseNumeric_ofText hnx).1]
    cases hny : parseNumeric y with
    | some =>
      rw [(parseNumeric_ofText hny).1]
      rfl
    | none =>
      rw [parseNumeric_none hy hny]
      rfl
  | none =>
    rw [parseNumeric_none hx hnx]
    cases hny : parseNumeric y with
    | some =>
      rw [(parseNumeric_ofText hny).1]
      rfl
    | none =>
      rw [parseNumeric_none hy hny]
      rfl

/-- The identifiers of the text after the hyphen. -/
def identifiers (pre : List UInt8) : List Identifier :=
  if pre = [] then [] else (pre.splitOn (ascii '.')).map Identifier.ofText

theorem comparePreRelease_eq {a b : List UInt8} (ha : (identifiers a).all (fits u32Max) = true)
    (hb : (identifiers b).all (fits u32Max) = true) :
    comparePreRelease a b = orderPre (identifiers a) (identifiers b) := by
  have hno : ∀ pre : List UInt8, pre ≠ [] → identifiers pre ≠ [] := by
    intro pre hpre
    unfold identifiers
    rw [if_neg hpre, ne_eq, map_eq_nil_iff]
    exact splitOnP_ne_nil _ _
  have hemp : identifiers [] = [] := rfl
  unfold comparePreRelease orderPre
  by_cases ha0 : a = []
  · subst ha0
    rw [if_pos rfl, hemp, if_pos rfl]
    by_cases hb0 : b = []
    · subst hb0
      rw [if_pos rfl, hemp, if_pos rfl]
    · rw [if_neg hb0, if_neg (hno b hb0)]
  · rw [if_neg ha0, if_neg (hno a ha0)]
    by_cases hb0 : b = []
    · subst hb0
      rw [if_pos rfl, hemp, if_pos rfl]
    · rw [if_neg hb0, if_neg (hno b hb0)]
      unfold identifiers at ha hb ⊢
      rw [if_neg ha0] at ha ⊢
      rw [if_neg hb0] at hb ⊢
      refine compareLex_map ?_
      intro x hx y hy
      exact compareIdentifiers_eq (List.all_eq_true.mp ha _ (List.mem_map_of_mem hx))
        (List.all_eq_true.mp hb _ (List.mem_map_of_mem hy))

theorem mapM_parseNumeric {components : List (List UInt8)} {parts : List Nat}
    (h : components.mapM parseNumeric = some parts) : parts = components.map decimal := by
  induction components generalizing parts with
  | nil =>
    rw [mapM_nil] at h
    exact (some.inj h).symm
  | cons text components ih =>
    rw [mapM_cons] at h
    obtain ⟨n, hn, h⟩ := bind_eq_some_iff.mp h
    obtain ⟨rest, hrst, h⟩ := bind_eq_some_iff.mp h
    cases h
    rw [map_cons, (parseNumeric_ofText hn).2, ih hrst]

theorem parseVersion_eq {tag : Tag} {v : ParsedVersion} (h : parseVersion tag = some v) :
    Version.ofTag tag = ⟨v.parts, identifiers v.pre⟩ := by
  unfold parseVersion at h
  unfold Version.ofTag
  dsimp only at h ⊢
  split at h
  · cases h
  · rename_i hgo
    obtain ⟨parts, hpar, rfl⟩ := map_eq_some_iff.mp h
    rw [mapM_parseNumeric hpar]
    congr 1
    cases hpre : (splitFirst (ascii '-') (splitFirst (ascii '+') tag).1).2 with
    | none => rfl
    | some pre =>
      rw [hpre] at hgo
      have hne : pre ≠ [] := by
        intro hemp
        subst hemp
        exact hgo (.inr (.inl rfl))
      unfold identifiers
      rw [getD_some, if_neg hne]
      rfl

/-- **On plain tags the comparison is the precedence of version tags.** -/
theorem isVersionNewer_precedes {current proposed : Tag} (hc : Plain current) (hp : Plain proposed)
    (h : isVersionNewer current proposed = .ok true) : Precedes current proposed := by
  unfold isVersionNewer at h
  cases hco : compareVersions proposed current with
  | none =>
    rw [hco] at h
    cases h
  | some ord =>
    rw [hco] at h
    have hgt : ord = .gt := beq_iff_eq.mp (Except.ok.inj h)
    subst hgt
    unfold compareVersions at hco
    split at hco
    · cases hco
    · obtain ⟨vp, hvp, hco⟩ := bind_eq_some_iff.mp hco
      obtain ⟨vc, hvc, hco⟩ := bind_eq_some_iff.mp hco
      have heqp := parseVersion_eq hvp
      have heqc := parseVersion_eq hvc
      unfold Plain at hc hp
      rw [heqc] at hc
      rw [heqp] at hp
      unfold Precedes Version.order
      rw [heqp, heqc, ← comparePreRelease_eq hp hc]
      exact some.inj hco

/-!
## The entry points of the upgrade manager

Each function of `upgrade-manager/src/lib.rs` that reads or writes the contract's state,
in the source's order of checks. The contract governs its own code, and the runs here
are of code that goes on behaving like this one: what another Wasm would do with the
storage is not modelled.

The validation hook cannot fail, since a hash has 32 bytes and each named check only
yields a text for the event, and the migration after an upgrade does nothing.
-/

variable {Addr Sym : Type} [DecidableEq Addr]

/-- What differs from call to call: who signed, and which Wasm has been uploaded. -/
structure Call (Addr : Type) where
  signed : Addr → Bool
  uploaded : BytesN 32 → Bool

variable (host : Host Addr Sym) (call : Call Addr)

/-! ## Helpers -/

def requireAdmin (w : World Addr) : Outcome UpgradeError Addr := do
  let admin ← okOr w.admin .unauthorized
  requireAuth host call.signed admin
  pure admin

def requireNotPaused (w : World Addr) : Outcome UpgradeError Unit :=
  failIf (w.paused = true) .contractPaused

def loadProposal (w : World Addr) (id : Nat) : Outcome UpgradeError (UpgradeProposal Addr) :=
  okOr (w.proposals.get id) .noProposal

def saveProposal (w : World Addr) (proposal : UpgradeProposal Addr) : World Addr :=
  { w with proposals := w.proposals.set proposal.id proposal }

/-- `effective_config`: the threshold and the timelock delay in force. -/
def effectiveConfig (w : World Addr) : Nat × Nat :=
  match w.multisig with
  | some cfg => (cfg.threshold, cfg.timelockDelay)
  | none => (defaultThreshold, defaultTimelockDelay)

def isGovernanceMember (w : World Addr) (addr : Addr) : Bool :=
  w.admin == some addr || w.multisig.any fun cfg => cfg.admins.contains addr

def requireGovernanceMember (w : World Addr) (member : Addr) : Outcome UpgradeError Unit := do
  requireAuth host call.signed member
  failIf (isGovernanceMember w member = false) .unauthorized

def effectiveStatus (proposal : UpgradeProposal Addr) (now : Nat) : ProposalStatus :=
  if proposal.status.isTerminal = true then proposal.status
  else if proposal.expiresAt < now then .expired
  else if proposal.status = .pendingTimelock ∧ 0 < proposal.eta ∧ proposal.eta ≤ now then .ready
  else proposal.status

def recordVersion (w : World Addr) (version : Tag) : World Addr :=
  let index := if w.versionIndex.contains version = true then w.versionIndex
    else w.versionIndex ++ [version]
  { w with versionIndex := index.drop (index.length - maxVersionHistory) }

/-- `swap_wasm`: the host takes any hash that was uploaded. -/
def swapWasm (w : World Addr) (hash : BytesN 32) : Outcome UpgradeError (World Addr) := do
  trapUnless (call.uploaded hash = true)
  pure { w with wasmHash := some hash, deployed := w.deployed ++ [hash] }

def estimateMigrationGas (plan : MigrationPlan) : Outcome UpgradeError Nat := do
  let steps ← orTrap (checked32 (plan.preMigrationChecks.length + plan.dataTransformations.length
    + plan.postMigrationValidations.length))
  orTrap (checked64 (gasUpgradeBase + gasMigrationPerItem * plan.estimatedItems
    + steps * gasMigrationStepOverhead))

/-! ## Administration -/

def initialDescription : List UInt8 := "Initial deployment".toUTF8.toList

/-- `initialize` asks for no signature. -/
def initializeContract (admin : Addr) (initialVersion : Tag) (initialWasmHash : BytesN 32)
    (w : World Addr) : Outcome UpgradeError (World Addr) := do
  failIf (w.admin.isSome = true) .invalidVersion
  let initial : ContractVersion Addr :=
    { version := initialVersion
      wasmHash := initialWasmHash
      upgradeLedger := w.sequence
      description := initialDescription
      admin := admin
      rollbackDeadline := 0 }
  let w := { w with
    admin := some admin
    paused := false
    wasmHash := some initialWasmHash
    currentVersion := some initial
    versions := w.versions.set initialVersion initial }
  -- the source records the tag twice; the second time it is in the index
  pure (recordVersion (recordVersion w initialVersion) initialVersion)

def setAdmin (newAdmin : Addr) (w : World Addr) : Outcome UpgradeError (World Addr) := do
  requireNotPaused w
  let _ ← requireAdmin host call w
  pure { w with admin := some newAdmin }

def setMultisigConfig (admins : List Addr) (threshold timelockDelay : Nat) (w : World Addr) :
    Outcome UpgradeError (World Addr) := do
  requireNotPaused w
  let _ ← requireAdmin host call w
  failIf (admins = [] ∨ threshold = 0 ∨ admins.length < threshold) .invalidMultisigConfig
  failIf (timelockDelay = 0) .invalidMultisigConfig
  pure { w with multisig := some ⟨admins, threshold, timelockDelay⟩ }

def pause (w : World Addr) : Outcome UpgradeError (World Addr) := do
  let _ ← requireAdmin host call w
  pure { w with paused := true }

def unpause (w : World Addr) : Outcome UpgradeError (World Addr) := do
  let _ ← requireAdmin host call w
  pure { w with paused := false }

/-! ## Proposals -/

/-- The approvals suffice: the timelock starts running. -/
def startTimelock (w : World Addr) (proposal : UpgradeProposal Addr) :
    Outcome UpgradeError (UpgradeProposal Addr) := do
  let eta ← orTrap (checked64 (w.now + (effectiveConfig w).2))
  pure { proposal with eta := eta, status := .pendingTimelock }

/-- The version check of `propose_upgrade`. -/
def checkNewer (w : World Addr) (newVersion : Tag) : Outcome UpgradeError Unit :=
  match w.currentVersion with
  | some current => do
    let newer ← isVersionNewer current.version newVersion
    failIf (newer = false) .downgradeNotAllowed
  | none => failIf (compareVersions newVersion newVersion = none) .malformedVersion

def proposeUpgrade (proposer : Addr) (newVersion : Tag) (newWasmHash : BytesN 32)
    (description : List UInt8) (migrationPlan : MigrationPlan) (w : World Addr) :
    Outcome UpgradeError (World Addr) := do
  requireNotPaused w
  requireGovernanceMember host call w proposer
  checkNewer w newVersion
  let expiresAt ← orTrap (checked64 (w.now + defaultProposalExpiry))
  let proposal : UpgradeProposal Addr :=
    { id := w.nextProposalId
      proposer := proposer
      newVersion := newVersion
      newWasmHash := newWasmHash
      description := description
      migrationPlan := migrationPlan
      createdAt := w.now
      eta := 0
      expiresAt := expiresAt
      approvals := [proposer]
      status := .proposed
      validated := false
      estimatedGas := 0
      previousVersion := []
      previousWasmHash := BytesN.zero 32
      executedLedger := 0
      rollbackDeadline := 0 }
  -- the proposer's own approval starts the clock where it already suffices
  let proposal ←
    (if (effectiveConfig w).1 ≤ 1 then startTimelock w proposal else pure proposal)
  let nextId ← orTrap (checked64 (w.nextProposalId + 1))
  pure { saveProposal w proposal with nextProposalId := nextId }

def approveUpgrade (approver : Addr) (proposalId : Nat) (w : World Addr) :
    Outcome UpgradeError (World Addr) := do
  requireNotPaused w
  requireGovernanceMember host call w approver
  let proposal ← loadProposal w proposalId
  failIf (proposal.status = .executed ∨ proposal.status = .rolledBack) .proposalAlreadyExecuted
  failIf (proposal.expiresAt < w.now) .proposalExpired
  failIf (proposal.approvals.contains approver = true) .alreadyApproved
  let proposal := { proposal with approvals := proposal.approvals ++ [approver] }
  let count := proposal.approvals.length
  let proposal ←
    (if proposal.eta = 0 ∧ (effectiveConfig w).1 ≤ count then startTimelock w proposal
    else if count = 1 then pure { proposal with status := .approved }
    else pure proposal)
  pure (saveProposal w proposal)

def validateProposal (caller : Addr) (proposalId : Nat) (w : World Addr) :
    Outcome UpgradeError (World Addr) := do
  requireNotPaused w
  requireGovernanceMember host call w caller
  let proposal ← loadProposal w proposalId
  failIf (proposal.status = .executed ∨ proposal.status = .rolledBack) .proposalAlreadyExecuted
  let estimatedGas ← estimateMigrationGas proposal.migrationPlan
  pure (saveProposal w { proposal with validated := true, estimatedGas := estimatedGas })

/-- What `execute_upgrade` makes of the status: it lets a ready proposal through. -/
def requireReady : ProposalStatus → Outcome UpgradeError Unit
  | .executed | .rolledBack => .error (.error .proposalAlreadyExecuted)
  | .expired => .error (.error .proposalExpired)
  | .pendingTimelock => .error (.error .timelockNotElapsed)
  | .proposed | .approved => .error (.error .insufficientApprovals)
  | .ready => .ok ()

def executeUpgrade (executor : Addr) (proposalId : Nat) (w : World Addr) :
    Outcome UpgradeError (World Addr) := do
  requireNotPaused w
  requireGovernanceMember host call w executor
  let proposal ← loadProposal w proposalId
  requireReady (effectiveStatus proposal w.now)
  failIf (proposal.approvals.length < (effectiveConfig w).1) .insufficientApprovals
  failIf (proposal.validated = false) .proposalNotValidated
  let previousVersion := w.currentVersion
  let rollbackDeadline ← orTrap (checked32 (w.sequence + rollbackWindowLedgers))
  let w ← swapWasm call w proposal.newWasmHash
  let newVersion : ContractVersion Addr :=
    { version := proposal.newVersion
      wasmHash := proposal.newWasmHash
      upgradeLedger := w.sequence
      description := proposal.description
      admin := executor
      rollbackDeadline := rollbackDeadline }
  let w := { w with
    currentVersion := some newVersion
    versions := w.versions.set proposal.newVersion newVersion }
  let w := recordVersion w proposal.newVersion
  let (w, proposal) := match previousVersion with
    | some prev =>
      ({ w with rollbacks := w.rollbacks.set proposalId ⟨prev, rollbackDeadline, true⟩ },
        { proposal with previousVersion := prev.version, previousWasmHash := prev.wasmHash })
    | none => (w, proposal)
  pure (saveProposal w { proposal with
    status := .executed
    executedLedger := w.sequence
    rollbackDeadline := rollbackDeadline })

def rollbackUpgrade (executor : Addr) (proposalId : Nat) (w : World Addr) :
    Outcome UpgradeError (World Addr) := do
  requireNotPaused w
  requireGovernanceMember host call w executor
  let proposal ← loadProposal w proposalId
  failIf (proposal.status ≠ .executed) .noRollbackAvailable
  let record ← okOr (w.rollbacks.get proposalId) .noRollbackAvailable
  failIf (record.canRollback = false) .noRollbackAvailable
  failIf (record.rollbackDeadline < w.sequence) .rollbackDeadlineExpired
  let w ← swapWasm call w record.previousVersion.wasmHash
  let w := { w with
    currentVersion := some record.previousVersion
    rollbacks := w.rollbacks.remove proposalId }
  pure (saveProposal w { proposal with status := .rolledBack })

/-- One round of the loop of `sweep_expired_proposals`. -/
def sweepOne (now : Nat) (acc : World Addr × Nat) (id : Nat) : World Addr × Nat :=
  if acc.2 < maxSweepProposals then
    match acc.1.proposals.get id with
    | some proposal =>
      if proposal.status.isTerminal = false ∧ proposal.expiresAt < now then
        (saveProposal acc.1 { proposal with status := .expired }, acc.2 + 1)
      else acc
    | none => acc
  else acc

def sweepExpiredProposals (caller : Addr) (w : World Addr) :
    Outcome UpgradeError (World Addr) := do
  requireGovernanceMember host call w caller
  pure ((List.range' 1 (w.nextProposalId - 1)).foldl (sweepOne w.now) (w, 0)).1

/-! ## The contract as a transition system -/

/-- The state-changing entry points and their arguments. -/
inductive Op (Addr : Type) where
  | initializeContract (admin : Addr) (initialVersion : Tag) (initialWasmHash : BytesN 32)
  | setAdmin (newAdmin : Addr)
  | setMultisigConfig (admins : List Addr) (threshold timelockDelay : Nat)
  | pause
  | unpause
  | proposeUpgrade (proposer : Addr) (newVersion : Tag) (newWasmHash : BytesN 32)
      (description : List UInt8) (migrationPlan : MigrationPlan)
  | approveUpgrade (approver : Addr) (proposalId : Nat)
  | validateProposal (caller : Addr) (proposalId : Nat)
  | executeUpgrade (executor : Addr) (proposalId : Nat)
  | rollbackUpgrade (executor : Addr) (proposalId : Nat)
  | sweepExpiredProposals (caller : Addr)

/-- One call of an entry point. -/
def exec : Op Addr → World Addr → Outcome UpgradeError (World Addr)
  | .initializeContract admin initialVersion initialWasmHash =>
    initializeContract admin initialVersion initialWasmHash
  | .setAdmin newAdmin => setAdmin host call newAdmin
  | .setMultisigConfig admins threshold timelockDelay =>
    setMultisigConfig host call admins threshold timelockDelay
  | .pause => pause host call
  | .unpause => unpause host call
  | .proposeUpgrade proposer newVersion newWasmHash description migrationPlan =>
    proposeUpgrade host call proposer newVersion newWasmHash description migrationPlan
  | .approveUpgrade approver proposalId => approveUpgrade host call approver proposalId
  | .validateProposal caller proposalId => validateProposal host call caller proposalId
  | .executeUpgrade executor proposalId => executeUpgrade host call executor proposalId
  | .rollbackUpgrade executor proposalId => rollbackUpgrade host call executor proposalId
  | .sweepExpiredProposals caller => sweepExpiredProposals host call caller

/-- What can happen in a run. -/
inductive Event (Addr : Type) where
  /-- A ledger closes; calls from now on see this timestamp and number. -/
  | close (timestamp sequence : Nat)
  /-- A call of the contract. -/
  | invoke (call : Call Addr) (op : Op Addr)

/-- The contract among its callers, as deployed at any time. -/
def system : System (World Addr) (Event Addr) where
  start w := ∃ now sequence, w = World.init now sequence
  step w
    | .close timestamp seq => some { w with now := timestamp, sequence := seq }
    | .invoke call op => (exec host call op w).toOption

theorem start_init (host : Host Addr Sym) (now sequence : Nat) :
    (system host).start (World.init now sequence) := ⟨now, sequence, rfl⟩

theorem step_invoke {host : Host Addr Sym} {w w' : World Addr} {call : Call Addr}
    {op : Op Addr} :
    (system host).step w (.invoke call op) = some w' ↔ exec host call op w = .ok w' :=
  toOption_eq_some

theorem step_close {host : Host Addr Sym} {w w' : World Addr} {timestamp sequence : Nat} :
    (system host).step w (.close timestamp sequence) = some w' ↔
      { w with now := timestamp, sequence := sequence } = w' := by
  unfold system
  exact some_inj

/-- Ledgers close in order. -/
def ClockMonotone (w : World Addr) : Event Addr → Prop
  | .close timestamp seq => w.now ≤ timestamp ∧ w.sequence ≤ seq
  | .invoke _ _ => True

instance (w : World Addr) (e : Event Addr) : Decidable (ClockMonotone w e) :=
  match e with
  | .close timestamp seq =>
    inferInstanceAs (Decidable (w.now ≤ timestamp ∧ w.sequence ≤ seq))
  | .invoke _ _ => .isTrue trivial

/-! ## A deployment to run

Addresses are numbers, the contract is `0`, and every Wasm has been uploaded. -/

namespace Sample

def chain : Host Nat Nat where
  self := 0
  sha256 := fun _ => BytesN.zero 32
  xdr :=
    { string := id
      address := fun _ => []
      symbol := fun _ => []
      i128 := fun _ => []
      bytes := id }

def signed (signer : Nat) (op : Op Nat) : Event Nat :=
  .invoke ⟨fun a => a == signer, fun _ => true⟩ op

def code (n : UInt8) : BytesN 32 := ⟨List.replicate 32 n, length_replicate⟩

/-- The tag of a version, one digit. -/
def tag (n : Nat) : Tag := [UInt8.ofNat (48 + n)]

/-- The admin `1` deploys version `1`. -/
def installed : List (Event Nat) := [signed 1 (.initializeContract 1 (tag 1) (code 1))]

/-- Version `n` is proposed by a member. -/
def propose (member n : Nat) : Event Nat :=
  signed member (.proposeUpgrade member (tag n) (code (UInt8.ofNat n)) [] ⟨[], [], [], 0⟩)

def approve (member id : Nat) : Event Nat := signed member (.approveUpgrade member id)
def validate (member id : Nat) : Event Nat := signed member (.validateProposal member id)
def execute (member id : Nat) : Event Nat := signed member (.executeUpgrade member id)
def rollback (member id : Nat) : Event Nat := signed member (.rollbackUpgrade member id)

end Sample

end AiNet.UpgradeManager
