import AiNet.UpgradeManager.Steps

/-!
# Who approved an upgrade, and how long ago

A proposal keeps the list of its approvals and the time from which it may be executed,
and reads neither the members nor the settings again, apart from the threshold. In
every run the list is what the record of the run says. What it is worth at the
execution depends on who governs by then: the approvals count for as long as nobody
who gave one is dropped, and the clock is right for as long as the settings it was
started under ask for no less than those that replace them.
-/

namespace AiNet.UpgradeManager

open Core List Option System

variable {Addr Sym : Type} [DecidableEq Addr] {host : Host Addr Sym}
  {w w' : World Addr}

/-! ## The record of a run -/

/-- The events a run accepted, each with the state that accepted it. -/
abbrev Log (Addr : Type) := List (World Addr × Event Addr)

def Event.about (w : World Addr) : Event Addr → Option Nat
  | .close _ _ => none
  | .invoke _ op => op.about w

/-- Who approves with a call, if it is about the proposal: a proposer approves at once. -/
def Op.approver : Op Addr → Option Addr
  | .proposeUpgrade proposer .. => some proposer
  | .approveUpgrade approver _ => some approver
  | .initializeContract .. | .setAdmin _ | .setMultisigConfig .. | .pause | .unpause
  | .validateProposal .. | .executeUpgrade .. | .rollbackUpgrade .. | .sweepExpiredProposals _ =>
    none

/-- Whose approval of the proposal `id` an event is. -/
def Event.approval (w : World Addr) (id : Nat) : Event Addr → Option Addr
  | .close _ _ => none
  | .invoke _ op => if op.about w = some id then op.approver else none

/-- Who approved the proposal `id`, in order. -/
def approvers (log : Log Addr) (id : Nat) : List Addr :=
  log.filterMap fun entry => entry.2.approval entry.1 id

/-- Does an event validate the proposal `id`? -/
def Event.Validates (id : Nat) (e : Event Addr) : Prop :=
  ∃ call caller, e = .invoke call (.validateProposal caller id)

/-- Does an event execute the proposal `id`? -/
def Event.Executes (id : Nat) (e : Event Addr) : Prop :=
  ∃ call executor, e = .invoke call (.executeUpgrade executor id)

section

omit [DecidableEq Addr]

theorem approvers_append (log log' : Log Addr) (id : Nat) :
    approvers (log ++ log') id = approvers log id ++ approvers log' id :=
  filterMap_append

theorem approvers_singleton (w : World Addr) (e : Event Addr) (id : Nat) :
    approvers [(w, e)] id = (e.approval w id).toList := by
  unfold approvers
  cases h : e.approval w id with
  | none => exact filterMap_cons_none h
  | some => exact filterMap_cons_some h

end

variable {e : Event Addr}

section

omit [DecidableEq Addr]

theorem approval_other {id : Nat} (h : e.about w ≠ some id) :
    e.approval w id = none := by
  cases e with
  | close => rfl
  | invoke => exact if_neg h

theorem approvers_other {id : Nat} (h : e.about w ≠ some id) :
    approvers [(w, e)] id = [] := by
  rw [approvers_singleton, approval_other h]
  rfl

theorem approvers_call {call : Call Addr} {op : Op Addr} {id : Nat}
    (h : op.about w = some id) : approvers [(w, .invoke call op)] id = op.approver.toList := by
  rw [approvers_singleton]
  exact congrArg Option.toList (if_pos h)

end

theorem exists_filterMap_length_eq {α β : Type} (f : α → Option β) {l : List α} {n : Nat}
    (h : n < (l.filterMap f).length) : ∃ first x later y,
      l = first ++ x :: later ∧ f x = some y ∧ (first.filterMap f).length = n := by
  induction l generalizing n with
  | nil => exact absurd h (Nat.not_lt_zero n)
  | cons a l ih =>
    cases ha : f a with
    | none =>
      rw [filterMap_cons_none ha] at h
      obtain ⟨first, x, later, y, rfl, hx, hlen⟩ := ih h
      exact ⟨a :: first, x, later, y, rfl, hx, by rw [filterMap_cons_none ha, hlen]⟩
    | some b =>
      rw [filterMap_cons_some ha, length_cons] at h
      cases n with
      | zero => exact ⟨[], a, l, b, rfl, ha, rfl⟩
      | succ =>
        obtain ⟨first, x, later, y, rfl, hx, hlen⟩ := ih (Nat.lt_of_succ_lt_succ h)
        refine ⟨a :: first, x, later, y, rfl, hx, ?_⟩
        rw [filterMap_cons_some ha, length_cons, hlen]

/-! ## What a proposal keeps of the record -/

/-- A stored proposal, and what happened to it so far. -/
structure Recorded (log : Log Addr) (id : Nat) (p : UpgradeProposal Addr) : Prop where
  stored : p.status ≠ .ready
  approvals : p.approvals = approvers log id
  nodup : p.approvals.Nodup
  validated : p.validated = true → ∃ entry ∈ log, entry.2.Validates id
  unexecuted : p.Unfinished → ∀ entry ∈ log, ¬ entry.2.Executes id

/-- The record about one number: nothing as long as it is not given out. -/
structure Kept (log : Log Addr) (id : Nat) (o : Option (UpgradeProposal Addr)) : Prop where
  unseen : o = none → ∀ entry ∈ log, entry.2.about entry.1 ≠ some id
  recorded : ∀ p, o = some p → Recorded log id p

omit [DecidableEq Addr] in
theorem Event.Executes.about {id : Nat} (h : e.Executes id) :
    e.about w = some id := by
  obtain ⟨call, executor, rfl⟩ := h
  rfl

variable {p : UpgradeProposal Addr}

section

omit [DecidableEq Addr]

theorem Recorded.other {log : Log Addr} {id : Nat} (h : Recorded log id p) (hoth : e.about w ≠ some id) :
    Recorded (log ++ [(w, e)]) id p := by
  refine ⟨h.stored, ?_, h.nodup, ?_, ?_⟩
  · rw [approvers_append, approvers_other hoth, append_nil]
    exact h.approvals
  · intro hvld
    obtain ⟨entry, hent, hva⟩ := h.validated hvld
    exact ⟨entry, mem_append_left _ hent, hva⟩
  · intro hunf entry hent hexs
    rcases mem_append.mp hent with hold | hnew
    · exact h.unexecuted hunf entry hold hexs
    · rw [mem_singleton.mp hnew] at hexs
      exact hoth hexs.about

theorem Recorded.call {log : Log Addr} {id : Nat} {p p' : UpgradeProposal Addr}
    {call : Call Addr} {op : Op Addr} (h : Recorded log id p) (habo : op.about w = some id)
    (hunf : p'.Unfinished → p.Unfinished ∧ ∀ executor, op ≠ .executeUpgrade executor id)
    (hsto : p'.status ≠ .ready) (hap : p'.approvals = p.approvals ++ op.approver.toList)
    (hnd : p'.approvals.Nodup)
    (hvld : p'.validated = true → p.validated = true ∨ ∃ caller, op = .validateProposal caller id) :
    Recorded (log ++ [(w, .invoke call op)]) id p' := by
  refine ⟨hsto, ?_, hnd, ?_, ?_⟩
  · rw [hap, approvers_append, approvers_call habo, h.approvals]
  · intro hv
    rcases hvld hv with hold | ⟨caller, rfl⟩
    · obtain ⟨entry, hent, hva⟩ := h.validated hold
      exact ⟨entry, mem_append_left _ hent, hva⟩
    · exact ⟨_, mem_append_right _ (mem_singleton_self _), call, caller, rfl⟩
  · intro hun entry hent hexs
    obtain ⟨hold, hnot⟩ := hunf hun
    rcases mem_append.mp hent with hbf | hnew
    · exact h.unexecuted hold entry hbf hexs
    · rw [mem_singleton.mp hnew] at hexs
      obtain ⟨_, executor, he⟩ := hexs
      injection he with _ hop
      exact hnot executor hop

end

variable {call : Call Addr} {op : Op Addr} {log : Log Addr}

theorem Kept.exec {id : Nat} {o o' : Option (UpgradeProposal Addr)} (h : Kept log id o)
    (hchg : Change w id op o o') :
    Kept (log ++ [(w, .invoke call op)]) id o' := by
  have hso : ∀ p, Recorded (log ++ [(w, Event.invoke call op)]) id p →
      Kept (log ++ [(w, .invoke call op)]) id (some p) := by
    intro p hp
    refine ⟨nofun, ?_⟩
    intro q hq
    cases hq
    exact hp
  cases hchg with
  | kept hoth =>
    refine ⟨?_, fun p hp => (h.recorded p hp).other hoth⟩
    intro hno entry hent
    rcases mem_append.mp hent with hold | hnew
    · exact h.unseen hno entry hold
    · rw [mem_singleton.mp hnew]
      exact hoth
  | @opened proposer version hash description plan p hid hmbr hnwr hopd =>
    subst hid
    -- the number is new, so no earlier call is about it
    have hue := h.unseen rfl
    have hnth : approvers log w.nextProposalId = [] :=
      filterMap_eq_nil_iff.mpr fun entry hent => approval_other (hue entry hent)
    refine hso p ⟨?_, ?_, ?_, ?_, ?_⟩
    · rcases hopd.status with hst | hst
      · rw [hst]; nofun
      · rw [hst]; nofun
    · rw [hopd.approvals, approvers_append, hnth, approvers_call rfl]
      rfl
    · rw [hopd.approvals]
      exact nodup_singleton proposer
    · intro hvld
      rw [hopd.validated] at hvld
      cases hvld
    · intro _ entry hent hexs
      rcases mem_append.mp hent with hold | hnew
      · exact hue entry hold hexs.about
      · rw [mem_singleton.mp hnew] at hexs
        obtain ⟨_, _, he⟩ := hexs
        cases he
  | @approved approver p p' hmbr hunf hlv hfst hapr =>
    have hp := h.recorded p rfl
    refine hso p' (hp.call rfl ?_ ?_ ?_ ?_ ?_)
    · exact fun _ => ⟨hunf, nofun⟩
    · rcases hapr.status with hst | hst | hst
      · rw [hst]; exact hp.stored
      · rw [hst]; nofun
      · rw [hst]; nofun
    · rw [hapr.rest]
      rfl
    · rw [hapr.rest]
      exact nodup_append_comm.mp (nodup_cons.mpr ⟨hfst, hp.nodup⟩)
    · rw [hapr.rest]
      exact .inl
  | @validated caller p gas =>
    have hp := h.recorded p rfl
    refine hso _ (hp.call rfl (fun hun => ⟨hun, nofun⟩) hp.stored ?_ hp.nodup ?_)
    · exact (append_nil _).symm
    · exact fun _ => .inr ⟨caller, rfl⟩
  | @executed executor p p' hrdy hcnt hvld hp' =>
    have hp := h.recorded p rfl
    -- an execution finishes the proposal, so nothing is claimed of it as an open one
    refine hso p' (hp.call rfl ?_ ?_ ?_ ?_ ?_)
    · intro hunf
      rw [hp'] at hunf
      exact absurd rfl hunf.1
    · rw [hp']
      nofun
    · rw [hp']
      exact (append_nil _).symm
    · rw [hp']
      exact hp.nodup
    · rw [hp']
      exact .inl
  | @rolledBack executor p hexd =>
    have hp := h.recorded p rfl
    refine hso _ (hp.call rfl ?_ ?_ (append_nil _).symm hp.nodup .inl)
    · exact fun hunf => absurd rfl hunf.2
    · nofun
  | @expired caller p hon hla =>
    -- a sweep is no call about this number, but it does change its status
    have hp := (h.recorded p rfl).other (w := w) (e := .invoke call (.sweepExpiredProposals caller)) nofun
    refine hso _ ⟨?_, hp.approvals, hp.nodup, hp.validated, ?_⟩
    · nofun
    · exact fun _ => hp.unexecuted (.of_isOpen hon)

section Run

variable {guard : World Addr → Event Addr → Prop}

/-- **The contract keeps the record.** In every run, for every number. -/
theorem kept_logged (h : (system host).Logged guard w log) (id : Nat) :
    Kept log id (w.proposals.get id) := by
  induction h with
  | start h0 =>
    obtain ⟨now, sequence, rfl⟩ := h0
    exact ⟨fun _ entry hent => (by cases hent), fun p hp => (by cases hp)⟩
  | @step w w' e log hlog _ hs ih =>
    cases e with
    | close =>
      rw [step_close] at hs
      subst hs
      refine ⟨?_, fun p hp => (ih.recorded p hp).other nofun⟩
      intro hno entry hent
      rcases mem_append.mp hent with hold | hnew
      · exact ih.unseen hno entry hold
      · rw [mem_singleton.mp hnew]
        nofun
    | invoke =>
      exact ih.exec (exec_change (numbered_reachable hlog.reachable) (step_invoke.mp hs) id)

end Run

/-! ## Governance that keeps its word -/

/--
Between two states nothing is taken from an open proposal: who approved it is still a member, and where
its clock runs neither the threshold nor the timelock delay has grown.
-/
def KeepsApprovals (w w' : World Addr) : Prop :=
  ∀ p ∈ w.openProposals, (∀ a ∈ p.approvals, isGovernanceMember w' a = true) ∧
    (p.eta ≠ 0 → w'.threshold ≤ w.threshold ∧ w'.timelockDelay ≤ w.timelockDelay)

/-- Ledgers close in order, and no change of the administrator or the settings takes from a proposal. -/
def Steadfast (w : World Addr) : Event Addr → Prop
  | .close timestamp seq => w.now ≤ timestamp ∧ w.sequence ≤ seq
  | .invoke _ op =>
    match op with
    | .setAdmin newAdmin => KeepsApprovals w { w with admin := some newAdmin }
    | .setMultisigConfig admins threshold timelockDelay =>
      KeepsApprovals w { w with multisig := some ⟨admins, threshold, timelockDelay⟩ }
    | .initializeContract .. | .pause | .unpause | .proposeUpgrade .. | .approveUpgrade ..
    | .validateProposal .. | .executeUpgrade .. | .rollbackUpgrade .. | .sweepExpiredProposals _ => True

theorem steadfast_clock (w : World Addr) (e : Event Addr) (hg : Steadfast w e) :
    ClockMonotone w e := by
  cases e with
  | close => exact hg
  | invoke => trivial

/-- The clock was started when enough had approved, and runs for long enough. -/
def Started (log : Log Addr) (w : World Addr) (id eta : Nat) : Prop :=
  ∃ first entry later, log = first ++ entry :: later ∧
    w.threshold ≤ (approvers (first ++ [entry]) id).length ∧ entry.1.now + w.timelockDelay ≤ eta

/-- What the approvals of a stored proposal are worth. -/
structure Backed (log : Log Addr) (w : World Addr) (id : Nat) (p : UpgradeProposal Addr) :
    Prop where
  members : p.Open w.now → ∀ a ∈ p.approvals, isGovernanceMember w a = true
  clock : p.Open w.now → p.eta ≠ 0 → Started log w id p.eta

omit [DecidableEq Addr] in
theorem Started.carry {id eta : Nat} (h : Started log w id eta) (hth : w'.threshold ≤ w.threshold)
    (hdel : w'.timelockDelay ≤ w.timelockDelay) : Started (log ++ [(w, e)]) w' id eta := by
  obtain ⟨first, entry, later, rfl, hcnt, heta⟩ := h
  refine ⟨first, entry, later ++ [(w, e)], ?_, ?_, ?_⟩
  · rw [append_assoc, cons_append]
  · omega
  · omega

theorem member_congr {w₁ w₂ : World Addr} (hadm : w₁.admin = w₂.admin)
    (hmu : w₁.multisig = w₂.multisig) (a : Addr) :
    isGovernanceMember w₁ a = isGovernanceMember w₂ a := by
  unfold isGovernanceMember
  rw [hadm, hmu]

omit [DecidableEq Addr] in
theorem effectiveConfig_congr {w₁ w₂ : World Addr} (hmu : w₁.multisig = w₂.multisig) :
    effectiveConfig w₁ = effectiveConfig w₂ := by
  unfold effectiveConfig
  rw [hmu]

theorem keeps_approvals {guard : World Addr → Event Addr → Prop} {id : Nat}
    (hr : (system host).Reachable guard w) (hg : Steadfast w (.invoke call op))
    (h : exec host call op w = .ok w') (hp : w.proposals.get id = some p) (hon : p.Open w.now)
    (hme : ∀ a ∈ p.approvals, isGovernanceMember w a = true) :
    (∀ a ∈ p.approvals, isGovernanceMember w' a = true) ∧
      (p.eta ≠ 0 → w'.threshold ≤ w.threshold ∧ w'.timelockDelay ≤ w.timelockDelay) := by
  have hfrm := exec_frame (numbered_reachable hr) h
  have hmem : p ∈ w.openProposals := mem_openProposals.mpr ⟨⟨id, hp⟩, hon⟩
  have hkps : (∀ a ∈ p.approvals, isGovernanceMember (op.governed w) a = true) ∧
      (p.eta ≠ 0 → (op.governed w).threshold ≤ w.threshold ∧
        (op.governed w).timelockDelay ≤ w.timelockDelay) := by
    cases op with
    | setAdmin | setMultisigConfig => exact hg p hmem
    | initializeContract =>
      -- before the initialization there is no proposal
      rw [untouched_reachable hr (initializeContract_ok h).1] at hp
      cases hp
    | pause | unpause | proposeUpgrade | approveUpgrade | validateProposal | executeUpgrade
    | rollbackUpgrade | sweepExpiredProposals =>
      exact ⟨hme, fun _ => ⟨le_rfl, le_rfl⟩⟩
  refine ⟨?_, ?_⟩
  · intro a ha
    rw [member_congr hfrm.admin hfrm.multisig]
    exact hkps.1 a ha
  · intro heta
    unfold World.threshold World.timelockDelay
    rw [effectiveConfig_congr hfrm.multisig]
    exact hkps.2 heta

omit [DecidableEq Addr] in
theorem Started.begin {id : Nat} {approver : Addr} (habo : op.about w = some id)
    (hop : op.approver = some approver) (hmu : w'.multisig = w.multisig)
    (hcnt : w.threshold ≤ (approvers log id).length + 1) :
    Started (log ++ [(w, .invoke call op)]) w' id (w.now + w.timelockDelay) := by
  refine ⟨log, _, [], rfl, ?_, ?_⟩
  · rw [approvers_append, approvers_call habo, hop, length_append]
    unfold World.threshold at hcnt ⊢
    rw [effectiveConfig_congr hmu]
    exact hcnt
  · unfold World.timelockDelay
    rw [effectiveConfig_congr hmu]

theorem Backed.carry {id : Nat} {p p' : UpgradeProposal Addr} (h : Backed log w id p)
    (hon : p'.Open w'.now → p.Open w.now) (hap : p'.approvals = p.approvals) (heta : p'.eta = p.eta)
    (hkps : p.Open w.now → (∀ a ∈ p.approvals, isGovernanceMember w' a = true) ∧ (p.eta ≠ 0 → w'.threshold ≤ w.threshold ∧ w'.timelockDelay ≤ w.timelockDelay)) :
    Backed (log ++ [(w, e)]) w' id p' := by
  refine ⟨?_, ?_⟩
  · intro ho
    rw [hap]
    exact (hkps (hon ho)).1
  · intro ho hstd
    rw [heta] at hstd ⊢
    obtain ⟨hth, hdel⟩ := (hkps (hon ho)).2 hstd
    exact (h.clock (hon ho) hstd).carry hth hdel

theorem Backed.closed {id : Nat} (hcld : p.status.isTerminal = true) : Backed log w id p := by
  have hnot : ¬ p.Open w.now := by
    intro ho
    rw [ho.1] at hcld
    cases hcld
  exact ⟨fun ho => absurd ho hnot, fun ho => absurd ho hnot⟩

theorem Backed.exec {id : Nat} (hlog : (system host).Logged Steadfast w log)
    (hg : Steadfast w (.invoke call op)) (h : exec host call op w = .ok w')
    (hb : ∀ p, w.proposals.get id = some p → Backed log w id p) {p' : UpgradeProposal Addr}
    (hp' : w'.proposals.get id = some p') :
    Backed (log ++ [(w, .invoke call op)]) w' id p' := by
  have hr := hlog.reachable
  have hfrm := exec_frame (numbered_reachable hr) h
  have hkps : ∀ p, w.proposals.get id = some p → p.Open w.now →
      (∀ a ∈ p.approvals, isGovernanceMember w' a = true) ∧
        (p.eta ≠ 0 → w'.threshold ≤ w.threshold ∧ w'.timelockDelay ≤ w.timelockDelay) := by
    intro p hp ho
    exact keeps_approvals hr hg h hp ho ((hb p hp).members ho)
  have hrec := kept_logged hlog id
  have hchg := exec_change (numbered_reachable hr) h id
  have hla := late_reachable steadfast_clock hr id
  rw [hp'] at hchg
  generalize hp : w.proposals.get id = o at hchg hkps hb hrec hla
  cases hchg with
  | kept => exact (hb p' rfl).carry (fun ho => hfrm.now ▸ ho) rfl rfl (hkps p' rfl)
  | @opened proposer version hash description plan p hid hmbr hnwr hopd =>
    refine ⟨?_, ?_⟩
    · intro _ a ha
      rw [hopd.approvals] at ha
      rw [member_congr hfrm.admin hfrm.multisig, mem_singleton.mp ha]
      exact hmbr
    · intro _ hstd
      obtain ⟨hone, heta⟩ := hopd.clock hstd
      rw [heta]
      exact .begin (congrArg some hid.symm) rfl hfrm.multisig (Nat.le_trans hone (Nat.le_add_left 1 _))
  | @approved approver p p' hmbr hunf hlv hfst hapr =>
    -- a proposal that was swept has expired, and cannot be approved
    have hexp : p.status ≠ .expired := by
      intro hst
      have := hla p rfl hst
      omega
    have ho : p.Open w.now := ⟨hunf.isOpen hexp, hlv⟩
    obtain ⟨hme, hse⟩ := hkps p rfl ho
    refine ⟨?_, ?_⟩
    · intro _ a ha
      rw [hapr.rest] at ha
      rcases mem_append.mp ha with hold | hnew
      · exact hme a hold
      · rw [member_congr hfrm.admin hfrm.multisig, mem_singleton.mp hnew]
        exact hmbr
    · intro _ hstd
      rcases hapr.clock with heta | ⟨_, hcnt, heta⟩
      · rw [heta] at hstd ⊢
        obtain ⟨hth, hdel⟩ := hse hstd
        exact ((hb p rfl).clock ho hstd).carry hth hdel
      · rw [heta]
        rw [(hrec.recorded p rfl).approvals] at hcnt
        exact .begin rfl rfl hfrm.multisig hcnt
  | @validated caller p gas =>
    exact (hb p rfl).carry (fun ho => hfrm.now ▸ ho) rfl rfl (hkps p rfl)
  | executed hrdy hcnt hvld hp' =>
    rw [hp']
    exact .closed rfl
  | rolledBack | expired => exact .closed rfl

theorem Backed.close {timestamp sequence id : Nat} (h : Backed log w id p) (hg : w.now ≤ timestamp) :
    Backed (log ++ [(w, .close timestamp sequence)]) { w with now := timestamp, sequence := sequence } id p :=
  h.carry (fun ho => ⟨ho.1, Nat.le_trans hg ho.2⟩) rfl rfl
    fun ho => ⟨h.members ho, fun _ => ⟨le_rfl, le_rfl⟩⟩

/-- **The approvals are worth what they say**, in every run with a steadfast governance. -/
theorem backed_logged (h : (system host).Logged Steadfast w log) {id : Nat}
    (hp : w.proposals.get id = some p) : Backed log w id p := by
  induction h generalizing p with
  | start h0 =>
    obtain ⟨now, sequence, rfl⟩ := h0
    cases hp
  | @step w w' e log hlog hg hs ih =>
    cases e with
    | close =>
      rw [step_close] at hs
      subst hs
      exact (ih hp).close hg.1
    | invoke => exact Backed.exec hlog hg (step_invoke.mp hs) (fun p hp => ih hp) hp

/-! ## What stands behind an execution -/

/-- The proposal `id` may be executed in the state `s`, after the events `before`. -/
structure Authorized (before : Log Addr) (s : World Addr) (id : Nat) : Prop where
  /-- The approval that reached the threshold was given at least the timelock delay before. -/
  approved : ∃ first entry later, before = first ++ entry :: later ∧
    (approvers first id).length < s.threshold ∧
    (approvers (first ++ [entry]) id).length = s.threshold ∧
    entry.1.now + s.timelockDelay ≤ s.now
  distinct : (approvers before id).Nodup
  members : ∀ a ∈ approvers before id, isGovernanceMember s a = true
  validated : ∃ entry ∈ before, entry.2.Validates id
  live : ∃ p, s.proposals.get id = some p ∧ s.now ≤ p.expiresAt
  first : ∀ entry ∈ before, ¬ entry.2.Executes id

theorem threshold_pos {guard : World Addr → Event Addr → Prop}
    (h : (system host).Reachable guard w) : 0 < w.threshold := by
  refine System.Reachable.invariant (I := fun w => 0 < w.threshold) ?_ ?_ h
  · intro w h0
    obtain ⟨now, sequence, rfl⟩ := h0
    exact Nat.one_pos
  · intro w e w' hr _ hpos hs
    cases e with
    | close =>
      rw [step_close] at hs
      subst hs
      exact hpos
    | invoke call op =>
      have hok := step_invoke.mp hs
      have hfrm := exec_frame (numbered_reachable hr) hok
      unfold World.threshold at hpos ⊢
      rw [effectiveConfig_congr hfrm.multisig]
      cases op with
      | setMultisigConfig => exact (setMultisigConfig_ok hok).2.1
      | initializeContract | setAdmin | pause | unpause | proposeUpgrade | approveUpgrade
      | validateProposal | executeUpgrade | rollbackUpgrade | sweepExpiredProposals => exact hpos

theorem Started.reached {id eta : Nat} (h : Started log w id eta)
    (hlog : (system host).Logged Steadfast w log) (hpos : 0 < w.threshold) :
    ∃ first entry later, log = first ++ entry :: later ∧ (approvers first id).length < w.threshold ∧
      (approvers (first ++ [entry]) id).length = w.threshold ∧
      entry.1.now + w.timelockDelay ≤ eta := by
  obtain ⟨first, entry, later, rfl, hcnt, hdel⟩ := h
  have hle : w.threshold - 1 < (approvers (first ++ [entry]) id).length := by omega
  obtain ⟨first', x, later', a, hspl, hx, hlen⟩ := exists_filterMap_length_eq _ hle
  have hnow : x.1.now ≤ entry.1.now := by
    have hmem : x ∈ first ++ [entry] := hspl ▸ mem_append_right _ mem_cons_self
    rcases mem_append.mp hmem with hold | hnew
    · obtain ⟨hr, hrun⟩ := (hlog.split rfl).1.run_of_mem hold
      exact now_mono steadfast_clock hr hrun
    · rw [mem_singleton.mp hnew]
  have hfst : (approvers first' id).length = w.threshold - 1 := hlen
  have hone : (approvers [x] id).length = 1 :=
    congrArg List.length ((approvers_singleton x.1 x.2 id).trans (congrArg Option.toList hx))
  refine ⟨first', x, later' ++ later, ?_, ?_, ?_, ?_⟩
  · calc first ++ entry :: later = first ++ [entry] ++ later := by rw [append_assoc]; rfl
      _ = first' ++ x :: (later' ++ later) := by rw [hspl, append_assoc]; rfl
  · omega
  · rw [approvers_append, length_append]
    omega
  · omega

/--
**No upgrade without approval and a full timelock.** In every run whose governance is steadfast, whatever is
executed was approved by as many members as the threshold asks for, all of them members still, the last
one needed at least the timelock delay ago; it was validated, has not expired, and is executed once.
-/
theorem authorized_executions {log : Log Addr} (h : (system host).Logged Steadfast w log)
    {before after : Log Addr} {s : World Addr} {call : Call Addr} {executor : Addr} {id : Nat}
    (he : log = before ++ (s, .invoke call (.executeUpgrade executor id)) :: after) :
    Authorized before s id := by
  have hbf : (system host).Logged Steadfast s before := (h.split he).1
  obtain ⟨s', hs⟩ := (h.split he).2.2
  obtain ⟨_, p, hp, hrdy, _, hvld, _⟩ := executeUpgrade_ok (step_invoke.mp hs)
  have hrec := (kept_logged hbf id).recorded p hp
  have hbkd := backed_logged hbf hp
  obtain ⟨hon, hlv, hstd, hdue⟩ := effectiveStatus_ready hrec.stored hrdy
  have ho : p.Open s.now := ⟨hon, hlv⟩
  refine ⟨?_, hrec.approvals ▸ hrec.nodup, hrec.approvals ▸ hbkd.members ho,
    hrec.validated hvld, ⟨p, hp, hlv⟩, ?_⟩
  · obtain ⟨first, entry, later, hspl, hle, hcnt, hdel⟩ :=
      (hbkd.clock ho hstd).reached hbf (threshold_pos hbf.reachable)
    exact ⟨first, entry, later, hspl, hle, hcnt, Nat.le_trans hdel hdue⟩
  · exact hrec.unexecuted (.of_isOpen hon)

/-! ## Runs to compare with -/

instance (w w' : World Addr) : Decidable (KeepsApprovals w w') :=
  inferInstanceAs (Decidable (∀ p ∈ w.openProposals, (∀ a ∈ p.approvals, _) ∧ (_ → _ ∧ _)))

instance (w : World Addr) (e : Event Addr) : Decidable (Steadfast w e) :=
  match e with
  | .close timestamp seq =>
    inferInstanceAs (Decidable (w.now ≤ timestamp ∧ w.sequence ≤ seq))
  | .invoke _ op =>
    match op with
    | .setAdmin newAdmin => inferInstanceAs (Decidable (KeepsApprovals w { w with admin := some newAdmin }))
    | .setMultisigConfig admins threshold timelockDelay =>
      inferInstanceAs (Decidable
        (KeepsApprovals w { w with multisig := some ⟨admins, threshold, timelockDelay⟩ }))
    | .initializeContract _ _ _ | .pause | .unpause | .proposeUpgrade _ _ _ _ _ | .approveUpgrade _ _
    | .validateProposal _ _ | .executeUpgrade _ _ | .rollbackUpgrade _ _
    | .sweepExpiredProposals _ => .isTrue trivial

namespace Sample

/-- Two of the members decide, with a delay of ten seconds. -/
def configure (members : List Nat) : Event Nat := signed 1 (.setMultisigConfig members 2 10)

/-- Members `2` and `3` approve version `2`; then the members may change, and ten seconds go by. -/
def agreed (members : List Nat) : List (Event Nat) :=
  installed ++
    [ configure [2, 3], propose 2 2, approve 3 1, validate 2 1, configure members, .close 20 1 ]

end Sample

/-- A run with an execution, after a member was added. -/
theorem authorized_executions_agreed :
    ∃ (before : Log Nat) (s : World Nat), Authorized before s 1 ∧
      (system Sample.chain).Logged Steadfast s before := by
  have hpl : ((system Sample.chain).play Steadfast (Sample.agreed [2, 3, 4]) (World.init 0 0)).any
      (fun s => ((system Sample.chain).step s (Sample.execute 2 1)).isSome) = true := by
    decide
  obtain ⟨s, hs, hst⟩ := (Option.any_eq_true _ _).mp hpl
  obtain ⟨w, hw⟩ := isSome_iff_exists.mp hst
  have hlog := logged_of_play (start_init Sample.chain 0 0) hs
  have hg : Steadfast s (Sample.execute 2 1) := trivial
  exact ⟨_, s, authorized_executions (hlog.step hg hw) rfl, hlog⟩

/-- Member `3` was replaced by `4` after the approval: the upgrade is executed on one approval of two. -/
theorem replaced_approver : ∃ (w : World Nat) (before : Log Nat) (s : World Nat),
    (system Sample.chain).Logged ClockMonotone w (before ++ [(s, Sample.execute 2 1)]) ∧
      ((approvers before 1).filter fun a => isGovernanceMember s a).length < s.threshold := by
  have hpl : ((system Sample.chain).play ClockMonotone (Sample.agreed [2, 4]) (World.init 0 0)).any
      (fun s => ((system Sample.chain).step s (Sample.execute 2 1)).isSome &&
        decide (((approvers ((system Sample.chain).record (Sample.agreed [2, 4]) (World.init 0 0)) 1).filter
          fun a => isGovernanceMember s a).length < s.threshold)) = true := by
    decide
  obtain ⟨s, hs, hend⟩ := (Option.any_eq_true _ _).mp hpl
  rw [Bool.and_eq_true] at hend
  obtain ⟨w, hw⟩ := isSome_iff_exists.mp hend.1
  exact ⟨w, _, s, (logged_of_play (start_init Sample.chain 0 0) hs).step trivial hw,
    of_decide_eq_true hend.2⟩

end AiNet.UpgradeManager
