import AiNet.AgentRegistry.Effects

/-!
# What an executed operation was approved by

A proposal keeps its approvals, and `execute_operation` counts them against the threshold
in force. The count does not ask who approved: an approval by a signer who was removed
since, or by the single administrator, counts too, and a configuration may list a signer
twice. Where neither happens, an executed operation has its quorum.
-/

namespace AiNet.AgentRegistry

open Core List Storage System

variable {Addr Sym : Type} [DecidableEq Addr] [DecidableEq Sym]
variable {env : Env Addr Sym} {w w' : World Addr Sym}

/-! ## What a call does to the proposals -/

def Event.Executes (proposalId : Nat) (e : Event Addr Sym) : Prop :=
  ∃ signed executor, e = .invoke signed (.multisig (.executeOperation executor proposalId))

def Event.Cancels (proposalId : Nat) (e : Event Addr Sym) : Prop :=
  ∃ signed canceller, e = .invoke signed (.multisig (.cancelOperation canceller proposalId))

/-- The call, signed by `a`, approves a proposal, or makes it with its first approval. -/
def Event.Approves (w : World Addr Sym) (proposalId : Nat) (a : Addr)
    (e : Event Addr Sym) : Prop :=
  ∃ signed, signed a = true ∧ (e = .invoke signed (.multisig (.approveOperation a proposalId)) ∨
      ∃ action expiry, e = .invoke signed (.multisig (.proposeOperation a action expiry)) ∧
        proposalId = w.proposalIdSequence + 1)

/-- What an executed proposal had to show: the checks of `execute_operation`. -/
structure Executable (w : World Addr Sym) (p : Proposal Addr Sym) : Prop where
  fresh : p.executed = false
  standing : p.cancelled = false
  unexpired : w.now ≤ p.expiresAt
  due : p.eta ≤ w.now
  approved : ∀ config, w.multisigConfig = some config → config.threshold ≤ p.approvals.length

/-- What an event does to the proposals. -/
inductive ProposalStep (w w' : World Addr Sym) (e : Event Addr Sym) : Prop where
  | kept : (∀ id, ¬ e.Executes id) → (∀ id, ¬ e.Cancels id) → w'.proposals = w.proposals →
      w'.proposalIdSequence = w.proposalIdSequence → ProposalStep w w' e
  | proposed {a : Addr} {p : Proposal Addr Sym} :
      e.Approves w (w.proposalIdSequence + 1) a → (∀ id, ¬ e.Executes id) → (∀ id, ¬ e.Cancels id) →
      p.approvals = [a] → w'.proposals = w.proposals.set (w.proposalIdSequence + 1) p →
      w'.proposalIdSequence = w.proposalIdSequence + 1 → ProposalStep w w' e
  | approved {a : Addr} {id : Nat} {p : Proposal Addr Sym} :
      e.Approves w id a → (∀ id, ¬ e.Executes id) → (∀ id, ¬ e.Cancels id) →
      w.proposals.get id = some p → a ∉ p.approvals →
      w'.proposals = w.proposals.set id { p with approvals := p.approvals ++ [a] } →
      w'.proposalIdSequence = w.proposalIdSequence → ProposalStep w w' e
  | executed {id : Nat} {p : Proposal Addr Sym} :
      e.Executes id → w.proposals.get id = some p → Executable w p →
      w'.proposals = w.proposals.set id { p with executed := true } →
      w'.proposalIdSequence = w.proposalIdSequence → ProposalStep w w' e
  | cancelled {id : Nat} {p : Proposal Addr Sym} :
      e.Cancels id → w.proposals.get id = some p →
      w'.proposals = w.proposals.set id { p with cancelled := true } →
      w'.proposalIdSequence = w.proposalIdSequence → ProposalStep w w' e

variable {signed : Addr → Bool} {op : Op Addr Sym}

section

omit [DecidableEq Addr] [DecidableEq Sym]

theorem not_executes (h : ∀ executor id, op ≠ .multisig (.executeOperation executor id)) (id : Nat) :
    ¬ Event.Executes id (.invoke signed op) := by
  rintro ⟨signed', executor, he⟩
  injection he with _ hop
  exact h executor id hop

theorem not_cancels (h : ∀ canceller id, op ≠ .multisig (.cancelOperation canceller id)) (id : Nat) :
    ¬ Event.Cancels id (.invoke signed op) := by
  rintro ⟨signed', canceller, he⟩
  injection he with _ hop
  exact h canceller id hop

end

omit [DecidableEq Addr] in
theorem performAction_multisig {action : AdminAction Addr Sym}
    (h : performAction action w = .ok w') :
    w'.proposals = w.proposals ∧ w'.proposalIdSequence = w.proposalIdSequence ∧
      (w'.multisigConfig = w.multisigConfig ∨ ∃ admins threshold delay,
        action = .setMultisigConfig admins threshold delay ∧
          w'.multisigConfig = some ⟨admins, threshold, delay⟩) := by
  cases action with
  | slashBond =>
    obtain ⟨actual, hsls⟩ := bind_snd_eq_ok.mp h
    obtain ⟨r, -, -, -, -, hs⟩ := internalSlashBond_ok hsls
    have hfrm := hs.bondsOnly.frame
    rw [hfrm]
    exact ⟨rfl, rfl, .inl rfl⟩
  | setMultisigConfig admins threshold delay =>
    obtain ⟨-, -, hw⟩ := bind_eq_ok.mp h
    obtain rfl := pure_eq_ok.mp hw
    exact ⟨rfl, rfl, .inr ⟨admins, threshold, delay, rfl, rfl⟩⟩
  | _ =>
    obtain rfl := pure_eq_ok.mp h
    exact ⟨rfl, rfl, .inl rfl⟩

/-- **What execution checks and does.** -/
theorem executeOperation_ok {executor : Addr} {id : Nat}
    (h : executeOperation env signed executor id w = .ok w') :
    ∃ p, w.proposals.get id = some p ∧ Executable w p ∧
      w'.proposals = w.proposals.set id { p with executed := true } ∧
      w'.proposalIdSequence = w.proposalIdSequence ∧
      (w'.multisigConfig = w.multisigConfig ∨ ∃ admins threshold delay,
        p.action = .setMultisigConfig admins threshold delay ∧
          w'.multisigConfig = some ⟨admins, threshold, delay⟩) := by
  simp only [executeOperation, bind_eq_ok, exists_and_left, requireAuth_eq_ok, exists_const,
    okOr_eq_ok, failIf_eq_ok, Bool.not_eq_true, not_lt] at h
  obtain ⟨-, -, p, hp, hfr, hstn, hexy, heta, hapr, h⟩ := h
  obtain ⟨hpps, hseq, hcfg⟩ := performAction_multisig h
  refine ⟨p, hp, ⟨hfr, hstn, hexy, heta, ?_⟩, hpps, hseq, hcfg⟩
  intro config hc
  rwa [hc] at hapr

theorem execMultisig_proposals {op : MultisigOp Addr Sym} (h : execMultisig env signed op w = .ok w') :
    ProposalStep w w' (.invoke signed (.multisig op)) := by
  cases op with
  | executeOperation executor =>
    obtain ⟨p, hp, hec, hpps, hseq, -⟩ := executeOperation_ok h
    exact .executed ⟨signed, executor, rfl⟩ hp hec hpps hseq
  | proposeOperation proposer action expiry =>
    simp only [execMultisig, proposeOperation, bind_eq_ok, exists_and_left, requireAuth_eq_ok,
      exists_const, failIf_eq_ok, orTrap_eq_ok, checked64_eq_some, pure_eq_ok, Prod.exists,
      Prod.mk.injEq] at h
    obtain ⟨id, w₁, ⟨⟨-, hsgn⟩, -, seq, ⟨-, rfl⟩, eta, -, expires, -, -, rfl⟩, rfl⟩ := h
    exact .proposed ⟨signed, hsgn, .inr ⟨action, expiry, rfl, rfl⟩⟩
      (not_executes (by rintro _ _ ⟨⟩)) (not_cancels (by rintro _ _ ⟨⟩)) rfl rfl rfl
  | setMultisigConfig | clearMultisigConfig =>
    simp only [execMultisig, setMultisigConfig, clearMultisigConfig] at h
    repeat obtain ⟨_, _, h⟩ := bind_eq_ok.mp h
    obtain rfl := pure_eq_ok.mp h
    exact .kept (not_executes (by rintro _ _ ⟨⟩)) (not_cancels (by rintro _ _ ⟨⟩))
      rfl rfl
  | approveOperation =>
    simp only [execMultisig, approveOperation, bind_eq_ok, exists_and_left, requireAuth_eq_ok,
      exists_const, okOr_eq_ok, failIf_eq_ok, pure_eq_ok] at h
    obtain ⟨⟨-, hsgn⟩, -, p, hp, -, -, -, hnew, rfl⟩ := h
    exact .approved ⟨signed, hsgn, .inl rfl⟩ (not_executes (by rintro _ _ ⟨⟩))
      (not_cancels (by rintro _ _ ⟨⟩)) hp hnew rfl rfl
  | cancelOperation canceller =>
    simp only [execMultisig, cancelOperation, bind_eq_ok, exists_and_left, exists_const,
      okOr_eq_ok, failIf_eq_ok, pure_eq_ok] at h
    obtain ⟨-, -, p, hp, -, -, -, rfl⟩ := h
    exact .cancelled ⟨signed, canceller, rfl⟩ hp rfl rfl

theorem exec_multisig_kept (h : exec env signed op w = .ok w') (hop : ∀ m, op ≠ .multisig m) :
    w'.toMultisig = w.toMultisig := by
  cases op with
  | multisig m => exact absurd rfl (hop m)
  | control => rw [execControl_frame h]
  | registration => rw [execRegistration_frame h]
  | bond => rw [(execBond_moves h).2.frame]
  | metrics => rw [(execMetrics_moves h).2.frame]
  | reputation => rw [execReputation_frame h]
  | registerAgentVersion => rw [registerAgentVersion_frame h]
  | discoverAgents => rw [execDiscover_frame h]

variable {e : Event Addr Sym}

/-- **What an event does to the proposals.** -/
theorem step_proposals (hs : (system env).step w e = some w') :
    ProposalStep w w' e := by
  cases e with
  | close | lapse =>
    cases hs
    refine .kept ?_ ?_ rfl rfl
    all_goals
      rintro id ⟨signed, caller, he⟩
      cases he
  | invoke signed op =>
    have h := step_invoke.mp hs
    by_cases hop : ∃ m, op = .multisig m
    · obtain ⟨m, rfl⟩ := hop
      exact execMultisig_proposals h
    · have hkpt := exec_multisig_kept h fun m hm => hop ⟨m, hm⟩
      refine .kept (not_executes ?_) (not_cancels ?_) ?_ ?_
      · exact fun executor id he => hop ⟨_, he⟩
      · exact fun canceller id he => hop ⟨_, he⟩
      · exact congrArg Multisig.proposals hkpt
      · exact congrArg Multisig.proposalIdSequence hkpt

/-! ## The proposals of a run -/

variable {log : List (World Addr Sym × Event Addr Sym)}

/-- An address has approved a proposal in the recorded run. -/
def ApprovedIn (log : List (World Addr Sym × Event Addr Sym)) (id : Nat) (a : Addr) :
    Prop :=
  ∃ entry ∈ log, entry.2.Approves entry.1 id a

/-- What the record of a run says of a stored proposal. -/
structure Proposal.Recorded (log : List (World Addr Sym × Event Addr Sym)) (id : Nat)
    (p : Proposal Addr Sym) : Prop where
  nodup : p.approvals.Nodup
  approved : ∀ a ∈ p.approvals, ApprovedIn log id a
  executed : (∃ entry ∈ log, entry.2.Executes id) → p.executed = true
  cancelled : (∃ entry ∈ log, entry.2.Cancels id) → p.cancelled = true

/-- And of all of them. Ids are handed out in order, so an unused one was never called for. -/
structure ProposalsRecorded (w : World Addr Sym)
    (log : List (World Addr Sym × Event Addr Sym)) : Prop where
  stored : ∀ id p, w.proposals.get id = some p → p.Recorded log id
  absent : ∀ id, w.proposals.get id = none → ∀ entry ∈ log, ¬ entry.2.Executes id ∧ ¬ entry.2.Cancels id
  later : ∀ id, w.proposalIdSequence < id → w.proposals.get id = none

section

omit [DecidableEq Addr] [DecidableEq Sym]

theorem exists_entry_snoc {P : World Addr Sym × Event Addr Sym → Prop}
    {last : World Addr Sym × Event Addr Sym} :
    (∃ entry ∈ log ++ [last], P entry) ↔ (∃ entry ∈ log, P entry) ∨ P last := by
  simp only [mem_append, mem_singleton, or_and_right, exists_or, exists_eq_left]

theorem ApprovedIn.append {id : Nat} {a : Addr} (h : ApprovedIn log id a)
    (more : List (World Addr Sym × Event Addr Sym)) : ApprovedIn (log ++ more) id a := by
  obtain ⟨entry, hent, ha⟩ := h
  exact ⟨entry, mem_append_left _ hent, ha⟩

end

variable {p : Proposal Addr Sym}

section

omit [DecidableEq Addr] [DecidableEq Sym]

theorem Proposal.Recorded.append {id : Nat} (h : p.Recorded log id) (hec : ¬ e.Executes id)
    (hcnl : ¬ e.Cancels id) :
    p.Recorded (log ++ [(w, e)]) id := by
  refine ⟨h.nodup, fun a ha => (h.approved a ha).append _, ?_, ?_⟩
  · intro he
    rcases exists_entry_snoc.mp he with hold | hla
    · exact h.executed hold
    · exact absurd hla hec
  · intro he
    rcases exists_entry_snoc.mp he with hold | hla
    · exact h.cancelled hold
    · exact absurd hla hcnl

theorem Event.Executes.unique {id id' : Nat} (h : e.Executes id) :
    (e.Executes id' → id' = id) ∧ ¬ e.Cancels id' := by
  obtain ⟨signed, executor, rfl⟩ := h
  constructor
  · rintro ⟨signed', executor', he⟩
    injection he with _ hop
    injection hop with hop
    injection hop with _ hid
    exact hid.symm
  · rintro ⟨signed', canceller, he⟩
    injection he with _ hop
    injection hop with hop
    cases hop

theorem Event.Cancels.unique {id id' : Nat} (h : e.Cancels id) :
    (e.Cancels id' → id' = id) ∧ ¬ e.Executes id' := by
  obtain ⟨signed, canceller, rfl⟩ := h
  constructor
  · rintro ⟨signed', canceller', he⟩
    injection he with _ hop
    injection hop with hop
    injection hop with _ hid
    exact hid.symm
  · rintro ⟨signed', executor, he⟩
    injection he with _ hop
    injection hop with hop
    cases hop

theorem proposalsRecorded_init (now sequence : Nat) :
    ProposalsRecorded (World.init now sequence : World Addr Sym) [] := by
  refine ⟨?_, ?_, fun _ _ => rfl⟩
  · intro id p hp
    cases hp
  · intro id _ entry hent
    cases hent

theorem ProposalsRecorded.le_sequence (h : ProposalsRecorded w log) {id : Nat}
    (hp : w.proposals.get id = some p) : id ≤ w.proposalIdSequence := by
  by_contra hlt
  rw [h.later id (by omega)] at hp
  cases hp

theorem ProposalsRecorded.write (h : ProposalsRecorded w log) {id : Nat}
    (hset : w'.proposals = w.proposals.set id p) (hp : p.Recorded (log ++ [(w, e)]) id)
    (hots : ∀ x, x ≠ id → ¬ e.Executes x ∧ ¬ e.Cancels x) (hid : id ≤ w'.proposalIdSequence)
    (hseq : w.proposalIdSequence ≤ w'.proposalIdSequence) :
    ProposalsRecorded w' (log ++ [(w, e)]) := by
  refine ⟨?_, ?_, ?_⟩
  · intro x q hq
    rw [hset, get_set] at hq
    by_cases hx : x = id
    · rw [if_pos hx] at hq
      rw [hx, ← Option.some.inj hq]
      exact hp
    · rw [if_neg hx] at hq
      exact (h.stored x q hq).append (hots x hx).1 (hots x hx).2
  · intro x hx entry hent
    rw [hset, get_set] at hx
    by_cases hxid : x = id
    · rw [if_pos hxid] at hx
      cases hx
    · rw [if_neg hxid] at hx
      rcases mem_append.mp hent with hold | hla
      · exact h.absent x hx entry hold
      · rw [mem_singleton.mp hla]
        exact hots x hxid
  · intro x hx
    rw [hset, get_set_ne _ _ (by omega)]
    exact h.later x (by omega)

/-- **The step**: the record goes on saying what is stored. -/
theorem ProposalStep.recorded (hs : ProposalStep w w' e)
    (h : ProposalsRecorded w log) : ProposalsRecorded w' (log ++ [(w, e)]) := by
  cases hs with
  | kept hec hcnl hpps hseq =>
    refine ⟨?_, ?_, ?_⟩
    · intro id p hp
      rw [hpps] at hp
      exact (h.stored id p hp).append (hec id) (hcnl id)
    · intro id hid entry hent
      rw [hpps] at hid
      rcases mem_append.mp hent with hold | hla
      · exact h.absent id hid entry hold
      · rw [mem_singleton.mp hla]
        exact ⟨hec id, hcnl id⟩
    · intro id hid
      rw [hpps]
      exact h.later id (hseq ▸ hid)
  | @proposed a p hap hec hcnl hfst hset hseq =>
    have hab := h.absent _ (h.later _ (Nat.lt_succ_self w.proposalIdSequence))
    refine h.write hset ⟨?_, ?_, ?_, ?_⟩ (fun x _ => ⟨hec x, hcnl x⟩) (by omega) (by omega)
    · rw [hfst]
      exact nodup_singleton a
    · intro b hb
      rw [hfst] at hb
      obtain rfl := mem_singleton.mp hb
      exact exists_entry_snoc.mpr (.inr hap)
    · -- the id is new, so nobody has called for it
      intro he
      rcases exists_entry_snoc.mp he with ⟨entry, hent, hold⟩ | hla
      · exact absurd hold (hab entry hent).1
      · exact absurd hla (hec _)
    · intro he
      rcases exists_entry_snoc.mp he with ⟨entry, hent, hold⟩ | hla
      · exact absurd hold (hab entry hent).2
      · exact absurd hla (hcnl _)
  | @approved a id p hap hec hcnl hp hnew hset hseq =>
    have hre := (h.stored id p hp).append (w := w) (hec id) (hcnl id)
    refine h.write hset ⟨?_, ?_, hre.executed, hre.cancelled⟩
      (fun x _ => ⟨hec x, hcnl x⟩) (by rw [hseq]; exact h.le_sequence hp) (by omega)
    · refine List.Nodup.append hre.nodup (nodup_singleton a) ?_
      intro b hb hb'
      obtain rfl := mem_singleton.mp hb'
      exact hnew hb
    · intro b hb
      rcases mem_append.mp hb with hold | hla
      · exact hre.approved b hold
      · obtain rfl := mem_singleton.mp hla
        exact exists_entry_snoc.mpr (.inr hap)
  | @executed id p hec hp _ hset hseq =>
    have hsto := h.stored id p hp
    -- an execution is not a cancellation, so only an earlier one could have cancelled it
    refine h.write hset ⟨hsto.nodup, fun a ha => (hsto.approved a ha).append _, fun _ => rfl, ?_⟩
      (fun x hx => ⟨fun he => hx (hec.unique.1 he), hec.unique.2⟩)
      (by rw [hseq]; exact h.le_sequence hp) (by omega)
    intro he
    rcases exists_entry_snoc.mp he with hold | hla
    · exact hsto.cancelled hold
    · exact absurd hla hec.unique.2
  | @cancelled id p hcnl hp hset hseq =>
    have hsto := h.stored id p hp
    refine h.write hset ⟨hsto.nodup, fun a ha => (hsto.approved a ha).append _, ?_, fun _ => rfl⟩
      (fun x hx => ⟨hcnl.unique.2, fun he => hx (hcnl.unique.1 he)⟩)
      (by rw [hseq]; exact h.le_sequence hp) (by omega)
    intro he
    rcases exists_entry_snoc.mp he with hold | hla
    · exact hsto.executed hold
    · exact absurd hla hcnl.unique.2

end

theorem proposals_recorded {guard : World Addr Sym → Event Addr Sym → Prop}
    (h : (system env).Logged guard w log) : ProposalsRecorded w log := by
  induction h with
  | start h0 =>
    obtain ⟨now, sequence, rfl⟩ := h0
    exact proposalsRecorded_init now sequence
  | step _ _ hs ih => exact (step_proposals hs).recorded ih

/-! ## Quorums -/

/-- A configuration by which approval can be reached: it has as many distinct signers as it asks for. -/
def Attainable (admins : List Addr) (threshold : Nat) : Prop := threshold ≤ admins.dedup.length

/-- The action does not store a configuration that cannot be reached. -/
def AdminAction.KeepsAttainable : AdminAction Addr Sym → Prop
  | .setMultisigConfig admins threshold _ => Attainable admins threshold
  | _ => True

/--
The call does not go by the two things the count of approvals overlooks: a configuration that lists
signers twice, and approvals by addresses that are not signers of the configuration in force.
-/
def MultisigOp.ByMembers (w : World Addr Sym) : MultisigOp Addr Sym → Prop
  | .setMultisigConfig _ admins threshold _ => Attainable admins threshold
  | .executeOperation _ proposalId =>
    ∀ p, w.proposals.get proposalId = some p → p.action.KeepsAttainable ∧
      ∀ config, w.multisigConfig = some config → ∀ a ∈ p.approvals, a ∈ config.admins
  | _ => True

def ByMembers (w : World Addr Sym) : Event Addr Sym → Prop
  | .invoke _ (.multisig op) => op.ByMembers w
  | _ => True

instance (admins : List Addr) (threshold : Nat) : Decidable (Attainable admins threshold) :=
  inferInstanceAs (Decidable (threshold ≤ admins.dedup.length))

instance (action : AdminAction Addr Sym) : Decidable action.KeepsAttainable :=
  match action with
  | .setMultisigConfig admins threshold _ => inferInstanceAs (Decidable (Attainable admins threshold))
  | .pause | .unpause | .setAdmin _ | .slashBond _ _ | .setMinBond _ | .setGasConfig _ =>
    .isTrue trivial

instance (w : World Addr Sym) (op : MultisigOp Addr Sym) : Decidable (op.ByMembers w) :=
  match op with
  | .setMultisigConfig _ admins threshold _ => inferInstanceAs (Decidable (Attainable admins threshold))
  | .executeOperation _ proposalId =>
    inferInstanceAs (Decidable (∀ p ∈ w.proposals.get proposalId, p.action.KeepsAttainable ∧
      ∀ config ∈ w.multisigConfig, ∀ a ∈ p.approvals, a ∈ config.admins))
  | .clearMultisigConfig _ | .proposeOperation _ _ _ | .approveOperation _ _
  | .cancelOperation _ _ => .isTrue trivial

instance (w : World Addr Sym) (e : Event Addr Sym) : Decidable (ByMembers w e) :=
  match e with
  | .invoke _ (.multisig op) => inferInstanceAs (Decidable (op.ByMembers w))
  | .close _ _ | .lapse _ | .invoke _ (.control _) | .invoke _ (.registration _)
  | .invoke _ (.bond _) | .invoke _ (.metrics _) | .invoke _ (.reputation _)
  | .invoke _ (.registerAgentVersion _ _) | .invoke _ (.discoverAgents _) => .isTrue trivial

/-- A proposal that was properly approved when it was executed in `w`, after the run recorded in `log`. -/
structure ProperlyApproved (w : World Addr Sym)
    (log : List (World Addr Sym × Event Addr Sym)) (id : Nat)
    (config : MultisigConfig Addr) (p : Proposal Addr Sym) : Prop where
  quorum : ∃ approvers : List Addr, approvers.Nodup ∧ config.threshold ≤ approvers.length ∧
    ∀ a ∈ approvers, a ∈ config.admins ∧ ApprovedIn log id a
  due : p.eta ≤ w.now
  unexpired : w.now ≤ p.expiresAt
  standing : ∀ entry ∈ log, ¬ entry.2.Cancels id
  fresh : ∀ entry ∈ log, ¬ entry.2.Executes id

/-- What the multi-signature administration promises of a run that led to `w`. -/
structure Governed (w : World Addr Sym)
    (log : List (World Addr Sym × Event Addr Sym)) : Prop where
  approved : ∀ before s e after, log = before ++ (s, e) :: after → ∀ id, e.Executes id →
    ∀ config, s.multisigConfig = some config →
      ∃ p, s.proposals.get id = some p ∧ ProperlyApproved s before id config p
  attainable : ∀ config, w.multisigConfig = some config → Attainable config.admins config.threshold

theorem step_config (hs : (system env).step w e = some w') (he : ByMembers w e) :
    w'.multisigConfig = w.multisigConfig ∨ w'.multisigConfig = none ∨
      ∃ config, w'.multisigConfig = some config ∧ Attainable config.admins config.threshold := by
  cases e with
  | close | lapse =>
    cases hs
    exact .inl rfl
  | invoke signed op =>
    have h := step_invoke.mp hs
    by_cases hop : ∃ m, op = .multisig m
    · obtain ⟨m, rfl⟩ := hop
      cases m with
      | executeOperation =>
        obtain ⟨p, hp, -, -, -, hsm | ⟨admins, threshold, delay, hac, hcfg⟩⟩ :=
          executeOperation_ok h
        · exact .inl hsm
        · have hkps := (he p hp).1
          rw [hac] at hkps
          exact .inr (.inr ⟨_, hcfg, hkps⟩)
      | setMultisigConfig =>
        simp only [exec, execMultisig, setMultisigConfig, bind_eq_ok, pure_eq_ok] at h
        obtain ⟨-, -, -, -, -, -, rfl⟩ := h
        exact .inr (.inr ⟨_, rfl, he⟩)
      | clearMultisigConfig =>
        simp only [exec, execMultisig, clearMultisigConfig, bind_eq_ok, pure_eq_ok] at h
        obtain ⟨-, -, -, -, rfl⟩ := h
        exact .inr (.inl rfl)
      | proposeOperation =>
        simp only [exec, execMultisig, proposeOperation, bind_eq_ok, pure_eq_ok, Prod.exists,
          Prod.mk.injEq] at h
        obtain ⟨id, w₁, ⟨-, -, -, -, -, -, -, -, -, -, -, rfl⟩, rfl⟩ := h
        exact .inl rfl
      | approveOperation | cancelOperation =>
        simp only [exec, execMultisig, approveOperation, cancelOperation] at h
        repeat obtain ⟨_, _, h⟩ := bind_eq_ok.mp h
        obtain rfl := pure_eq_ok.mp h
        exact .inl rfl
    · have hkpt := exec_multisig_kept h fun m hm => hop ⟨m, hm⟩
      exact .inl (congrArg Multisig.multisigConfig hkpt)

theorem executed_properly (hs : (system env).step w e = some w') (he : ByMembers w e)
    (hre : ProposalsRecorded w log) {id : Nat} (hec : e.Executes id) {config : MultisigConfig Addr}
    (hcfg : w.multisigConfig = some config) :
    ∃ p, w.proposals.get id = some p ∧ ProperlyApproved w log id config p := by
  obtain ⟨signed, executor, rfl⟩ := hec
  obtain ⟨p, hp, hexe, -⟩ := executeOperation_ok (step_invoke.mp hs)
  have hsto := hre.stored id p hp
  have hme := (he p hp).2 config hcfg
  refine ⟨p, hp, ⟨p.approvals, hsto.nodup, hexe.approved config hcfg, ?_⟩, hexe.due, hexe.unexpired, ?_, ?_⟩
  · exact fun a ha => ⟨hme a ha, hsto.approved a ha⟩
  · intro entry hent hca
    have hfl := hsto.cancelled ⟨entry, hent, hca⟩
    rw [hexe.standing] at hfl
    cases hfl
  · intro entry hent hexs
    have hfl := hsto.executed ⟨entry, hent, hexs⟩
    rw [hexe.fresh] at hfl
    cases hfl

/--
**Executed operations were approved.** In every run whose configurations can be reached and whose
executions count approvals by current signers only, an operation executed under a configuration had its
quorum of signers, was due, and had been neither cancelled nor executed; and the configuration in force
can be reached.
-/
theorem governed_of_byMembers (h : (system env).Logged ByMembers w log) : Governed w log := by
  constructor
  · intro before s e after hlog id hec config hcfg
    obtain ⟨hbf, hme, s', hs⟩ := h.split hlog
    exact executed_properly hs hme (proposals_recorded hbf) hec hcfg
  · induction h with
    | start h0 =>
      obtain ⟨now, sequence, rfl⟩ := h0
      intro config hcfg
      cases hcfg
    | @step w w' e log hlog hg hs ih =>
      intro config hcfg
      rcases step_config hs hg with hsm | hno | ⟨config', hsto, hat⟩
      · exact ih config (hsm ▸ hcfg)
      · rw [hno] at hcfg
        cases hcfg
      · cases hsto.symm.trans hcfg
        exact hat

namespace Sample

/-- The administrator names the signers `2` and `3`, both needed, and `2` proposes to pause. -/
def proposed : List (Event Nat Nat) :=
  [ call 1 (.control (.initializeRegistry 1)), call 1 (.multisig (.setMultisigConfig 1 [2, 3] 2 0)),
    call 2 (.multisig (.proposeOperation 2 .pause none)) ]

/-- Both signers approve, and the operation is executed. -/
def seconded : List (Event Nat Nat) :=
  proposed ++
    [ call 3 (.multisig (.approveOperation 3 1)), call 2 (.multisig (.executeOperation 2 1)) ]

/-- The administrator, who is no signer, approves in the place of `3`. -/
def overruled : List (Event Nat Nat) :=
  proposed ++ [call 1 (.multisig (.approveOperation 1 1))]

theorem not_approved_three : ¬ ApprovedIn ((system deployment).record overruled (World.init 0 0)) 1 3 := by
  rintro ⟨entry, hent, signed, -, hap⟩
  have hev := event_of_record hent
  simp only [overruled, proposed, cons_append, nil_append, mem_cons, not_mem_nil, or_false] at hev
  rcases hap with he | ⟨action, expiry, he, -⟩
  · rw [he] at hev
    simp [call] at hev
  · rw [he] at hev
    simp [call] at hev

theorem exists_overruled : ∃ s w, (system deployment).Logged ClockMonotone s
      ((system deployment).record overruled (World.init 0 0)) ∧
    (system deployment).step s (call 2 (.multisig (.executeOperation 2 1))) = some w ∧
      s.multisigConfig = some ⟨[2, 3], 2, 0⟩ := by
  have hpl : ((system deployment).play ClockMonotone overruled (World.init 0 0)).any (fun s =>
      ((system deployment).step s (call 2 (.multisig (.executeOperation 2 1)))).any fun _ =>
        s.multisigConfig = some ⟨[2, 3], 2, 0⟩) = true := by
    decide
  obtain ⟨s, hs, hend⟩ := (Option.any_eq_true _ _).mp hpl
  obtain ⟨w, hw, hend⟩ := (Option.any_eq_true _ _).mp hend
  exact ⟨s, w, logged_of_play (start_init _ 0 0) hs, hw, of_decide_eq_true hend⟩

end Sample

/-- The proposal that both signers approved. -/
theorem governed_of_byMembers_seconded : ∃ (w : World Nat Nat)
    (log : List (World Nat Nat × Event Nat Nat)),
    (system Sample.deployment).Logged ByMembers w log ∧ Governed w log ∧ w.paused = true := by
  have hpl : ((system Sample.deployment).play ByMembers Sample.seconded (World.init 0 0)).any
      (fun w => w.paused = true) = true := by
    decide
  obtain ⟨w, hlog, hend⟩ := exists_logged (start_init _ 0 0) hpl
  exact ⟨w, _, hlog, governed_of_byMembers hlog, hend⟩

/-- The quorum of one signer: `3` never approved, and the operation was executed. -/
theorem quorum_of_one : ∃ (w : World Nat Nat) (log : List (World Nat Nat × Event Nat Nat)),
    (system Sample.deployment).Logged ClockMonotone w log ∧ ¬ Governed w log := by
  obtain ⟨s, w, hlog, hs, hcfg⟩ := Sample.exists_overruled
  refine ⟨w, _, hlog.step (by trivial) hs, ?_⟩
  intro h
  obtain ⟨p, -, hpr⟩ := h.approved _ s _ [] rfl 1 ⟨_, 2, rfl⟩ _ hcfg
  obtain ⟨approvers, hnd, hqrm, hme⟩ := hpr.quorum
  have hon : approvers ⊆ [2] := by
    intro a ha
    obtain ⟨hmbr, hapr⟩ := hme a ha
    rcases mem_cons.mp hmbr with rfl | hthr
    · exact mem_cons_self
    · obtain rfl := mem_singleton.mp hthr
      exact absurd hapr Sample.not_approved_three
  have hlen : approvers.length ≤ 1 := (subperm_of_subset hnd hon).length_le
  have hth : 2 ≤ approvers.length := hqrm
  omega

end AiNet.AgentRegistry
