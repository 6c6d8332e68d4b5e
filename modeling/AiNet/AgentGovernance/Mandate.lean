import AiNet.AgentGovernance.Motion

/-!
# What a payload is executed on

A payload leaves the contract in `execute_proposal` only. Reading the record of a run
backwards from such a call: the proposal was in the queue, so `queue_proposal` put it
there and found a quorum and a majority, and nobody cancelled it since; and it was
created with that payload.

The quorum is computed with saturating products. It agrees with the exact one unless
the cast power, in basis points, leaves the range of `i128`: there both sides of the
comparison meet at the upper end and every share passes.
-/

namespace AiNet.AgentGovernance

open Core List Option System

variable {Addr Sym : Type} [DecidableEq Addr] {env : Env Addr Sym}
  {w w' : World Addr Sym}

/-! ## The arithmetic of a vote -/

def Proposal.castPower (p : Proposal Addr Sym) : Int :=
  p.forPower + p.againstPower + p.abstainPower

/-- At least 30 % of the snapshotted power was cast. -/
def Proposal.HasQuorum (p : Proposal Addr Sym) : Prop :=
  p.totalPowerSnapshot * quorumBps ≤ p.castPower * bpsDenominator

/-- More than half of the decisive power is for the proposal. -/
def Proposal.HasMajority (p : Proposal Addr Sym) : Prop :=
  p.forPower + p.againstPower < 2 * p.forPower

/-- No tally is negative. -/
structure Proposal.Counted (p : Proposal Addr Sym) : Prop where
  forPower : 0 ≤ p.forPower
  againstPower : 0 ≤ p.againstPower
  abstainPower : 0 ≤ p.abstainPower

variable {p : Proposal Addr Sym}

section

omit [DecidableEq Addr]

theorem Proposal.Counted.hasMajority (h : p.Counted) (hma : majorityMet p = true) : p.HasMajority := by
  obtain ⟨_, hmo⟩ := of_decide_eq_true hma
  unfold satMul128 satAdd128 i128Max i128Min majorityBps bpsDenominator at hmo
  unfold Proposal.HasMajority
  omega

theorem Proposal.Counted.hasQuorum (h : p.Counted)
    (hqrm : quorumMet p = true)
    (hsnd : ¬ (i128Max ≤ p.castPower * bpsDenominator ∧
      p.castPower * bpsDenominator < p.totalPowerSnapshot * quorumBps)) : p.HasQuorum := by
  obtain ⟨hpos, hmet⟩ := of_decide_eq_true hqrm
  have hfor := h.forPower
  have hag := h.againstPower
  have hab := h.abstainPower
  unfold Proposal.castPower bpsDenominator quorumBps i128Max at hsnd
  unfold satMul128 satAdd128 i128Max i128Min quorumBps bpsDenominator at hmet
  unfold Proposal.HasQuorum Proposal.castPower quorumBps bpsDenominator
  omega

theorem Proposal.Counted.tally (h : p.Counted) {choice : VoteChoice}
    {weight : Int} (hw : 0 < weight) : (p.tally choice weight).Counted := by
  have hadd : ∀ x : Int, 0 ≤ x → 0 ≤ satAdd128 x weight := by
    intro x hx
    unfold satAdd128 i128Max i128Min
    omega
  cases choice with
  | for_ => exact ⟨hadd _ h.forPower, h.againstPower, h.abstainPower⟩
  | against => exact ⟨h.forPower, hadd _ h.againstPower, h.abstainPower⟩
  | abstain => exact ⟨h.forPower, h.againstPower, hadd _ h.abstainPower⟩

theorem Proposal.Counted.withStatus (h : p.Counted)
    (status : ProposalStatus) : ({ p with status := status } : Proposal Addr Sym).Counted :=
  ⟨h.forPower, h.againstPower, h.abstainPower⟩

end

/-! ## The life of a proposal -/

def Motion.status (M : Motion Addr Sym) : Option ProposalStatus :=
  M.proposal.map Proposal.status

/-- The moves of a status: from active to queued or failed, from queued to executed or failed. -/
inductive Lifecycle : Option ProposalStatus → Option ProposalStatus → Prop
  | same (status) : Lifecycle status status
  | opened : Lifecycle none (some .active)
  | queued : Lifecycle (some .active) (some .queued)
  | rejected : Lifecycle (some .active) (some .failed)
  | executed : Lifecycle (some .queued) (some .executed)
  | failed : Lifecycle (some .queued) (some .failed)

/-- The statuses a proposal keeps. -/
def ProposalStatus.closing : ProposalStatus → Bool
  | .active | .queued => false
  | .executed | .failed => true

theorem Lifecycle.closed {before after : Option ProposalStatus} (h : Lifecycle before after)
    {status : ProposalStatus} (hcl : status.closing = true) (hb : before = some status) :
    after = some status := by
  cases h with
  | same => exact hb
  | opened => cases hb
  | queued | rejected | executed | failed => cases hb; cases hcl

/-- The tallies are counted, and what is in the queue is marked so. -/
structure Motion.InOrder (M : Motion Addr Sym) : Prop where
  counted : ∀ p, M.proposal = some p → p.Counted
  queued : ∀ q, M.queued = some q → M.status = some .queued

omit [DecidableEq Addr] in
theorem Motion.InOrder.vacant : (Motion.vacant : Motion Addr Sym).InOrder := by
  refine ⟨?_, ?_⟩
  · intro p hp
    cases hp
  · intro q hq
    cases hq

theorem Motion.Change.inOrder {id : Nat} {e : Event Addr Sym} {M M' : Motion Addr Sym}
    (h : Motion.Change env w id e M M') (hM : M.InOrder) : M'.InOrder := by
  cases h with
  | opened =>
    refine ⟨?_, fun q hq => by cases hq⟩
    intro p hp
    cases hp
    exact ⟨le_rfl, le_rfl, le_rfl⟩
  | @voted call voter choice M p hp hact hfst hpos =>
    refine ⟨?_, ?_⟩
    · intro p' hp'
      cases hp'
      exact (hM.counted p hp).tally hpos
    · intro q hq
      have hst := hM.queued q hq
      rw [Motion.status, hp, map_some, hact] at hst
      cases hst
  | @passed call M p hp hact hedd hqrm hma =>
    refine ⟨?_, fun q hq => rfl⟩
    intro p' hp'
    cases hp'
    exact (hM.counted p hp).withStatus _
  | @rejected call M p hp hact =>
    refine ⟨?_, ?_⟩
    · intro p' hp'
      cases hp'
      exact (hM.counted p hp).withStatus _
    · intro q hq
      have hst := hM.queued q hq
      rw [Motion.status, hp, map_some, hact] at hst
      cases hst
  | @executed call M p q status hp hst hq hdue hcl =>
    refine ⟨?_, fun q hq => by cases hq⟩
    intro p' hp'
    cases hp'
    exact (hM.counted p hp).withStatus _
  | @cancelled call M q hq =>
    refine ⟨?_, fun q hq => by cases hq⟩
    intro p' hp'
    obtain ⟨p, hp, rfl⟩ := map_eq_some_iff.mp hp'
    exact (hM.counted p hp).withStatus _

theorem Motion.Change.lifecycle {id : Nat} {e : Event Addr Sym}
    {M M' : Motion Addr Sym} (h : Motion.Change env w id e M M') (hM : M.InOrder) :
    Lifecycle M.status M'.status := by
  unfold Motion.status
  cases h with
  | opened => exact .opened
  | @voted call voter choice M p hp hact hfst hpos =>
    rw [hp]
    dsimp only
    rw [map_some, map_some, Proposal.tally_terms]
    exact .same _
  | passed hp hact =>
    rw [hp, map_some, hact]
    exact .queued
  | rejected hp hact =>
    rw [hp, map_some, hact]
    exact .rejected
  | executed hp hst hq hdue hcl =>
    rw [hp, map_some, hst]
    rcases hcl with rfl | rfl
    · exact .executed
    · exact .failed
  | @cancelled call M q hq =>
    have hst := hM.queued q hq
    unfold Motion.status at hst
    obtain ⟨p, hp, hqd⟩ := map_eq_some_iff.mp hst
    dsimp only
    rw [hp, map_some, map_some, map_some, hqd]
    exact .failed

section Run

variable {guard : World Addr Sym → Event Addr Sym → Prop}

theorem inOrder_reachable (h : (system env).Reachable guard w) (id : Nat) : (w.motion id).InOrder := by
  refine System.Reachable.invariant (I := fun w => (w.motion id).InOrder) ?_ ?_ h
  · intro w h0
    obtain ⟨now, rfl⟩ := h0
    exact Motion.InOrder.vacant
  · intro w e w' hr _ hM hs
    rcases step_motion hr (numbered_reachable hr) hs id with ⟨_, hchg⟩ | ⟨_, hkpt⟩
    · exact hchg.inOrder hM
    · rw [hkpt]
      exact hM

/-- **A status only moves forward.** -/
theorem step_lifecycle {e : Event Addr Sym} (hr : (system env).Reachable guard w)
    (hs : (system env).step w e = some w') (id : Nat) :
    Lifecycle (w.motion id).status (w'.motion id).status := by
  rcases step_motion hr (numbered_reachable hr) hs id with ⟨_, hchg⟩ | ⟨_, hkpt⟩
  · exact hchg.lifecycle (inOrder_reachable hr id)
  · rw [hkpt]
    exact .same _

/-! ## What the record of a run says about a proposal -/

/-- `p` was created in the state `c`. -/
def CreatedIn (env : Env Addr Sym) (log : List (World Addr Sym × Event Addr Sym))
    (p : Proposal Addr Sym) (c : World Addr Sym) : Prop :=
  ∃ call proposer t title description secs payload period target,
    (c, Event.invoke call (.createProposal proposer t title description secs payload)) ∈ log ∧
      resolveTarget env t payload.target c = .ok target ∧ 0 < c.totalPower ∧
      p = { Proposal.opened env c proposer t title description period payload target with
        status := p.status
        forPower := p.forPower
        againstPower := p.againstPower
        abstainPower := p.abstainPower }

/-- The contract found quorum and majority for the proposal `id` in the state `q`. -/
def PassedIn (log : List (World Addr Sym × Event Addr Sym)) (id : Nat)
    (q : World Addr Sym) : Prop :=
  ∃ call p, (q, Event.invoke call (.queueProposal id)) ∈ log ∧
    q.proposals.get id = some p ∧ quorumMet p = true ∧ majorityMet p = true ∧
    p.votingEndsAt ≤ q.now

/-- Nobody cancelled the proposal. -/
def Standing (log : List (World Addr Sym × Event Addr Sym)) (id : Nat) : Prop :=
  ∀ entry ∈ log, ∀ call, entry.2 ≠ .invoke call (.cancelProposal id)

/-- What the calls before an execution in the state `s` were, as far as the contract looks. -/
structure Approved (env : Env Addr Sym)
    (before : List (World Addr Sym × Event Addr Sym)) (s : World Addr Sym)
    (inv : Invocation Addr Sym) : Prop where
  /-- The proposal was created with the payload that is invoked. -/
  created : ∃ c p, CreatedIn env before p c ∧ p.id = inv.proposalId ∧ p.target = some inv.target ∧
    p.function = inv.function ∧ p.calldata = inv.calldata
  /-- It passed, and the timelock set then is over. -/
  passed : ∃ q, PassedIn before inv.proposalId q ∧ satAdd64 q.now proposalTimelockSecs ≤ s.now
  /-- It was not cancelled. -/
  standing : Standing before inv.proposalId

/-- What the record of a run says about what is stored for one proposal. -/
structure Motion.Explained (env : Env Addr Sym)
    (log : List (World Addr Sym × Event Addr Sym)) (id : Nat)
    (M : Motion Addr Sym) : Prop where
  /-- It was created. -/
  created : ∀ p, M.proposal = some p → ∃ c, CreatedIn env log p c
  /-- What is in the queue has passed, and becomes due a timelock later. -/
  passed : ∀ q, M.queued = some q →
    ∃ s, PassedIn log id s ∧ q.canExecuteAt = satAdd64 s.now proposalTimelockSecs
  /-- As long as it is open, nobody has cancelled it and nothing was invoked for it. -/
  opened : (∀ status, M.status = some status → status.closing = false) →
    Standing log id ∧ M.invocations = []
  /-- At most one payload was invoked. -/
  once : M.invocations.length ≤ 1
  /-- It was invoked by an execution of an approved proposal. -/
  invoked : ∀ inv ∈ M.invocations, ∃ before call s after,
    log = before ++ (s, .invoke call (.executeProposal id)) :: after ∧ Approved env before s inv

theorem CreatedIn.mono {log more : List (World Addr Sym × Event Addr Sym)}
    {p p' : Proposal Addr Sym} {c : World Addr Sym} (h : CreatedIn env log p c)
    (hp : p' = { p with
      status := p'.status
      forPower := p'.forPower
      againstPower := p'.againstPower
      abstainPower := p'.abstainPower }) : CreatedIn env (log ++ more) p' c := by
  obtain ⟨call, proposer, t, title, description, secs, payload, period, target, hmem, htgt, hpos, hopd⟩ := h
  refine ⟨call, proposer, t, title, description, secs, payload, period, target,
    mem_append_left _ hmem, htgt, hpos, ?_⟩
  rw [hp, hopd]

section

omit [DecidableEq Addr]

theorem PassedIn.mono {log more : List (World Addr Sym × Event Addr Sym)} {id : Nat}
    {q : World Addr Sym} (h : PassedIn log id q) : PassedIn (log ++ more) id q := by
  obtain ⟨call, p, hmem, hrst⟩ := h
  exact ⟨call, p, mem_append_left _ hmem, hrst⟩

theorem Standing.snoc {log : List (World Addr Sym × Event Addr Sym)} {id : Nat}
    {e : Event Addr Sym} (h : Standing log id)
    (he : ∀ call, e ≠ .invoke call (.cancelProposal id)) : Standing (log ++ [(w, e)]) id := by
  intro entry hent call
  rcases mem_append.mp hent with hold | hnew
  · exact h entry hold call
  · rw [mem_singleton.mp hnew]
    exact he call

end

theorem Motion.Explained.invoked_snoc {log : List (World Addr Sym × Event Addr Sym)}
    {id : Nat} {M : Motion Addr Sym} (h : M.Explained env log id)
    (entry : World Addr Sym × Event Addr Sym) {inv : Invocation Addr Sym}
    (hinv : inv ∈ M.invocations) : ∃ before call s after,
      log ++ [entry] = before ++ (s, .invoke call (.executeProposal id)) :: after ∧
        Approved env before s inv := by
  obtain ⟨before, call, s, after, hlog, hapr⟩ := h.invoked inv hinv
  refine ⟨before, call, s, after ++ [entry], ?_, hapr⟩
  rw [hlog, append_assoc, cons_append]

theorem Motion.Explained.terms_kept {log more : List (World Addr Sym × Event Addr Sym)}
    {id : Nat} {M : Motion Addr Sym} {p p' : Proposal Addr Sym} (h : M.Explained env log id)
    (hp : M.proposal = some p)
    (htrm : p' = { p with
      status := p'.status
      forPower := p'.forPower
      againstPower := p'.againstPower
      abstainPower := p'.abstainPower }) :
    ∀ q, some p' = some q → ∃ c, CreatedIn env (log ++ more) q c := by
  intro q hq
  cases hq
  obtain ⟨c, hc⟩ := h.created p hp
  exact ⟨c, hc.mono htrm⟩

theorem Motion.Explained.snoc {log : List (World Addr Sym × Event Addr Sym)} {id : Nat}
    {e : Event Addr Sym} {M : Motion Addr Sym} (h : M.Explained env log id)
    (he : ∀ call, e ≠ .invoke call (.cancelProposal id)) :
    M.Explained env (log ++ [(w, e)]) id where
  created := by
    intro p hp
    obtain ⟨c, hc⟩ := h.created p hp
    exact ⟨c, hc.mono rfl⟩
  passed := by
    intro q hq
    obtain ⟨s, hs, hdue⟩ := h.passed q hq
    exact ⟨s, hs.mono, hdue⟩
  opened := fun hon => ⟨(h.opened hon).1.snoc he, (h.opened hon).2⟩
  once := h.once
  invoked := fun _ hinv => h.invoked_snoc _ hinv

omit [DecidableEq Addr] in
theorem Motion.open_of_status {M : Motion Addr Sym} (hp : M.proposal = some p)
    (hst : p.status.closing = false) :
    ∀ status, M.status = some status → status.closing = false := by
  intro status h
  rw [Motion.status, hp, map_some] at h
  exact some.inj h ▸ hst

/-- **Every change is explained by the record.** -/
theorem Motion.Change.explained {log : List (World Addr Sym × Event Addr Sym)} {id : Nat}
    {e : Event Addr Sym} {M M' : Motion Addr Sym}
    (h : Motion.Change env w id e M M') (hM : M.Explained env log id) (hord : M.InOrder)
    (hnum : ∀ p, M.proposal = some p → p.id = id) (hvi : M.proposal = w.proposals.get id) :
    M'.Explained env (log ++ [(w, e)]) id := by
  cases h with
  | @opened call proposer t title description secs payload period target hid htgt hpos =>
    -- a proposal just opened: this call created it, and nothing was queued or invoked yet
    refine ⟨?_, fun q hq => (by cases hq), ?_, Nat.zero_le _, fun inv hinv => by cases hinv⟩
    · intro p hp
      cases hp
      exact ⟨w, call, proposer, t, title, description, secs, payload, period, target,
        mem_append_right _ (mem_singleton_self _), htgt, hpos, rfl⟩
    · intro _
      refine ⟨(hM.opened ?_).1.snoc (fun call he => by cases he), rfl⟩
      intro status hst
      cases hst
  | @voted call voter choice M p hp hact hfst hpos =>
    have hon := Motion.open_of_status hp (by rw [hact]; rfl)
    have hsn := hM.snoc (w := w) (e := .invoke call (.voteOnProposal id voter choice))
      fun call he => by cases he
    refine ⟨hM.terms_kept hp ?_, hsn.passed, fun _ => hsn.opened hon, hM.once, hsn.invoked⟩
    rw [Proposal.tally_terms]
  | @passed call M p hp hact hedd hqrm hma =>
    have hon := Motion.open_of_status hp (by rw [hact]; rfl)
    have hsn := hM.snoc (w := w) (e := .invoke call (.queueProposal id)) fun call he => by cases he
    refine ⟨hM.terms_kept hp rfl, ?_, fun _ => hsn.opened hon, hM.once, hsn.invoked⟩
    -- the entry of the queue is new: this call is where it passed
    intro q hq
    cases hq
    exact ⟨w, ⟨call, p, mem_append_right _ (mem_singleton_self _), hvi ▸ hp, hqrm, hma, hedd⟩, rfl⟩
  | @rejected call M p hp hact =>
    have hsn := hM.snoc (w := w) (e := .invoke call (.queueProposal id)) fun call he => by cases he
    refine ⟨hM.terms_kept hp rfl, hsn.passed, fun hon => ?_, hM.once, hsn.invoked⟩
    cases hon .failed rfl
  | @executed call M p q status hp hst hq hdue hcl =>
    -- while it was in the queue, nothing was invoked, so this is the only invocation
    obtain ⟨hstn, hno⟩ := hM.opened (Motion.open_of_status hp (by rw [hst]; rfl))
    refine ⟨hM.terms_kept hp rfl, fun q hq => (by cases hq), fun hon => ?_, ?_, ?_⟩
    · have hcld := hon status rfl
      rcases hcl with rfl | rfl
      · cases hcld
      · cases hcld
    · show (M.invocations ++ p.invocation).length ≤ 1
      rw [hno, nil_append]
      unfold Proposal.invocation
      cases p.target with
      | none => exact Nat.zero_le _
      | some => exact le_rfl
    · intro inv hinv
      have hmem : inv ∈ p.invocation := by
        have : inv ∈ M.invocations ++ p.invocation := hinv
        rwa [hno, nil_append] at this
      unfold Proposal.invocation at hmem
      rw [mem_toList] at hmem
      obtain ⟨target, htgt, rfl⟩ := map_eq_some_iff.mp hmem
      obtain ⟨c, hc⟩ := hM.created p hp
      obtain ⟨s, hpsd, hdue'⟩ := hM.passed q hq
      have hid := hnum p hp
      refine ⟨log, call, w, [], rfl, ⟨c, p, hc, rfl, htgt, rfl, rfl⟩, ?_, ?_⟩
      · rw [hid]
        exact ⟨s, hpsd, hdue' ▸ hdue⟩
      · rw [hid]
        exact hstn
  | @cancelled call M q hq =>
    have hst := hord.queued q hq
    obtain ⟨p, hp, _⟩ := map_eq_some_iff.mp hst
    -- cancelled means failed, so nothing is said any more of an open proposal
    refine ⟨?_, fun q hq => (by cases hq), fun hon => ?_, hM.once, fun inv hinv => hM.invoked_snoc _ hinv⟩
    · rw [hp]
      exact hM.terms_kept hp rfl
    · have hfai : Motion.status { M with
          proposal := M.proposal.map fun p => { p with status := .failed }
          queued := none } = some .failed := by
        unfold Motion.status
        dsimp only
        rw [hp]
        rfl
      cases hon .failed hfai

theorem explained_logged {log : List (World Addr Sym × Event Addr Sym)}
    (h : (system env).Logged guard w log) (id : Nat) : (w.motion id).Explained env log id := by
  induction h with
  | @start w h0 =>
    obtain ⟨now, rfl⟩ := h0
    refine ⟨fun p hp => (by cases hp), fun q hq => (by cases hq), fun _ => ⟨?_, rfl⟩, Nat.zero_le _,
      fun inv hinv => by cases hinv⟩
    intro entry hent
    cases hent
  | @step w w' e log hlog hg hs ih =>
    have hr := hlog.reachable
    have hnum := numbered_reachable hr
    rcases step_motion hr hnum hs id with ⟨_, hchg⟩ | ⟨hac, hkpt⟩
    · exact hchg.explained ih (inOrder_reachable hr id) (fun p hp => (hnum.known id p hp).2) rfl
    · rw [hkpt]
      refine ih.snoc ?_
      intro call he
      subst he
      exact hac rfl

/-! ## The mandate -/

/--
A proposal is queued where the end of its timelock is a time, and not while the cast power leaves the
range of `i128` in basis points below the threshold.
-/
def SoundQueue (w : World Addr Sym) : Event Addr Sym → Prop
  | .invoke _ (.queueProposal id) =>
    w.now + proposalTimelockSecs ≤ u64Max ∧ ∀ p ∈ w.proposals.get id,
      ¬ (i128Max ≤ p.castPower * bpsDenominator ∧
        p.castPower * bpsDenominator < p.totalPowerSnapshot * quorumBps)
  | _ => True

/-- What an execution in the state `s` rests on, given the calls before it. -/
structure Mandate (env : Env Addr Sym)
    (before : List (World Addr Sym × Event Addr Sym)) (s : World Addr Sym)
    (inv : Invocation Addr Sym) : Prop where
  /-- The proposal was created with this target, this function and this argument. -/
  created : ∃ c call proposer t title description secs payload,
    (c, Event.invoke call (.createProposal proposer t title description secs payload)) ∈ before ∧
      c.proposalCount + 1 = inv.proposalId ∧
      resolveTarget env t payload.target c = .ok (some inv.target) ∧
      payload.function = inv.function ∧ payload.calldata = inv.calldata
  /-- When it was queued, voting had ended with a quorum and a majority; that is 48 hours ago. -/
  queued : ∃ q call p, (q, Event.invoke call (.queueProposal inv.proposalId)) ∈ before ∧
    q.proposals.get inv.proposalId = some p ∧ p.HasQuorum ∧ p.HasMajority ∧
    p.votingEndsAt ≤ q.now ∧ q.now + proposalTimelockSecs ≤ s.now
  /-- It was not cancelled. -/
  standing : Standing before inv.proposalId

theorem Approved.mandate {before : List (World Addr Sym × Event Addr Sym)}
    {s : World Addr Sym} {inv : Invocation Addr Sym} (h : Approved env before s inv)
    (hlog : (system env).Logged guard s before) (hsnd : ∀ entry ∈ before, SoundQueue entry.1 entry.2) :
    Mandate env before s inv := by
  refine ⟨?_, ?_, h.standing⟩
  · obtain ⟨c, p, ⟨call, proposer, t, title, description, secs, payload, period, target, hmem, htgt,
      _, hopd⟩, hid, htar, hfun, hda⟩ := h.created
    rw [hopd] at hid htar hfun hda
    obtain rfl : target = some inv.target := htar
    exact ⟨c, call, proposer, t, title, description, secs, payload, hmem, hid, htgt, hfun, hda⟩
  · obtain ⟨q, ⟨call, p, hmem, hp, hqrm, hma, hedd⟩, hdue⟩ := h.passed
    obtain ⟨hclk, hex⟩ := hsnd _ hmem
    obtain ⟨log, after, hspl⟩ := append_of_mem hmem
    have hctd : p.Counted :=
      (inOrder_reachable (hlog.split hspl).1.reachable inv.proposalId).counted p hp
    rw [satAdd64_of_le hclk] at hdue
    exact ⟨q, call, p, hmem, hp, hctd.hasQuorum hqrm (hex p hp), hctd.hasMajority hma, hedd, hdue⟩

theorem status_kept {s : World Addr Sym} {id : Nat} {status : ProposalStatus}
    (hr : (system env).Reachable guard s) (hrun : (system env).Run guard s w)
    (hcl : status.closing = true) (hs : (s.motion id).status = some status) :
    (w.motion id).status = some status := by
  refine System.Run.invariant (I := fun w => (w.motion id).status = some status) hrun hs ?_
  intro w e w' hrun' _ hst hsp
  exact (step_lifecycle (hr.run hrun') hsp id).closed hcl hst

/--
**A payload runs only with a real mandate.** In every run whose proposals are queued soundly, for each
proposal at most one payload is invoked, and it is invoked by an execution that rests on a mandate; every
status moves forward only, and one that is final stays.
-/
theorem mandated_invocations {log : List (World Addr Sym × Event Addr Sym)}
    (h : (system env).Logged SoundQueue w log) :
    (∀ id, (w.invocations.filter fun inv => inv.proposalId = id).length ≤ 1) ∧
      (∀ inv ∈ w.invocations, ∃ before call s after,
        log = before ++ (s, .invoke call (.executeProposal inv.proposalId)) :: after ∧
          Mandate env before s inv) ∧
      (∀ entry ∈ log, ∀ s', (system env).step entry.1 entry.2 = some s' → ∀ id,
        Lifecycle (entry.1.motion id).status (s'.motion id).status) ∧
      ∀ entry ∈ log, ∀ id status, status.closing = true →
        (entry.1.motion id).status = some status → (w.motion id).status = some status := by
  refine ⟨fun id => (explained_logged h id).once, ?_, ?_, ?_⟩
  · intro inv hinv
    have hmi : inv ∈ (w.motion inv.proposalId).invocations :=
      mem_filter.mpr ⟨hinv, decide_eq_true rfl⟩
    obtain ⟨before, call, s, after, hlog, hapr⟩ :=
      (explained_logged h inv.proposalId).invoked inv hmi
    have hbf := (h.split hlog).1
    refine ⟨before, call, s, after, hlog, hapr.mandate hbf ?_⟩
    intro entry hent
    obtain ⟨first, rest, hspl⟩ := append_of_mem hent
    exact (hbf.split hspl).2.1
  · intro entry hent s' hs' id
    obtain ⟨before, after, hspl⟩ := append_of_mem hent
    exact step_lifecycle (h.split hspl).1.reachable hs' id
  · intro entry hent id status hcl hst
    obtain ⟨hr, hrun⟩ := h.run_of_mem hent
    exact status_kept hr hrun hcl hst

end Run

/-! ## Runs to compare with -/

def Event.queues : Event Addr Sym → Option Nat
  | .invoke _ (.queueProposal id) => some id
  | _ => none

instance (p : Proposal Addr Sym) : Decidable p.HasQuorum :=
  inferInstanceAs (Decidable (_ ≤ _))

instance (w : World Addr Sym) (e : Event Addr Sym) : Decidable (SoundQueue w e) :=
  match e with
  | .close _ => .isTrue trivial
  | .invoke _ op =>
    match op with
    | .queueProposal id =>
      inferInstanceAs (Decidable (_ ∧ ∀ p ∈ w.proposals.get id, ¬ (_ ∧ _)))
    | .initializeContract _ | .setAdmin _ | .pause | .unpause | .setParamRegistry _
    | .setAgentRegistry _ | .registerAgent _ _ _ | .updateAgent _ _ _ | .removeAgent _
    | .createProposal _ _ _ _ _ _ | .voteOnProposal _ _ _ | .executeProposal _
    | .cancelProposal _ => .isTrue trivial

namespace Sample

/-- Agent `4` alone votes for the proposal of agent `3`; it is queued and executed in time. -/
def decided (stake₃ stake₄ : Int) : List (Event Nat Nat) :=
  installed ++
    [ enrol 3 stake₃, enrol 4 stake₄, propose 3, .close 10, vote 1 4 .for_, .close 3600,
      signed 5 (.queueProposal 1), .close 176400, signed 5 (.executeProposal 1) ]

theorem exists_decided : ∃ w, (system deployment).Logged SoundQueue w
    ((system deployment).record (decided 10 20) (World.init 0)) ∧ w.invocations = [⟨1, 9, 8, [7]⟩] := by
  have hpl : ((system deployment).play SoundQueue (decided 10 20) (World.init 0)).any (fun w =>
      decide (w.invocations = [⟨1, 9, 8, [7]⟩])) = true := by
    decide
  exact exists_logged (start_init _ 0) hpl

end Sample

/-- A run with an execution: its payload had a mandate, and it was the only one. -/
theorem mandated_invocations_decided :
    ∃ (w : World Nat Nat) (log : List (World Nat Nat × Event Nat Nat)), w.invocations ≠ [] ∧
      (∀ id, (w.invocations.filter fun inv => inv.proposalId = id).length ≤ 1) ∧
        (∀ inv ∈ w.invocations, ∃ before call s after,
          log = before ++ (s, .invoke call (.executeProposal inv.proposalId)) :: after ∧
            Mandate Sample.deployment before s inv) ∧
        (∀ entry ∈ log, ∀ s', (system Sample.deployment).step entry.1 entry.2 = some s' → ∀ id,
          Lifecycle (entry.1.motion id).status (s'.motion id).status) ∧
        ∀ entry ∈ log, ∀ id status, status.closing = true →
          (entry.1.motion id).status = some status → (w.motion id).status = some status := by
  obtain ⟨w, hlog, hinv⟩ := Sample.exists_decided
  refine ⟨w, _, ?_, mandated_invocations hlog⟩
  rw [hinv]
  exact cons_ne_nil _ _

/-- One part in ten thousand of the power passes the quorum of 30 %, and the payload is invoked. -/
theorem saturated_quorum : ∃ (w : World Nat Nat) (log : List (World Nat Nat × Event Nat Nat)),
    (system Sample.deployment).Logged ClockMonotone w log ∧ ∃ inv ∈ w.invocations,
      ∀ entry ∈ log, entry.2.queues = some inv.proposalId →
        ∀ p ∈ entry.1.proposals.get inv.proposalId, ¬ p.HasQuorum := by
  have hpl : ((system Sample.deployment).play ClockMonotone
      (Sample.decided (i128Max - i128Max / 10000 - 1) (i128Max / 10000 + 1)) (World.init 0)).any (fun w =>
        decide (w.invocations = [⟨1, 9, 8, [7]⟩])) = true := by
    decide
  have hsh : ∀ entry ∈ (system Sample.deployment).record
      (Sample.decided (i128Max - i128Max / 10000 - 1) (i128Max / 10000 + 1)) (World.init 0),
      entry.2.queues = some 1 → ∀ p ∈ entry.1.proposals.get 1, ¬ p.HasQuorum := by
    decide
  obtain ⟨w, hw, hend⟩ := exists_logged (start_init _ 0) hpl
  refine ⟨w, _, hw, ⟨1, 9, 8, [7]⟩, ?_, hsh⟩
  rw [hend]
  exact mem_singleton_self _

end AiNet.AgentGovernance
