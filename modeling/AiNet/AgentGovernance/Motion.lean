import AiNet.AgentGovernance.Electorate

/-!
# One proposal

What the contract keeps about one proposal: the record, its place in the queue, the
votes on it and the payloads invoked for it. An event acts on at most one proposal, in
one of six ways, and leaves the others as they are.
-/

namespace AiNet.AgentGovernance

open Core List Option Function Storage

variable {Addr Sym : Type}

/-- Everything stored about one proposal. -/
structure Motion (Addr Sym : Type) where
  proposal : Option (Proposal Addr Sym)
  queued : Option QueuedProposal
  votes : Addr → Option (VoteRecord Addr)
  invocations : List (Invocation Addr Sym)

/-- Nothing is stored. -/
def Motion.vacant : Motion Addr Sym := ⟨none, none, fun _ => none, []⟩

variable [DecidableEq Addr]

/-- What is stored about a proposal. -/
def World.motion (w : World Addr Sym) (id : Nat) : Motion Addr Sym where
  proposal := w.proposals.get id
  queued := w.queued.get id
  votes voter := w.votes.get (id, voter)
  invocations := w.invocations.filter fun inv => inv.proposalId = id

def Event.creates : Event Addr Sym → Bool
  | .invoke _ (.createProposal ..) => true
  | _ => false

variable {e : Event Addr Sym}

omit [DecidableEq Addr] in
theorem Event.not_creates {w : World Addr Sym} (h : e.actsOn w = none) : ¬ e.creates = true := by
  intro hcrs
  unfold Event.creates at hcrs
  split at hcrs
  · cases h
  · cases hcrs

/-- The payloads handed out for a proposal when it is executed. -/
def Proposal.invocation (p : Proposal Addr Sym) : List (Invocation Addr Sym) :=
  (p.target.map fun target => ⟨p.id, target, p.function, p.calldata⟩).toList

/-- What an event, in the state `w`, may make of the one proposal it acts on. -/
inductive Motion.Change (env : Env Addr Sym) (w : World Addr Sym) (id : Nat) :
    Event Addr Sym → Motion Addr Sym → Motion Addr Sym → Prop
  | opened {call proposer t title description secs payload period target}
      (hid : id = w.proposalCount + 1)
      (htarget : resolveTarget env t payload.target w = .ok target) (hpos : 0 < w.totalPower) :
      Change env w id (.invoke call (.createProposal proposer t title description secs payload))
        .vacant
        { Motion.vacant with
          proposal := some (.opened env w proposer t title description period payload target) }
  | voted {call voter choice M p} (hp : M.proposal = some p) (hactive : p.status = .active)
      (hfirst : M.votes voter = none) (hpos : 0 < powerAt w voter p.createdAt) :
      Change env w id (.invoke call (.voteOnProposal id voter choice)) M
        { M with
          proposal := some (p.tally choice (powerAt w voter p.createdAt))
          votes := update M.votes voter
            (some ⟨id, voter, choice, powerAt w voter p.createdAt⟩) }
  | passed {call M p} (hp : M.proposal = some p) (hactive : p.status = .active)
      (hended : p.votingEndsAt ≤ w.now) (hquorum : quorumMet p = true)
      (hmajority : majorityMet p = true) :
      Change env w id (.invoke call (.queueProposal id)) M
        { M with
          proposal := some { p with status := .queued }
          queued := some ⟨id, w.now, satAdd64 w.now proposalTimelockSecs⟩ }
  | rejected {call M p} (hp : M.proposal = some p) (hactive : p.status = .active) :
      Change env w id (.invoke call (.queueProposal id)) M
        { M with proposal := some { p with status := .failed } }
  | executed {call M p q status} (hp : M.proposal = some p) (hstatus : p.status = .queued)
      (hq : M.queued = some q) (hdue : q.canExecuteAt ≤ w.now)
      (hclosing : status = .executed ∨ status = .failed) :
      Change env w id (.invoke call (.executeProposal id)) M
        { M with
          proposal := some { p with status := status }
          queued := none
          invocations := M.invocations ++ p.invocation }
  | cancelled {call M q} (hq : M.queued = some q) :
      Change env w id (.invoke call (.cancelProposal id)) M
        { M with
          proposal := M.proposal.map fun p => { p with status := .failed }
          queued := none }

/-- The proposals are numbered in order, and nothing is kept about a number not given out. -/
structure Numbered (w : World Addr Sym) : Prop where
  /-- A proposal carries its number, which has been given out. -/
  known : ∀ id p, w.proposals.get id = some p → id ≤ w.proposalCount ∧ p.id = id
  /-- About other numbers nothing is stored. -/
  fresh : ∀ id, w.proposals.get id = none → w.motion id = .vacant

variable {env : Env Addr Sym} {call : Call Addr Sym} {w w' : World Addr Sym}

theorem Numbered.next (h : Numbered w) : w.motion (w.proposalCount + 1) = .vacant := by
  refine h.fresh _ ?_
  cases hp : w.proposals.get (w.proposalCount + 1) with
  | none => rfl
  | some p =>
    have := (h.known _ p hp).1
    omega

theorem motion_congr {id : Nat} (hp : w'.proposals.get id = w.proposals.get id)
    (hq : w'.queued.get id = w.queued.get id)
    (hv : ∀ voter, w'.votes.get (id, voter) = w.votes.get (id, voter))
    (hi : w'.invocations.filter (fun inv => inv.proposalId = id) =
      w.invocations.filter fun inv => inv.proposalId = id) :
    w'.motion id = w.motion id := by
  unfold World.motion
  rw [hp, hq, hi]
  congr 1
  funext voter
  exact hv voter

/-! ## The five entry points -/

theorem createProposal_motion {proposer : Addr} {t : ProposalType}
    {title description : List UInt8} {secs : Nat} {payload : ExecutionPayload Addr Sym}
    (hnum : Numbered w)
    (h : createProposal env call proposer t title description secs payload w = .ok w') (id : Nat) :
    if id = w.proposalCount + 1 then
      Motion.Change env w id (.invoke call (.createProposal proposer t title description secs payload))
        (w.motion id) (w'.motion id)
    else w'.motion id = w.motion id := by
  obtain ⟨period, target, _, htgt, hpos, rfl⟩ := createProposal_ok h
  split
  · rename_i hid
    subst hid
    have hvac := hnum.next
    have haf : World.motion { w with
        proposals := w.proposals.set (w.proposalCount + 1)
          (.opened env w proposer t title description period payload target)
        proposalCount := w.proposalCount + 1 } (w.proposalCount + 1) =
      { Motion.vacant with
        proposal := some (.opened env w proposer t title description period payload target) } := by
      rw [← hvac]
      unfold World.motion
      dsimp only
      rw [get_set_self]
    rw [haf, hvac]
    exact .opened rfl htgt hpos
  · rename_i hid
    exact motion_congr (get_set_ne _ _ hid) rfl (fun _ => rfl) rfl

variable {proposalId : Nat}

theorem voteOnProposal_motion {voter : Addr} {choice : VoteChoice}
    (h : voteOnProposal env call proposalId voter choice w = .ok w') (id : Nat) :
    if id = proposalId then
      Motion.Change env w id (.invoke call (.voteOnProposal proposalId voter choice))
        (w.motion id) (w'.motion id)
    else w'.motion id = w.motion id := by
  obtain ⟨p, _, hp, hact, _, hfst, hpos, rfl⟩ := voteOnProposal_ok h
  split
  · rename_i hid
    subst hid
    have haf : World.motion { w with
        votes := w.votes.set (id, voter) ⟨id, voter, choice, powerAt w voter p.createdAt⟩
        proposals := w.proposals.set id (p.tally choice (powerAt w voter p.createdAt)) } id =
      { w.motion id with
        proposal := some (p.tally choice (powerAt w voter p.createdAt))
        votes := update (w.motion id).votes voter
          (some ⟨id, voter, choice, powerAt w voter p.createdAt⟩) } := by
      unfold World.motion
      dsimp only
      rw [get_set_self]
      congr 1
      funext other
      by_cases hoth : other = voter
      · subst hoth
        rw [get_set_self, update_self]
      · rw [update_of_ne hoth, get_set_ne]
        exact fun he => hoth (Prod.mk.inj he).2
    rw [haf]
    exact .voted hp hact (has_eq_false.mp hfst) hpos
  · rename_i hid
    refine motion_congr (get_set_ne _ _ hid) rfl (fun other => ?_) rfl
    exact get_set_ne _ _ fun he => hid (Prod.mk.inj he).1

theorem queueProposal_motion (h : queueProposal proposalId w = .ok w') (id : Nat) :
    if id = proposalId then
      Motion.Change env w id (.invoke call (.queueProposal proposalId)) (w.motion id) (w'.motion id)
    else w'.motion id = w.motion id := by
  obtain ⟨p, _, hp, hact, hedd, h⟩ := queueProposal_ok h
  rcases h with ⟨hqrm, hma, rfl⟩ | rfl
  · split
    · rename_i hid
      subst hid
      have haf : World.motion { w with
          queued := w.queued.set id ⟨id, w.now, satAdd64 w.now proposalTimelockSecs⟩
          proposals := w.proposals.set id { p with status := .queued } } id =
        { w.motion id with
          proposal := some { p with status := .queued }
          queued := some ⟨id, w.now, satAdd64 w.now proposalTimelockSecs⟩ } := by
        unfold World.motion
        dsimp only
        rw [get_set_self, get_set_self]
      rw [haf]
      exact .passed hp hact hedd hqrm hma
    · rename_i hid
      exact motion_congr (get_set_ne _ _ hid) (get_set_ne _ _ hid) (fun _ => rfl) rfl
  · split
    · rename_i hid
      subst hid
      have haf : World.motion { w with
          proposals := w.proposals.set id { p with status := .failed } } id =
        { w.motion id with proposal := some { p with status := .failed } } := by
        unfold World.motion
        dsimp only
        rw [get_set_self]
      rw [haf]
      exact .rejected hp hact
    · rename_i hid
      exact motion_congr (get_set_ne _ _ hid) rfl (fun _ => rfl) rfl

omit [DecidableEq Addr] in
theorem invokePayload_eq {p : Proposal Addr Sym}
    {invoked : List (Invocation Addr Sym)} {passed : Bool}
    (h : invokePayload env call p = .ok (invoked, passed)) : invoked = p.invocation := by
  unfold Proposal.invocation
  rcases invokePayload_ok h with ⟨htgt, rfl⟩ | ⟨target, htgt, rfl⟩
  · rw [htgt]
    rfl
  · rw [htgt]
    rfl

theorem executeProposal_motion (hnum : Numbered w) (h : executeProposal env call proposalId w = .ok w')
    (id : Nat) :
    if id = proposalId then
      Motion.Change env w id (.invoke call (.executeProposal proposalId)) (w.motion id)
        (w'.motion id)
    else w'.motion id = w.motion id := by
  obtain ⟨q, p, invoked, passed, _, hq, hdue, hp, hst, hinv, rfl⟩ := executeProposal_ok h
  obtain rfl := invokePayload_eq hinv
  -- the invocations made are of this proposal
  have hmi : ∀ inv ∈ p.invocation, inv.proposalId = proposalId := by
    intro inv hmem
    unfold Proposal.invocation at hmem
    rw [mem_toList] at hmem
    obtain ⟨target, _, rfl⟩ := map_eq_some_iff.mp hmem
    exact (hnum.known _ p hp).2
  split
  · rename_i hid
    subst hid
    have hall : p.invocation.filter (fun inv => inv.proposalId = id) = p.invocation :=
      filter_eq_self.mpr fun inv hmem => decide_eq_true (hmi inv hmem)
    have haf : World.motion { w with
        proposals := w.proposals.set id
          { p with status := if passed = true then .executed else .failed }
        queued := w.queued.remove id
        invocations := w.invocations ++ p.invocation } id =
      { w.motion id with
        proposal := some { p with status := if passed = true then .executed else .failed }
        queued := none
        invocations := (w.motion id).invocations ++ p.invocation } := by
      unfold World.motion
      dsimp only
      rw [get_set_self, get_remove_self, filter_append, hall]
    rw [haf]
    refine .executed hp hst hq hdue ?_
    cases passed with
    | true => exact .inl rfl
    | false => exact .inr rfl
  · rename_i hid
    have hno : p.invocation.filter (fun inv => inv.proposalId = id) = [] := by
      refine filter_eq_nil_iff.mpr ?_
      intro inv hmem
      rw [hmi inv hmem, decide_eq_true_eq]
      exact fun he => hid he.symm
    refine motion_congr (get_set_ne _ _ hid) (get_remove_ne _ hid) (fun _ => rfl) ?_
    rw [filter_append, hno, append_nil]

theorem cancelProposal_motion (h : cancelProposal env call proposalId w = .ok w') (id : Nat) :
    if id = proposalId then
      Motion.Change env w id (.invoke call (.cancelProposal proposalId)) (w.motion id) (w'.motion id)
    else w'.motion id = w.motion id := by
  obtain ⟨_, hq, rfl⟩ := cancelProposal_ok h
  obtain ⟨q, hq⟩ := has_eq_true.mp hq
  split
  · rename_i hid
    subst hid
    have haf : World.motion { w with
        queued := w.queued.remove id
        proposals := w.proposals.adjust id fun p => { p with status := .failed } } id =
      { w.motion id with
        proposal := (w.motion id).proposal.map fun p => { p with status := .failed }
        queued := none } := by
      unfold World.motion
      dsimp only
      rw [get_adjust_self, get_remove_self]
    rw [haf]
    exact .cancelled hq
  · rename_i hid
    exact motion_congr (get_adjust_ne _ _ hid) (get_remove_ne _ hid) (fun _ => rfl) rfl

/-! ## What no event changes -/

omit [DecidableEq Addr] in
theorem Proposal.tally_terms (p : Proposal Addr Sym) (choice : VoteChoice) (weight : Int) :
    p.tally choice weight = { p with
      forPower := (p.tally choice weight).forPower
      againstPower := (p.tally choice weight).againstPower
      abstainPower := (p.tally choice weight).abstainPower } := by
  cases choice with
  | for_ | against | abstain => rfl

theorem Motion.Change.terms {id : Nat} {M M' : Motion Addr Sym} (h : Motion.Change env w id e M M')
    (hfr : M.proposal = none → M = .vacant) :
    (e.creates = true ∧ id = w.proposalCount + 1 ∧ ∃ p', M'.proposal = some p' ∧ p'.id = id) ∨
      ∃ p p', M.proposal = some p ∧ M'.proposal = some p' ∧ p' = { p with
        status := p'.status
        forPower := p'.forPower
        againstPower := p'.againstPower
        abstainPower := p'.abstainPower } := by
  cases h with
  | opened hid => exact .inl ⟨rfl, hid, _, rfl, hid.symm⟩
  | voted hp =>
    refine .inr ⟨_, _, hp, rfl, ?_⟩
    rw [Proposal.tally_terms]
  | passed hp | rejected hp | executed hp => exact .inr ⟨_, _, hp, rfl, rfl⟩
  | cancelled hq =>
    cases hp : M.proposal with
    | none =>
      rw [hfr hp] at hq
      cases hq
    | some p =>
      refine .inr ⟨p, { p with status := .failed }, rfl, ?_, rfl⟩
      rw [map_some]

/-! ## Any step -/

section Run

variable {guard : World Addr Sym → Event Addr Sym → Prop}

theorem step_motion (hr : (system env).Reachable guard w) (hnum : Numbered w)
    (hs : (system env).step w e = some w') (id : Nat) :
    (e.actsOn w = some id ∧ Motion.Change env w id e (w.motion id) (w'.motion id)) ∨
      (e.actsOn w ≠ some id ∧ w'.motion id = w.motion id) := by
  have key : ∀ {target : Nat}, e.actsOn w = some target →
      (if id = target then Motion.Change env w id e (w.motion id) (w'.motion id)
        else w'.motion id = w.motion id) →
      (e.actsOn w = some id ∧ Motion.Change env w id e (w.motion id) (w'.motion id)) ∨
        (e.actsOn w ≠ some id ∧ w'.motion id = w.motion id) := by
    intro target htgt h
    by_cases hid : id = target
    · rw [if_pos hid] at h
      exact .inl ⟨hid ▸ htgt, h⟩
    · rw [if_neg hid] at h
      refine .inr ⟨?_, h⟩
      intro he
      exact hid (some.inj (he.symm.trans htgt))
  rcases step_cases hr (roll_reachable hr) hs with ⟨_, hac, hrst, _⟩ | ⟨_, hac, hre⟩ |
    ⟨hok⟩ | ⟨hok⟩ | ⟨hok⟩ | ⟨hok⟩ | ⟨hok⟩
  · rw [hrst, hac]
    exact .inr ⟨nofun, rfl⟩
  · rw [hre.rest, hac]
    exact .inr ⟨nofun, rfl⟩
  · exact key rfl (createProposal_motion hnum hok id)
  · exact key rfl (voteOnProposal_motion hok id)
  · exact key rfl (queueProposal_motion hok id)
  · exact key rfl (executeProposal_motion hnum hok id)
  · exact key rfl (cancelProposal_motion hok id)

theorem step_count (hr : (system env).Reachable guard w) (hs : (system env).step w e = some w') :
    w'.proposalCount = if e.creates = true then w.proposalCount + 1 else w.proposalCount := by
  rcases step_cases hr (roll_reachable hr) hs with ⟨_, hac, hrst, _⟩ | ⟨_, hac, hre⟩ |
    ⟨hok⟩ | ⟨hok⟩ | ⟨hok⟩ | ⟨hok⟩ | ⟨hok⟩
  · rw [hrst, if_neg (Event.not_creates hac)]
  · rw [hre.rest, if_neg (Event.not_creates hac)]
  · obtain ⟨_, _, _, _, _, rfl⟩ := createProposal_ok hok
    rfl
  · obtain ⟨_, _, _, _, _, _, _, rfl⟩ := voteOnProposal_ok hok
    rfl
  · obtain ⟨_, _, _, _, _, hok⟩ := queueProposal_ok hok
    rcases hok with ⟨_, _, rfl⟩ | rfl
    · rfl
    · rfl
  · obtain ⟨_, _, _, _, _, _, _, _, _, _, rfl⟩ := executeProposal_ok hok
    rfl
  · obtain ⟨_, _, rfl⟩ := cancelProposal_ok hok
    rfl

theorem numbered_reachable (h : (system env).Reachable guard w) : Numbered w := by
  refine System.Reachable.invariant ?_ ?_ h
  · intro w h0
    obtain ⟨now, rfl⟩ := h0
    refine ⟨?_, fun _ _ => rfl⟩
    intro id p hp
    cases hp
  · intro w e w' hr _ hnum hs
    have hcnt : w.proposalCount ≤ w'.proposalCount := by
      rw [step_count hr hs]
      split
      · omega
      · exact le_rfl
    have hone : ∀ id, ((∀ p, w'.proposals.get id = some p → id ≤ w'.proposalCount ∧ p.id = id) ∧
        (w'.proposals.get id = none → w'.motion id = .vacant)) := by
      intro id
      rcases step_motion hr hnum hs id with ⟨hac, hchg⟩ | ⟨_, hkpt⟩
      · rcases hchg.terms (hnum.fresh id) with
          ⟨hcrs, hid, p', hp', hpid⟩ | ⟨p, p', hp, hp', htrm⟩
        · have hnx := step_count hr hs
          rw [if_pos hcrs] at hnx
          refine ⟨fun p hp => ?_, fun hno => ?_⟩
          · cases hp'.symm.trans hp
            exact ⟨by omega, hpid⟩
          · cases hp'.symm.trans hno
        · refine ⟨fun q hq => ?_, fun hno => ?_⟩
          · cases hp'.symm.trans hq
            obtain ⟨hle, hpid⟩ := hnum.known id p hp
            rw [htrm]
            exact ⟨hle.trans hcnt, hpid⟩
          · cases hp'.symm.trans hno
      · have hsm : w'.proposals.get id = w.proposals.get id := congrArg Motion.proposal hkpt
        rw [hsm, hkpt]
        exact ⟨fun p hp => ⟨(hnum.known id p hp).1.trans hcnt, (hnum.known id p hp).2⟩, hnum.fresh id⟩
    exact ⟨fun id => (hone id).1, fun id => (hone id).2⟩

end Run

end AiNet.AgentGovernance
