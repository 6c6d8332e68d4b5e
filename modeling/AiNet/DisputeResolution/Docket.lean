import AiNet.Core.Keyed
import AiNet.DisputeResolution.Contract

/-!
# One dispute on its own

A `Docket` is what the contract stores for one task: the dispute, the votes of the two
rounds and of the arbiters, the round, and the escrow recorded for the task.
`Docket.Change` is the life of a dispute, and `court` packages the contract as a table
of dockets.

A final ruling calls the agent registry. `Ruled` says what the call must have answered
and what the ruling leaves in the dispute.
-/

namespace AiNet.DisputeResolution

open Core Function Storage

variable {Addr Sym ρ : Type}

/-- What the contract stores for one task. -/
structure Docket (Addr Sym : Type) where
  dispute : Option (Dispute Addr Sym)
  firstRound : Addr → Option (Vote Addr Sym)
  appealRound : Addr → Option (Vote Addr Sym)
  arbiters : Addr → Option (Vote Addr Sym)
  round : Nat
  escrow : Option Int

/-- The docket of a task nobody has done anything about. -/
def Docket.empty : Docket Addr Sym where
  dispute := none
  firstRound _ := none
  appealRound _ := none
  arbiters _ := none
  round := 0
  escrow := none

def Docket.current (D : Docket Addr Sym) : Addr → Option (Vote Addr Sym) :=
  if D.round = 0 then D.firstRound else D.appealRound

/-- What can be done to a dispute. -/
inductive Act (Addr : Type) where
  | setTaskEscrow (amount : Int)
  | fileDispute (filer agentId : Addr)
  | submitEvidence (submitter : Addr)
  | vote (voter : Addr) (ruling : VoteSide)
  | voteAsArbiter (arbiter : Addr) (ruling : VoteSide)
  | resolve
  | appealDispute (appellant : Addr)
  | finalizeDispute
  deriving DecidableEq

def Event.act : Event Addr Sym ρ → Option (Sym × Act Addr)
  | .invoke _ (.setTaskEscrow taskId amount) => some (taskId, .setTaskEscrow amount)
  | .invoke _ (.fileDispute taskId filer agentId _) => some (taskId, .fileDispute filer agentId)
  | .invoke _ (.submitEvidence disputeId submitter _) => some (disputeId, .submitEvidence submitter)
  | .invoke _ (.vote disputeId voter ruling) => some (disputeId, .vote voter ruling)
  | .invoke _ (.voteAsArbiter disputeId arbiter ruling) =>
    some (disputeId, .voteAsArbiter arbiter ruling)
  | .invoke _ (.resolve disputeId) => some (disputeId, .resolve)
  | .invoke _ (.appealDispute disputeId appellant) => some (disputeId, .appealDispute appellant)
  | .invoke _ (.finalizeDispute disputeId) => some (disputeId, .finalizeDispute)
  | _ => none

/-! ## Rulings -/

/-- The registry carried out a ruling on a dispute, and this is the dispute after it. -/
inductive Ruled (env : Env Addr Sym ρ) (w : World Addr Sym ρ)
    (d : Dispute Addr Sym) : DisputeOutcome → Dispute Addr Sym → Prop where
  | slash {registry : ρ} {slashed : Int} :
      env.registry.slashBondFromDispute w.registry d.registryAddress env.self d.registryAgentId
        slashPercentage slashReason = some (registry, slashed) →
      Ruled env w d .supportFiler { d with bondSlashed := slashed, status := .resolved }
  | release {outcome : DisputeOutcome} {registry : ρ} :
      outcome ≠ .supportFiler →
      env.registry.releaseBondAfterDispute w.registry d.registryAddress env.self d.registryAgentId
        = some registry →
      Ruled env w d outcome { d with status := .resolved }

/-- The outcome the arbiters' votes bind the dispute to, once they do. -/
def arbiterOutcome (votes : Nat × Nat) : Option DisputeOutcome :=
  if requiredArbiterVotes ≤ votes.1 then some .supportFiler
  else if requiredArbiterVotes ≤ votes.2 then some .supportAgent
  else none

/-- A dispute after a count of the arbiters' votes: open as before, or ruled on. -/
inductive Counted (env : Env Addr Sym ρ) (w : World Addr Sym ρ)
    (d : Dispute Addr Sym) : Option DisputeOutcome → Dispute Addr Sym → Prop where
  | undecided : Counted env w d none d
  | ruled {outcome : DisputeOutcome} {d' : Dispute Addr Sym} :
      Ruled env w d outcome d' → Counted env w d (some outcome) d'

variable {env : Env Addr Sym ρ}

theorem Counted.cases {w : World Addr Sym ρ} {d d' : Dispute Addr Sym} {o : Option DisputeOutcome}
    (h : Counted env w d o d') :
    d' = d ∨ ∃ outcome, o = some outcome ∧ Ruled env w d outcome d' := by
  cases h with
  | undecided => exact .inl rfl
  | ruled hr => exact .inr ⟨_, rfl, hr⟩

/-- The agent whose bond a dispute holds, and its registry: none once the dispute is resolved. -/
def Dispute.holds (d : Dispute Addr Sym) : Option (Addr × Sym) :=
  if d.status = .resolved then none else some (d.registryAddress, d.registryAgentId)

/-- The agent whose bond the dispute about a task holds. -/
def Docket.holds (D : Docket Addr Sym) : Option (Addr × Sym) :=
  D.dispute.bind Dispute.holds

/--
What a call asks of the registries, which were in the state `r`: to lock the bond that a dispute
begins to hold, to slash or to release the one it ceases to hold, and otherwise nothing.
-/
inductive Consulted (env : Env Addr Sym ρ) (r : ρ) :
    Option (Addr × Sym) → Option (Addr × Sym) → ρ → Prop where
  | silent {held : Option (Addr × Sym)} : Consulted env r held held r
  | lock {address : Addr} {agent : Sym} {r' : ρ} :
      env.registry.lockBondForDispute r address env.self agent = some r' →
      Consulted env r none (some (address, agent)) r'
  | slash {address : Addr} {agent : Sym} {r' : ρ} {slashed : Int} :
      env.registry.slashBondFromDispute r address env.self agent slashPercentage slashReason
        = some (r', slashed) →
      Consulted env r (some (address, agent)) none r'
  | release {address : Addr} {agent : Sym} {r' : ρ} :
      env.registry.releaseBondAfterDispute r address env.self agent = some r' →
      Consulted env r (some (address, agent)) none r'

/-- A freshly filed dispute. -/
structure Dispute.Fresh (w : World Addr Sym ρ) (taskId : Sym) (filer agentId : Addr)
    (d : Dispute Addr Sym) : Prop where
  taskId : d.taskId = taskId
  filer : d.filer = filer
  agentId : d.agentId = agentId
  registryAddress : w.agentRegistry = some d.registryAddress
  status : d.status = .evidencePhase
  evidenceDeadline : d.evidenceDeadline = satAdd64 w.now evidencePhase
  votingDeadline : d.votingDeadline = satAdd64 d.evidenceDeadline votingPhase
  voters : d.voters = w.activeVoters
  enough : minimumVotes ≤ d.voters.length
  resolution : d.resolution = none
  appealDeadline : d.appealDeadline = none
  appealed : d.appealed = false
  amounts : d.bondSlashed = 0 ∧ d.filerRefund = 0 ∧ d.agentPayment = 0

/-- Votes are taken. -/
structure Dispute.Open (now : Nat) (d : Dispute Addr Sym) : Prop where
  status : d.status ≠ .resolved
  evidence : d.evidenceDeadline ≤ now
  voting : now < d.votingDeadline

variable [DecidableEq Addr] [DecidableEq Sym]

/--
The life of one dispute. `Docket.Change env w t act D D'` says that `act`, performed in the world
`w`, may take the docket `D` of task `t` to `D'`.
-/
inductive Docket.Change (env : Env Addr Sym ρ) (w : World Addr Sym ρ) (t : Sym) :
    Act Addr → Docket Addr Sym → Docket Addr Sym → Prop where
  | escrow {D : Docket Addr Sym} {amount : Int} :
      D.dispute = none → 0 ≤ amount →
      Change env w t (.setTaskEscrow amount) D { D with escrow := some amount }
  | file {D : Docket Addr Sym} {d : Dispute Addr Sym} {filer agentId : Addr} :
      D.dispute = none → d.Fresh w t filer agentId →
      Change env w t (.fileDispute filer agentId) D { D with dispute := some d }
  | evidence {D : Docket Addr Sym} {d : Dispute Addr Sym} {submitter : Addr}
      {status : DisputeStatus} :
      D.dispute = some d → d.status ≠ .resolved → w.now < d.evidenceDeadline →
      (submitter = d.filer ∨ submitter = d.agentId) →
      (status = if d.status = .filed then .evidencePhase else d.status) →
      Change env w t (.submitEvidence submitter) D
        { D with dispute := some { d with status := status } }
  | vote {D : Docket Addr Sym} {d : Dispute Addr Sym} {v : Vote Addr Sym} :
      D.dispute = some d → d.Open w.now → v.voter ∈ d.voters → D.current v.voter = none →
      v.votedAt = w.now →
      Change env w t (.vote v.voter v.ruling) D
        { D with
          dispute := some { d with status := .voting }
          firstRound :=
            if D.round = 0 then update D.firstRound v.voter (some v) else D.firstRound
          appealRound :=
            if D.round = 0 then D.appealRound else update D.appealRound v.voter (some v) }
  | arbiterVote {D : Docket Addr Sym} {d d' : Dispute Addr Sym}
      {v : Vote Addr Sym} {pool : List Addr} :
      D.dispute = some d → d.Open w.now → w.arbiterPool = some pool → v.voter ∈ pool →
      D.arbiters v.voter = none → v.disputeId = t → v.votedAt = w.now →
      Counted env w { d with status := .voting }
        (arbiterOutcome (tally (update D.arbiters v.voter (some v)) pool)) d' →
      Change env w t (.voteAsArbiter v.voter v.ruling) D
        { D with
          dispute := some d'
          arbiters := update D.arbiters v.voter (some v) }
  | propose {D : Docket Addr Sym} {d : Dispute Addr Sym} {votes : Nat × Nat} :
      D.dispute = some d → d.status ≠ .resolved → d.status ≠ .appealPending →
      d.votingDeadline ≤ w.now → D.round = 0 → votes = tally D.firstRound d.voters →
      Change env w t .resolve D
        { D with
          dispute := some
            { (propose w { d with status := .voting } votes.1 votes.2).2 with
              status := .appealPending
              appealDeadline := some (satAdd64 w.now appealPhase) } }
  | settle {D : Docket Addr Sym} {d d' : Dispute Addr Sym} {votes : Nat × Nat} :
      D.dispute = some d → d.status ≠ .resolved → d.status ≠ .appealPending →
      d.votingDeadline ≤ w.now → D.round ≠ 0 → votes = tally D.appealRound d.voters →
      Ruled env w (propose w { d with status := .voting } votes.1 votes.2).2
        (propose w { d with status := .voting } votes.1 votes.2).1 d' →
      Change env w t .resolve D { D with dispute := some d' }
  | appeal {D : Docket Addr Sym} {d : Dispute Addr Sym} {appellant : Addr}
      {deadline code : Nat} :
      D.dispute = some d → d.status = .appealPending → d.appealed = false →
      d.appealDeadline = some deadline → w.now < deadline → d.resolution = some code →
      (code = 0 ∧ appellant = d.agentId ∨ code = 1 ∧ appellant = d.filer) →
      Change env w t (.appealDispute appellant) D
        { D with
          dispute := some
            { d with
              status := .voting
              appealed := true
              evidenceDeadline := w.now
              votingDeadline := satAdd64 w.now votingPhase
              resolution := none
              filerVotes := 0
              agentVotes := 0
              bondSlashed := 0
              filerRefund := 0
              agentPayment := 0 }
          round := 1 }
  | finalize {D : Docket Addr Sym} {d d' : Dispute Addr Sym} {deadline code : Nat}
      {outcome : DisputeOutcome} :
      D.dispute = some d → d.status = .appealPending → d.appealed = false →
      d.appealDeadline = some deadline → deadline ≤ w.now → d.resolution = some code →
      Ruled env w d outcome d' →
      Change env w t .finalizeDispute D { D with dispute := some d' }

def World.docket (t : Sym) (w : World Addr Sym ρ) : Docket Addr Sym where
  dispute := w.disputes.get t
  firstRound voter := w.votes.get (.vote t voter)
  appealRound voter := w.votes.get (.appealVote t voter)
  arbiters arbiter := w.votes.get (.arbiterVote t arbiter)
  round := (w.voteRound.get t).getD 0
  escrow := w.taskEscrow.get t

/-- Disputes are stored under their own task. -/
def World.WellKeyed (w : World Addr Sym ρ) : Prop :=
  ∀ t d, w.disputes.get t = some d → d.taskId = t

/-- What a call does to the dockets: it changes one and leaves the others alone. -/
structure Acted (env : Env Addr Sym ρ) (t : Sym) (act : Act Addr)
    (w w' : World Addr Sym ρ) : Prop where
  change : Docket.Change env w t act (w.docket t) (w'.docket t)
  others : ∀ id, id ≠ t → w'.docket id = w.docket id
  now : w'.now = w.now
  registry : Consulted env w.registry (w.docket t).holds (w'.docket t).holds w'.registry

/-! ## Writing a docket -/

variable {d : Dispute Addr Sym}

theorem docket_saveDispute (w : World Addr Sym ρ) {t : Sym} (hkey : d.taskId = t) :
    (saveDispute w d).docket t = { w.docket t with dispute := some d } ∧
      ∀ id, id ≠ t → (saveDispute w d).docket id = w.docket id := by
  subst hkey
  refine ⟨by simp [World.docket, saveDispute], ?_⟩
  intro id hid
  simp [World.docket, saveDispute, get_set_ne _ _ hid]

/-- Two worlds that differ in nothing a docket shows. -/
structure World.SameDockets (w w' : World Addr Sym ρ) : Prop where
  disputes : w'.disputes = w.disputes
  votes : w'.votes = w.votes
  voteRound : w'.voteRound = w.voteRound
  taskEscrow : w'.taskEscrow = w.taskEscrow

theorem World.SameDockets.docket {w w' : World Addr Sym ρ} (h : w.SameDockets w')
    (t : Sym) : w'.docket t = w.docket t := by
  unfold World.docket
  rw [h.disputes, h.votes, h.voteRound, h.taskEscrow]

theorem startVoting_docket {w : World Addr Sym ρ} {t : Sym} (hd : w.disputes.get t = some d)
    (hkey : d.taskId = t) :
    (startVoting w d).2 = { d with status := .voting } ∧ (startVoting w d).1.docket t
        = { w.docket t with dispute := some { d with status := .voting } } ∧
      ∀ id, id ≠ t → (startVoting w d).1.docket id = w.docket id := by
  unfold startVoting
  by_cases h : d.status = .voting
  · have hsm : { d with status := .voting } = d := by rw [← h]
    rw [if_neg (not_not.mpr h), hsm]
    refine ⟨rfl, ?_, fun _ _ => rfl⟩
    show w.docket t = _
    unfold World.docket
    rw [hd]
  · rw [if_pos h]
    exact ⟨rfl, docket_saveDispute w hkey⟩

theorem docket_setVote (w : World Addr Sym ρ) (t : Sym) (voter : Addr)
    (v : Vote Addr Sym) :
    ({ w with votes := w.votes.set (currentVoteKey w t voter) v } : World Addr Sym ρ).docket t
        = { w.docket t with
            firstRound :=
              if (w.docket t).round = 0 then update (w.docket t).firstRound voter (some v)
              else (w.docket t).firstRound
            appealRound :=
              if (w.docket t).round = 0 then (w.docket t).appealRound
              else update (w.docket t).appealRound voter (some v) } ∧
      ∀ id, id ≠ t → ({ w with votes := w.votes.set (currentVoteKey w t voter) v } :
          World Addr Sym ρ).docket id = w.docket id := by
  unfold currentVoteKey World.docket
  dsimp only
  by_cases hrnd : (w.voteRound.get t).getD 0 = 0
  · refine ⟨?_, ?_⟩
    · simp only [hrnd, if_true, Docket.mk.injEq, true_and, and_true]
      refine ⟨?_, ?_, ?_⟩
      · funext x
        simp [get_set, update_apply]
      · funext x
        simp [get_set]
      · funext x
        simp [get_set]
    · intro id hid
      simp [hrnd, get_set, hid]
  · refine ⟨?_, ?_⟩
    · simp only [hrnd, if_false, Docket.mk.injEq, true_and, and_true]
      refine ⟨?_, ?_, ?_⟩
      · funext x
        simp [get_set]
      · funext x
        simp [get_set, update_apply]
      · funext x
        simp [get_set]
    · intro id hid
      simp [hrnd, get_set, hid]

theorem docket_setArbiterVote (w : World Addr Sym ρ) (t : Sym) (arbiter : Addr)
    (v : Vote Addr Sym) :
    ({ w with votes := w.votes.set (.arbiterVote t arbiter) v } : World Addr Sym ρ).docket t
        = { w.docket t with arbiters := update (w.docket t).arbiters arbiter (some v) } ∧
      ∀ id, id ≠ t → ({ w with votes := w.votes.set (.arbiterVote t arbiter) v } :
          World Addr Sym ρ).docket id = w.docket id := by
  unfold World.docket
  dsimp only
  refine ⟨?_, ?_⟩
  · simp only [Docket.mk.injEq, true_and, and_true]
    refine ⟨?_, ?_, ?_⟩
    · funext x
      simp [get_set]
    · funext x
      simp [get_set]
    · funext x
      simp [get_set, update_apply]
  · intro id hid
    simp [get_set, hid]

omit [DecidableEq Addr] in
theorem startVoting_frame (w : World Addr Sym ρ) (d : Dispute Addr Sym) :
    (startVoting w d).1.now = w.now ∧ (startVoting w d).1.votes = w.votes ∧
      (startVoting w d).1.voteRound = w.voteRound ∧
      (startVoting w d).1.taskEscrow = w.taskEscrow ∧
      (startVoting w d).1.agentBond = w.agentBond ∧ (startVoting w d).1.registry = w.registry := by
  unfold startVoting
  split <;> exact ⟨rfl, rfl, rfl, rfl, rfl, rfl⟩

section

omit [DecidableEq Addr] [DecidableEq Sym]

theorem Docket.holds_of {D : Docket Addr Sym} (h : D.dispute = some d) : D.holds = d.holds := by
  rw [Docket.holds, h]
  rfl

theorem Consulted.keep {r r' : ρ} {D D' : Docket Addr Sym}
    {d d' : Dispute Addr Sym} (hd : D.dispute = some d) (hd' : D'.dispute = some d')
    (h : d'.holds = d.holds) (hr : r' = r) : Consulted env r D.holds D'.holds r' := by
  rw [Docket.holds_of hd, Docket.holds_of hd', h, hr]
  exact .silent

theorem Dispute.holds_open (h : d.status ≠ .resolved) :
    d.holds = some (d.registryAddress, d.registryAgentId) :=
  if_neg h

theorem Consulted.file {r r' : ρ} {D D' : Docket Addr Sym} (hno : D.dispute = none)
    (hd : D'.dispute = some d) (hon : d.status ≠ .resolved)
    (hr : env.registry.lockBondForDispute r d.registryAddress env.self d.registryAgentId = some r') :
    Consulted env r D.holds D'.holds r' := by
  rw [Docket.holds_of hd, Dispute.holds_open hon, Docket.holds, hno]
  exact .lock hr

end

/-- **What a ruling does**: the registry call, and the dispute after it. -/
theorem applyFinalRuling_ok {w w' : World Addr Sym ρ} {outcome : DisputeOutcome}
    (h : applyFinalRuling env w d outcome = .ok w') :
    ∃ d', Ruled env w d outcome d' ∧ d'.taskId = d.taskId ∧
      (saveDispute w d').SameDockets w' ∧ w'.now = w.now ∧
      Consulted env w.registry (some (d.registryAddress, d.registryAgentId)) d'.holds
        w'.registry := by
  unfold applyFinalRuling at h
  by_cases ho : outcome = .supportFiler
  · subst ho
    simp only [if_true, bind_eq_ok, orTrap_eq_ok, pure_eq_ok, Prod.exists, reduceCtorEq, if_false] at h
    obtain ⟨registry, slashed, hsls, w₁, d₁, heq, rfl⟩ := h
    cases heq
    exact ⟨_, .slash hsls, rfl, ⟨rfl, rfl, rfl, rfl⟩, rfl, .slash hsls⟩
  · simp only [if_neg ho, bind_eq_ok, orTrap_eq_ok, pure_eq_ok, Prod.exists] at h
    obtain ⟨registry, hrls, w₁, d₁, heq, rfl⟩ := h
    cases heq
    refine ⟨_, .release ho hrls, rfl, ?_⟩
    split <;> exact ⟨⟨rfl, rfl, rfl, rfl⟩, rfl, .release hrls⟩

end AiNet.DisputeResolution
