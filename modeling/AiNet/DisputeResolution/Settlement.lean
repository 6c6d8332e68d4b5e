import AiNet.DisputeResolution.Court

/-!
# What becomes of a proposed ruling

The first voting round only proposes a ruling. `resolve` opens the appeal window and
returns the outcome; within the window the losing party may appeal, and after it
`finalize_dispute` should apply the outcome. Both read the outcome from
`dispute.resolution`, and `resolve` does not write that field.

So `Docket.Unrecorded` is an invariant of every dispute: no outcome on record, never
appealed, never in a second round. It refutes both rules for every ruling: no proposed
ruling can be finalized, and no losing party can appeal one.
-/

namespace AiNet.DisputeResolution

open Core List Option Function System

section

variable {Addr Sym ρ : Type} [DecidableEq Addr] [DecidableEq Sym]

/-! ## What the two rules say -/

/-- `finalize_dispute` succeeds and applies exactly this outcome. -/
def Finalizes (env : Env Addr Sym ρ) (t : Sym) (outcome : DisputeOutcome)
    (w : World Addr Sym ρ) : Prop :=
  ∃ w' d d', finalizeDispute env t w = .ok w' ∧ w.disputes.get t = some d ∧
    Ruled env w d outcome d' ∧ w'.disputes.get t = some d'

/-- A ruling becomes final: whenever the appeal window is over, it can be finalized. -/
def BecomesFinal (env : Env Addr Sym ρ) (t : Sym) (outcome : DisputeOutcome)
    (w : World Addr Sym ρ) : Prop :=
  ∀ d deadline, w.disputes.get t = some d → d.appealDeadline = some deadline →
    ∀ now, deadline ≤ now → Finalizes env t outcome { w with now := now }

/-- The party a ruling goes against. -/
def DisputeOutcome.losingParty (d : Dispute Addr Sym) : DisputeOutcome → Option Addr
  | .supportFiler => some d.agentId
  | .supportAgent => some d.filer
  | .tie => none

/-- The right to appeal a ruling. -/
structure AppealRight (env : Env Addr Sym ρ) (t : Sym) (outcome : DisputeOutcome)
    (w : World Addr Sym ρ) : Prop where
  /-- The losing party can appeal, and nobody else. -/
  loser : ∀ d, w.disputes.get t = some d → ∀ signed appellant, signed appellant = true →
    ((∃ w', appealDispute env signed t appellant w = .ok w') ↔ outcome.losingParty d = some appellant)
  /-- No vote that counts after the appeal was there before it. -/
  fresh : ∀ signed appellant w', appealDispute env signed t appellant w = .ok w' →
    ∀ later, (system env).Run (fun _ _ => True) w' later →
      ∀ voter, w'.votes.get (currentVoteKey later t voter) = none
  /-- There is one appeal. -/
  once : ∀ signed appellant w', appealDispute env signed t appellant w = .ok w' →
    ∀ later, (system env).Run (fun _ _ => True) w' later →
      ∀ signed' appellant' w'', appealDispute env signed' t appellant' later ≠ .ok w''

/-! ## No outcome is ever on record -/

/-- The dispute has no outcome on record and is in its first round. -/
structure Docket.Unrecorded (D : Docket Addr Sym) : Prop where
  round : D.round = 0
  resolution : ∀ d, D.dispute = some d → d.resolution = none
  appealed : ∀ d, D.dispute = some d → d.appealed = false

def Docket.Proposed (D : Docket Addr Sym) : Prop :=
  ∃ d deadline, D.dispute = some d ∧ d.appealDeadline = some deadline

variable {env : Env Addr Sym ρ} {w w' : World Addr Sym ρ} {t : Sym}

omit [DecidableEq Addr] [DecidableEq Sym] in
theorem Ruled.frame {d d' : Dispute Addr Sym} {outcome : DisputeOutcome}
    (h : Ruled env w d outcome d') :
    d'.resolution = d.resolution ∧ d'.appealed = d.appealed ∧ d'.appealDeadline = d.appealDeadline := by
  cases h <;> exact ⟨rfl, rfl, rfl⟩

variable {D D' : Docket Addr Sym}

omit [DecidableEq Addr] [DecidableEq Sym] in
theorem Docket.Unrecorded.rewrite {d d' : Dispute Addr Sym} (h : D.Unrecorded) (hd : D.dispute = some d)
    (hd' : D'.dispute = some d') (hrnd : D'.round = D.round) (hres : d'.resolution = d.resolution)
    (happ : d'.appealed = d.appealed) : D'.Unrecorded := by
  refine ⟨hrnd.trans h.round, ?_, ?_⟩
  · intro x hx
    cases hd'.symm.trans hx
    exact hres.trans (h.resolution d hd)
  · intro x hx
    cases hd'.symm.trans hx
    exact happ.trans (h.appealed d hd)

/-- **No change records an outcome**: the two that would need one to begin with. -/
theorem Docket.Change.unrecorded {act : Act Addr}
    (hc : Docket.Change env w t act D D') (h : D.Unrecorded) : D'.Unrecorded := by
  cases hc with
  | escrow => exact ⟨h.round, h.resolution, h.appealed⟩
  | file hno hfr =>
    refine ⟨h.round, ?_, ?_⟩
    · intro x hx
      cases hx
      exact hfr.resolution
    · intro x hx
      cases hx
      exact hfr.appealed
  | evidence hd | vote hd => exact h.rewrite hd rfl rfl rfl rfl
  | arbiterVote hd hon hpo hmem hnew hid hnow hcnt =>
    rcases hcnt.cases with rfl | ⟨outcome, -, hr⟩
    · exact h.rewrite hd rfl rfl rfl rfl
    · obtain ⟨hres, happ, -⟩ := hr.frame
      exact h.rewrite hd rfl rfl hres happ
  | propose hd =>
    -- `resolve` computes an outcome here, and does not record it
    obtain ⟨-, hres, happ, -⟩ := propose_frame w _ _ _
    exact h.rewrite hd rfl rfl hres happ
  | settle hd hrsd hpnd hov h0 => exact absurd h.round h0
  | @appeal D d appellant deadline code hd hpnd hapd hddl hnow hres hsi
  | @finalize D d d' deadline code outcome hd hpnd hapd hddl hnow hres hr =>
    rw [h.resolution d hd] at hres
    cases hres

theorem Docket.Change.proposed {act : Act Addr}
    (hc : Docket.Change env w t act D D') (h : D.Proposed) : D'.Proposed := by
  obtain ⟨d₀, deadline, hd₀, hddl⟩ := h
  have hsm : ∀ {d d' : Dispute Addr Sym}, D.dispute = some d →
      d'.appealDeadline = d.appealDeadline → d'.appealDeadline = some deadline := by
    intro d d' hd hkp
    cases hd₀.symm.trans hd
    exact hkp.trans hddl
  cases hc with
  | escrow => exact ⟨d₀, deadline, hd₀, hddl⟩
  | file hno =>
    rw [hd₀] at hno
    cases hno
  | evidence hd | vote hd | appeal hd => exact ⟨_, _, rfl, hsm hd rfl⟩
  | arbiterVote hd hon hpo hmem hnew hid hnow hcnt =>
    rcases hcnt.cases with rfl | ⟨outcome, -, hr⟩
    · exact ⟨_, _, rfl, hsm hd rfl⟩
    · exact ⟨_, _, rfl, hsm hd hr.frame.2.2⟩
  | propose => exact ⟨_, _, rfl, rfl⟩
  | settle hd hrsd hpnd hov h0 hvts hr =>
    exact ⟨_, _, rfl, hsm hd (hr.frame.2.2.trans (propose_frame w _ _ _).2.2.2.1)⟩
  | finalize hd hpnd hapd hdl hnow hres hr => exact ⟨_, _, rfl, hsm hd hr.frame.2.2⟩

/-- **No dispute ever has an outcome on record.** -/
theorem unrecorded_reachable {guard : World Addr Sym ρ → Event Addr Sym ρ → Prop}
    (h : (system env).Reachable guard w) (t : Sym) : (w.docket t).Unrecorded := by
  obtain ⟨log, hlog⟩ := h.logged
  refine (court env).invariant_always (fun D _ => D.Unrecorded) ?_ ?_ hlog
  · refine ⟨rfl, ?_, ?_⟩
    · intro d hd
      cases hd
    · intro d hd
      cases hd
  · intro s act D D' _ hc hD
    exact hc.unrecorded hD

theorem resolve_proposed {guard : World Addr Sym ρ → Event Addr Sym ρ → Prop}
    {outcome : DisputeOutcome} (hr : (system env).Reachable guard w)
    (hres : resolve env t w = .ok (outcome, w')) :
    (system env).Reachable (fun _ _ => True) w' ∧ (w'.docket t).Proposed := by
  have hfr : (system env).Reachable (fun _ _ => True) w := hr.weaken fun _ _ _ => trivial
  have hst : (system env).step w (.invoke (fun _ => false) (.resolve t)) = some w' :=
    step_invoke.mpr (bind_eq_ok.mpr ⟨_, hres, rfl⟩)
  have hchg := (resolve_acts (wellKeyed_reachable hr) hres).change
  have hrnd := (unrecorded_reachable hr t).round
  refine ⟨hfr.tail trivial hst, ?_⟩
  generalize w.docket t = D at hchg hrnd
  generalize w'.docket t = D' at hchg ⊢
  cases hchg with
  | propose => exact ⟨_, _, rfl, rfl⟩
  | settle hd hrsd hpnd hov h0 =>
    -- the round is the first one, so this call has not ruled
    exact absurd hrnd h0

/-! ## A ruling to run examples on -/

namespace Sample

/-- When the appeal window of the ruling closes. -/
def windowEnd : Nat := 1000 + evidencePhase + votingPhase + appealPhase

/-- The ruling for the filer, proposed in the first round and not appealed. -/
structure Proposal (w₀ w₁ : World Nat Nat BondBook) (d : Dispute Nat Nat) : Prop where
  reachable : (system chain).Reachable ClockMonotone w₀
  first : (w₀.voteRound.get 7).getD 0 = 0
  resolved : resolve chain 7 w₀ = .ok (.supportFiler, w₁)
  dispute : w₁.disputes.get 7 = some d
  agent : d.agentId = 4
  pending : d.status = .appealPending
  deadline : d.appealDeadline = some windowEnd
  now : w₁.now < windowEnd
  unpaused : w₁.paused = false
  locked : w₁.registry = ⟨100, true⟩
  stuck : (finalizeDispute chain 7 { w₁ with now := windowEnd }).toOption.isNone = true
  refused : (appealDispute chain (fun _ => true) 7 4 w₁).toOption.isNone = true

theorem exists_proposal : ∃ w₀ w₁ d, Proposal w₀ w₁ d := by
  have hpl : ((system chain).play ClockMonotone ruled (World.init 1000 ⟨100, false⟩)).any (fun w =>
      (w.voteRound.get 7).getD 0 = 0 ∧ (resolve chain 7 w).toOption.any fun r =>
        (r.1 = .supportFiler ∧ r.2.now < windowEnd ∧ r.2.paused = false ∧ r.2.registry = ⟨100, true⟩ ∧
          (finalizeDispute chain 7 { r.2 with now := windowEnd }).toOption.isNone ∧
          (appealDispute chain (fun _ => true) 7 4 r.2).toOption.isNone) ∧
        (r.2.disputes.get 7).any fun d =>
          d.agentId = 4 ∧ d.status = .appealPending ∧ d.appealDeadline = some windowEnd) = true := by
    decide
  obtain ⟨w₀, hw₀, hend⟩ := (Option.any_eq_true _ _).mp hpl
  obtain ⟨hfst, hend⟩ := of_decide_eq_true hend
  obtain ⟨⟨outcome, w₁⟩, hrsd, hend⟩ := (Option.any_eq_true _ _).mp hend
  obtain ⟨⟨rfl, hnow, hpsd, hlck, hstu, hre⟩, hend⟩ := of_decide_eq_true hend
  obtain ⟨d, hd, hend⟩ := (Option.any_eq_true _ _).mp hend
  obtain ⟨hagt, hpnd, hddl⟩ := of_decide_eq_true hend
  have hrea := reachable_of_play (start_init chain 1000 ⟨100, false⟩) hw₀
  exact ⟨w₀, w₁, d, hrea, hfst, toOption_eq_some.mp hrsd, hd, hagt, hpnd, hddl, hnow, hpsd, hlck, hstu, hre⟩

end Sample

/-! ## Finalization -/

theorem finalizeDispute_unrecorded {d : Dispute Addr Sym} {deadline : Nat}
    (h : (w.docket t).Unrecorded) (hd : w.disputes.get t = some d)
    (hddl : d.appealDeadline = some deadline) :
    finalizeDispute env t w = .error (.error .invalidPhase) := by
  have hres : d.resolution = none := h.resolution d hd
  have hapd : d.appealed = false := h.appealed d hd
  -- each of the three checks before the outcome is read fails with the same error
  by_cases hpnd : d.status = .appealPending
  · by_cases hnow : w.now < deadline
    · simp [finalizeDispute, loadDispute, hd, hpnd, hapd, hddl, hnow, failIf, okOr, bind, Except.bind]
    · simp [finalizeDispute, loadDispute, hd, hpnd, hapd, hddl, hnow, hres, failIf, okOr, bind, Except.bind]
  · simp [finalizeDispute, loadDispute, hd, hpnd, failIf, okOr, bind, Except.bind]

/--
**No ruling ever becomes final.** After any accepted first `resolve`, in every later state and at
every time, `finalize_dispute` fails with `InvalidPhase`, whatever the registry would have answered.
No hypothesis excludes appeals, because none is accepted.
-/
theorem ruling_never_final {guard : World Addr Sym ρ → Event Addr Sym ρ → Prop}
    {w₀ w₁ w₂ : World Addr Sym ρ} {outcome : DisputeOutcome}
    (hr : (system env).Reachable guard w₀) (hres : resolve env t w₀ = .ok (outcome, w₁))
    (hrun : (system env).Run guard w₁ w₂) :
    (∀ now, finalizeDispute env t { w₂ with now := now } = .error (.error .invalidPhase)) ∧
      ¬ BecomesFinal env t outcome w₂ := by
  obtain ⟨hr₁, hpr⟩ := resolve_proposed hr hres
  have hrun' : (system env).Run (fun _ _ => True) w₁ w₂ := hrun.weaken fun _ _ _ => trivial
  have hkpt : (w₂.docket t).Proposed :=
    (court env).run_preserves Docket.Proposed (fun _ _ _ _ hc => hc.proposed) hr₁ hrun' hpr
  obtain ⟨d, deadline, hd, hddl⟩ := hkpt
  have hun := unrecorded_reachable (hr₁.run hrun') t
  have hfai : ∀ now, finalizeDispute env t { w₂ with now := now } = .error (.error .invalidPhase) := by
    intro now
    exact finalizeDispute_unrecorded (w := { w₂ with now := now }) hun hd hddl
  refine ⟨hfai, ?_⟩
  intro hfnl
  obtain ⟨w', -, -, hok, -⟩ := hfnl d deadline hd hddl deadline le_rfl
  rw [hfai] at hok
  cases hok

/-- Three voters rule for the filer; a day later nothing can be finalized. -/
theorem ruling_never_final_voted : ∃ w₀ w₁ w₂ : World Nat Nat Sample.BondBook,
    resolve Sample.chain 7 w₀ = .ok (.supportFiler, w₁) ∧
      (system Sample.chain).Run ClockMonotone w₁ w₂ ∧ w₂.now = Sample.windowEnd ∧
      finalizeDispute Sample.chain 7 w₂ = .error (.error .invalidPhase) := by
  obtain ⟨w₀, w₁, d, h⟩ := Sample.exists_proposal
  let w₂ : World Nat Nat Sample.BondBook := { w₁ with now := Sample.windowEnd }
  have hnx : (system Sample.chain).Next ClockMonotone w₁ w₂ :=
    ⟨.close Sample.windowEnd, h.now.le, rfl⟩
  have hrun : (system Sample.chain).Run ClockMonotone w₁ w₂ := .single hnx
  exact ⟨w₀, w₁, w₂, h.resolved, hrun, rfl, (ruling_never_final h.reachable h.resolved hrun).1 w₂.now⟩

/--
The stuck bond: in the first round all three voters rule for the filer and nobody appeals. The
agent's bond of 100 is locked in the registry, ready to be slashed, and the ruling cannot be
finalized.
-/
theorem stuck_ruling : ∃ w₀ w₁ : World Nat Nat Sample.BondBook,
    (system Sample.chain).Reachable ClockMonotone w₀ ∧ (w₀.voteRound.get 7).getD 0 = 0 ∧
      resolve Sample.chain 7 w₀ = .ok (.supportFiler, w₁) ∧ w₁.registry = ⟨100, true⟩ ∧
      ¬ BecomesFinal Sample.chain 7 .supportFiler w₁ := by
  obtain ⟨w₀, w₁, d, h⟩ := Sample.exists_proposal
  refine ⟨w₀, w₁, h.reachable, h.first, h.resolved, h.locked, ?_⟩
  intro hfnl
  obtain ⟨w', -, -, hok, -⟩ := hfnl d Sample.windowEnd h.dispute h.deadline Sample.windowEnd le_rfl
  have hno := h.stuck
  rw [hok] at hno
  cases hno

/-! ## Appeal -/

theorem appealDispute_unrecorded {signed : Addr → Bool} {appellant : Addr}
    (h : (w.docket t).Unrecorded) (w' : World Addr Sym ρ) :
    appealDispute env signed t appellant w ≠ .ok w' := by
  intro hok
  simp only [appealDispute, loadDispute, bind_eq_ok, okOr_eq_ok] at hok
  obtain ⟨-, -, -, -, d, hd, -, -, -, -, -, -, deadline, -, -, -, loser, hlsr, -⟩ := hok
  rw [h.resolution d hd] at hlsr
  cases hlsr

/--
**No appeal is ever accepted.** After any accepted first `resolve` that named a loser, as long as
the appeal window is open, every appellant who signs is turned away as `Unauthorized`, the losing
party too.
-/
theorem appeal_never_accepted {guard : World Addr Sym ρ → Event Addr Sym ρ → Prop}
    {w₀ w₁ w₂ : World Addr Sym ρ} {outcome : DisputeOutcome} {d : Dispute Addr Sym}
    {deadline : Nat} (hr : (system env).Reachable guard w₀)
    (hres : resolve env t w₀ = .ok (outcome, w₁)) (houtcome : outcome ≠ .tie)
    (hrun : (system env).Run guard w₁ w₂) (hd : w₂.disputes.get t = some d)
    (hpending : d.status = .appealPending) (hdeadline : d.appealDeadline = some deadline)
    (hnow : w₂.now < deadline) (hpaused : w₂.paused = false) :
    (∀ signed appellant, appellant ≠ env.self → signed appellant = true →
      appealDispute env signed t appellant w₂ = .error (.error .unauthorized)) ∧
      ¬ AppealRight env t outcome w₂ := by
  obtain ⟨hr₁, -⟩ := resolve_proposed hr hres
  have hr₂ := hr₁.run (hrun.weaken fun _ _ _ => trivial)
  have hun := unrecorded_reachable hr₂ t
  have hno : d.resolution = none := hun.resolution d hd
  have hapd : d.appealed = false := hun.appealed d hd
  refine ⟨?_, ?_⟩
  · intro signed appellant hsf hsgn
    have hon : ¬ deadline ≤ w₂.now := Nat.not_le.mpr hnow
    simp [appealDispute, requireNotPaused, requireAuth, trapUnless, loadDispute, failIf, okOr,
      hpaused, hsf, hsgn, hd, hpending, hapd, hdeadline, hon, hno, bind, Except.bind]
  · intro hrig
    have hlsr : ∃ loser, outcome.losingParty d = some loser := by
      cases outcome with
      | supportFiler => exact ⟨d.agentId, rfl⟩
      | supportAgent => exact ⟨d.filer, rfl⟩
      | tie => exact absurd rfl houtcome
    obtain ⟨loser, hlsr⟩ := hlsr
    obtain ⟨w', hok⟩ := (hrig.loser d hd (fun _ => true) loser rfl).mpr hlsr
    exact appealDispute_unrecorded hun w' hok

/-- The agent, who lost three to none, is turned away. -/
theorem appeal_never_accepted_agent : ∃ w₀ w₁ : World Nat Nat Sample.BondBook,
    resolve Sample.chain 7 w₀ = .ok (.supportFiler, w₁) ∧ w₁.now < Sample.windowEnd ∧
      appealDispute Sample.chain (fun _ => true) 7 4 w₁ = .error (.error .unauthorized) := by
  obtain ⟨w₀, w₁, d, h⟩ := Sample.exists_proposal
  have hnev := appeal_never_accepted h.reachable h.resolved (by decide) .refl h.dispute h.pending
    h.deadline h.now h.unpaused
  exact ⟨w₀, w₁, h.resolved, h.now, hnev.1 (fun _ => true) 4 (by decide) rfl⟩

/--
The refused appeal: the first round went against the agent `4`, the appeal window is open, the
contract is not paused, and the agent cannot appeal.
-/
theorem refused_appeal : ∃ (w₀ w₁ : World Nat Nat Sample.BondBook) (d : Dispute Nat Nat),
    (system Sample.chain).Reachable ClockMonotone w₀ ∧ (w₀.voteRound.get 7).getD 0 = 0 ∧
      resolve Sample.chain 7 w₀ = .ok (.supportFiler, w₁) ∧ w₁.disputes.get 7 = some d ∧
      d.status = .appealPending ∧ d.appealDeadline = some Sample.windowEnd ∧ w₁.now < Sample.windowEnd ∧
      w₁.paused = false ∧ ¬ AppealRight Sample.chain 7 .supportFiler w₁ := by
  obtain ⟨w₀, w₁, d, h⟩ := Sample.exists_proposal
  refine ⟨w₀, w₁, d, h.reachable, h.first, h.resolved, h.dispute, h.pending, h.deadline, h.now,
    h.unpaused, ?_⟩
  intro hrig
  have hlsr : DisputeOutcome.supportFiler.losingParty d = some 4 := congrArg some h.agent
  obtain ⟨w', hok⟩ := (hrig.loser d h.dispute (fun _ => true) 4 rfl).mpr hlsr
  have hno := h.refused
  rw [hok] at hno
  cases hno

end

/-!
## Where the escrow goes

A ruling is to divide the escrow recorded for the task between the filer and the agent.
`resolve` writes the division into the dispute, as part of its proposal; the arbiters'
vote reaches `apply_final_ruling` without one.

No proposal ever becomes final, so the arbiters make every ruling there is, and a
resolved dispute pays nobody. That conserves the escrow exactly when there is none, and
`escrow_conserved_iff` says so for every run: the division is right if and only if no
binding arbiter vote met a dispute over money.
-/

variable {Addr Sym ρ : Type} [DecidableEq Addr] [DecidableEq Sym]

/-! ## What a settlement has to be -/

/-- How an outcome divides the escrow: the filer's refund, then the agent's payment. -/
def DisputeOutcome.division (escrow : Int) : DisputeOutcome → Int × Int
  | .supportFiler => (escrow, 0)
  | .supportAgent => (0, escrow)
  | .tie => (escrow.tdiv 2, escrow - escrow.tdiv 2)

/-- The amounts of a dispute are the division of the escrow by the outcome. -/
structure Dispute.Settles (d : Dispute Addr Sym) (outcome : DisputeOutcome) (escrow : Int) :
    Prop where
  refund : 0 ≤ d.filerRefund
  payment : 0 ≤ d.agentPayment
  conserved : d.filerRefund + d.agentPayment = escrow
  division : (d.filerRefund, d.agentPayment) = outcome.division escrow

/-- The outcome that an act on a dispute makes final, if it is accepted and makes one final. -/
def Docket.verdict (w : World Addr Sym ρ) (t : Sym) (D : Docket Addr Sym) :
    Act Addr → Option DisputeOutcome
  | .voteAsArbiter arbiter ruling =>
    arbiterOutcome (tally (update D.arbiters arbiter (some ⟨t, arbiter, ruling, w.now⟩))
      (w.arbiterPool.getD []))
  | .resolve =>
    if D.round = 0 then none
    else D.dispute.map fun d =>
      let votes := tally D.appealRound d.voters
      (propose w { d with status := .voting } votes.1 votes.2).1
  | .finalizeDispute => D.dispute.bind fun d =>
    match d.resolution with
    | some 0 => some .supportFiler
    | some 1 => some .supportAgent
    | some 2 => some .tie
    | _ => none
  | _ => none

/-- The outcomes that a list of acts on a dispute made final. -/
def verdicts (t : Sym) (acts : List (World Addr Sym ρ × Act Addr)) :
    List DisputeOutcome :=
  acts.filterMap fun entry => (entry.1.docket t).verdict entry.1 t entry.2

/-- A resolved dispute was resolved by one ruling, and its amounts settle the escrow by it. -/
def EscrowConserved (env : Env Addr Sym ρ) (t : Sym) (w : World Addr Sym ρ)
    (log : List (World Addr Sym ρ × Event Addr Sym ρ)) : Prop :=
  ∀ d, w.disputes.get t = some d → d.status = .resolved →
    ∃ outcome, verdicts t ((court env).acts t log) = [outcome] ∧
      d.Settles outcome ((w.taskEscrow.get t).getD 0)

/-- An act that is no binding vote of the arbiters on a dispute over escrowed money. -/
def Spares (t : Sym) (w : World Addr Sym ρ) (act : Act Addr) : Prop :=
  (w.taskEscrow.get t).getD 0 = 0 ∨
    ∀ arbiter ruling, act = .voteAsArbiter arbiter ruling → (w.docket t).verdict w t act = none

/-! ## What the acts leave of the amounts -/

/-- A dispute pays nobody. -/
def Dispute.Empty (d : Dispute Addr Sym) : Prop := d.filerRefund = 0 ∧ d.agentPayment = 0

omit [DecidableEq Addr] [DecidableEq Sym] in
theorem Dispute.Empty.settles_iff {d : Dispute Addr Sym} (h : d.Empty)
    (outcome : DisputeOutcome) {escrow : Int} : d.Settles outcome escrow ↔ escrow = 0 := by
  obtain ⟨hrfd, hpa⟩ := h
  constructor
  · intro hs
    have := hs.conserved
    omega
  · intro h0
    subst h0
    refine ⟨by omega, by omega, by omega, ?_⟩
    rw [hrfd, hpa]
    cases outcome <;> rfl

variable {w : World Addr Sym ρ}

omit [DecidableEq Addr] [DecidableEq Sym] in
theorem Ruled.empty {env : Env Addr Sym ρ} {d d' : Dispute Addr Sym} {outcome : DisputeOutcome}
    (h : Ruled env w d outcome d') (hd : d.Empty) : d'.Empty ∧ d'.status = .resolved := by
  cases h with
  | slash | release => exact ⟨hd, rfl⟩

/-- Nothing was ruled so far, nor could the arbiters have. -/
structure Quiet (t : Sym) (acts : List (World Addr Sym ρ × Act Addr)) : Prop where
  unruled : verdicts t acts = []
  spared : ∀ entry ∈ acts, Spares t entry.1 entry.2

/-- The books of one dispute: what was done to it, and what amounts that left in it. -/
inductive Docket.Books (t : Sym) (w : World Addr Sym ρ) (D : Docket Addr Sym)
    (acts : List (World Addr Sym ρ × Act Addr)) : Prop where
  | vacant : D.dispute = none → Quiet t acts → Books t w D acts
  -- there are amounts in a proposal only, and it is made when the voting is closed
  | awaiting (d : Dispute Addr Sym) : D.dispute = some d → d.status ≠ .resolved →
      Quiet t acts → (d.status ≠ .appealPending → d.Empty) →
      (d.status = .appealPending → d.votingDeadline ≤ w.now) → Books t w D acts
  | settled (d : Dispute Addr Sym) (outcome : DisputeOutcome) : D.dispute = some d →
      d.status = .resolved → d.Empty → verdicts t acts = [outcome] →
      ((∀ entry ∈ acts, Spares t entry.1 entry.2) ↔ D.escrow.getD 0 = 0) → Books t w D acts

theorem verdicts_append (t : Sym) (acts more : List (World Addr Sym ρ × Act Addr)) :
    verdicts t (acts ++ more) = verdicts t acts ++ verdicts t more :=
  filterMap_append

theorem verdicts_one (t : Sym) (w : World Addr Sym ρ) (act : Act Addr) :
    verdicts t [(w, act)] = ((w.docket t).verdict w t act).toList := by
  unfold verdicts
  rw [filterMap_cons, filterMap_nil]
  cases (w.docket t).verdict w t act <;> rfl

variable {acts : List (World Addr Sym ρ × Act Addr)}

theorem Quiet.snoc {t : Sym} {act : Act Addr} (h : Quiet t acts)
    (hact : (w.docket t).verdict w t act = none) : Quiet t (acts ++ [(w, act)]) := by
  refine ⟨?_, ?_⟩
  · rw [verdicts_append, verdicts_one, hact, h.unruled]
    rfl
  · intro entry hent
    rcases mem_append.mp hent with hold | hnew
    · exact h.spared entry hold
    · rw [mem_singleton.mp hnew]
      exact .inr fun _ _ _ => hact

theorem Quiet.rule {t : Sym} {arbiter : Addr} {ruling : VoteSide} {outcome : DisputeOutcome}
    (h : Quiet t acts) (hact : (w.docket t).verdict w t (.voteAsArbiter arbiter ruling) = some outcome) :
    verdicts t (acts ++ [(w, .voteAsArbiter arbiter ruling)]) = [outcome] ∧
      ((∀ entry ∈ acts ++ [(w, .voteAsArbiter arbiter ruling)], Spares t entry.1 entry.2) ↔
        (w.docket t).escrow.getD 0 = 0) := by
  refine ⟨?_, ?_⟩
  · rw [verdicts_append, verdicts_one, hact, h.unruled]
    rfl
  · constructor
    · intro hall
      rcases hall (w, .voteAsArbiter arbiter ruling) (mem_append_right _ mem_cons_self) with
        h0 | hno
      · exact h0
      · rw [hno arbiter ruling rfl] at hact
        cases hact
    · intro h0 entry hent
      rcases mem_append.mp hent with hold | hnew
      · exact h.spared entry hold
      · rw [mem_singleton.mp hnew]
        exact .inl h0

variable {env : Env Addr Sym ρ} {w : World Addr Sym ρ} {t : Sym}

/-- **Every act keeps the books.** -/
theorem Docket.Change.books {act : Act Addr} {D' : Docket Addr Sym}
    (hc : Docket.Change env w t act (w.docket t) D') (hu : (w.docket t).Unrecorded)
    (h : (w.docket t).Books t w acts) : D'.Books t w (acts ++ [(w, act)]) := by
  -- a dispute that an act finds unresolved has nothing ruled on it
  have hawa : ∀ d, (w.docket t).dispute = some d → d.status ≠ .resolved → Quiet t acts ∧
      (d.status ≠ .appealPending → d.Empty) ∧
      (d.status = .appealPending → d.votingDeadline ≤ w.now) := by
    intro d hd hsta
    rcases h with ⟨hno, -⟩ | ⟨d₀, hd₀, -, hq, hemp, hcld⟩ | ⟨d₀, -, hd₀, hrsd, -⟩
    · rw [hd] at hno
      cases hno
    · cases hd₀.symm.trans hd
      exact ⟨hq, hemp, hcld⟩
    · cases hd₀.symm.trans hd
      exact absurd hrsd hsta
  -- and one it finds missing has not either
  have hvac : (w.docket t).dispute = none → Quiet t acts := by
    intro hno
    rcases h with ⟨-, hq⟩ | ⟨d₀, hd₀, -⟩ | ⟨d₀, -, hd₀, -⟩
    · exact hq
    · rw [hno] at hd₀
      cases hd₀
    · rw [hno] at hd₀
      cases hd₀
  generalize hD : w.docket t = D at hc hu hawa hvac
  cases hc with
  | escrow hno => exact .vacant hno ((hvac hno).snoc rfl)
  | @file D d filer agentId hno hfr =>
    refine .awaiting d rfl ?_ ((hvac hno).snoc rfl) (fun _ => hfr.amounts.2) ?_
    · rw [hfr.status]
      exact nofun
    · intro hs
      rw [hfr.status] at hs
      cases hs
  | @evidence D d submitter status hd hsta hon hpar hst =>
    obtain ⟨hq, hemp, hcld⟩ := hawa d hd hsta
    by_cases hfld : d.status = .filed
    · rw [if_pos hfld] at hst
      subst hst
      refine .awaiting _ rfl nofun (hq.snoc rfl) (fun _ => ?_) nofun
      exact hemp (by rw [hfld]; exact nofun)
    · rw [if_neg hfld] at hst
      subst hst
      exact .awaiting _ rfl hsta (hq.snoc rfl) hemp hcld
  | @vote D d v hd hon hvot hnew hnow =>
    obtain ⟨hq, hemp, hcld⟩ := hawa d hd hon.status
    have hpnd : d.status ≠ .appealPending := by
      intro hs
      have := hcld hs
      have := hon.voting
      omega
    exact .awaiting _ rfl nofun (hq.snoc rfl) (fun _ => hemp hpnd)
      nofun
  | @arbiterVote D d d' v pool hd hon hpo hmem hnew hid hnow hcnt =>
    obtain ⟨hq, hemp, hcld⟩ := hawa d hd hon.status
    have hpnd : d.status ≠ .appealPending := by
      intro hs
      have := hcld hs
      have := hon.voting
      omega
    obtain ⟨vid, voter, ruling, votedAt⟩ := v
    dsimp only at hid hnow hcnt
    subst vid votedAt
    have hvdt : (w.docket t).verdict w t (.voteAsArbiter voter ruling)
        = arbiterOutcome (tally (update D.arbiters voter
            (some ⟨t, voter, ruling, w.now⟩)) pool) := by
      rw [hD, Docket.verdict, hpo]
      rfl
    rw [← hvdt] at hcnt
    generalize ho : (w.docket t).verdict w t (.voteAsArbiter voter ruling) = o at hcnt
    cases hcnt with
    | undecided =>
      exact .awaiting _ rfl nofun (hq.snoc ho) (fun _ => hemp hpnd)
        nofun
    | @ruled outcome d' hr =>
      obtain ⟨hemp', hsta'⟩ := hr.empty (hemp hpnd)
      obtain ⟨hve, hsp⟩ := hq.rule ho
      rw [hD] at hsp
      exact .settled d' outcome rfl hsta' hemp' hve hsp
  | @propose D d votes hd hrsd hpnd hcld h0 hvts =>
    obtain ⟨hq, -, -⟩ := hawa d hd hrsd
    have hvdt : (w.docket t).verdict w t .resolve = none := by
      rw [hD, Docket.verdict, if_pos h0]
    refine .awaiting _ rfl nofun (hq.snoc hvdt) (fun hs => absurd rfl hs) ?_
    intro _
    exact (propose_frame w _ _ _).2.2.2.2.symm ▸ hcld
  | settle hd hrsd hpnd hov h0 => exact absurd hu.round h0
  | @appeal D d appellant deadline code hd hpnd hapd hddl hnow hres hsi
  | @finalize D d d' deadline code outcome hd hpnd hapd hddl hnow hres hr =>
    rw [hu.resolution d hd] at hres
    cases hres

theorem books_logged {log : List (World Addr Sym ρ × Event Addr Sym ρ)}
    (h : (system env).Logged ClockMonotone w log) (t : Sym) :
    (w.docket t).Books t w ((court env).acts t log) := by
  suffices hall : (w.docket t).Unrecorded ∧ (w.docket t).Books t w ((court env).acts t log) by
    exact hall.2
  refine (court env).invariant_in (fun w D acts => D.Unrecorded ∧ D.Books t w acts) ?_ ?_ ?_ h
  · intro w _
    have hqt : Quiet t ([] : List (World Addr Sym ρ × Act Addr)) := by
      refine ⟨rfl, ?_⟩
      intro entry hent
      cases hent
    refine ⟨⟨rfl, ?_, ?_⟩, .vacant rfl hqt⟩
    · intro d hd
      cases hd
    · intro d hd
      cases hd
  · rintro w e w' D acts hr hclk hs ⟨hu, hD⟩
    have hnow : w.now ≤ w'.now := now_le_of_step (wellKeyed_reachable hr) hclk hs
    refine ⟨hu, ?_⟩
    rcases hD with ⟨hno, hq⟩ | ⟨d, hd, hst, hq, hemp, hcld⟩ |
      ⟨d, outcome, hd, hst, hemp, hve, hsp⟩
    · exact .vacant hno hq
    · exact .awaiting d hd hst hq hemp fun hs => (hcld hs).trans hnow
    · exact .settled d outcome hd hst hemp hve hsp
  · rintro w act D' acts hc ⟨hu, hD⟩
    exact ⟨hc.unrecorded hu, hc.books hu hD⟩

/-! ## The settlement law -/

/--
**When the settlement conserves the escrow**: in every state of every run, for every dispute,
exactly if the arbiters never bound it while there was money in escrow for its task.
-/
theorem escrow_conserved_iff {log : List (World Addr Sym ρ × Event Addr Sym ρ)}
    (h : (system env).Logged ClockMonotone w log) :
    EscrowConserved env t w log ↔ ∀ entry ∈ (court env).acts t log, Spares t entry.1 entry.2 := by
  rcases books_logged h t with ⟨hno, hq⟩ | ⟨d, hd, hst, hq, hemp, hcld⟩ |
    ⟨d, outcome, hd, hrsd, hemp, hve, hsp⟩
  · refine ⟨fun _ => hq.spared, fun _ d hd => ?_⟩
    rw [show w.disputes.get t = none from hno] at hd
    cases hd
  · refine ⟨fun _ => hq.spared, fun _ d' hd' hrsd => ?_⟩
    cases hd.symm.trans hd'
    exact absurd hrsd hst
  · rw [hsp]
    constructor
    · intro hall
      obtain ⟨outcome', -, hsts⟩ := hall d hd hrsd
      exact (hemp.settles_iff outcome').mp hsts
    · intro h0 d' hd' _
      cases hd.symm.trans hd'
      exact ⟨outcome, hve, (hemp.settles_iff outcome).mpr h0⟩

namespace Sample

/-- Two of three arbiters rule for the filer, who has 1000 in escrow. -/
def bound : List (Event Nat Nat BondBook) :=
  filed ++
    [ call 1 (.setArbiterPool [5, 6, 8]), .close (1000 + evidencePhase),
      call 5 (.voteAsArbiter 7 5 .supportFiler),
      call 6 (.voteAsArbiter 7 6 .supportFiler) ]

theorem exists_bound : ∃ w, (system chain).Logged ClockMonotone w
      ((system chain).record bound (World.init 1000 ⟨100, false⟩)) ∧
    (∃ d, w.disputes.get 7 = some d ∧ d.status = .resolved ∧ d.filerRefund = 0 ∧ d.agentPayment = 0) ∧
      w.taskEscrow.get 7 = some 1000 := by
  have hpl : ((system chain).play ClockMonotone bound (World.init 1000 ⟨100, false⟩)).any (fun w =>
      ((w.disputes.get 7).any fun d =>
        d.status = .resolved ∧ d.filerRefund = 0 ∧ d.agentPayment = 0) ∧
        w.taskEscrow.get 7 = some 1000) = true := by
    decide
  obtain ⟨w, hw, hdi, hes⟩ := exists_logged (start_init chain 1000 ⟨100, false⟩) hpl
  obtain ⟨d, hd, hfi⟩ := (Option.any_eq_true _ _).mp hdi
  exact ⟨w, hw, ⟨d, hd, of_decide_eq_true hfi⟩, hes⟩

end Sample

/-- The run in which the arbiters rule on an escrow of 1000 breaks the law. -/
theorem escrow_conserved_iff_bound : ∃ (w : World Nat Nat Sample.BondBook)
    (log : List (World Nat Nat Sample.BondBook × Event Nat Nat Sample.BondBook)),
    (system Sample.chain).Logged ClockMonotone w log ∧ (EscrowConserved Sample.chain 7 w log ↔
        ∀ entry ∈ (court Sample.chain).acts 7 log, Spares 7 entry.1 entry.2) := by
  obtain ⟨w, hlog, -⟩ := Sample.exists_bound
  exact ⟨w, _, hlog, escrow_conserved_iff hlog⟩

/--
The vanished escrow: two arbiters rule for the filer, the dispute is resolved, and nothing of the 1000
in escrow goes to anybody.
-/
theorem vanished_escrow : ∃ (w : World Nat Nat Sample.BondBook)
    (log : List (World Nat Nat Sample.BondBook × Event Nat Nat Sample.BondBook)),
    (system Sample.chain).Logged ClockMonotone w log ∧ w.taskEscrow.get 7 = some 1000 ∧
      ¬ EscrowConserved Sample.chain 7 w log := by
  obtain ⟨w, hlog, ⟨d, hd, hrsd, hrfd, hpa⟩, hes⟩ := Sample.exists_bound
  refine ⟨w, _, hlog, hes, ?_⟩
  intro hall
  obtain ⟨outcome, -, hsts⟩ := hall d hd hrsd
  have hco := hsts.conserved
  rw [hes, getD_some] at hco
  omega

end AiNet.DisputeResolution
