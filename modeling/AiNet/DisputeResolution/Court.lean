import AiNet.DisputeResolution.Docket

/-!
# Every call is a change of one docket

One lemma for each entry point that acts on a dispute. `save_dispute` stores a dispute
under the task written in it, so the lemmas need that disputes are stored under their
own task, which the changes themselves preserve.
-/

namespace AiNet.DisputeResolution

open Core Dispute World Storage

variable {Addr Sym ρ : Type} [DecidableEq Addr] [DecidableEq Sym]
variable {env : Env Addr Sym ρ} {signed : Addr → Bool} {w w' : World Addr Sym ρ}

variable {t : Sym}

theorem setTaskEscrow_acts {amount : Int} (h : setTaskEscrow env signed t amount w = .ok w') :
    Acted env t (.setTaskEscrow amount) w w' := by
  simp only [setTaskEscrow, requireNotPaused, bind_eq_ok, failIf_eq_ok, exists_and_left,
    exists_const, pure_eq_ok, Bool.not_eq_true, has_eq_false, not_lt] at h
  obtain ⟨-, admin, -, hnn, hno, rfl⟩ := h
  have hsf : ({ w with taskEscrow := w.taskEscrow.set t amount } : World Addr Sym ρ).docket t
      = { w.docket t with escrow := some amount } := by
    simp [docket]
  refine ⟨?_, ?_, rfl, .silent⟩
  · rw [hsf]
    exact .escrow hno hnn
  · intro id hid
    simp [docket, get_set_ne _ _ hid]

theorem fileDispute_acts {filer agentId : Addr} {reason : List UInt8}
    (h : fileDispute env signed t filer agentId reason w = .ok w') :
    Acted env t (.fileDispute filer agentId) w w' := by
  simp only [fileDispute, requireNotPaused, bind_eq_ok, failIf_eq_ok, okOr_eq_ok, orTrap_eq_ok,
    requireAuth_eq_ok, exists_and_left, exists_const, pure_eq_ok, Bool.not_eq_true,
    has_eq_false, not_lt] at h
  obtain ⟨-, -, -, hno, heno, address, hadr, id, hid, registry, hlk, hw'⟩ := h
  let d : Dispute Addr Sym :=
    { taskId := t
      filer := filer
      agentId := agentId
      registryAddress := address
      registryAgentId := id
      reason := reason
      status := .evidencePhase
      filedAt := w.now
      evidenceDeadline := satAdd64 w.now evidencePhase
      votingDeadline := satAdd64 (satAdd64 w.now evidencePhase) votingPhase
      voters := w.activeVoters
      resolution := none
      appealDeadline := none
      appealed := false
      filerVotes := 0
      agentVotes := 0
      bondSlashed := 0
      filerRefund := 0
      agentPayment := 0 }
  obtain ⟨hsf, hoth⟩ := docket_saveDispute { w with registry := registry } (d := d) rfl
  subst hw'
  have hdn : Docket.Change env w t (.fileDispute filer agentId) (w.docket t)
      { w.docket t with dispute := some d } := by
    refine .file hno ?_
    exact ⟨rfl, rfl, rfl, hadr, rfl, rfl, rfl, rfl, heno, rfl, rfl, rfl, rfl, rfl, rfl⟩
  refine ⟨hsf.symm ▸ hdn, hoth, rfl, ?_⟩
  exact .file hno (congrArg Docket.dispute hsf) (by rintro ⟨⟩) hlk

theorem submitEvidence_acts {submitter : Addr} {evidenceHash : BytesN 32} (hkey : w.WellKeyed)
    (h : submitEvidence env signed t submitter evidenceHash w = .ok w') :
    Acted env t (.submitEvidence submitter) w w' := by
  simp only [submitEvidence, requireNotPaused, loadDispute, bind_eq_ok, failIf_eq_ok, okOr_eq_ok,
    requireAuth_eq_ok, exists_and_left, exists_const, not_or, not_le, not_and, ne_eq, not_not] at h
  obtain ⟨-, -, d, hd, ⟨hon, hst⟩, hpar, -, h⟩ := h
  have ht := hkey t d hd
  have hpar : submitter = d.filer ∨ submitter = d.agentId := by
    by_cases hf : submitter = d.filer
    · exact .inl hf
    · exact .inr (hpar hf)
  split at h
  · rename_i hfld
    rw [pure_eq_ok] at h
    subst h
    have ht : ({ d with status := .evidencePhase } : Dispute Addr Sym).taskId = t := ht
    refine ⟨?_, (docket_saveDispute _ ht).2, rfl, ?_⟩
    · rw [(docket_saveDispute _ ht).1]
      exact .evidence hd hst hon hpar (if_pos hfld).symm
    · exact .keep hd (congrArg Docket.dispute (docket_saveDispute _ ht).1)
        (holds_open hst).symm rfl
  · rename_i hfld
    rw [pure_eq_ok] at h
    subst h
    refine ⟨?_, fun _ _ => rfl, rfl, .silent⟩
    have hchg : Docket.Change env w t (.submitEvidence submitter) (w.docket t)
        { w.docket t with dispute := some { d with status := d.status } } :=
      .evidence hd hst hon hpar (if_neg hfld).symm
    have hsm : { w.docket t with dispute := some { d with status := d.status } } = w.docket t := by
      show { w.docket t with dispute := some d } = _
      rw [← hd]
      rfl
    rw [hsm] at hchg
    exact hchg

variable {d : Dispute Addr Sym}

omit [DecidableEq Addr] [DecidableEq Sym] in
theorem requireVotingOpen_eq_ok {u : Unit} :
    requireVotingOpen w d = .ok u ↔ d.Open w.now := by
  simp only [requireVotingOpen, bind_eq_ok, failIf_eq_ok, exists_and_left, exists_const, not_lt, not_le]
  constructor
  · rintro ⟨hst, hev, hvo⟩
    exact ⟨hst, hev, hvo⟩
  · intro h
    exact ⟨h.status, h.evidence, h.voting⟩

theorem vote_acts {voter : Addr} {ruling : VoteSide} (hkey : w.WellKeyed)
    (h : vote env signed t voter ruling w = .ok w') :
    Acted env t (.vote voter ruling) w w' := by
  simp only [vote, requireNotPaused, loadDispute, bind_eq_ok, failIf_eq_ok, okOr_eq_ok,
    requireAuth_eq_ok, requireVotingOpen_eq_ok, exists_and_left, exists_const, not_or, not_not,
    pure_eq_ok, Bool.not_eq_true, has_eq_false] at h
  obtain ⟨-, -, d, hd, hon, ⟨hvot, -⟩, hnew, rfl⟩ := h
  obtain ⟨-, hsf, hoth⟩ := startVoting_docket hd (hkey t d hd)
  obtain ⟨hnow, -, hrnd, -, -, hrgy⟩ := startVoting_frame w d
  let v : Vote Addr Sym := ⟨t, voter, ruling, (startVoting w d).1.now⟩
  have hke : currentVoteKey w t voter = currentVoteKey (startVoting w d).1 t voter := by
    unfold currentVoteKey
    rw [hrnd]
  have hnew : (w.docket t).current voter = none := by
    unfold currentVoteKey at hnew
    unfold Docket.current
    split at hnew
    · rename_i h0
      rw [if_pos (show (w.docket t).round = 0 from h0)]
      exact hnew
    · rename_i h0
      rw [if_neg (show ¬ (w.docket t).round = 0 from h0)]
      exact hnew
  obtain ⟨hvt, hrst⟩ := docket_setVote (startVoting w d).1 t voter v
  rw [hke]
  rw [hsf] at hvt
  refine ⟨?_, fun id hid => (hrst id hid).trans (hoth id hid), hnow, ?_⟩
  · rw [show docket t _ = _ from hvt]
    exact .vote (v := v) hd hon hvot hnew hnow
  · exact .keep hd (congrArg Docket.dispute hvt) (holds_open hon.status).symm hrgy

variable {outcome : DisputeOutcome}

theorem applyFinalRuling_docket (hkey : d.taskId = t) (h : applyFinalRuling env w d outcome = .ok w') :
    ∃ d', Ruled env w d outcome d' ∧ w'.docket t = { w.docket t with dispute := some d' } ∧
      (∀ id, id ≠ t → w'.docket id = w.docket id) ∧ w'.now = w.now ∧
      Consulted env w.registry (some (d.registryAddress, d.registryAgentId)) (w'.docket t).holds
        w'.registry := by
  obtain ⟨d', hrul, htk, hsm, hnow, hco⟩ := applyFinalRuling_ok h
  have ht : d'.taskId = t := htk.trans hkey
  subst ht
  obtain ⟨hsf, hoth⟩ := docket_saveDispute w (d := d') rfl
  have hset := (hsm.docket _).trans hsf
  refine ⟨d', hrul, hset, fun id hid => (hsm.docket id).trans (hoth id hid), hnow, ?_⟩
  rw [hset]
  exact hco

omit [DecidableEq Addr] [DecidableEq Sym] in
theorem Ruled.of_registry {w₁ : World Addr Sym ρ} {d d' : Dispute Addr Sym}
    (hsm : w₁.registry = w.registry) (h : Ruled env w₁ d outcome d') :
    Ruled env w d outcome d' := by
  cases h with
  | slash hsls => exact .slash (hsm ▸ hsls)
  | release ho hrls => exact .release ho (hsm ▸ hrls)

theorem arbiterOutcome_binding {votes : Nat × Nat}
    (h : requiredArbiterVotes ≤ votes.1 ∨ requiredArbiterVotes ≤ votes.2) :
    arbiterOutcome votes
      = some (if requiredArbiterVotes ≤ votes.1 then .supportFiler else .supportAgent) := by
  unfold arbiterOutcome
  by_cases hfil : requiredArbiterVotes ≤ votes.1
  · rw [if_pos hfil, if_pos hfil]
  · rw [if_neg hfil, if_neg hfil, if_pos (h.resolve_left hfil)]

theorem arbiterOutcome_open {votes : Nat × Nat}
    (h : ¬ (requiredArbiterVotes ≤ votes.1 ∨ requiredArbiterVotes ≤ votes.2)) :
    arbiterOutcome votes = none := by
  unfold arbiterOutcome
  rw [if_neg (fun hf => h (.inl hf)), if_neg (fun ha => h (.inr ha))]

theorem voteAsArbiter_acts {arbiter : Addr} {ruling : VoteSide} (hkey : w.WellKeyed)
    (h : voteAsArbiter env signed t arbiter ruling w = .ok w') :
    Acted env t (.voteAsArbiter arbiter ruling) w w' := by
  simp only [voteAsArbiter, requireNotPaused, loadDispute, bind_eq_ok, failIf_eq_ok, okOr_eq_ok,
    requireAuth_eq_ok, requireVotingOpen_eq_ok, exists_and_left, exists_const, not_not,
    Bool.not_eq_true, has_eq_false] at h
  obtain ⟨-, -, d, hd, pool, hpo, hmem, hon, hnew, h⟩ := h
  have ht : ({ d with status := .voting } : Dispute Addr Sym).taskId = t := hkey t d hd
  obtain ⟨hvo, hsf, hoth⟩ := startVoting_docket hd ht
  obtain ⟨hnow, -, -, -, -, hrgy⟩ := startVoting_frame w d
  let v : Vote Addr Sym := ⟨t, arbiter, ruling, (startVoting w d).1.now⟩
  obtain ⟨hvt, hrst⟩ := docket_setArbiterVote (startVoting w d).1 t arbiter v
  rw [hsf] at hvt
  -- the count reads the votes of the world that holds the new one
  have hcnt : (fun a => ((startVoting w d).1.votes.set (.arbiterVote t arbiter) v).get
      (.arbiterVote t a)) = Function.update (w.docket t).arbiters arbiter (some v) :=
    congrArg Docket.arbiters hvt
  rw [show (fun a => get (set _ _ _) _) = _ from hcnt] at h
  split at h
  · -- the second matching vote rules at once
    rename_i hbi
    rw [hvo] at h
    obtain ⟨d', hrul, hru, hkp, hnow', hco⟩ := applyFinalRuling_docket ht h
    refine ⟨?_, fun id hid => ((hkp id hid).trans (hrst id hid)).trans (hoth id hid), hnow'.trans hnow, ?_⟩
    · rw [hru, show docket t _ = _ from hvt]
      refine .arbiterVote (v := v) hd hon hpo hmem hnew rfl hnow ?_
      rw [arbiterOutcome_binding hbi]
      exact .ruled (hrul.of_registry (by exact hrgy))
    · rw [Docket.holds_of hd, holds_open hon.status, ← hrgy]
      exact hco
  · rename_i hoo
    rw [pure_eq_ok] at h
    subst h
    refine ⟨?_, fun id hid => (hrst id hid).trans (hoth id hid), hnow, ?_⟩
    · rw [show docket t _ = _ from hvt]
      refine .arbiterVote (v := v) hd hon hpo hmem hnew rfl hnow ?_
      rw [arbiterOutcome_open hoo]
      exact .undecided
    · exact .keep hd (congrArg Docket.dispute hvt) (holds_open hon.status).symm hrgy

theorem propose_congr {w₁ : World Addr Sym ρ} {f a : Nat} (hes : w₁.taskEscrow = w.taskEscrow)
    (hbo : w₁.agentBond = w.agentBond) :
    propose w₁ d f a = propose w d f a := by
  unfold propose
  rw [hes, hbo]

theorem propose_frame (w : World Addr Sym ρ) (d : Dispute Addr Sym) (f a : Nat) :
    (propose w d f a).2.taskId = d.taskId ∧ (propose w d f a).2.resolution = d.resolution ∧
      (propose w d f a).2.appealed = d.appealed ∧
      (propose w d f a).2.appealDeadline = d.appealDeadline ∧
      (propose w d f a).2.votingDeadline = d.votingDeadline := by
  unfold propose
  dsimp only
  split
  · exact ⟨rfl, rfl, rfl, rfl, rfl⟩
  · split <;> exact ⟨rfl, rfl, rfl, rfl, rfl⟩

theorem propose_bond (w : World Addr Sym ρ) (d : Dispute Addr Sym) (f a : Nat) :
    ((propose w d f a).2.registryAddress, (propose w d f a).2.registryAgentId)
      = (d.registryAddress, d.registryAgentId) := by
  unfold propose
  dsimp only
  split
  · rfl
  · split <;> rfl

theorem resolve_acts (hkey : w.WellKeyed) (h : resolve env t w = .ok (outcome, w')) : Acted env t .resolve w w' := by
  simp only [resolve, loadDispute, bind_eq_ok, failIf_eq_ok, okOr_eq_ok, exists_and_left,
    exists_const, not_lt] at h
  obtain ⟨d, hd, hrsd, hpnd, hov, h⟩ := h
  have ht := hkey t d hd
  obtain ⟨hvo, hsf, hoth⟩ := startVoting_docket hd ht
  obtain ⟨hnow, hvts, hrnd, hes, hbo, hrgy⟩ := startVoting_frame w d
  -- the count is taken in the world after `start_voting`, which keeps the votes
  have hcur : ∀ voter, (startVoting w d).1.votes.get
      (currentVoteKey (startVoting w d).1 t voter) = (w.docket t).current voter := by
    intro voter
    unfold currentVoteKey Docket.current
    rw [hvts, hrnd]
    split
    · rename_i h0
      rw [if_pos (show (w.docket t).round = 0 from h0)]
      rfl
    · rename_i h0
      rw [if_neg (show ¬ (w.docket t).round = 0 from h0)]
      rfl
  simp only [hvo, hcur, hrnd, propose_congr hes hbo, hnow] at h
  let dv : Dispute Addr Sym := { d with status := .voting }
  let votes := tally (w.docket t).current d.voters
  have htk : (propose w dv votes.1 votes.2).2.taskId = t :=
    (propose_frame w dv votes.1 votes.2).1.trans ht
  by_cases h0 : (w.docket t).round = 0
  · rw [if_pos (show (w.voteRound.get t).getD 0 = 0 from h0), pure_eq_ok] at h
    cases h
    have hvts : votes = tally (w.docket t).firstRound d.voters := by
      show tally (w.docket t).current d.voters = _
      rw [show (w.docket t).current = (w.docket t).firstRound from if_pos h0]
    let proposed : Dispute Addr Sym :=
      { (propose w dv votes.1 votes.2).2 with
        status := .appealPending
        appealDeadline := some (satAdd64 w.now appealPhase) }
    obtain ⟨hset, hrst⟩ := docket_saveDispute (startVoting w d).1 (d := proposed) htk
    rw [hsf] at hset
    refine ⟨?_, fun id hid => (hrst id hid).trans (hoth id hid), hnow, ?_⟩
    · rw [show docket t (saveDispute _ _) = _ from hset]
      exact .propose hd hrsd hpnd hov h0 hvts
    · refine .keep hd (congrArg Docket.dispute hset) ?_ hrgy
      rw [holds_open hrsd]
      exact congrArg some (propose_bond w dv votes.1 votes.2)
  · rw [if_neg (show ¬ (w.voteRound.get t).getD 0 = 0 from h0)] at h
    simp only [bind_eq_ok, pure_eq_ok] at h
    obtain ⟨w₁, hru, heq⟩ := h
    cases heq
    have hvts : votes = tally (w.docket t).appealRound d.voters := by
      show tally (w.docket t).current d.voters = _
      rw [show (w.docket t).current = (w.docket t).appealRound from if_neg h0]
    obtain ⟨d', hrul, hset, hrst, hnow', hco⟩ := applyFinalRuling_docket htk hru
    refine ⟨?_, fun id hid => (hrst id hid).trans (hoth id hid), hnow'.trans hnow, ?_⟩
    · rw [hset, hsf]
      exact .settle hd hrsd hpnd hov h0 hvts (hrul.of_registry hrgy)
    · rw [propose_bond w dv votes.1 votes.2, hrgy] at hco
      rw [Docket.holds_of hd, holds_open hrsd]
      exact hco

theorem appealDispute_acts {appellant : Addr} (hkey : w.WellKeyed)
    (h : appealDispute env signed t appellant w = .ok w') :
    Acted env t (.appealDispute appellant) w w' := by
  simp only [appealDispute, requireNotPaused, loadDispute, bind_eq_ok, failIf_eq_ok, okOr_eq_ok,
    requireAuth_eq_ok, exists_and_left, exists_const, ne_eq, not_not, not_le, pure_eq_ok,
    Bool.not_eq_true] at h
  obtain ⟨-, -, d, hd, -, hpnd, hapd, deadline, hddl, hnow, loser, hlsr, hwho, hw'⟩ := h
  have ht := hkey t d hd
  subst ht hwho
  let w₁ : World Addr Sym ρ := { w with voteRound := w.voteRound.set d.taskId 1 }
  let appealed : Dispute Addr Sym :=
    { d with
      status := .voting
      appealed := true
      evidenceDeadline := w.now
      votingDeadline := satAdd64 w.now votingPhase
      resolution := none
      filerVotes := 0
      agentVotes := 0
      bondSlashed := 0
      filerRefund := 0
      agentPayment := 0 }
  obtain ⟨hsf, hoth⟩ := docket_saveDispute w₁ (d := appealed) rfl
  have hrnd : w₁.docket d.taskId = { w.docket d.taskId with round := 1 } := by
    simp [w₁, docket]
  have hco : ∃ code, d.resolution = some code ∧
      (code = 0 ∧ appellant = d.agentId ∨ code = 1 ∧ appellant = d.filer) := by
    split at hlsr
    · rename_i hres
      injection hlsr with hlsr
      exact ⟨0, hres, .inl ⟨rfl, hlsr.symm⟩⟩
    · rename_i hres
      injection hlsr with hlsr
      exact ⟨1, hres, .inr ⟨rfl, hlsr.symm⟩⟩
    · cases hlsr
  obtain ⟨code, hres, hsi⟩ := hco
  rw [show w₁.docket appealed.taskId = _ from hrnd] at hsf
  subst hw'
  refine ⟨?_, fun id hid => (hoth id hid).trans ?_, rfl, ?_⟩
  · rw [show docket d.taskId _ = _ from hsf]
    exact .appeal hd hpnd hapd hddl hnow hres hsi
  · simp [w₁, docket, get_set_ne _ _ hid]
  · have hon : d.status ≠ .resolved := by
      rw [hpnd]
      rintro ⟨⟩
    exact .keep hd (congrArg Docket.dispute hsf) (holds_open hon).symm rfl

theorem finalizeDispute_acts (hkey : w.WellKeyed)
    (h : finalizeDispute env t w = .ok w') : Acted env t .finalizeDispute w w' := by
  simp only [finalizeDispute, loadDispute, bind_eq_ok, failIf_eq_ok, okOr_eq_ok, exists_and_left,
    exists_const, ne_eq, not_not, not_lt, Bool.not_eq_true] at h
  obtain ⟨d, hd, hpnd, hapd, deadline, hddl, hnow, outcome, hout, hru⟩ := h
  have hco : ∃ code, d.resolution = some code := by
    cases hres : d.resolution with
    | none => rw [hres] at hout; cases hout
    | some code => exact ⟨code, rfl⟩
  obtain ⟨code, hres⟩ := hco
  obtain ⟨d', hrul, hset, hrst, hnow', hcs⟩ :=
    applyFinalRuling_docket (hkey t d hd) hru
  refine ⟨?_, hrst, hnow', ?_⟩
  · rw [hset]
    exact .finalize hd hpnd hapd hddl hnow hres hrul
  · have hon : d.status ≠ .resolved := by
      rw [hpnd]
      rintro ⟨⟩
    rw [Docket.holds_of hd, holds_open hon]
    exact hcs

/-! ## All calls -/

/-- **Every call that acts on a dispute is a change of its docket.** -/
theorem exec_acts {op : Op Addr Sym} {act : Act Addr} (hkey : w.WellKeyed)
    (hact : Event.act (.invoke signed op : Event Addr Sym ρ) = some (t, act))
    (h : exec env signed op w = .ok w') : Acted env t act w w' := by
  cases op with
  | setTaskEscrow => cases hact; exact setTaskEscrow_acts h
  | fileDispute => cases hact; exact fileDispute_acts h
  | submitEvidence => cases hact; exact submitEvidence_acts hkey h
  | vote => cases hact; exact vote_acts hkey h
  | voteAsArbiter => cases hact; exact voteAsArbiter_acts hkey h
  | resolve =>
    cases hact
    simp only [exec, bind_eq_ok, pure_eq_ok, Prod.exists] at h
    obtain ⟨outcome, w₁, hres, rfl⟩ := h
    exact resolve_acts hkey hres
  | appealDispute => cases hact; exact appealDispute_acts hkey h
  | finalizeDispute => cases hact; exact finalizeDispute_acts hkey h
  | _ => cases hact

theorem exec_admin {op : Op Addr Sym}
    (hact : Event.act (.invoke signed op : Event Addr Sym ρ) = none)
    (h : exec env signed op w = .ok w') :
    w'.now = w.now ∧ w'.registry = w.registry ∧ ∀ t, w'.docket t = w.docket t := by
  cases op with
  | initializeContract | setAdmin | pause | unpause | setVoters | setReputation | setAgentBond
  | setAgentRegistry | setArbiterPool | setAgentRegistryId =>
    simp only [exec, initializeContract, setAdmin, pause, unpause, setVoters, setReputation,
      setAgentBond, setAgentRegistry, setArbiterPool, setAgentRegistryId] at h
    repeat obtain ⟨_, _, h⟩ := bind_eq_ok.mp h
    obtain rfl := pure_eq_ok.mp h
    exact ⟨rfl, rfl, fun _ => rfl⟩
  | _ => cases hact

/-! ## The table of dockets -/

theorem Docket.Change.taskId {act : Act Addr} {D D' : Docket Addr Sym}
    (h : Docket.Change env w t act D D') (hkey : ∀ d, D.dispute = some d → d.taskId = t) :
    ∀ d', D'.dispute = some d' → d'.taskId = t := by
  have hrul : ∀ {d d' outcome}, Ruled env w d outcome d' → d'.taskId = d.taskId := by
    intro d d' outcome hr
    cases hr <;> rfl
  -- most changes rewrite the dispute that was there
  have hre : ∀ {d d' : Dispute Addr Sym}, D.dispute = some d → d'.taskId = d.taskId →
      ∀ x, some d' = some x → x.taskId = t := by
    intro d d' hd htk x hx
    injection hx with hx
    exact hx ▸ htk.trans (hkey d hd)
  cases h with
  | escrow => exact hkey
  | file hno hfr =>
    intro x hx
    cases hx
    exact hfr.taskId
  | evidence hd | vote hd | appeal hd => exact hre hd rfl
  | arbiterVote hd hon hpo hmem hnew hid hnow hcnt =>
    rcases hcnt.cases with rfl | ⟨outcome, -, hr⟩
    · exact hre hd rfl
    · have htk := hrul hr
      exact hre hd htk
  | propose hd => exact hre hd (propose_frame _ _ _ _).1
  | settle hd hrsd hpnd hov h0 hvts hr =>
    exact hre hd ((hrul hr).trans (propose_frame _ _ _ _).1)
  | finalize hd hpnd hapd hddl hnow hres hr => exact hre hd (hrul hr)

theorem wellKeyed_step {e : Event Addr Sym ρ} (hkey : w.WellKeyed)
    (hs : (system env).step w e = some w') : w'.WellKeyed := by
  cases e with
  | close | external => cases hs; exact hkey
  | invoke signed op =>
    have hec := step_invoke.mp hs
    intro t
    cases hact : Event.act (.invoke signed op : Event Addr Sym ρ) with
    | none =>
      have hsm := congrArg Docket.dispute ((exec_admin hact hec).2.2 t)
      intro d hd
      exact hkey t d (hsm.symm.trans hd)
    | some ta =>
      obtain ⟨t', act⟩ := ta
      have hatd := exec_acts hkey hact hec
      by_cases ht : t = t'
      · subst ht
        exact hatd.change.taskId (hkey t)
      · have hsm := congrArg Docket.dispute (hatd.others t ht)
        intro d hd
        exact hkey t d (hsm.symm.trans hd)

theorem wellKeyed_reachable {guard : World Addr Sym ρ → Event Addr Sym ρ → Prop}
    (h : (system env).Reachable guard w) : w.WellKeyed := by
  refine System.Reachable.invariant ?_ (fun _ _ _ _ _ hkey hs => wellKeyed_step hkey hs) h
  rintro w ⟨now, registry, rfl⟩ t d hd
  cases hd

theorem now_le_of_step {e : Event Addr Sym ρ} (hkey : w.WellKeyed) (hg : ClockMonotone w e)
    (hs : (system env).step w e = some w') : w.now ≤ w'.now := by
  cases e with
  | close => cases hs; exact hg
  | external => cases hs; exact Nat.le_refl _
  | invoke signed op =>
    have hec := step_invoke.mp hs
    cases hact : Event.act (.invoke signed op : Event Addr Sym ρ) with
    | none => exact Nat.le_of_eq (exec_admin hact hec).1.symm
    | some => exact Nat.le_of_eq (exec_acts hkey hact hec).now.symm

/-- **The contract is a table of dockets.** -/
def court (env : Env Addr Sym ρ) :
    Keyed (system env) Sym (Act Addr) (Docket Addr Sym) where
  act := Event.act
  view := docket
  vacant := .empty
  Change t w := Docket.Change env w t
  start := by
    rintro w ⟨now, registry, rfl⟩ t
    rfl
  acted := by
    intro w w' e t act hr hs hact
    cases e with
    | close | external => cases hact
    | invoke => exact (exec_acts (wellKeyed_reachable hr) hact (step_invoke.mp hs)).change
  untouched := by
    intro w w' e t hr hs hnone
    cases e with
    | close | external => cases hs; rfl
    | invoke signed op =>
      have hexec := step_invoke.mp hs
      cases hact : Event.act (.invoke signed op : Event Addr Sym ρ) with
      | none => exact (exec_admin hact hexec).2.2 t
      | some ta =>
        obtain ⟨t', act⟩ := ta
        have ht : t ≠ t' := fun he => hnone act (he ▸ hact)
        exact (exec_acts (wellKeyed_reachable hr) hact hexec).others t ht

end AiNet.DisputeResolution
