import AiNet.AgentGovernance.Mandate

/-!
# Votes and the snapshot

A proposal copies the total power when it is created, while each vote reads the voter's
history as of that time. The two agree as long as no power changes later in the same
ledger timestamp: a change recorded then overwrites what the history says about the
snapshot point, and the copied total does not follow. They also need the total to have
been the sum of the powers in the first place.

Under these conditions a vote weighs what the voter weighed in the state that created
the proposal, or is refused, and the tallies add up to the power of those who voted.
-/

namespace AiNet.AgentGovernance

open Core List Option Function Storage System

variable {Addr Sym : Type} [DecidableEq Addr] {env : Env Addr Sym}
  {w w' : World Addr Sym}

/--
Time moves forward, totals fit, and in a timestamp in which a proposal was created no power changes
afterwards, except that an agent may leave.
-/
structure Steady (w : World Addr Sym) (e : Event Addr Sym) : Prop where
  clock : ClockMonotone w e
  fits : Fits w e
  settled : ∀ agent power, e.reweighs = some (agent, power) → power ≠ 0 → power ≠ w.power agent →
    ∀ id p, w.proposals.get id = some p → p.createdAt ≠ w.now

/-! ## Histories -/

/-- Whoever reads a history now, or later without a change, finds the power of the agent. -/
def CurrentHistories (w : World Addr Sym) : Prop :=
  ∀ agent time, w.now ≤ time → powerAt w agent time = w.power agent

variable {agent : Addr} {time : Nat}

theorem powerAt_congr (h : w'.checkpoints.get agent = w.checkpoints.get agent) :
    powerAt w' agent time = powerAt w agent time := by
  unfold powerAt
  rw [h]

variable {power : Int}

theorem Reweighed.powerAt_other {agent other : Addr} (h : Reweighed agent power w w')
    (hoth : other ≠ agent) :
    powerAt w' other time = powerAt w other time := by
  refine powerAt_congr ?_
  rw [h.checkpoints]
  exact get_set_ne _ _ hoth

theorem Reweighed.powerAt_self (h : Reweighed agent power w w') : powerAt w' agent time =
      Checkpoint.valueAt 0 (Checkpoint.write maxCheckpoints w.now power
        ((w.checkpoints.get agent).getD [])) time := by
  unfold powerAt
  rw [h.checkpoints]
  unfold writeCheckpoint
  rw [get_set_self, getD_some]

theorem Reweighed.powerAt_from
    (h : Reweighed agent power w w') (htm : w.now ≤ time) : powerAt w' agent time = power := by
  rw [h.powerAt_self]
  exact Checkpoint.valueAt_write_of_le (by decide) htm _ _

theorem Reweighed.powerAt_before (h : Reweighed agent power w w') (htm : time < w.now) :
    powerAt w' agent time = powerAt w agent time ∨ powerAt w' agent time = 0 := by
  rw [h.powerAt_self]
  exact Checkpoint.valueAt_write_of_lt (by decide) htm _ _

theorem Reweighed.power_other {agent other : Addr} (h : Reweighed agent power w w')
    (hoth : other ≠ agent) : w'.power other = w.power other := by
  unfold World.power
  rw [h.others other hoth]

section Run

variable {guard : World Addr Sym → Event Addr Sym → Prop}

variable {e : Event Addr Sym}

theorem step_now (hr : (system env).Reachable guard w) (hs : (system env).step w e = some w')
    (hclk : ClockMonotone w e) : w.now ≤ w'.now := by
  rcases step_cases hr (roll_reachable hr) hs with ⟨_, _, _, hclo | hnow⟩ | ⟨_, _, hre⟩ |
    ⟨hok⟩ | ⟨hok⟩ | ⟨hok⟩ | ⟨hok⟩ | ⟨hok⟩
  · rw [hclo] at hclk
    exact hclk
  · exact hnow.ge
  · rw [hre.rest]
  · obtain ⟨_, _, _, _, _, rfl⟩ := createProposal_ok hok
    exact le_rfl
  · obtain ⟨_, _, _, _, _, _, _, rfl⟩ := voteOnProposal_ok hok
    exact le_rfl
  · obtain ⟨_, _, _, _, _, hok⟩ := queueProposal_ok hok
    rcases hok with ⟨_, _, rfl⟩ | rfl
    · exact le_rfl
    · exact le_rfl
  · obtain ⟨_, _, _, _, _, _, _, _, _, _, rfl⟩ := executeProposal_ok hok
    exact le_rfl
  · obtain ⟨_, _, rfl⟩ := cancelProposal_ok hok
    exact le_rfl

theorem currentHistories_step (hr : (system env).Reachable guard w) (hs : (system env).step w e = some w')
    (hclk : ClockMonotone w e) (h : CurrentHistories w) : CurrentHistories w' := by
  have hnow := step_now hr hs hclk
  intro agent time htm
  rcases step_electorate hr (roll_reachable hr) hs with ⟨_, hsm⟩ | ⟨changed, power, _, hre⟩
  · have hpow : w'.power agent = w.power agent := by
      unfold World.power
      rw [hsm.agents]
    rw [powerAt_congr (congrArg (get · agent) hsm.checkpoints), hpow]
    exact h agent time (hnow.trans htm)
  · by_cases hagt : agent = changed
    · subst hagt
      rw [hre.powerAt_from (hnow.trans htm), hre.after]
    · rw [hre.powerAt_other hagt, hre.power_other hagt]
      exact h agent time (hnow.trans htm)

/-! ## One vote each -/

def Event.votes : Event Addr Sym → Option (Nat × Addr)
  | .invoke _ (.voteOnProposal id voter _) => some (id, voter)
  | _ => none

omit [DecidableEq Addr] in
theorem Event.actsOn_of_votes {id : Nat} {voter : Addr} (h : e.votes = some (id, voter)) : e.actsOn w = some id := by
  unfold Event.votes at h
  split at h
  · obtain ⟨rfl, _⟩ := Prod.mk.inj (some.inj h)
    rfl
  · cases h

theorem step_vote (hr : (system env).Reachable guard w) (hs : (system env).step w e = some w') (id : Nat)
    (voter : Addr) :
    if e.votes = some (id, voter) then
      w.votes.get (id, voter) = none ∧ (w'.votes.get (id, voter)).isSome = true
    else w'.votes.get (id, voter) = w.votes.get (id, voter) := by
  rcases step_motion hr (numbered_reachable hr) hs id with ⟨_, hchg⟩ | ⟨hac, hkpt⟩
  · generalize hM : w.motion id = M at hchg
    generalize hM' : w'.motion id = M' at hchg
    have hbf : w.votes.get (id, voter) = M.votes voter := by rw [← hM]; rfl
    have haf : w'.votes.get (id, voter) = M'.votes voter := by rw [← hM']; rfl
    rw [hbf, haf]
    cases hchg with
    | opened | passed | rejected | executed | cancelled => rfl
    | @voted call other choice M p hp hact hfst hpos =>
      by_cases hvot : other = voter
      · subst hvot
        have he : (Event.invoke call (.voteOnProposal id other choice)).votes = some (id, other) := rfl
        rw [if_pos he]
        dsimp only
        rw [update_self]
        exact ⟨hfst, rfl⟩
      · have he : (Event.invoke call (.voteOnProposal id other choice)).votes ≠ some (id, voter) :=
          fun he => hvot (Prod.mk.inj (some.inj he)).2
        rw [if_neg he]
        exact update_of_ne (Ne.symm hvot) _ _
  · rw [if_neg fun he => hac (Event.actsOn_of_votes he)]
    exact congrFun (congrArg Motion.votes hkpt) voter

variable {log : List (World Addr Sym × Event Addr Sym)}

theorem votes_cast (h : (system env).Logged guard w log) (id : Nat) (voter : Addr) :
    (log.filter fun entry => entry.2.votes = some (id, voter)).length =
      if (w.votes.get (id, voter)).isSome = true then 1 else 0 := by
  induction h with
  | start h0 =>
    obtain ⟨now, rfl⟩ := h0
    rfl
  | @step w w' e log hlog hg hs ih =>
    have hvt := step_vote hlog.reachable hs id voter
    rw [filter_append, length_append, ih]
    by_cases he : e.votes = some (id, voter)
    · rw [if_pos he] at hvt
      rw [hvt.1, hvt.2, filter_singleton, decide_eq_true he]
      rfl
    · rw [if_neg he] at hvt
      rw [hvt, filter_singleton, decide_eq_false he]
      rfl

/-! ## What the votes weigh -/

/-- The proposal `p` as it stands in `w` measures what there was in `c`, where it was created. -/
structure Fair (c w : World Addr Sym) (id : Nat) (p : Proposal Addr Sym) : Prop where
  /-- It was created then. -/
  since : p.createdAt = c.now ∧ c.now ≤ w.now
  /-- Its snapshot is the sum of the powers. -/
  snapshot : p.totalPowerSnapshot = c.electorate ∧ c.electorate ≤ i128Max
  /-- The powers were in order. -/
  roll : Roll c
  /-- A history still says what the power was, or nothing. -/
  reads : ∀ agent, powerAt w agent p.createdAt = c.power agent ∨ powerAt w agent p.createdAt = 0
  /-- A vote weighs what the voter weighed. -/
  weights : ∀ voter record, w.votes.get (id, voter) = some record → record.weight = c.power voter
  /-- No tally is negative. -/
  counted : p.Counted
  /-- The tallies add up to the powers of those who have voted. -/
  tally : p.castPower =
    c.agents.total fun voter info => if (w.votes.get (id, voter)).isSome = true then info.power else 0

variable {c : World Addr Sym} {p : Proposal Addr Sym}

theorem Fair.castPower_le {id : Nat} (h : Fair c w id p) : p.castPower ≤ p.totalPowerSnapshot := by
  rw [h.tally, h.snapshot.1]
  exact total_mono fun voter info hin => by
    split
    · exact le_rfl
    · exact (h.roll.positive voter info hin).le

theorem Fair.transfer {id : Nat} {p p' : Proposal Addr Sym} (h : Fair c w id p)
    (hp : p' = { p with status := p'.status }) (hnow : w.now ≤ w'.now)
    (hrds : ∀ agent, powerAt w' agent p.createdAt = powerAt w agent p.createdAt ∨ powerAt w' agent p.createdAt = 0)
    (hvts : ∀ voter, w'.votes.get (id, voter) = w.votes.get (id, voter)) : Fair c w' id p' := by
  rw [hp]
  refine ⟨⟨h.since.1, h.since.2.trans hnow⟩, h.snapshot, h.roll, ?_, ?_, h.counted.withStatus _, ?_⟩
  · intro agent
    rcases hrds agent with hsm | hno
    · rw [hsm]
      exact h.reads agent
    · exact .inr hno
  · intro voter record hrec
    rw [hvts] at hrec
    exact h.weights voter record hrec
  · simp only [hvts]
    exact h.tally

theorem Fair.reweighed {id : Nat} (h : Fair c w id p) (hp : w.proposals.get id = some p)
    (hcur : CurrentHistories w) (hst : Steady w e) (he : e.reweighs = some (agent, power))
    (hre : Reweighed agent power w w') : Fair c w' id p := by
  refine h.transfer rfl (by rw [hre.rest]) ?_ fun voter => by rw [hre.rest]
  intro other
  by_cases hoth : other = agent
  · subst hoth
    have hsin : p.createdAt ≤ w.now := h.since.1 ▸ h.since.2
    rcases hsin.lt_or_eq with hear | hnow
    · exact hre.powerAt_before hear
    · -- the change is recorded at the snapshot point itself
      rw [hre.powerAt_from hnow.ge, hcur other _ hnow.ge]
      by_cases hz : power = 0
      · exact .inr hz
      · by_cases hsm : power = w.power other
        · exact .inl hsm
        · exact absurd hnow (hst.settled other power he hz hsm id p hp)
  · exact .inl (hre.powerAt_other hoth)

omit [DecidableEq Addr] in
theorem Proposal.castPower_tally (h : p.Counted) {weight : Int} (hw : 0 < weight)
    (hle : p.castPower + weight ≤ i128Max) (choice : VoteChoice) :
    (p.tally choice weight).castPower = p.castPower + weight := by
  have hfor := h.forPower
  have hag := h.againstPower
  have hab := h.abstainPower
  unfold Proposal.castPower i128Max at hle
  cases choice with
  | for_ =>
    show satAdd128 p.forPower weight + p.againstPower + p.abstainPower = _
    unfold satAdd128 Proposal.castPower i128Max i128Min
    omega
  | against =>
    show p.forPower + satAdd128 p.againstPower weight + p.abstainPower = _
    unfold satAdd128 Proposal.castPower i128Max i128Min
    omega
  | abstain =>
    show p.forPower + p.againstPower + satAdd128 p.abstainPower weight = _
    unfold satAdd128 Proposal.castPower i128Max i128Min
    omega

theorem Fair.voted {id : Nat} {voter : Addr} {choice : VoteChoice} (h : Fair c w id p)
    (hfst : w.votes.get (id, voter) = none) (hpos : 0 < powerAt w voter p.createdAt) (hnow : w.now ≤ w'.now)
    (hch : w'.checkpoints = w.checkpoints)
    (hvts : ∀ other, w'.votes.get (id, other) = if other = voter then some ⟨id, voter, choice, powerAt w voter p.createdAt⟩ else w.votes.get (id, other)) :
    Fair c w' id (p.tally choice (powerAt w voter p.createdAt)) := by
  -- what the history says is not nothing, so it is what the power was
  have hwe : powerAt w voter p.createdAt = c.power voter := by
    rcases h.reads voter with hrd | hno
    · exact hrd
    · omega
  rw [hwe] at hpos hvts ⊢
  obtain ⟨info, hin⟩ : ∃ info, c.agents.get voter = some info := by
    cases hin : c.agents.get voter with
    | none =>
      rw [power_of_none hin] at hpos
      omega
    | some info => exact ⟨info, rfl⟩
  have hpow := power_of_some hin
  have hsum : p.castPower + c.power voter = c.agents.total fun other info =>
      if (w'.votes.get (id, other)).isSome = true then info.power else 0 := by
    have hmv := total_reweigh hin
      (f := fun other info => if (w.votes.get (id, other)).isSome = true then info.power else 0)
      (g := fun other info => if (w'.votes.get (id, other)).isSome = true then info.power else 0) ?_
    · rw [← h.tally] at hmv
      rw [hfst, hvts voter, if_pos rfl] at hmv
      rw [hpow]
      simpa using hmv.symm
    · intro other info hoth
      rw [hvts other, if_neg hoth]
  have hle : p.castPower + c.power voter ≤ i128Max := by
    refine le_trans ?_ h.snapshot.2
    rw [hsum]
    refine total_mono ?_
    intro other info hin
    split
    · exact le_rfl
    · exact (h.roll.positive other info hin).le
  have htrm := Proposal.tally_terms p choice (c.power voter)
  have hcrt : (p.tally choice (c.power voter)).createdAt = p.createdAt := by rw [htrm]
  refine ⟨?_, ?_, h.roll, ?_, ?_, h.counted.tally hpos, ?_⟩
  · rw [hcrt]
    exact ⟨h.since.1, h.since.2.trans hnow⟩
  · rw [htrm]
    exact h.snapshot
  · intro agent
    rw [hcrt, powerAt_congr (congrArg (get · agent) hch)]
    exact h.reads agent
  · intro other record hrec
    rw [hvts other] at hrec
    split at hrec
    · rename_i hoth
      subst hoth
      cases hrec
      rfl
    · exact h.weights other record hrec
  · rw [Proposal.castPower_tally h.counted hpos hle, hsum]

/-! ## Runs -/

omit [DecidableEq Addr] in
theorem Event.reweighs_of_actsOn {id : Nat} (h : e.actsOn w = some id) :
    e.reweighs = none := by
  unfold Event.actsOn at h
  split at h
  · rfl
  · rfl
  · rfl
  · rfl
  · rfl
  · cases h

def FairlyCreated (env : Env Addr Sym) (log : List (World Addr Sym × Event Addr Sym))
    (w : World Addr Sym) (id : Nat) (p : Proposal Addr Sym) : Prop :=
  ∃ c, CreatedIn env log p c ∧ Fair c w id p

theorem fair_change {id : Nat} {p' : Proposal Addr Sym} (hr : (system env).Reachable guard w)
    (hs : (system env).step w e = some w') (hclk : ClockMonotone w e) (hex : w.totalPower = w.electorate)
    (hcur : CurrentHistories w) (hfa : ∀ p, w.proposals.get id = some p → FairlyCreated env log w id p)
    (hac : e.actsOn w = some id) (hchg : Motion.Change env w id e (w.motion id) (w'.motion id))
    (hp' : w'.proposals.get id = some p') : FairlyCreated env (log ++ [(w, e)]) w' id p' := by
  have hnow := step_now hr hs hclk
  have hsm : SameElectorate w w' := by
    rcases step_electorate hr (roll_reachable hr) hs with ⟨_, hsm⟩ | ⟨_, _, hso, _⟩
    · exact hsm
    · rw [Event.reweighs_of_actsOn hac] at hso
      cases hso
  have hrds : ∀ agent time, powerAt w' agent time = powerAt w agent time := fun agent time =>
    powerAt_congr (congrArg (get · agent) hsm.checkpoints)
  generalize hM : w.motion id = M at hchg
  generalize hM' : w'.motion id = M' at hchg
  have hpr : ∀ p, M.proposal = some p → FairlyCreated env log w id p := by
    intro p hp
    rw [← hM] at hp
    exact hfa p hp
  have hvts : ∀ voter, w.votes.get (id, voter) = M.votes voter := by
    intro voter
    rw [← hM]
    rfl
  have hvts' : ∀ voter, w'.votes.get (id, voter) = M'.votes voter := by
    intro voter
    rw [← hM']
    rfl
  have hp'' : M'.proposal = some p' := by
    rw [← hM']
    exact hp'
  -- four of the six changes are one of the status only
  have hst : ∀ p, M.proposal = some p → p' = { p with status := p'.status } →
      M'.votes = M.votes → FairlyCreated env (log ++ [(w, e)]) w' id p' := by
    intro p hp htrm hkpt
    obtain ⟨c, hc, hfa⟩ := hpr p hp
    refine ⟨c, hc.mono (by rw [htrm]), hfa.transfer htrm hnow (fun agent => ?_) ?_⟩
    · exact .inl (hrds agent _)
    · intro voter
      rw [hvts, hvts', hkpt]
  cases hchg with
  | @opened call proposer t title description secs payload period target hid htgt hpos =>
    cases hp''
    -- nobody has voted on a new proposal: what was cast is zero on both sides
    have hro := roll_reachable hr
    refine ⟨w, ⟨call, proposer, t, title, description, secs, payload, period, target,
      mem_append_right _ (mem_singleton_self _), htgt, hpos, rfl⟩,
      ⟨rfl, hnow⟩, ⟨hex, hex ▸ hro.total.2⟩, hro, ?_, ?_, ⟨le_rfl, le_rfl, le_rfl⟩, ?_⟩
    · intro agent
      rw [hrds]
      exact .inl (hcur agent _ le_rfl)
    · intro voter record hrec
      rw [hvts'] at hrec
      cases hrec
    · have hno : (w.agents.total fun voter info =>
          if (w'.votes.get (id, voter)).isSome = true then info.power else 0) =
          w.agents.total fun _ _ => (0 : Int) := by
        refine total_congr ?_
        intro voter info _
        rw [hvts']
        rfl
      rw [hno]
      simp [total, Proposal.castPower, Proposal.opened]
  | @voted call voter choice M p hp hact hfst hpos =>
    cases hp''
    obtain ⟨c, hc, hfa⟩ := hpr p hp
    refine ⟨c, hc.mono (by rw [Proposal.tally_terms]), hfa.voted ?_ hpos hnow
      hsm.checkpoints ?_⟩
    · rw [hvts]
      exact hfst
    · intro other
      rw [hvts', hvts]
      exact update_apply _ _ _ _
  | @passed call M p hp hact hedd hqrm hma | @rejected call M p hp hact
  | @executed call M p q status hp hs hq hdue hcl =>
    cases hp''
    exact hst p hp rfl rfl
  | cancelled =>
    obtain ⟨p, hp, rfl⟩ := map_eq_some_iff.mp hp''
    exact hst p hp rfl rfl

theorem fair_logged (h : (system env).Logged Steady w log) :
    w.totalPower = w.electorate ∧ CurrentHistories w ∧
      ∀ id p, w.proposals.get id = some p → FairlyCreated env log w id p := by
  induction h with
  | start h0 =>
    obtain ⟨now, rfl⟩ := h0
    refine ⟨rfl, fun agent time _ => rfl, ?_⟩
    intro id p hp
    cases hp
  | @step w w' e log hlog hg hs ih =>
    obtain ⟨hex, hcur, hfa⟩ := ih
    have hr := hlog.reachable
    refine ⟨(exact_step_iff hr hg hs hex).mpr hg.fits, currentHistories_step hr hs hg.clock hcur, ?_⟩
    intro id p' hp'
    rcases step_motion hr (numbered_reachable hr) hs id with ⟨hac, hchg⟩ | ⟨_, hkpt⟩
    · exact fair_change hr hs hg.clock hex hcur (hfa id) hac hchg hp'
    · have hp : w.proposals.get id = some p' := (congrArg Motion.proposal hkpt).symm.trans hp'
      obtain ⟨c, hc, hme⟩ := hfa id p' hp
      refine ⟨c, hc.mono rfl, ?_⟩
      rcases step_electorate hr (roll_reachable hr) hs with ⟨_, hsm⟩ | ⟨_, _, hso, hre⟩
      · refine hme.transfer rfl (step_now hr hs hg.clock) (fun agent => .inl ?_) ?_
        · exact powerAt_congr (congrArg (get · agent) hsm.checkpoints)
        · exact congrFun (congrArg Motion.votes hkpt)
      · exact hme.reweighed hp hcur hg hso hre

/--
**The votes are bounded by the snapshot.** In every run in which the totals fit and no power changes in a
timestamp after a proposal was created in it: for every proposal, each agent has voted at most once,
every vote weighs what the voter weighed in the state that created the proposal, and all votes together
weigh at most the snapshot.
-/
theorem votes_within_snapshot {log : List (World Addr Sym × Event Addr Sym)}
    (h : (system env).Logged Steady w log) {id : Nat} {p : Proposal Addr Sym}
    (hp : w.proposals.get id = some p) :
    (∀ voter, (log.filter fun entry => entry.2.votes = some (id, voter)).length ≤ 1) ∧
      (∃ c, CreatedIn env log p c ∧
        (∀ voter record, w.votes.get (id, voter) = some record → record.weight = c.power voter) ∧
        p.forPower + p.againstPower + p.abstainPower = c.agents.total fun voter info =>
          if (w.votes.get (id, voter)).isSome = true then info.power else 0) ∧
      p.forPower + p.againstPower + p.abstainPower ≤ p.totalPowerSnapshot := by
  obtain ⟨_, _, hfa⟩ := fair_logged h
  obtain ⟨c, hc, hme⟩ := hfa id p hp
  refine ⟨?_, ⟨c, hc, hme.weights, hme.tally⟩, hme.castPower_le⟩
  intro voter
  rw [votes_cast h]
  split
  · exact le_rfl
  · exact Nat.zero_le _

end Run

/-! ## Runs to compare with -/

theorem steady_iff {e : Event Addr Sym} : Steady w e ↔ ClockMonotone w e ∧
    ∀ x ∈ e.reweighs, w.totalPower - w.power x.1 + x.2 ≤ i128Max ∧
      (x.2 ≠ 0 → x.2 ≠ w.power x.1 → ∀ entry ∈ w.proposals.entries, entry.2.createdAt ≠ w.now) := by
  constructor
  · intro h
    refine ⟨h.clock, ?_⟩
    intro x hx
    refine ⟨h.fits x.1 x.2 hx, ?_⟩
    intro hz hsm entry hent
    exact h.settled x.1 x.2 hx hz hsm entry.1 entry.2 (mem_entries.mp hent)
  · intro h
    refine ⟨h.1, ?_, ?_⟩
    · intro agent power he
      exact (h.2 (agent, power) he).1
    · intro agent power he hz hsm id p hp
      exact (h.2 (agent, power) he).2 hz hsm ⟨id, p⟩ (mem_entries.mpr hp)

instance (w : World Addr Sym) (e : Event Addr Sym) : Decidable (Steady w e) :=
  decidable_of_iff _ steady_iff.symm

namespace Sample

/-- Agent `4` declares more stake after the proposal of agent `3`, a while later; then both vote. -/
def voted : List (Event Nat Nat) :=
  installed ++
    [ enrol 3 10, enrol 4 20, propose 3, .close 10, signed 4 (.updateAgent 4 0 1000),
      vote 1 4 .for_, vote 1 3 .against ]

theorem exists_voted : ∃ w, (system deployment).Logged Steady w
    ((system deployment).record voted (World.init 0)) ∧ ∃ p, w.proposals.get 1 = some p := by
  have hpl : ((system deployment).play Steady voted (World.init 0)).any (fun w =>
      (w.proposals.get 1).isSome) = true := by
    decide
  obtain ⟨w, hw, hend⟩ := (Option.any_eq_true _ _).mp hpl
  exact ⟨w, logged_of_play (start_init _ 0) hw, isSome_iff_exists.mp hend⟩

end Sample

/-- Two votes, one of an agent that has grown since: both weigh what they did at the creation. -/
theorem votes_within_snapshot_voted :
    ∃ (w : World Nat Nat) (log : List (World Nat Nat × Event Nat Nat)) (p : Proposal Nat Nat),
      w.proposals.get 1 = some p ∧
        (∀ voter, (log.filter fun entry => entry.2.votes = some (1, voter)).length ≤ 1) ∧
          (∃ c, CreatedIn Sample.deployment log p c ∧
            (∀ voter record, w.votes.get (1, voter) = some record → record.weight = c.power voter) ∧
            p.forPower + p.againstPower + p.abstainPower = c.agents.total fun voter info =>
              if (w.votes.get (1, voter)).isSome = true then info.power else 0) ∧
          p.forPower + p.againstPower + p.abstainPower ≤ p.totalPowerSnapshot := by
  obtain ⟨w, hlog, p, hp⟩ := Sample.exists_voted
  exact ⟨w, _, p, hp, votes_within_snapshot hlog hp⟩

/-- An agent proposes, raises its stake in the same timestamp, and votes with a hundred times the snapshot. -/
theorem inflated_vote : ∃ w : World Nat Nat, (system Sample.deployment).Reachable ClockMonotone w ∧
    ∃ p, w.proposals.get 1 = some p ∧
      p.totalPowerSnapshot < p.forPower + p.againstPower + p.abstainPower := by
  have hpl : ((system Sample.deployment).play ClockMonotone (Sample.installed ++
      [ Sample.enrol 3 10, Sample.propose 3, Sample.signed 3 (.updateAgent 3 0 1000),
        Sample.vote 1 3 .for_ ]) (World.init 0)).any (fun w => (w.proposals.get 1).any fun p =>
          decide (p.totalPowerSnapshot < p.forPower + p.againstPower + p.abstainPower)) = true := by
    decide
  obtain ⟨w, hr, hend⟩ := exists_reachable_of_play (start_init _ 0) hpl
  obtain ⟨p, hp, hmo⟩ := (Option.any_eq_true _ _).mp hend
  exact ⟨w, hr, p, hp, of_decide_eq_true hmo⟩

end AiNet.AgentGovernance
