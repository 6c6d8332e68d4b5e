import AiNet.AgentGovernance.Steps

/-!
# The electorate and its total power

Registering, updating and removing an agent are one kind of step: an agent's power goes
from what it was to something else, the change is recorded in the agent's history, and
`TotalPower` moves by the difference. `Reweighed` says so once for all three. Every
other call leaves the agents, their histories and the total alone.

The difference is added with saturation and the result kept non-negative. What the
stored total becomes is therefore the exact one cut off at the ends of its range, and it
is the exact one precisely when that fits.
-/

namespace AiNet.AgentGovernance

open Core Option Storage

variable {Addr Sym : Type} [DecidableEq Addr] {env : Env Addr Sym}
  {w w' : World Addr Sym}

/-- The power of an agent, none if it is not registered. -/
def World.power (w : World Addr Sym) (agent : Addr) : Int :=
  (w.agents.get agent).elim 0 AgentInfo.power

/-- The sum of the powers of the registered agents. -/
def World.electorate (w : World Addr Sym) : Int :=
  w.agents.total fun _ info => info.power

/-- An `i128` that is not negative. -/
def clamp (x : Int) : Int := max 0 (min i128Max x)

theorem clamp_eq_iff {x : Int} (h : 0 ≤ x) : clamp x = x ↔ x ≤ i128Max := by
  unfold clamp i128Max
  omega

/-- One agent's power goes to `power`, and with it the total. -/
structure Reweighed (agent : Addr) (power : Int) (w w' : World Addr Sym) : Prop where
  /-- The other agents are as they were. -/
  others : ∀ other, other ≠ agent → w'.agents.get other = w.agents.get other
  /-- This one has the new power. -/
  after : w'.power agent = power
  /-- What is stored for it is in order. -/
  stored : ∀ info, w'.agents.get agent = some info →
    info.power = votingPower info.stake info.reputation ∧ 0 < info.power
  /-- The exact sum moves by the difference. -/
  electorate : w'.electorate = w.electorate - w.power agent + power
  /-- The change is recorded. -/
  checkpoints : w'.checkpoints = (writeCheckpoint w agent power).checkpoints
  /-- The stored total moves by the difference, as far as it can. -/
  totalPower : w'.totalPower = clamp (w.totalPower - w.power agent + power)
  /-- Nothing else changes. -/
  rest : w' = { w with
    agents := w'.agents
    checkpoints := w'.checkpoints
    totalPower := w'.totalPower }

/-! ## What is always true of the electorate -/

/-- The register of agents is in order. -/
structure Roll (w : World Addr Sym) : Prop where
  /-- The cached power is the voting power of the stake and the reputation. -/
  cached : ∀ agent info, w.agents.get agent = some info →
    info.power = votingPower info.stake info.reputation
  /-- Nobody is registered without power. -/
  positive : ∀ agent info, w.agents.get agent = some info → 0 < info.power
  /-- The stored total is an `i128` that is not negative. -/
  total : 0 ≤ w.totalPower ∧ w.totalPower ≤ i128Max

variable {agent : Addr}

theorem power_of_some {info : AgentInfo Addr} (h : w.agents.get agent = some info) : w.power agent = info.power := by
  unfold World.power
  rw [h, elim_some]

theorem power_of_none (h : w.agents.get agent = none) : w.power agent = 0 := by
  unfold World.power
  rw [h, elim_none]

/-! ## The three steps that change a power -/

variable {call : Call Addr Sym}

theorem registerAgent_reweighed {reputation : Nat} {stake : Int} (hro : Roll w)
    (h : registerAgent env call agent reputation stake w = .ok w') :
    Reweighed agent (votingPower stake reputation) w w' := by
  obtain ⟨_, _, hnew, hpos, rfl⟩ := registerAgent_ok h
  have hbf := power_of_none hnew
  exact
    { others := fun other hoth => get_set_ne _ _ hoth
      after := by
        unfold World.power writeCheckpoint
        rw [get_set_self, elim_some]
      stored := by
        intro info hin
        cases (get_set_self w.agents agent _).symm.trans hin
        exact ⟨rfl, hpos⟩
      electorate := by
        rw [hbf, sub_zero]
        exact total_set_of_none hnew _ _
      checkpoints := rfl
      totalPower := by
        rw [hbf]
        show satAdd128 w.totalPower (votingPower stake reputation) = _
        have htot := hro.total
        unfold i128Max at htot
        unfold satAdd128 clamp i128Min i128Max
        omega
      rest := rfl }

theorem updateAgent_reweighed {reputation : Nat} {stake : Int}
    (h : updateAgent env call agent reputation stake w = .ok w') :
    Reweighed agent (votingPower stake reputation) w w' := by
  obtain ⟨info, _, hin, hpos, rfl⟩ := updateAgent_ok h
  have hbf := power_of_some hin
  exact
    { others := fun other hoth => get_set_ne _ _ hoth
      after := by
        unfold World.power writeCheckpoint
        rw [get_set_self, elim_some]
      stored := by
        intro info' hin'
        cases (get_set_self w.agents agent _).symm.trans hin'
        exact ⟨rfl, hpos⟩
      electorate := by
        rw [hbf]
        have htot := total_set_of_some hin { info with
          reputation := reputation, stake := stake, power := votingPower stake reputation }
          fun _ info => info.power
        unfold World.electorate writeCheckpoint
        dsimp only at htot ⊢
        omega
      checkpoints := rfl
      totalPower := by
        rw [hbf]
        show max (satAdd128 w.totalPower (votingPower stake reputation - info.power)) 0 = _
        unfold satAdd128 clamp i128Min i128Max
        omega
      rest := rfl }

theorem removeAgent_reweighed (h : removeAgent env call agent w = .ok w') :
    Reweighed agent 0 w w' := by
  obtain ⟨info, _, hin, rfl⟩ := removeAgent_ok h
  have hbf := power_of_some hin
  exact
    { others := fun other hoth => get_remove_ne _ hoth
      after := by
        refine power_of_none ?_
        exact get_remove_self _ _
      stored := by
        intro info' hin'
        cases (get_remove_self w.agents agent).symm.trans hin'
      electorate := by
        rw [hbf]
        have htot := total_remove w.agents agent fun _ info => info.power
        rw [hin, elim_some] at htot
        unfold World.electorate writeCheckpoint
        dsimp only
        omega
      checkpoints := rfl
      totalPower := by
        rw [hbf]
        show max (satSub128 w.totalPower info.power) 0 = _
        unfold satSub128 clamp i128Min i128Max
        omega
      rest := rfl }

theorem Reweighed.roll {power : Int} (h : Reweighed agent power w w') (hro : Roll w) : Roll w' := by
  have hent : ∀ other info, w'.agents.get other = some info →
      info.power = votingPower info.stake info.reputation ∧ 0 < info.power := by
    intro other info hin
    by_cases hoth : other = agent
    · subst hoth
      exact h.stored info hin
    · rw [h.others other hoth] at hin
      exact ⟨hro.cached other info hin, hro.positive other info hin⟩
  refine ⟨fun other info hin => (hent other info hin).1, fun other info hin => (hent other info hin).2, ?_⟩
  rw [h.totalPower]
  unfold clamp i128Max
  omega

/-! ## Any step -/

/-- What an accepted event did: at most one of the things the contract is about. -/
inductive Stepped (env : Env Addr Sym) (w w' : World Addr Sym) :
    Event Addr Sym → Prop
  /-- Time passed, or configuration was written. -/
  | quiet {e} (hreweighs : e.reweighs = none) (hacts : e.actsOn w = none)
      (hrest : w' = { w with
        now := w'.now
        admin := w'.admin
        paused := w'.paused
        paramRegistry := w'.paramRegistry
        agentRegistry := w'.agentRegistry })
      (hnow : e = .close w'.now ∨ w'.now = w.now) : Stepped env w w' e
  /-- An agent's power changed. -/
  | reweighed {e agent power} (hreweighs : e.reweighs = some (agent, power))
      (hacts : e.actsOn w = none) (h : Reweighed agent power w w') : Stepped env w w' e
  | created {call proposer t title description secs payload}
      (h : createProposal env call proposer t title description secs payload w = .ok w') :
      Stepped env w w' (.invoke call (.createProposal proposer t title description secs payload))
  | voted {call id voter choice} (h : voteOnProposal env call id voter choice w = .ok w') :
      Stepped env w w' (.invoke call (.voteOnProposal id voter choice))
  | queued {call id} (h : queueProposal id w = .ok w') :
      Stepped env w w' (.invoke call (.queueProposal id))
  | executed {call id} (h : executeProposal env call id w = .ok w') :
      Stepped env w w' (.invoke call (.executeProposal id))
  | cancelled {call id} (h : cancelProposal env call id w = .ok w') :
      Stepped env w w' (.invoke call (.cancelProposal id))

section Run

variable {guard : World Addr Sym → Event Addr Sym → Prop}

variable {e : Event Addr Sym}

theorem step_cases (hr : (system env).Reachable guard w) (hro : Roll w)
    (hs : (system env).step w e = some w') : Stepped env w w' e := by
  cases e with
  | close =>
    rw [step_close] at hs
    subst hs
    exact .quiet rfl rfl rfl (.inl rfl)
  | invoke call op =>
    rw [step_invoke] at hs
    cases op with
    | initializeContract =>
      rw [initializeContract_reachable hr hs]
      exact .quiet rfl rfl rfl (.inr rfl)
    | setAdmin | pause | unpause | setParamRegistry | setAgentRegistry =>
      rw [(administration_ok rfl hs).2.2]
      exact .quiet rfl rfl rfl (.inr rfl)
    | registerAgent =>
      exact .reweighed rfl rfl (registerAgent_reweighed hro hs)
    | updateAgent => exact .reweighed rfl rfl (updateAgent_reweighed hs)
    | removeAgent => exact .reweighed rfl rfl (removeAgent_reweighed hs)
    | createProposal => exact .created hs
    | voteOnProposal => exact .voted hs
    | queueProposal => exact .queued hs
    | executeProposal => exact .executed hs
    | cancelProposal => exact .cancelled hs

/-- What is kept by an event that changes no power. -/
structure SameElectorate (w w' : World Addr Sym) : Prop where
  agents : w'.agents = w.agents
  checkpoints : w'.checkpoints = w.checkpoints
  totalPower : w'.totalPower = w.totalPower

theorem step_electorate (hr : (system env).Reachable guard w) (hro : Roll w)
    (hs : (system env).step w e = some w') :
    (e.reweighs = none ∧ SameElectorate w w') ∨
      ∃ agent power, e.reweighs = some (agent, power) ∧ Reweighed agent power w w' := by
  rcases step_cases hr hro hs with ⟨hno, _, hrst, _⟩ | ⟨hso, _, hre⟩ |
    ⟨hok⟩ | ⟨hok⟩ | ⟨hok⟩ | ⟨hok⟩ | ⟨hok⟩
  · rw [hrst]
    exact .inl ⟨hno, rfl, rfl, rfl⟩
  · exact .inr ⟨_, _, hso, hre⟩
  · obtain ⟨_, _, _, _, _, rfl⟩ := createProposal_ok hok
    exact .inl ⟨rfl, rfl, rfl, rfl⟩
  · obtain ⟨_, _, _, _, _, _, _, rfl⟩ := voteOnProposal_ok hok
    exact .inl ⟨rfl, rfl, rfl, rfl⟩
  · obtain ⟨_, _, _, _, _, hok⟩ := queueProposal_ok hok
    rcases hok with ⟨_, _, rfl⟩ | rfl
    · exact .inl ⟨rfl, rfl, rfl, rfl⟩
    · exact .inl ⟨rfl, rfl, rfl, rfl⟩
  · obtain ⟨_, _, _, _, _, _, _, _, _, _, rfl⟩ := executeProposal_ok hok
    exact .inl ⟨rfl, rfl, rfl, rfl⟩
  · obtain ⟨_, _, rfl⟩ := cancelProposal_ok hok
    exact .inl ⟨rfl, rfl, rfl, rfl⟩

theorem roll_reachable (h : (system env).Reachable guard w) : Roll w := by
  refine System.Reachable.invariant ?_ ?_ h
  · intro w h0
    obtain ⟨now, rfl⟩ := h0
    refine ⟨?_, ?_, ?_⟩
    · intro agent info hin
      cases hin
    · intro agent info hin
      cases hin
    · show (0 : Int) ≤ 0 ∧ 0 ≤ i128Max
      unfold i128Max
      omega
  · intro w e w' hr _ hro hs
    rcases step_electorate hr hro hs with ⟨_, hsm⟩ | ⟨agent, power, _, hre⟩
    · refine ⟨?_, ?_, ?_⟩
      · rw [hsm.agents]
        exact hro.cached
      · rw [hsm.agents]
        exact hro.positive
      · rw [hsm.totalPower]
        exact hro.total
    · exact hre.roll hro

/-! ## When the total is exact -/

/-- The stored total is the sum of the voting powers, none of which is negative. -/
structure ExactElectorate (w : World Addr Sym) : Prop where
  /-- `TotalPower` is the exact sum. -/
  total : w.totalPower = w.agents.total fun _ info => votingPower info.stake info.reputation
  /-- No agent's power is negative. -/
  nonneg : ∀ agent info, w.agents.get agent = some info → 0 ≤ votingPower info.stake info.reputation
  /-- It is positive as soon as some agent's power is. -/
  positive : ∀ agent info, w.agents.get agent = some info →
    0 < votingPower info.stake info.reputation → 0 < w.totalPower

/-- An `i128` holds the exact total that an event would bring about. -/
def Fits (w : World Addr Sym) (e : Event Addr Sym) : Prop :=
  ∀ agent power, e.reweighs = some (agent, power) → w.totalPower - w.power agent + power ≤ i128Max

theorem Roll.electorate_eq (h : Roll w) :
    (w.agents.total fun _ info => votingPower info.stake info.reputation) = w.electorate :=
  total_congr fun agent info hin => (h.cached agent info hin).symm

theorem Roll.exactElectorate_iff (h : Roll w) :
    ExactElectorate w ↔ w.totalPower = w.electorate := by
  constructor
  · intro hex
    rw [hex.total, h.electorate_eq]
  · intro htot
    refine ⟨htot.trans h.electorate_eq.symm, ?_, ?_⟩
    · intro agent info hin
      rw [← h.cached agent info hin]
      exact (h.positive agent info hin).le
    · intro agent info hin _
      have hle : info.power ≤ w.electorate :=
        entry_le_total (fun _ info => info.power)
          (fun agent info hin => (h.positive agent info hin).le) hin
      have hpos := h.positive agent info hin
      omega

theorem Roll.electorate_nonneg (h : Roll w) : 0 ≤ w.electorate :=
  total_nonneg fun agent info hin => (h.positive agent info hin).le

theorem exact_step_iff (hr : (system env).Reachable guard w) (hg : guard w e)
    (hs : (system env).step w e = some w') (hex : w.totalPower = w.electorate) :
    w'.totalPower = w'.electorate ↔ Fits w e := by
  have hro := roll_reachable hr
  rcases step_electorate hr hro hs with ⟨hno, hsm⟩ | ⟨agent, power, hso, hre⟩
  · have hkpt : w'.totalPower = w'.electorate := by
      unfold World.electorate
      rw [hsm.totalPower, hsm.agents]
      exact hex
    refine iff_of_true hkpt ?_
    intro agent power hso
    rw [hno] at hso
    cases hso
  · have hnn := (roll_reachable (hr.tail hg hs)).electorate_nonneg
    rw [hre.electorate, ← hex] at hnn
    rw [hre.totalPower, hre.electorate, ← hex, clamp_eq_iff hnn]
    constructor
    · intro hft agent' power' hso'
      obtain ⟨rfl, rfl⟩ := Prod.mk.inj (some.inj (hso.symm.trans hso'))
      exact hft
    · intro hft
      exact hft agent power hso

/--
**When `TotalPower` is the exact sum.** It is, in every state a run passes, with no negative power and a
positive total whenever somebody has power, if and only if every total the run's registrations,
updates and removals bring about fits into an `i128`.
-/
theorem exact_electorate_iff {log : List (World Addr Sym × Event Addr Sym)}
    (h : (system env).Logged guard w log) :
    (∀ s ∈ log.map Prod.fst ++ [w], ExactElectorate s) ↔ ∀ entry ∈ log, Fits entry.1 entry.2 := by
  refine h.forall_passed_iff ?_ ?_
  · intro s h0
    have hr : (system env).Reachable guard s := .init h0
    rw [(roll_reachable hr).exactElectorate_iff]
    obtain ⟨now, rfl⟩ := h0
    rfl
  · intro s e s' hr hg hs hex
    rw [(roll_reachable hr).exactElectorate_iff] at hex
    rw [(roll_reachable (hr.tail hg hs)).exactElectorate_iff]
    exact exact_step_iff hr hg hs hex

end Run

namespace Sample

/-- Agents `3` and `4` each declare all the stake an `i128` can hold; then `3` leaves. -/
def evaporated : List (Event Nat Nat) :=
  installed ++ [enrol 3 i128Max, enrol 4 i128Max, signed 3 (.removeAgent 3)]

theorem exists_evaporated : ∃ w, (system deployment).Logged ClockMonotone w
      ((system deployment).record evaporated (World.init 0)) ∧
    w.totalPower = 0 ∧ ∃ info, w.agents.get 4 = some info ∧ 0 < votingPower info.stake info.reputation := by
  have hpl : ((system deployment).play ClockMonotone evaporated (World.init 0)).any (fun w =>
      w.totalPower = 0 && (w.agents.get 4).any fun info =>
        decide (0 < votingPower info.stake info.reputation)) = true := by
    decide
  obtain ⟨w, hw, hend⟩ := (Option.any_eq_true _ _).mp hpl
  rw [Bool.and_eq_true] at hend
  obtain ⟨info, hin, hpos⟩ := (Option.any_eq_true _ _).mp hend.2
  exact ⟨w, System.logged_of_play (start_init _ 0) hw, of_decide_eq_true hend.1, info, hin,
    of_decide_eq_true hpos⟩

end Sample

/-- The run that ends with a vanished total: it was exact throughout if and only if all totals fit. -/
theorem exact_electorate_iff_evaporated :
    ∃ (w : World Nat Nat) (log : List (World Nat Nat × Event Nat Nat)),
      (system Sample.deployment).Logged ClockMonotone w log ∧
        ((∀ s ∈ log.map Prod.fst ++ [w], ExactElectorate s) ↔ ∀ entry ∈ log, Fits entry.1 entry.2) := by
  obtain ⟨w, hlog, -⟩ := Sample.exists_evaporated
  exact ⟨w, _, hlog, exact_electorate_iff hlog⟩

/-- Two agents beyond the range of the total: when one leaves, nothing is left for the other. -/
theorem evaporated_total : ∃ w : World Nat Nat, (system Sample.deployment).Reachable ClockMonotone w ∧
    ¬ ExactElectorate w := by
  obtain ⟨w, hlog, htot, info, hin, hpos⟩ := Sample.exists_evaporated
  refine ⟨w, hlog.reachable, ?_⟩
  intro h
  have := h.positive 4 info hin hpos
  omega

end AiNet.AgentGovernance
