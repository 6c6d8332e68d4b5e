import AiNet.AgentRegistry.DiscoveryCache
import AiNet.Sync.Mirrored
import AiNet.Core.Cut
import AiNet.Core.Register
import Mathlib.Data.Fintype.Pi

/-!
# The events of the registry contract

Which of the events that the sync handles a call of the contract publishes. What is registered, at which
price, by whom, and what is frozen, changes by these events only, and as their effects say
(`chainView_exec`).
-/

namespace AiNet.Sync

open Core AiNet.Agents AiNet.AgentRegistry List Storage

section

/-- The `agent_reg` event of a record. -/
def agentRegistered (record : AgentRegistry.AgentRecord Text Text) : RegistryEvent :=
  .agentReg record.id record.owner record.capability record.priceStroops

variable (env : AgentRegistry.Env Text Text) (signed : Text → Bool)

instance (results : List (BatchResult Text)) : Decidable (Committed results) :=
  decidable_of_iff (results ≠ [] ∧ ∀ x ∈ results, (match x with | .ok _ => true | .err _ => false) = true) (by
    unfold Committed
    refine and_congr_right fun _ => forall₂_congr fun x _ => ?_
    cases x with
    | ok id => exact iff_of_true rfl ⟨id, rfl⟩
    | err => exact iff_of_false Bool.false_ne_true fun ⟨_, h⟩ => by cases h)

def published (w : World Text Text) : Op Text Text → List RegistryEvent
  | .registration (.registerAgent record) => [agentRegistered record]
  | .registration (.registerAgents agents) =>
    match registerAgents env signed agents w with
    | .ok (results, _) => if Committed results then agents.map agentRegistered else []
    | .error _ => []
  -- a second call completes the return of the bond
  | .registration (.deregisterAgent agentId) =>
    if (w.bondCooldown.get agentId).isSome then [] else [.agentDrg agentId]
  | .registration (.updatePricing agentId newPrice) => [.priceUpd agentId newPrice]
  | .control (.freezeAgent agentId) => [.freeze agentId]
  | .control (.unfreezeAgent agentId) => [.unfreeze agentId]
  | _ => []

def chainView (toXLM : Int → Rat) (w : World Text Text) (id : Text) : Option Mirrored :=
  (w.agents.get id).map fun record => ⟨toXLM record.priceStroops, record.owner, isAgentFrozen w id⟩

variable {env signed} {toXLM : Int → Rat} {w w' : World Text Text} {id : Text}

theorem exec_sequence {op : Op Text Text} (h : exec env signed op w = .ok w') :
    w'.sequence = w.sequence := by
  cases op with
  | registration => rw [execRegistration_frame h]
  | control => rw [execControl_frame h]
  | multisig => rw [(execMultisig_moves h).2.frame]
  | bond => rw [(execBond_moves h).2.frame]
  | metrics => rw [(execMetrics_moves h).2.frame]
  | reputation => rw [execReputation_frame h]
  | registerAgentVersion => rw [registerAgentVersion_frame h]
  | discoverAgents => rw [execDiscover_frame h]

/-! ## The effect of a call -/

theorem chainView_congr (hfac : SameFaces w.agents w'.agents) (hfrz : w'.frozen = w.frozen) :
    chainView toXLM w' id = chainView toXLM w id := by
  have hfa := hfac id
  have hrd : ∀ w : World Text Text, chainView toXLM w id =
      ((w.agents.get id).map AgentRegistry.AgentRecord.face).map fun record =>
        ⟨toXLM record.priceStroops, record.owner, isAgentFrozen w id⟩ := by
    intro w
    rw [Option.map_map]
    rfl
  rw [hrd, hrd, hfa, isAgentFrozen, hfrz]
  rfl

theorem chainView_enrol (record : AgentRegistry.AgentRecord Text Text)
    (hfrz : isAgentFrozen w record.id = false) : chainView toXLM (enrol w record) id =
      ((agentRegistered record).effect toXLM id).apply (chainView toXLM w id) := by
  have hags : (enrol w record).agents = w.agents.set record.id record := rfl
  have hsm : isAgentFrozen (enrol w record) id = isAgentFrozen w id := rfl
  rw [chainView, hags, hsm, agentRegistered, RegistryEvent.effect, get_set]
  by_cases hid : id = record.id
  · rw [if_pos hid, if_pos hid.symm, hid, hfrz]
    rfl
  · rw [if_neg hid, if_neg fun heq => hid heq.symm, Effect.apply_nothing]
    rfl

theorem chainView_enrolAll {agents : List (AgentRegistry.AgentRecord Text Text)}
    (hfrz : ∀ record ∈ agents, isAgentFrozen w record.id = false) :
    chainView toXLM (enrolAll w agents) id =
      effects toXLM id (agents.map agentRegistered) (chainView toXLM w id) := by
  induction agents generalizing w with
  | nil => rfl
  | cons record agents ih =>
    have hrst : ∀ record' ∈ agents, isAgentFrozen (enrol w record) record'.id = false :=
      fun record' h => hfrz record' (mem_cons_of_mem _ h)
    show chainView toXLM (enrolAll (enrol w record) agents) id = _
    rw [ih hrst, chainView_enrol record (hfrz record (mem_cons_self ..))]
    rfl

theorem unfrozen_of_acceptable {before agents : List (AgentRegistry.AgentRecord Text Text)}
    (h : AllAcceptable w before agents) : ∀ record ∈ agents, isAgentFrozen w record.id = false := by
  induction agents generalizing before with
  | nil => exact fun _ h => absurd h not_mem_nil
  | cons record agents ih => exact forall_mem_cons.mpr ⟨h.1.unfrozen, ih h.2⟩

theorem chainView_registration {op : RegistrationOp Text Text}
    (h : execRegistration env signed op w = .ok w') : chainView toXLM w' id =
      effects toXLM id (published env signed w (.registration op)) (chainView toXLM w id) := by
  cases op with
  | registerAgent record =>
    obtain ⟨hai, rfl⟩ := registerAgent_eq_ok.mp h
    exact chainView_enrol record hai.acceptable.1.unfrozen
  | registerAgents agents =>
    obtain ⟨results, hok⟩ := bind_snd_eq_ok.mp h
    rw [published, hok]
    dsimp only
    by_cases hpsd : w.paused = true
    · unfold registerAgents at hok
      rw [if_pos hpsd] at hok
      obtain ⟨rfl, rfl⟩ := Prod.mk.inj (pure_eq_ok.mp hok)
      rw [if_neg]
      · rfl
      · intro hco
        cases agents with
        | nil => exact hco.1 rfl
        | cons =>
          obtain ⟨_, hx⟩ := hco.2 _ (mem_cons_self ..)
          cases hx
    · rcases registerAgents_ok (Bool.eq_false_iff.mpr hpsd) hok with
        ⟨hco, _, hbat, hsm⟩ | ⟨hnot, _, rfl⟩
      · rw [if_pos hco, ← chainView_enrolAll (unfrozen_of_acceptable hbat.acceptable)]
        have hrst := hsm.rest
        refine chainView_congr ?_ ?_
        · rw [hrst]
          exact .refl _
        · rw [hrst]
      · rw [if_neg hnot]
        rfl
  | deregisterAgent agentId =>
    rw [published]
    rcases (deregisterAgent_ok h).2 with ⟨hcd, hcmp⟩ | ⟨record, hno, hrec, hlf⟩
    · rw [if_pos hcd]
      refine chainView_congr ?_ ?_
      · rw [hcmp]
        exact .refl _
      · rw [hcmp]
    · rw [if_neg (by rw [hno]; exact Bool.false_ne_true), effects, foldl_cons, foldl_nil,
        RegistryEvent.effect]
      have hags : w'.agents = w.agents.remove agentId := by
        rw [hlf]
        rfl
      have hsm : isAgentFrozen w' id = isAgentFrozen w id := by
        rw [hlf]
        rfl
      rw [chainView, hags, hsm, get_remove]
      by_cases hid : id = agentId
      · rw [if_pos hid, if_pos hid.symm]
        rfl
      · rw [if_neg hid, if_neg fun heq => hid heq.symm, Effect.apply_nothing]
        rfl
  | updatePricing agentId =>
    obtain ⟨-, record, hrec, -, rfl⟩ := updatePricing_ok h
    rw [published, effects, foldl_cons, foldl_nil, RegistryEvent.effect, chainView, get_set]
    by_cases hid : id = agentId
    · rw [if_pos hid, if_pos hid.symm, chainView, hid, hrec]
      rfl
    · rw [if_neg hid, if_neg fun heq => hid heq.symm, Effect.apply_nothing]
      rfl

theorem chainView_freeze (agentId : Text) (b : Bool) :
    chainView toXLM { w with frozen := w.frozen.set agentId b } id =
      (Effect.patch none (if agentId = id then some b else none)).apply (chainView toXLM w id) := by
  unfold chainView isAgentFrozen
  rw [get_set]
  by_cases hid : id = agentId
  · rw [if_pos hid, if_pos hid.symm]
    cases w.agents.get id with
    | none | some => rfl
  · rw [if_neg hid, if_neg fun heq => hid heq.symm, Effect.apply_nothing]

/-- **What a call publishes is what it does.** -/
theorem chainView_exec {op : Op Text Text} (h : exec env signed op w = .ok w') :
    chainView toXLM w' id = effects toXLM id (published env signed w op) (chainView toXLM w id) := by
  cases op with
  | registration => exact chainView_registration h
  | control op =>
    obtain rfl := execControl_ok h
    cases op with
    | freezeAgent agentId => exact chainView_freeze agentId true
    | unfreezeAgent agentId => exact chainView_freeze agentId false
    | _ => rfl
  | multisig =>
    have hadm := (execMultisig_moves h).2
    exact chainView_congr hadm.faces hadm.frozen
  | bond =>
    have hbds := (execBond_moves h).2
    have hfrm := hbds.frame
    refine chainView_congr hbds.faces ?_
    rw [hfrm]
  | metrics =>
    have hme := (execMetrics_moves h).2
    have hfrm := hme.frame
    refine chainView_congr hme.faces ?_
    rw [hfrm]
  | reputation =>
    have hfrm := execReputation_frame h
    refine chainView_congr ?_ ?_
    · rw [hfrm]
      exact .refl _
    · rw [hfrm]
  | registerAgentVersion =>
    have hfrm := registerAgentVersion_frame h
    refine chainView_congr ?_ ?_
    · rw [hfrm]
      exact .refl _
    · rw [hfrm]
  | discoverAgents =>
    have hfrm := execDiscover_frame h
    refine chainView_congr ?_ ?_
    · rw [hfrm]
      exact .refl _
    · rw [hfrm]

def publishedBy (env : AgentRegistry.Env Text Text) (w : World Text Text) :
    AgentRegistry.Event Text Text → List RegistryEvent
  | .invoke signed op => published env signed w op
  | .close _ _ | .lapse _ => []

theorem chainView_step {e : AgentRegistry.Event Text Text}
    (hs : (AgentRegistry.system env).step w e = some w') :
    chainView toXLM w' id = effects toXLM id (publishedBy env w e) (chainView toXLM w id) := by
  cases e with
  | invoke => exact chainView_exec (step_invoke.mp hs)
  | close | lapse =>
    cases hs
    rfl

theorem sequence_le_of_step {e : AgentRegistry.Event Text Text} (hclk : ClockMonotone w e)
    (hs : (AgentRegistry.system env).step w e = some w') : w.sequence ≤ w'.sequence := by
  cases e with
  | invoke => exact Nat.le_of_eq (exec_sequence (step_invoke.mp hs)).symm
  | close =>
    cases hs
    exact hclk.2
  | lapse =>
    cases hs
    exact Nat.le_refl _

end

/-!
## The polls of the registry sync

A poll asks the node for its latest ledger and for the events since the last poll, and processes them; the
first one asks for the latest ledger once more, to begin a hundred ledgers behind it. It awaits the node up
to three times, and the timer starts the next poll whether or not it is done. The cursor is moved to the
latest ledger that was reported, before the events are processed, however many of them were returned.

The registry is the contract with its callers. The node lists the events of a contract by ledger, the first
ones up to the limit; a ledger that it reports is complete, and it may list events of later ones.
-/

/-- How many events are requested. -/
def eventLimit : Nat := 1000

abbrev LedgerEvent := Nat × RegistryEvent

/-- What the node returns: the events from a ledger on, up to the last ledger it knows, with their places. -/
def getEvents (history : List LedgerEvent) (startLedger tip : Nat) : List (LedgerEvent × Nat) :=
  (history.zipIdx.filter fun entry =>
    decide (startLedger ≤ entry.1.1) && decide (entry.1.1 ≤ tip)).take eventLimit

/-- What a poll awaits. -/
inductive Poll
  /-- The latest ledger, to begin behind it. -/
  | bootstrapping
  | latestLedger
  | events (startLedger latestNow : Nat)
deriving DecidableEq

structure State where
  chain : World Text Text
  /-- The events of the contract, the oldest first. -/
  history : List LedgerEvent
  clock : Nat
  db : AgentDb
  lastLedger : Nat
  polls : Register Poll
  /-- The places of the events that were processed, in this order. -/
  applied : List Nat

inductive Event
  | chain (e : AgentRegistry.Event Text Text)
  /-- The contract publishes events that the sync only logs, or does not know. -/
  | others (n : Nat)
  | pass (clock : Nat)
  | poll
  /-- The node answers with its latest ledger, or fails. -/
  | latest (k : Nat) (answer : Option Nat)
  /-- The node answers with events, up to a ledger, or fails. -/
  | events (k : Nat) (answer : Option Nat)

variable (env : AgentRegistry.Env Text Text) (toXLM : Int → Rat)

/-- A poll goes on, or is done. -/
def State.resume (s : State) (k : Nat) (next : Option Poll) : Register Poll :=
  s.polls.alter fun k' p => if k' = k then next else some p

def State.latest (s : State) (k sequence : Nat) : Option State :=
  match s.polls.get k with
  | some .bootstrapping =>
    let lastLedger := sequence - 100
    some { s with
      lastLedger := lastLedger
      polls := s.resume k (if lastLedger = 0 then none else some .latestLedger) }
  | some .latestLedger =>
    some { s with
      polls := s.resume k
        (if sequence ≤ s.lastLedger then none else some (.events s.lastLedger sequence)) }
  | some (.events _ _) => none
  | none => none

def State.events (s : State) (k tip : Nat) : Option State :=
  match s.polls.get k with
  | some (.events startLedger latestNow) =>
    if latestNow ≤ tip then
      let returned := getEvents s.history startLedger tip
      some { s with
        lastLedger := latestNow
        db := handleEvents toXLM s.clock s.db (returned.map fun entry => entry.1.2)
        polls := s.resume k none
        applied := s.applied ++ returned.map Prod.snd }
    else none
  | some .bootstrapping => none
  | some .latestLedger => none
  | none => none

def State.step (s : State) : Event → Option State
  | .chain e => ((AgentRegistry.system env).step s.chain e).map fun w =>
    { s with
      chain := w
      history := s.history ++
        (publishedBy env s.chain e).map fun event => (s.chain.sequence, event) }
  | .others n =>
    some { s with history := s.history ++ List.replicate n (s.chain.sequence, .other) }
  | .pass clock => if s.clock ≤ clock then some { s with clock := clock } else none
  | .poll =>
    some { s with
      polls := s.polls.add (if s.lastLedger = 0 then .bootstrapping else .latestLedger) }
  -- the node does not report a ledger that is to come
  | .latest k (some sequence) => if sequence ≤ s.chain.sequence then s.latest k sequence else none
  | .events k (some tip) => if tip ≤ s.chain.sequence then s.events toXLM k tip else none
  -- a poll whose call fails is done
  | .latest k none =>
    match s.polls.get k with
    | some .bootstrapping | some .latestLedger => some { s with polls := s.resume k none }
    | some (.events _ _) => none
    | none => none
  | .events k none =>
    match s.polls.get k with
    | some (.events _ _) => some { s with polls := s.resume k none }
    | some .bootstrapping | some .latestLedger => none
    | none => none

/-- The contract from its deployment on, and a backend with an empty table. -/
def system : System State Event where
  start s := (AgentRegistry.system env).start s.chain ∧ s.history = [] ∧ s.db = .empty _ ∧
    s.lastLedger = 0 ∧ s.polls = .empty ∧ s.applied = []
  step := State.step env toXLM

/-- Ledgers follow each other. -/
def Ordered (s : State) : Event → Prop
  | .chain e => ClockMonotone s.chain e
  | _ => True

/-! ## What is asked of it -/

/-- The rows agree with the registry on the agents, and on each agent's price, owner and frozen state. -/
def Agrees (s : State) : Prop := ∀ id, (s.db.find id).map mirrored = chainView toXLM s.chain id

/-- Each event is processed after those before it. -/
def InOrder (applied : List Nat) : Prop :=
  ∀ before j after, applied = before ++ j :: after → ∀ i < j, i ∈ before

/-- Every event below the cursor was processed, in order; where all were, the rows agree. -/
structure Follows (s : State) : Prop where
  inOrder : InOrder s.applied
  below : ∀ j event, s.history[j]? = some event → event.1 < s.lastLedger → j ∈ s.applied
  agrees : (∀ j < s.history.length, j ∈ s.applied) → Agrees toXLM s

def Event.succeeds (s : State) : Event → Option Nat
  | .latest k (some sequence) =>
    if s.polls.get k = some .latestLedger ∧ sequence ≤ s.lastLedger then some sequence else none
  | .events k (some _) => match s.polls.get k with
    | some (.events _ latestNow) => some latestNow
    | some .bootstrapping | some .latestLedger => none
    | none => none
  | _ => none

def Event.again (s : State) : Event → List RegistryEvent
  | .events k (some tip) => match s.polls.get k with
    | some (.events startLedger _) =>
      ((getEvents s.history startLedger tip).filter fun entry => decide (entry.2 ∈ s.applied)).map
        fun entry => entry.1.2
    | some .bootstrapping | some .latestLedger => []
    | none => []
  | _ => []

/--
A poll that succeeds when nothing new has happened since the ledger it was told brings agreement.
Processing events again changes nothing of what the rows mirror, and nothing at all where the events do not
note the time.
-/
structure Catches (s : State) (e : Event) : Prop where
  agrees : ∀ latest, e.succeeds s = some latest → (∀ event ∈ s.history, event.1 < latest) →
    ∀ s', (system env toXLM).step s e = some s' → Agrees toXLM s'
  mirrored : ∀ id, ((handleEvents toXLM s.clock s.db (e.again s)).find id).map mirrored =
    (s.db.find id).map mirrored
  rows : (∀ event ∈ e.again s, event.quiet = true) →
    ∀ id, (handleEvents toXLM s.clock s.db (e.again s)).find id = s.db.find id

/--
A first poll begins at or below the first event that was not processed. An answer holds, from its start on,
all events below the latest ledger that was reported, and all that were processed before.
-/
def Covers (s : State) : Event → Prop
  | .latest k (some sequence) => s.polls.get k = some .bootstrapping →
      ∀ entry ∈ s.history.zipIdx, entry.1.1 < sequence - 100 → entry.2 ∈ s.applied
  | .events k (some tip) => match s.polls.get k with
    | some (.events startLedger latestNow) => ∀ entry ∈ s.history.zipIdx, startLedger ≤ entry.1.1 →
        entry.1.1 < latestNow ∨ entry.2 ∈ s.applied → entry ∈ getEvents s.history startLedger tip
    | some .bootstrapping | some .latestLedger => True
    | none => True
  | _ => True

instance (s : State) (e : Event) : Decidable (Ordered s e) := by
  cases e with
  | chain e => exact inferInstanceAs (Decidable (ClockMonotone s.chain e))
  | _ => exact .isTrue trivial

instance (s : State) (e : Event) : Decidable (Covers s e) := by
  unfold Covers
  split
  · infer_instance
  · split
    · infer_instance
    · exact .isTrue trivial
    · exact .isTrue trivial
    · exact .isTrue trivial
  · exact .isTrue trivial

end AiNet.Sync
