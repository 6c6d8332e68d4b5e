import AiNet.Agents.Watchdog
import AiNet.Core.Register
import AiNet.Sync.Mirrored

/-!
# Who may be dispatched to

One column says whether an agent is dispatched to, and many write it: the registry sync, operators,
heartbeats, registrations, the watchdog and the health checks. `agentsFor` asks the agent registry, an
interface that the application is given, and keeps the agents that are online in its answer.

`frozen` and `disabled` are not stored anywhere in the program. They record which freezes were processed
and which agents an operator disabled, until the matching unfreeze or enable.
-/

namespace AiNet.Agents.Dispatch

open Core AiNet.Sync Function

structure AgentRegistration where
  id : Text
  type : Text
  endpoint : Text
  cost : Rat
  status : Status
  reputation : Option Rat
deriving DecidableEq

/-- `AgentRegistry`, over the agents table. -/
structure AgentRegistry where
  getAgents : AgentDb → Option Text → List AgentRegistration
  registerAgent : Option (AgentDb → AgentRegistration → AgentDb)
  markOffline : Option (AgentDb → Text → AgentDb)
  markOnline : Option (AgentDb → Text → AgentDb)

/-- What a dispatch looks at. -/
def standing (row : AgentRow) : List Text × Status := (row.capabilities, row.status)

/-- What the names of the calls say. -/
structure AgentRegistry.Lawful (reg : AgentRegistry) : Prop where
  /-- An agent is listed with the status of its row. -/
  lists : ∀ db type, ∀ agent ∈ reg.getAgents db type,
    ∃ row, db.find agent.id = some row ∧ row.status = agent.status
  /-- All agents of a type are listed. -/
  listed : ∀ db type row, row ∈ db.rows → type ∈ row.capabilities →
    ∃ agent ∈ reg.getAgents db (some type), agent.id = row.id
  registerAgent : ∀ f ∈ reg.registerAgent, ∀ db agent,
    (∃ row, (f db agent).find agent.id = some row ∧ row.status = agent.status ∧
      agent.type ∈ row.capabilities) ∧
      ∀ id, agent.id ≠ id → ((f db agent).find id).map standing = (db.find id).map standing
  markOffline : ∀ f ∈ reg.markOffline, ∀ db agentId id, ((f db agentId).find id).map standing =
    if agentId = id then (db.find id).map fun row => (row.capabilities, .offline)
    else (db.find id).map standing
  markOnline : ∀ f ∈ reg.markOnline, ∀ db agentId id, ((f db agentId).find id).map standing =
    if agentId = id then (db.find id).map fun row => (row.capabilities, .online)
    else (db.find id).map standing

/-! ## The coordinator -/

/-- The cheapest first; the sort is stable. -/
def sortByCost (agents : List AgentRegistration) : List AgentRegistration :=
  agents.insertionSort fun a b => a.cost ≤ b.cost

/-- `agentsFor`, with what the registry has answered. -/
def agentsFor (agentType : Text) (found : List AgentRegistration) : Except Text (List AgentRegistration) :=
  let agents := (sortByCost found).filter fun agent => decide (agent.status = .online)
  if agents = [] then .error ("No agent registered for type: ".toList ++ agentType) else .ok agents

/-! ## The operator, and the health checks -/

def setAgentEnabled (now : Nat) (db : AgentDb) (agentId : Text) (enabled : Bool) : AgentDb :=
  amend db agentId fun agent =>
    { agent with status := if enabled then .online else .offline, lastSeenAt := now }

section Monitor

variable (reg : AgentRegistry) (failureThreshold : Nat)

/-- An agent whose copy is offline answers again. -/
def recover (db : AgentDb) (agent : AgentRegistration) : AgentDb :=
  match reg.markOnline with
  | some markOnline => markOnline db agent.id
  | none =>
    match reg.registerAgent with
    | some registerAgent => registerAgent db { agent with status := .online }
    | none => db

/-- An agent has failed too often in a row. -/
def fail (db : AgentDb) (agent : AgentRegistration) : AgentDb :=
  match reg.markOffline with
  | some markOffline => markOffline db agent.id
  | none =>
    match reg.registerAgent with
    | some registerAgent => registerAgent db { agent with status := .offline }
    | none => db

/-- What a check makes of its ping. The agent is the copy that the round began with. -/
def checkAgentHealth (db : AgentDb) (failureCounts : Text → Nat) (agent : AgentRegistration)
    (isHealthy : Bool) : AgentDb × (Text → Nat) :=
  if isHealthy then
    (if agent.status = .offline then recover reg db agent else db, update failureCounts agent.id 0)
  else
    let newFailures := failureCounts agent.id + 1
    (if failureThreshold ≤ newFailures ∧ agent.status ≠ .offline then fail reg db agent else db,
      update failureCounts agent.id newFailures)

end Monitor

/-! ## Runs -/

/-- How the process is configured. -/
structure Options where
  watchdog : WatchdogOptions
  failureThreshold : Nat
  toXLM : Int → Rat

structure State where
  /-- The clock, the agents, and the ticks of the watchdog. -/
  dog : Watchdog.State
  /-- The rounds of health checks, with the agents they have still to check. -/
  rounds : List (List AgentRegistration)
  failureCounts : Text → Nat
  /-- The calls of `agentsFor` that await the registry, with what it has found for them. -/
  lookups : Register (Text × List AgentRegistration)
  frozen : Text → Bool
  disabled : Text → Bool

inductive Event
  | watchdog (e : Watchdog.Event)
  /-- A poll of the registry sync gets to an event. -/
  | synced (e : RegistryEvent)
  | setAgentEnabled (agentId : Text) (enabled : Bool)
  | checkAllAgents
  /-- A ping of a round of health checks has ended. -/
  | pinged (i : Nat) (isHealthy : Bool)
  | lookup (agentType : Text)
  /-- The registry's answer arrives, and `agentsFor` returns. -/
  | answered (k : Nat)

/-- The freezes that were processed, after an event. -/
def Event.frozen (frozen : Text → Bool) : Event → Text → Bool
  | .synced (.freeze agentId) => update frozen agentId true
  | .synced (.unfreeze agentId) => update frozen agentId false
  | _ => frozen

def Event.disabled (s : State) : Event → Text → Bool
  | .setAgentEnabled agentId enabled =>
    if (s.dog.db.find agentId).isSome then update s.disabled agentId !enabled else s.disabled
  | _ => s.disabled

variable (reg : AgentRegistry) (o : Options)

def State.act (s : State) : Event → Option State
  | .watchdog e => (Watchdog.State.step o.watchdog s.dog e).map fun dog => { s with dog := dog }
  | .synced e =>
    some { s with dog := { s.dog with db := handleEvent o.toXLM s.dog.clock s.dog.db e } }
  | .setAgentEnabled agentId enabled =>
    some { s with
      dog := { s.dog with db := Dispatch.setAgentEnabled s.dog.clock s.dog.db agentId enabled } }
  | .checkAllAgents => some { s with rounds := s.rounds ++ [reg.getAgents s.dog.db none] }
  | .pinged i isHealthy =>
    match s.rounds[i]? with
    | some (agent :: rest) =>
      let (db, failureCounts) :=
        checkAgentHealth reg o.failureThreshold s.dog.db s.failureCounts agent isHealthy
      some { s with
        dog := { s.dog with db := db }
        rounds := s.rounds.set i rest
        failureCounts := failureCounts }
    | some [] => none
    | none => none
  | .lookup agentType =>
    some { s with lookups := s.lookups.add (agentType, reg.getAgents s.dog.db (some agentType)) }
  | .answered k =>
    (s.lookups.get k).map fun _ =>
      { s with lookups := s.lookups.drop fun k' _ => decide (k' = k) }

def State.step (s : State) (e : Event) : Option State :=
  (s.act reg o e).map fun s' =>
    { s' with frozen := e.frozen s.frozen, disabled := e.disabled s }

/-- Everything that writes the column, in any order, from an empty table. -/
def system : System State Event where
  start s := (Watchdog.watchdog o.watchdog).start s.dog ∧ s.rounds = [] ∧ s.lookups = .empty ∧
    s.frozen = (fun _ => false) ∧ s.disabled = fun _ => false
  step := State.step reg o

/-- A registration has passed its schema, which asks for a capability. -/
def Schema (_ : State) : Event → Prop
  | .watchdog (.register data) => data.capabilities ≠ []
  | _ => True

/-! ## What is asked of it -/

/-- Frozen on the chain, or disabled by an operator. -/
def State.withheld (s : State) (a : Text) : Bool := s.frozen a || s.disabled a

/-- `agentsFor` returns an agent, for this type and this answer of the registry. -/
def Returns (agentType : Text) (found : List AgentRegistration) (a : Text) : Prop :=
  ∃ agents, agentsFor agentType found = .ok agents ∧ ∃ agent ∈ agents, agent.id = a

/-- No call of `agentsFor` returns an agent that is withheld: none that is under way, none that begins. -/
def Withheld (s : State) : Prop :=
  ∀ a, s.withheld a = true → (∀ agentType, ¬Returns agentType (reg.getAgents s.dog.db (some agentType)) a) ∧
      ∀ k agentType found, s.lookups.get k = some (agentType, found) → ¬Returns agentType found a

end AiNet.Agents.Dispatch
