import AiNet.Agents.AgentDb
import Mathlib.Data.List.Induction

/-!
# Registry events

What `registry/sync.ts` makes of one event of the registry contract. Registrations write a whole row,
freezes, unfreezes and price updates change a row that is there, and deregistrations delete it. How an
amount in stroops becomes a price in XLM is a parameter: the division is one of floating-point numbers.
-/

namespace AiNet.Sync

open Core AiNet.Agents List Option

/-- A decoded event. Those that are logged only, and those of unknown actions, are one. -/
inductive RegistryEvent
  | agentReg (agentId owner capability : Text) (priceStroops : Int)
  | agentDrg (agentId : Text)
  | freeze (agentId : Text)
  | unfreeze (agentId : Text)
  | priceUpd (agentId : Text) (priceStroops : Int)
  | other
deriving DecidableEq

/-- The record of a registration; the endpoint is not in the event. -/
def registered (pricingXLM : Rat) (now : Nat) (agentId owner capability : Text) : AgentRecord where
  id := agentId
  capabilities := [capability]
  pricingXLM := pricingXLM
  endpoint := []
  stellarPublicKey := owner
  reputationScore := 0
  lastSeenAt := now
  status := .online
  bondAmountXLM := none
  tasksCompleted := none
  tasksFailed := none
  lastActiveAt := none

/-- Process a single decoded contract event. -/
def handleEvent (toXLM : Int → Rat) (now : Nat) (db : AgentDb) : RegistryEvent → AgentDb
  | .agentReg agentId owner capability priceStroops =>
    upsert db (registered (toXLM priceStroops) now agentId owner capability)
  | .agentDrg agentId => delete db agentId
  | .freeze agentId => amend db agentId fun existing => { existing with status := .offline }
  | .unfreeze agentId =>
    amend db agentId fun existing => { existing with status := .online, lastSeenAt := now }
  | .priceUpd agentId priceStroops =>
    amend db agentId fun existing => { existing with pricingXLM := toXLM priceStroops }
  | .other => db

/-!
## What a row mirrors

Of an agent, a row mirrors the price, the owner, and whether it is frozen: then it is offline. On these an
event overwrites the whole, or some parts of it, with values that do not depend on what was there. So a
sequence of events that is processed again has no further effect (`effects_again`), and where it holds no
registration and no unfreeze, which note the time, it leaves even the rows as they are.
-/

structure Mirrored where
  pricingXLM : Rat
  owner : Text
  frozen : Bool
deriving DecidableEq

def mirrored (row : AgentRow) : Mirrored :=
  ⟨row.pricingXLM, row.stellarPublicKey, decide (row.status = .offline)⟩

/-! ## Effects -/

/-- What an event, or a sequence of them, does to an agent. -/
inductive Effect
  | reset (v : Option Mirrored)
  | patch (pricingXLM : Option Rat) (frozen : Option Bool)

def Effect.apply : Effect → Option Mirrored → Option Mirrored
  | .reset v, _ => v
  | .patch pricingXLM frozen, v => v.map fun m =>
    { m with pricingXLM := pricingXLM.getD m.pricingXLM, frozen := frozen.getD m.frozen }

/-- One after the other: what comes last is what is left. -/
def Effect.andThen : Effect → Effect → Effect
  | _, .reset v => .reset v
  | .reset v, .patch pricingXLM frozen => .reset ((Effect.patch pricingXLM frozen).apply v)
  | .patch pricingXLM frozen, .patch pricingXLM' frozen' =>
    .patch (pricingXLM'.or pricingXLM) (frozen'.or frozen)

theorem Effect.apply_andThen (e e' : Effect) (v : Option Mirrored) :
    (e.andThen e').apply v = e'.apply (e.apply v) := by
  cases e' with
  | reset => rfl
  | patch p' f' =>
    cases e with
    | reset => rfl
    | patch =>
      cases v with
      | none => rfl
      | some => cases p' <;> cases f' <;> rfl

theorem Effect.apply_again (e : Effect) (v : Option Mirrored) : e.apply (e.apply v) = e.apply v := by
  cases e with
  | reset => rfl
  | patch p f =>
    cases v with
    | none => rfl
    | some => cases p <;> cases f <;> rfl

def RegistryEvent.effect (toXLM : Int → Rat) (id : Text) : RegistryEvent → Effect
  | .agentReg agentId owner _ priceStroops =>
    if agentId = id then .reset (some ⟨toXLM priceStroops, owner, false⟩) else .patch none none
  | .agentDrg agentId => if agentId = id then .reset none else .patch none none
  | .freeze agentId => .patch none (if agentId = id then some true else none)
  | .unfreeze agentId => .patch none (if agentId = id then some false else none)
  | .priceUpd agentId priceStroops =>
    .patch (if agentId = id then some (toXLM priceStroops) else none) none
  | .other => .patch none none

def effects (toXLM : Int → Rat) (id : Text) (es : List RegistryEvent) (v : Option Mirrored) :
    Option Mirrored :=
  es.foldl (fun v e => (e.effect toXLM id).apply v) v

variable {toXLM : Int → Rat} {id : Text}

theorem effects_append (es es' : List RegistryEvent) (v : Option Mirrored) :
    effects toXLM id (es ++ es') v = effects toXLM id es' (effects toXLM id es v) := foldl_append

theorem Effect.apply_nothing (v : Option Mirrored) : (Effect.patch none none).apply v = v := by
  cases v with
  | none | some => rfl

theorem exists_effect (es : List RegistryEvent) :
    ∃ e : Effect, ∀ v, effects toXLM id es v = e.apply v := by
  induction es using List.reverseRecOn with
  | nil => exact ⟨.patch none none, fun v => (Effect.apply_nothing v).symm⟩
  | append_singleton es e ih =>
    obtain ⟨e₀, he₀⟩ := ih
    refine ⟨e₀.andThen (e.effect toXLM id), fun v => ?_⟩
    rw [effects_append, he₀, Effect.apply_andThen]
    rfl

/-- **What is processed again has no further effect.** -/
theorem effects_again (es : List RegistryEvent) (v : Option Mirrored) :
    effects toXLM id es (effects toXLM id es v) = effects toXLM id es v := by
  have hes : ∃ e : Effect, ∀ v, effects toXLM id es v = e.apply v := exists_effect es
  obtain ⟨e, he⟩ := hes
  rw [he, he, Effect.apply_again]

/-- **A slice that begins in what was processed, and reaches as far, goes on from there.** -/
theorem effects_slice (es : List RegistryEvent) {a b c : Nat} (hab : a ≤ b) (hbc : b ≤ c)
    (v : Option Mirrored) : effects toXLM id ((es.drop a).take (c - a)) (effects toXLM id (es.take b) v) =
      effects toXLM id (es.take c) v := by
  obtain ⟨m, rfl⟩ := Nat.exists_eq_add_of_le hab
  obtain ⟨n, rfl⟩ := Nat.exists_eq_add_of_le hbc
  have hsli : (es.drop a).take (a + m + n - a) = (es.drop a).take m ++ ((es.drop a).drop m).take n := by
    rw [← take_add]
    exact congrArg (fun k => (es.drop a).take k) (by omega)
  have hta : es.take (a + m + n) = es.take (a + m) ++ ((es.drop a).drop m).take n := by
    rw [take_add, drop_drop]
  -- the part that was processed has no further effect
  rw [hsli, hta, effects_append, effects_append, take_add, effects_append, effects_again]

/-! ## Rows -/

/-- The loop of a poll. -/
def handleEvents (toXLM : Int → Rat) (now : Nat) (db : AgentDb) (es : List RegistryEvent) : AgentDb :=
  es.foldl (handleEvent toXLM now) db

variable {now : Nat} {db : AgentDb}

theorem mirrored_amend {agentId : Text} {f : AgentRecord → AgentRecord}
    (hf : ∀ agent, (f agent).id = agent.id) (p : Option Rat) (b : Option Bool)
    (h : ∀ row, mirrored ((f row.toRecord).onto row) =
      { mirrored row with
        pricingXLM := p.getD (mirrored row).pricingXLM
        frozen := b.getD (mirrored row).frozen }) :
    ((amend db agentId f).find id).map mirrored =
      (if agentId = id then Effect.patch p b else .patch none none).apply ((db.find id).map mirrored) := by
  rw [find_amend hf]
  split
  · cases db.find id with
    | none => rfl
    | some row => exact congrArg some (h row)
  · rw [Effect.apply_nothing]

theorem mirrored_handleEvent (e : RegistryEvent) :
    ((handleEvent toXLM now db e).find id).map mirrored =
      (e.effect toXLM id).apply ((db.find id).map mirrored) := by
  cases e with
  | agentReg agentId owner capability =>
    rw [handleEvent, find_upsert, RegistryEvent.effect]
    by_cases hid : agentId = id
    · rw [if_pos (show (registered _ now agentId owner capability).id = id from hid), if_pos hid]
      cases db.find id with
      | none | some => rfl
    · rw [if_neg (show ¬(registered _ now agentId owner capability).id = id from hid), if_neg hid,
        Effect.apply_nothing]
  | agentDrg agentId =>
    rw [handleEvent, find_delete, RegistryEvent.effect]
    by_cases hid : agentId = id
    · rw [if_pos hid, if_pos hid]
      rfl
    · rw [if_neg hid, if_neg hid, Effect.apply_nothing]
  | freeze =>
    rw [handleEvent, RegistryEvent.effect]
    refine Eq.trans (mirrored_amend ?_ none (some true) ?_) ?_
    · exact fun _ => rfl
    · exact fun _ => rfl
    · split
      · rfl
      · rfl
  | unfreeze =>
    rw [handleEvent, RegistryEvent.effect]
    refine Eq.trans (mirrored_amend ?_ none (some false) ?_) ?_
    · exact fun _ => rfl
    · exact fun _ => rfl
    · split
      · rfl
      · rfl
  | priceUpd agentId price =>
    rw [handleEvent, RegistryEvent.effect]
    refine Eq.trans (mirrored_amend ?_ (some (toXLM price)) none ?_) ?_
    · exact fun _ => rfl
    · exact fun _ => rfl
    · split
      · rfl
      · rfl
  | other =>
    rw [handleEvent, RegistryEvent.effect, Effect.apply_nothing]

theorem mirrored_handleEvents (es : List RegistryEvent) :
    ((handleEvents toXLM now db es).find id).map mirrored =
      effects toXLM id es ((db.find id).map mirrored) := by
  induction es generalizing db with
  | nil => rfl
  | cons e es ih =>
    show ((handleEvents toXLM now (handleEvent toXLM now db e) es).find id).map mirrored = _
    rw [ih, mirrored_handleEvent]
    rfl

/-! ## Events that do not note the time -/

/-- Registrations and unfreezes write when the agent was last seen. -/
def RegistryEvent.quiet : RegistryEvent → Bool
  | .agentReg _ _ _ _ | .unfreeze _ => false
  | .agentDrg _ | .freeze _ | .priceUpd _ _ | .other => true

def place (v : Option Mirrored) (row : AgentRow) : Option AgentRow :=
  v.map fun m => { row with
    pricingXLM := m.pricingXLM
    status := if m.frozen then .offline else .online }

theorem place_mirrored (row : AgentRow) : place (some (mirrored row)) row = some row := by
  obtain ⟨_, _, _, _, _, _, _, status, _, _, _, _, _⟩ := row
  cases status with
  | online | offline => rfl

theorem place_place {row : AgentRow} {m : Mirrored} (h : m.owner = row.stellarPublicKey) :
    ∃ row₁, place (some m) row = some row₁ ∧ mirrored row₁ = m ∧ ∀ v, place v row₁ = place v row := by
  refine ⟨_, rfl, ?_, fun v => rfl⟩
  obtain ⟨price, owner, frozen⟩ := m
  dsimp only at h
  rw [mirrored, Mirrored.mk.injEq]
  refine ⟨rfl, h.symm, ?_⟩
  cases frozen with
  | true | false => rfl

variable {e : RegistryEvent} {es : List RegistryEvent}

theorem effect_quiet_none (h : e.quiet = true) : (e.effect toXLM id).apply none = none := by
  cases e with
  | agentReg | unfreeze => cases h
  | agentDrg =>
    rw [RegistryEvent.effect]
    split
    · rfl
    · rfl
  | freeze | priceUpd | other => rfl

theorem effects_quiet_none (h : ∀ e ∈ es, e.quiet = true) : effects toXLM id es none = none := by
  induction es with
  | nil => rfl
  | cons e es ih =>
    show effects toXLM id es ((e.effect toXLM id).apply none) = none
    rw [effect_quiet_none (h e (mem_cons_self ..))]
    exact ih fun e' he' => h e' (mem_cons_of_mem _ he')

theorem effect_quiet_owner (h : e.quiet = true) {m m' : Mirrored}
    (hm : (e.effect toXLM id).apply (some m) = some m') : m'.owner = m.owner := by
  cases e with
  | agentReg | unfreeze => cases h
  | agentDrg =>
    rw [RegistryEvent.effect] at hm
    split at hm
    · cases hm
    · rw [← some.inj hm]
  | freeze | priceUpd | other => rw [← some.inj hm]

theorem find_handleEvent_quiet (h : e.quiet = true) : (handleEvent toXLM now db e).find id =
    (db.find id).bind fun row => place ((e.effect toXLM id).apply (some (mirrored row))) row := by
  have hsm : (db.find id).bind (fun row => place (some (mirrored row)) row) = db.find id := by
    cases db.find id with
    | none => rfl
    | some row => exact place_mirrored row
  cases e with
  | agentReg | unfreeze => cases h
  | agentDrg =>
    rw [handleEvent, find_delete, RegistryEvent.effect]
    split
    · cases db.find id with
      | none | some => rfl
    · exact hsm.symm
  | freeze =>
    rw [handleEvent, RegistryEvent.effect]
    refine (find_amend ?_ id).trans ?_
    · exact fun _ => rfl
    · split
      · cases db.find id with
        | none | some => rfl
      · exact hsm.symm
  | priceUpd agentId price =>
    rw [handleEvent, RegistryEvent.effect]
    refine (find_amend ?_ id).trans ?_
    · exact fun _ => rfl
    · split
      · cases db.find id with
        | none => rfl
        | some row => exact (place_mirrored { row with pricingXLM := toXLM price }).symm
      · exact hsm.symm
  | other => exact hsm.symm

theorem find_handleEvents_quiet (h : ∀ e ∈ es, e.quiet = true) :
    (handleEvents toXLM now db es).find id =
      (db.find id).bind fun row => place (effects toXLM id es (some (mirrored row))) row := by
  induction es generalizing db with
  | nil =>
    cases hfi : db.find id with
    | none => exact hfi
    | some row => exact hfi.trans (place_mirrored row).symm
  | cons e es ih =>
    have hrst : ∀ e ∈ es, e.quiet = true := fun e' he' => h e' (mem_cons_of_mem _ he')
    have hfst := h e (mem_cons_self ..)
    show (handleEvents toXLM now (handleEvent toXLM now db e) es).find id = _
    rw [ih hrst, find_handleEvent_quiet hfst]
    cases db.find id with
    | none => rfl
    | some row =>
      show (place ((e.effect toXLM id).apply (some (mirrored row))) row).bind _ =
        place (effects toXLM id es ((e.effect toXLM id).apply (some (mirrored row)))) row
      cases hv : (e.effect toXLM id).apply (some (mirrored row)) with
      | none =>
        rw [effects_quiet_none hrst]
        rfl
      | some =>
        obtain ⟨row₁, hrow₁, hmi, hpla⟩ := place_place (effect_quiet_owner hfst hv)
        rw [hrow₁, bind_some, hmi, hpla]

/-- **Quiet events leave the rows as they are where they have no effect on what the rows mirror.** -/
theorem handleEvents_unchanged (h : ∀ e ∈ es, e.quiet = true)
    (hsm : effects toXLM id es ((db.find id).map mirrored) = (db.find id).map mirrored) :
    (handleEvents toXLM now db es).find id = db.find id := by
  rw [find_handleEvents_quiet h]
  cases hfi : db.find id with
  | none => rfl
  | some row =>
    rw [hfi] at hsm
    show place (effects toXLM id es (some (mirrored row))) row = some row
    rw [show effects toXLM id es (some (mirrored row)) = some (mirrored row) from hsm]
    exact place_mirrored row

end AiNet.Sync
