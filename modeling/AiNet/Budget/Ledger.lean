import Mathlib.Algebra.Order.Group.Int
import AiNet.Core.Storage
import AiNet.Core.Register
import AiNet.Core.Transition
import Mathlib.Algebra.Ring.Int.Defs

/-!
# The token ledger of a task

One `TaskBudgetLedger` counts what the nodes of a task spend and holds back what calls in
flight may still spend. A node claims tokens with `reserve` before its call goes out;
`record` turns the claim into spent tokens, `release` gives it back.

The ledger is `Balanced`: what it holds back is the sum of the claims, and `used` and `calls`
are the sums over the nodes' entries. Costs in dollars, the labels of an entry and the
trimming of prompts play no part in this and are left out.
-/

namespace AiNet.Budget

open Core List Option Storage

/-- The limits of a task that the ledger enforces. -/
structure BudgetLimits where
  /-- Total tokens a single task may consume. -/
  maxTokensPerTask : Nat
  /-- Hard ceiling on a single call. -/
  maxTokensPerCall : Nat
  deriving DecidableEq

/-- What a provider reports for a call. -/
structure LlmUsage where
  promptTokens : Int
  completionTokens : Int
  totalTokens : Int
  deriving DecidableEq

/-- What one call is recorded with: the reported usage, and the estimates that stand in for it. -/
structure UsageParams where
  usage : Option LlmUsage
  /-- `estimateTokens` of the prompt. -/
  promptEstimate : Int
  /-- `estimateTokens` of the completion. -/
  completionEstimate : Int
  deriving DecidableEq

namespace UsageParams

variable (params : UsageParams)

def promptTokens : Int := (params.usage.map LlmUsage.promptTokens).getD params.promptEstimate

def completionTokens : Int :=
  (params.usage.map LlmUsage.completionTokens).getD params.completionEstimate

def totalTokens : Int :=
  (params.usage.map LlmUsage.totalTokens).getD (params.promptTokens + params.completionTokens)

end UsageParams

/-- The rollup of a node. -/
structure AgentUsageEntry where
  calls : Nat
  promptTokens : Int
  completionTokens : Int
  totalTokens : Int
  budgetExhausted : Bool
  deriving DecidableEq

namespace AgentUsageEntry

/-- The entry of a node nothing was recorded for. -/
def blank : AgentUsageEntry := ⟨0, 0, 0, 0, false⟩

def add (entry : AgentUsageEntry) (params : UsageParams) : AgentUsageEntry :=
  { entry with
    calls := entry.calls + 1
    promptTokens := entry.promptTokens + params.promptTokens
    completionTokens := entry.completionTokens + params.completionTokens
    totalTokens := entry.totalTokens + params.totalTokens }

end AgentUsageEntry

/-- Accounting and enforcement for one task. -/
structure TaskBudgetLedger (κ : Type) where
  limits : BudgetLimits
  usedTokens : Int
  calls : Nat
  entries : Storage κ AgentUsageEntry
  /-- Tokens earmarked for calls that are in flight but not yet reported. -/
  reservedTokens : Int
  /-- The claim each node holds. -/
  reservations : Storage κ Int

namespace TaskBudgetLedger

variable {κ : Type} [DecidableEq κ]

def fresh (limits : BudgetLimits) : TaskBudgetLedger κ where
  limits := limits
  usedTokens := 0
  calls := 0
  entries := ∅
  reservedTokens := 0
  reservations := ∅

section Reads

variable (l : TaskBudgetLedger κ)

def remainingTokens : Int := max 0 (l.limits.maxTokensPerTask - l.usedTokens)

/-- Tokens still unspent and unclaimed. -/
def availableTokens : Int := max 0 (l.remainingTokens - l.reservedTokens)

def exhausted : Bool := decide (l.availableTokens ≤ 0)

/-- Tokens a single call may still request. -/
def allowanceFor : Int := min l.availableTokens l.limits.maxTokensPerCall

/-- How many calls have been recorded against a node. -/
def usageCallsFor (nodeId : κ) : Nat := ((l.entries.get nodeId).map AgentUsageEntry.calls).getD 0

/-- The claim of a node, nothing if it has none. -/
def held (nodeId : κ) : Int := (l.reservations.get nodeId).getD 0

/-- What `reserve` grants. -/
def grant (requested : Int) : Int :=
  min (min (min (max 0 requested) l.availableTokens) l.limits.maxTokensPerCall)
    l.limits.maxTokensPerTask

def entryFor (nodeId : κ) : AgentUsageEntry := (l.entries.get nodeId).getD .blank

end Reads

/-- Claim up to `requested` tokens for a call that is about to be made. -/
def reserve (l : TaskBudgetLedger κ) (nodeId : κ) (requested : Int) : TaskBudgetLedger κ :=
  if 0 < l.grant requested then
    { l with
      reservedTokens := l.reservedTokens + l.grant requested
      -- the larger claim stays, so that reserving twice cannot shrink it
      reservations := l.reservations.set nodeId (max (l.held nodeId) (l.grant requested)) }
  else l

/-- Give back a node's claim without recording usage. -/
def release (l : TaskBudgetLedger κ) (nodeId : κ) : TaskBudgetLedger κ :=
  match l.reservations.get nodeId with
  | some held =>
    { l with
      reservations := l.reservations.remove nodeId
      reservedTokens := max 0 (l.reservedTokens - held) }
  | none => l

/-- Record the usage of a call. The claim is settled first. -/
def record (l : TaskBudgetLedger κ) (nodeId : κ) (params : UsageParams) : TaskBudgetLedger κ :=
  let l := l.release nodeId
  { l with
    usedTokens := l.usedTokens + params.totalTokens
    calls := l.calls + 1
    entries := l.entries.set nodeId ((l.entryFor nodeId).add params) }

def markExhausted (l : TaskBudgetLedger κ) (nodeId : κ) : TaskBudgetLedger κ :=
  { l with entries := l.entries.set nodeId { l.entryFor nodeId with budgetExhausted := true } }

variable {l : TaskBudgetLedger κ} {nodeId : κ}

/-! ## What is held back -/

def claims (l : TaskBudgetLedger κ) : Int := total l.reservations fun _ held => held

/-- What is held back is the sum of the claims, each of them positive. -/
structure Balanced (l : TaskBudgetLedger κ) : Prop where
  reserved : l.reservedTokens = l.claims
  positive : ∀ nodeId held, l.reservations.get nodeId = some held → 0 < held

theorem balanced_fresh (limits : BudgetLimits) : (fresh limits : TaskBudgetLedger κ).Balanced where
  reserved := rfl
  positive := by
    intro nodeId held h
    cases h

theorem Balanced.claims_nonneg (h : l.Balanced) : 0 ≤ l.claims :=
  total_nonneg fun nodeId held hget => (h.positive nodeId held hget).le

theorem Balanced.held_nonneg (h : l.Balanced) (nodeId : κ) : 0 ≤ l.held nodeId := by
  unfold held
  cases hget : l.reservations.get nodeId with
  | none => exact le_refl 0
  | some held => exact (h.positive nodeId held hget).le

theorem Balanced.held_le (h : l.Balanced) (nodeId : κ) : l.held nodeId ≤ l.reservedTokens := by
  rw [h.reserved]
  unfold held
  cases hget : l.reservations.get nodeId with
  | none => exact h.claims_nonneg
  | some held =>
    exact entry_le_total (fun _ held => held)
      (fun k v hk => (h.positive k v hk).le) hget

theorem Balanced.reserved_nonneg (h : l.Balanced) : 0 ≤ l.reservedTokens := by
  rw [h.reserved]
  exact h.claims_nonneg

theorem Balanced.reserved_eq_zero (h : l.Balanced)
    (hno : ∀ nodeId, l.reservations.get nodeId = none) : l.reservedTokens = 0 := by
  rw [h.reserved]
  refine (total_eq_sum _ nodup_nil ?_).trans rfl
  intro k v hk _
  rw [hno k] at hk
  cases hk

/-! ## The operations -/

section

omit [DecidableEq κ]

theorem grant_le_available (requested : Int) : l.grant requested ≤ l.availableTokens := by
  unfold grant
  omega

end

theorem reserve_frame (requested : Int) :
    (l.reserve nodeId requested).limits = l.limits ∧
      (l.reserve nodeId requested).usedTokens = l.usedTokens ∧
        (l.reserve nodeId requested).calls = l.calls ∧
          (l.reserve nodeId requested).entries = l.entries := by
  unfold reserve
  split
  · exact ⟨rfl, rfl, rfl, rfl⟩
  · exact ⟨rfl, rfl, rfl, rfl⟩

theorem release_frame (l : TaskBudgetLedger κ) (nodeId : κ) : (l.release nodeId).limits = l.limits ∧
    (l.release nodeId).usedTokens = l.usedTokens ∧ (l.release nodeId).calls = l.calls ∧
      (l.release nodeId).entries = l.entries := by
  unfold release
  split
  · exact ⟨rfl, rfl, rfl, rfl⟩
  · exact ⟨rfl, rfl, rfl, rfl⟩

theorem get_reserve (requested : Int) (other : κ) :
    (l.reserve nodeId requested).reservations.get other =
      if other = nodeId ∧ 0 < l.grant requested then some (max (l.held nodeId) (l.grant requested))
      else l.reservations.get other := by
  unfold reserve
  by_cases hpos : 0 < l.grant requested
  · rw [if_pos hpos]
    dsimp only
    rw [get_set]
    by_cases ho : other = nodeId
    · rw [if_pos ho, if_pos ⟨ho, hpos⟩]
    · rw [if_neg ho, if_neg fun h => ho h.1]
  · rw [if_neg hpos, if_neg fun h => hpos h.2]

theorem get_release (other : κ) : (l.release nodeId).reservations.get other =
    if other = nodeId then none else l.reservations.get other := by
  unfold release
  split
  · exact get_remove _ _ _
  · rename_i hno
    by_cases ho : other = nodeId
    · rw [if_pos ho, ho]
      exact hno
    · rw [if_neg ho]

theorem Balanced.reserve (h : l.Balanced) (hfr : l.reservations.get nodeId = none)
    (requested : Int) : (l.reserve nodeId requested).Balanced ∧
      (l.reserve nodeId requested).reservedTokens =
        l.reservedTokens + (l.reserve nodeId requested).held nodeId := by
  have hhd : l.held nodeId = 0 := by
    unfold held
    rw [hfr]
    rfl
  unfold TaskBudgetLedger.reserve
  by_cases hpos : 0 < l.grant requested
  · rw [if_pos hpos, hhd, max_eq_right hpos.le]
    refine ⟨⟨?_, ?_⟩, ?_⟩
    · dsimp only [claims]
      rw [total_set_of_none hfr, h.reserved]
      rfl
    · intro k v hk
      dsimp only at hk
      rw [get_set] at hk
      split at hk
      · cases hk
        exact hpos
      · exact h.positive k v hk
    · dsimp only [held]
      rw [get_set_self, getD_some]
  · rw [if_neg hpos, hhd, add_zero]
    exact ⟨h, rfl⟩

theorem Balanced.release (h : l.Balanced) (nodeId : κ) : (l.release nodeId).Balanced ∧
    (l.release nodeId).reservedTokens = l.reservedTokens - l.held nodeId := by
  have hle := h.held_le nodeId
  unfold TaskBudgetLedger.release
  cases hget : l.reservations.get nodeId with
  | none =>
    refine ⟨h, ?_⟩
    unfold held
    rw [hget, getD_none, Int.sub_zero]
  | some claim =>
    have hhd : l.held nodeId = claim := by
      unfold held
      rw [hget, getD_some]
    have hmax : max 0 (l.reservedTokens - claim) = l.reservedTokens - claim := by omega
    dsimp only
    rw [hmax, hhd]
    refine ⟨⟨?_, ?_⟩, rfl⟩
    · have htot := total_remove l.reservations nodeId fun _ held => held
      rw [hget, elim_some] at htot
      dsimp only [claims]
      rw [h.reserved, claims, ← htot]
      omega
    · intro k v hk
      exact h.positive k v (get_of_remove hk)

theorem record_reservations (params : UsageParams) :
    (l.record nodeId params).reservations = (l.release nodeId).reservations := rfl

theorem record_reservedTokens (params : UsageParams) :
    (l.record nodeId params).reservedTokens = (l.release nodeId).reservedTokens := rfl

theorem record_limits (params : UsageParams) : (l.record nodeId params).limits = l.limits :=
  (release_frame l nodeId).1

theorem record_usedTokens (params : UsageParams) :
    (l.record nodeId params).usedTokens = l.usedTokens + params.totalTokens := by
  have h := (release_frame l nodeId).2.1
  unfold record
  dsimp only
  rw [h]

theorem Balanced.record (h : l.Balanced) (nodeId : κ) (params : UsageParams) :
    (l.record nodeId params).Balanced where
  reserved := (h.release nodeId).1.reserved
  positive := (h.release nodeId).1.positive

theorem Balanced.markExhausted (h : l.Balanced) (nodeId : κ) :
    (l.markExhausted nodeId).Balanced where
  reserved := h.reserved
  positive := h.positive

theorem usageCallsFor_record (params : UsageParams) (other : κ) :
    (l.record nodeId params).usageCallsFor other =
      if other = nodeId then l.usageCallsFor nodeId + 1 else l.usageCallsFor other := by
  have hens := (release_frame l nodeId).2.2.2
  unfold record usageCallsFor entryFor
  dsimp only
  rw [get_set, hens]
  split
  · cases l.entries.get nodeId with
    | none | some => rfl
  · rfl

theorem usageCallsFor_markExhausted (other : κ) :
    (l.markExhausted nodeId).usageCallsFor other = l.usageCallsFor other := by
  unfold markExhausted usageCallsFor entryFor
  dsimp only
  rw [get_set]
  split
  · rename_i ho
    rw [ho]
    cases l.entries.get nodeId with
    | none | some => rfl
  · rfl

/-! ## The cap -/

/-- What is spent and what is held back fit into the budget. -/
def Covered (l : TaskBudgetLedger κ) : Prop :=
  l.usedTokens + l.reservedTokens ≤ l.limits.maxTokensPerTask

omit [DecidableEq κ] in
theorem covered_fresh (limits : BudgetLimits) : (fresh limits : TaskBudgetLedger κ).Covered := by
  unfold Covered fresh
  dsimp only
  omega

theorem Covered.reserve (h : l.Covered) (hb : l.Balanced) (nodeId : κ) (requested : Int) :
    (l.reserve nodeId requested).Covered := by
  have hrvd := hb.reserved_nonneg
  have hgra := l.grant_le_available requested
  unfold TaskBudgetLedger.reserve
  split
  · rename_i hpos
    unfold availableTokens remainingTokens at hgra
    unfold Covered at h ⊢
    dsimp only
    omega
  · exact h

theorem Covered.release (h : l.Covered) (hb : l.Balanced) (nodeId : κ) :
    (l.release nodeId).Covered := by
  obtain ⟨hlms, hus, _, _⟩ := release_frame l nodeId
  have hrvd := (hb.release nodeId).2
  have hhd := hb.held_nonneg nodeId
  unfold Covered at h ⊢
  rw [hlms, hus, hrvd]
  omega

theorem Covered.record (h : l.Covered) (hb : l.Balanced) {params : UsageParams}
    (hwi : params.totalTokens ≤ l.held nodeId) : (l.record nodeId params).Covered := by
  have hrvd := (hb.release nodeId).2
  unfold Covered at h ⊢
  rw [record_limits, record_usedTokens, record_reservedTokens, hrvd]
  omega

/-! ## The books -/

/-- Used tokens and calls are those of the entries. -/
structure Booked (l : TaskBudgetLedger κ) : Prop where
  used : l.usedTokens = total l.entries fun _ entry => entry.totalTokens
  calls : l.calls = total l.entries fun _ entry => entry.calls

omit [DecidableEq κ] in
theorem booked_fresh (limits : BudgetLimits) : (fresh limits : TaskBudgetLedger κ).Booked :=
  ⟨rfl, rfl⟩

end TaskBudgetLedger

/-!
## Ledgers of attempts, and what is kept of them

A task is attempted until it is done. Each attempt has a coordinator of its own, which gets the
task's ledger from a bounded registry when it first needs one, and settles it in the end: the
snapshot goes to `task_costs`, the entries to `task_token_usage`, and the registry forgets the
ledger. Both tables are keyed by the task and written by upserts that overwrite.

The process keeps every ledger object; which of them the registry knows and which a coordinator
holds are separate matters. Prices, wallets and timestamps are left out, and writes succeed.
-/

/-- A coordinator that works on a task. -/
structure Attempt (τ : Type) where
  taskId : τ
  /-- `this.ledgers.get(taskId)`: the number of a ledger object. -/
  ledger : Option Nat
  deriving DecidableEq

/-- A row of `task_costs`. -/
structure TaskCost where
  budgetTokens : Nat
  usedTokens : Int
  exceeded : Bool
  calls : Nat
  deriving DecidableEq

/-- A process and its database; `τ` are the task ids, `κ` the node ids. -/
structure Process (τ κ : Type) where
  ledgers : Register (τ × TaskBudgetLedger κ)
  /-- The registry: what it tracks, oldest first. -/
  registry : List (τ × Nat)
  attempts : Register (Attempt τ)
  taskCosts : Storage τ TaskCost
  tokenUsage : Storage (τ × κ) AgentUsageEntry

def maxTrackedTasks : Nat := 1000

variable {τ κ : Type} [DecidableEq τ] [DecidableEq κ]

omit [DecidableEq κ] in
def TaskBudgetLedger.snapshot (l : TaskBudgetLedger κ) : TaskCost where
  budgetTokens := l.limits.maxTokensPerTask
  usedTokens := l.usedTokens
  exceeded := decide ((l.limits.maxTokensPerTask : Int) < l.usedTokens)
  calls := l.calls

/-- Overwrite the counters of a node; the flag stays once it is set. -/
def setNodeUsage (rows : Storage (τ × κ) AgentUsageEntry) (taskId : τ) (nodeId : κ)
    (entry : AgentUsageEntry) : Storage (τ × κ) AgentUsageEntry :=
  rows.set (taskId, nodeId)
    { entry with
      budgetExhausted := (rows.get (taskId, nodeId)).any AgentUsageEntry.budgetExhausted ||
        entry.budgetExhausted }

def persistEntries (rows : Storage (τ × κ) AgentUsageEntry) (taskId : τ) (l : TaskBudgetLedger κ) :
    Storage (τ × κ) AgentUsageEntry :=
  l.entries.keys.foldl (fun rows nodeId => setNodeUsage rows taskId nodeId (l.entryFor nodeId)) rows

namespace Process

variable (s : Process τ κ)

/-- The ledger that the coordinator holds. -/
def ledgerOf (a : Nat) : Option (τ × Nat) :=
  (s.attempts.get a).bind fun attempt => attempt.ledger.map fun k => (attempt.taskId, k)

/-- The coordinator keeps a ledger, or drops it. -/
def hold (a : Nat) (ledger : Option Nat) : Process τ κ :=
  { s with attempts := s.attempts.rewrite (fun k _ => decide (k = a)) fun attempt =>
      { attempt with ledger := ledger } }

/-- An operation on a ledger object. -/
def onLedger (k : Nat) (f : TaskBudgetLedger κ → TaskBudgetLedger κ) : Process τ κ :=
  { s with ledgers := s.ledgers.rewrite (fun k' _ => decide (k' = k)) fun x => (x.1, f x.2) }

/-- The ledger of the task, a new one if the registry has none; the oldest makes room for it. -/
def getLedger (limits : BudgetLimits) (taskId : τ) : Nat × Process τ κ :=
  match s.registry.lookup taskId with
  | some k => (k, s)
  | none =>
    let kept := if maxTrackedTasks ≤ s.registry.length then s.registry.tail else s.registry
    (s.ledgers.next,
      { s with
        ledgers := s.ledgers.add (taskId, .fresh limits)
        registry := kept ++ [(taskId, s.ledgers.next)] })

/-- The snapshot of a tracked ledger goes to the database, and the registry forgets it. -/
def settleTaskCost (taskId : τ) : Process τ κ :=
  match s.registry.lookup taskId with
  | none => s
  | some k =>
    match s.ledgers.get k with
    | none => s
    | some (_, l) =>
      { s with
        registry := s.registry.filter fun entry => !decide (entry.1 = taskId)
        taskCosts := s.taskCosts.set taskId l.snapshot
        tokenUsage := persistEntries s.tokenUsage taskId l }

/-- Every tracked ledger is written to `task_costs`. -/
def flushActiveCosts : Process τ κ :=
  { s with taskCosts := s.registry.foldl (fun rows entry =>
      match s.ledgers.get entry.2 with
      | none => rows
      | some (_, l) => rows.set entry.1 l.snapshot) s.taskCosts }

end Process

/-- What may happen next. -/
inductive Event (τ κ : Type) where
  /-- A coordinator is made for another attempt. -/
  | attempt (taskId : τ)
  /-- `ledgerForTask`, which everything that needs the ledger calls first. -/
  | ledgerForTask (a : Nat)
  /-- `runNode` claims what a call of the node may spend. -/
  | reserve (a : Nat) (nodeId : κ)
  /-- It gives the claim back to the ledger it took it from. -/
  | release (k : Nat) (nodeId : κ)
  | markExhausted (k : Nat) (nodeId : κ)
  | recordNodeUsage (a : Nat) (nodeId : κ) (params : UsageParams)
  | settleCost (a : Nat)
  | flushActiveCosts

def step (limits : BudgetLimits) (s : Process τ κ) : Event τ κ → Option (Process τ κ)
  | .attempt taskId => some { s with attempts := s.attempts.add ⟨taskId, none⟩ }
  | .ledgerForTask a => (s.attempts.get a).map fun attempt =>
    match attempt.ledger with
    | some _ => s
    | none =>
      let (k, s) := s.getLedger limits attempt.taskId
      s.hold a (some k)
  | .reserve a nodeId => (s.ledgerOf a).bind fun x => (s.ledgers.get x.2).bind fun y =>
    -- a node is run once in an attempt
    if y.2.reservations.has nodeId then none
    else some (s.onLedger x.2 fun l => l.reserve nodeId l.allowanceFor)
  | .release k nodeId => some (s.onLedger k fun l => l.release nodeId)
  | .markExhausted k nodeId => some (s.onLedger k fun l => l.markExhausted nodeId)
  | .recordNodeUsage a nodeId params =>
    (s.ledgerOf a).bind fun x => (s.ledgers.get x.2).map fun y =>
      { s.onLedger x.2 fun l => l.record nodeId params with
        tokenUsage := setNodeUsage s.tokenUsage x.1 nodeId ((y.2.record nodeId params).entryFor nodeId) }
  | .settleCost a => (s.attempts.get a).map fun attempt =>
    match attempt.ledger with
    | some _ => (s.settleTaskCost attempt.taskId).hold a none
    | none => s
  | .flushActiveCosts => some s.flushActiveCosts

/-- The runs from a process that has just started, with empty tables. -/
def system (limits : BudgetLimits) : System (Process τ κ) (Event τ κ) where
  start s := s = ⟨.empty, [], .empty, ∅, ∅⟩
  step := step limits

/-! ## What was spent -/

def Event.recorded (s : Process τ κ) (task : τ) : Event τ κ → List (κ × UsageParams)
  | .recordNodeUsage a nodeId params =>
    if (s.attempts.get a).any fun attempt => decide (attempt.taskId = task)
    then [(nodeId, params)] else []
  | _ => []

/-- What was recorded for the task over all attempts, in order. -/
def recorded (log : List (Process τ κ × Event τ κ)) (task : τ) : List (κ × UsageParams) :=
  log.flatMap fun entry => entry.2.recorded entry.1 task

def tokens (calls : List (κ × UsageParams)) : Int := (calls.map fun call => call.2.totalTokens).sum

def callsOf (calls : List (κ × UsageParams)) (nodeId : κ) : List (κ × UsageParams) :=
  calls.filter fun call => decide (call.1 = nodeId)

/-- The database agrees with the calls, in total and node by node. -/
structure Persisted (s : Process τ κ) (task : τ) (calls : List (κ × UsageParams)) : Prop where
  total : ((s.taskCosts.get task).map TaskCost.usedTokens).getD 0 = tokens calls ∧
    ((s.taskCosts.get task).map TaskCost.calls).getD 0 = calls.length
  node : ∀ nodeId, ((s.tokenUsage.get (task, nodeId)).map AgentUsageEntry.totalTokens).getD 0 =
        tokens (callsOf calls nodeId) ∧
      ((s.tokenUsage.get (task, nodeId)).map AgentUsageEntry.calls).getD 0 = (callsOf calls nodeId).length

/-! ## Attempts of one task -/

def settled (s : Process τ κ) (task : τ) : Bool :=
  !s.attempts.any fun _ attempt => decide (attempt.taskId = task) && attempt.ledger.isSome

/-- An attempt of the task gets its ledger after the one before has settled its own. -/
def inTurn (task : τ) (s : Process τ κ) : Event τ κ → Bool
  | .ledgerForTask a => (s.attempts.get a).all fun attempt =>
    !decide (attempt.taskId = task) || attempt.ledger.isSome || settled s task
  | _ => true

/--
A new ledger of the task comes before any call is recorded for it, and a new ledger of another
task does not make the registry forget the one of this task.
-/
def undivided (task : τ) (s : Process τ κ) : Event τ κ → Bool
  | .ledgerForTask a => (s.attempts.get a).all fun attempt =>
    attempt.ledger.isSome ||
      if attempt.taskId = task then
        !s.ledgers.any fun _ x => decide (x.1 = task) && decide (0 < x.2.calls)
      else (s.registry.lookup attempt.taskId).isSome || decide (s.registry.length < maxTrackedTasks) ||
        !s.registry.head?.any fun entry => decide (entry.1 = task)
  | _ => true

/-- A call of the task spends at most what its node holds in reserve. -/
def withinGrant (task : τ) (s : Process τ κ) : Event τ κ → Bool
  | .recordNodeUsage a nodeId params => (s.ledgerOf a).all fun x =>
    !decide (x.1 = task) || (s.ledgers.get x.2).all fun y =>
      decide (params.totalTokens ≤ y.2.held nodeId)
  | _ => true

end AiNet.Budget
