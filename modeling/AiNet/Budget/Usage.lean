import AiNet.Budget.Ledger
import AiNet.Llm.Allowance
import Mathlib.Data.List.Induction

/-!
# What a ledger's calls leave behind

The calls that the nodes of a task make of their ledger, in any order: `reserve`, `release`,
`preparePrompt`, `record` and `markExhausted`. Two things go astray. A node that reserves twice
has both claims held back, but only the larger one is ever given back. And `record` flags the entry
of its node as trimmed after *any* node's prompt was shortened, as `lastTrimmedTokens` belongs to the
ledger. `accounted_iff` and `attributed_iff` say which runs avoid it.
-/

namespace AiNet.Budget

open Core AiNet.Llm List Option Storage System

/-- A ledger, with what its prompts left behind. -/
structure PromptLedger (κ : Type) where
  ledger : TaskBudgetLedger κ
  /-- Hard ceiling on a single call's input prompt. -/
  maxPromptTokens : Nat
  /-- The `trimmed` flag of an entry. -/
  trimmed : Storage κ Bool
  /-- Tokens dropped by the most recent `preparePrompt` on this ledger. -/
  lastTrimmedTokens : Int

/-- A call of the ledger. -/
inductive LedgerCall (κ : Type) where
  | reserve (nodeId : κ) (requested : Int)
  | release (nodeId : κ)
  | preparePrompt (nodeId : κ) (prompt : JsString)
  | record (nodeId : κ) (params : UsageParams)
  | markExhausted (nodeId : κ)
  deriving DecidableEq

def LedgerCall.nodeId {κ : Type} : LedgerCall κ → κ
  | .reserve nodeId _ | .release nodeId | .preparePrompt nodeId _ | .record nodeId _
  | .markExhausted nodeId => nodeId

variable {κ : Type} [DecidableEq κ]

namespace PromptLedger

section Reads

omit [DecidableEq κ]

variable (l : PromptLedger κ)

/-- A quarter of the allowance is left to the completion. -/
def promptCeiling : Nat :=
  min l.maxPromptTokens (max 1 (l.ledger.allowanceFor - l.ledger.allowanceFor / 4)).toNat

def trimmedPrompt (prompt : JsString) : JsString :=
  if estimateTokens prompt ≤ l.promptCeiling then prompt
  else trimToTokenBudget prompt l.promptCeiling

def tokensSaved (prompt : JsString) : Int :=
  (estimateTokens prompt : Int) - estimateTokens (l.trimmedPrompt prompt)

end Reads

variable (l : PromptLedger κ)

def flagged (nodeId : κ) : Bool := (l.trimmed.get nodeId).getD false

/-- Trim a prompt to what this node can afford. -/
def preparePrompt (nodeId : κ) (prompt : JsString) : PromptLedger κ :=
  { l with
    ledger :=
      { l.ledger with entries := l.ledger.entries.set nodeId (l.ledger.entryFor nodeId) }
    trimmed := if 0 < l.tokensSaved prompt then l.trimmed.set nodeId true else l.trimmed
    lastTrimmedTokens := l.tokensSaved prompt }

def record (nodeId : κ) (params : UsageParams) : PromptLedger κ :=
  { l with
    ledger := l.ledger.record nodeId params
    trimmed := l.trimmed.set nodeId (l.flagged nodeId || decide (0 < l.lastTrimmedTokens)) }

def call : LedgerCall κ → PromptLedger κ
  | .reserve nodeId requested => { l with ledger := l.ledger.reserve nodeId requested }
  | .release nodeId => { l with ledger := l.ledger.release nodeId }
  | .preparePrompt nodeId prompt => l.preparePrompt nodeId prompt
  | .record nodeId params => l.record nodeId params
  | .markExhausted nodeId => { l with ledger := l.ledger.markExhausted nodeId }

/-- A prompt was shortened: what `preparePrompt` returns as `trimmed`. -/
def shortens : LedgerCall κ → Bool
  | .preparePrompt _ prompt => decide (0 < l.tokensSaved prompt)
  | _ => false

end PromptLedger

/-- A ledger, and the calls made of it so far, each with whether it shortened a prompt. -/
structure Metering (κ : Type) where
  state : PromptLedger κ
  made : List (LedgerCall κ × Bool)

/-- The runs of a new ledger. -/
def metering (κ : Type) [DecidableEq κ] : System (Metering κ) (LedgerCall κ) where
  start s := ∃ limits maxPromptTokens, s = ⟨⟨.fresh limits, maxPromptTokens, ∅, 0⟩, []⟩
  step s c := some ⟨s.state.call c, s.made ++ [(c, s.state.shortens c)]⟩

variable {s : Metering κ} {log : List (Metering κ × LedgerCall κ)}

/-! ## Reservations -/

/-- No reservation is leaked or counted twice. -/
structure Accounted (l : TaskBudgetLedger κ) : Prop where
  reserved : l.reservedTokens = l.claims
  available : l.availableTokens = max 0 (l.limits.maxTokensPerTask - l.usedTokens - l.reservedTokens)
  settled : (∀ nodeId, l.reservations.get nodeId = none) →
    l.availableTokens = max 0 (l.limits.maxTokensPerTask - l.usedTokens)

/-- A node that holds a claim is not granted another one. -/
def ClaimsOnce (s : Metering κ) : LedgerCall κ → Prop
  | .reserve nodeId requested =>
    s.state.ledger.reservations.get nodeId = none ∨ s.state.ledger.grant requested ≤ 0
  | _ => True

variable {l : TaskBudgetLedger κ}

omit [DecidableEq κ] in
theorem availableTokens_of_nonneg (h : 0 ≤ l.reservedTokens) :
    l.availableTokens = max 0 (l.limits.maxTokensPerTask - l.usedTokens - l.reservedTokens) := by
  unfold TaskBudgetLedger.availableTokens TaskBudgetLedger.remainingTokens
  omega

theorem TaskBudgetLedger.Balanced.accounted (h : l.Balanced) : Accounted l where
  reserved := h.reserved
  available := availableTokens_of_nonneg h.reserved_nonneg
  settled := by
    intro hno
    have hz := h.reserved_eq_zero hno
    have hav := availableTokens_of_nonneg h.reserved_nonneg
    rwa [hz, Int.sub_zero] at hav

theorem claims_reserve {nodeId : κ} {requested : Int}
    (hpos : 0 < l.grant requested) : (l.reserve nodeId requested).claims =
      l.claims - l.held nodeId + max (l.held nodeId) (l.grant requested) ∧
        (l.reserve nodeId requested).reservedTokens = l.reservedTokens + l.grant requested := by
  unfold TaskBudgetLedger.reserve
  rw [if_pos hpos]
  refine ⟨?_, rfl⟩
  have htot := total_set l.reservations nodeId
    (max (l.held nodeId) (l.grant requested)) fun _ held => held
  have hhd : (l.reservations.get nodeId).elim 0 (fun held => held) = l.held nodeId := by
    unfold TaskBudgetLedger.held
    cases l.reservations.get nodeId with
    | none | some => rfl
  rw [hhd] at htot
  dsimp only [TaskBudgetLedger.claims]
  omega

theorem balanced_reserve_iff (h : l.Balanced) (nodeId : κ) (requested : Int) :
    (l.reserve nodeId requested).Balanced ↔ l.reservations.get nodeId = none ∨ l.grant requested ≤ 0 := by
  by_cases hpos : 0 < l.grant requested
  · constructor
    · intro hb
      refine Or.inl ?_
      cases hget : l.reservations.get nodeId with
      | none => rfl
      | some claim =>
        -- what is held back and the sum of the claims drift apart by the smaller of the two
        have hhd : l.held nodeId = claim := by
          unfold TaskBudgetLedger.held
          rw [hget, getD_some]
        have hclm := h.positive nodeId claim hget
        have hrvd := hb.reserved
        rw [(claims_reserve hpos).1, (claims_reserve hpos).2, h.reserved, hhd] at hrvd
        omega
    · rintro (hfr | hz)
      · exact (h.reserve hfr requested).1
      · omega
  · have hsm : l.reserve nodeId requested = l := if_neg hpos
    rw [hsm]
    exact ⟨fun _ => Or.inr (Int.not_lt.mp hpos), fun _ => h⟩

theorem balanced_call_iff (h : s.state.ledger.Balanced) (c : LedgerCall κ) :
    (s.state.call c).ledger.Balanced ↔ ClaimsOnce s c := by
  cases c with
  | reserve nodeId requested => exact balanced_reserve_iff h nodeId requested
  | release nodeId => exact iff_of_true (h.release nodeId).1 trivial
  | preparePrompt => exact iff_of_true ⟨h.reserved, h.positive⟩ trivial
  | record nodeId params => exact iff_of_true (h.record nodeId params) trivial
  | markExhausted nodeId => exact iff_of_true (h.markExhausted nodeId) trivial

theorem positive_of_reachable (h : (metering κ).Reachable (fun _ _ => True) s) (nodeId : κ) :
    ∀ held ∈ s.state.ledger.reservations.get nodeId, 0 < held := by
  refine System.Reachable.invariant (I := fun s : Metering κ =>
    ∀ held ∈ s.state.ledger.reservations.get nodeId, 0 < held) ?_ ?_ h
  · rintro s ⟨limits, maxPromptTokens, rfl⟩ held hhd
    cases hhd
  · intro s c s' _ _ ih hst held hhd
    cases hst
    cases c with
    | reserve other requested =>
      dsimp only [PromptLedger.call] at hhd
      rw [TaskBudgetLedger.get_reserve] at hhd
      split at hhd
      · rename_i hgra
        have hclm := some.inj hhd
        omega
      · exact ih held hhd
    | release other | record other =>
      -- what `record` does to the claims, it does by `release`
      have hget : (s.state.ledger.release other).reservations.get nodeId = some held := hhd
      rw [TaskBudgetLedger.get_release] at hget
      split at hget
      · cases hget
      · exact ih held hget
    | preparePrompt | markExhausted => exact ih held hhd

/--
**No claim is lost, as long as no node is granted two at once.** In a run, the tokens held back are the
sum of the claims, the available tokens are what the cap leaves, and all of it is available again once no
node holds a claim, exactly as long as no node that holds a claim is granted another.
-/
theorem accounted_iff (h : (metering κ).Logged (fun _ _ => True) s log) :
    (∀ p ∈ log.map Prod.fst ++ [s], Accounted p.state.ledger) ↔
      ∀ entry ∈ log, ClaimsOnce entry.1 entry.2 := by
  have hiff : ∀ p ∈ log.map Prod.fst ++ [s], Accounted p.state.ledger ↔ p.state.ledger.Balanced := by
    intro p hp
    have hpos := positive_of_reachable (h.passed hp)
    exact ⟨fun ha => ⟨ha.reserved, hpos⟩, fun hb => hb.accounted⟩
  rw [forall₂_congr hiff]
  refine h.forall_passed_iff (I := fun p => p.state.ledger.Balanced) ?_ ?_
  · rintro s ⟨limits, maxPromptTokens, rfl⟩
    exact TaskBudgetLedger.balanced_fresh limits
  · intro s c s' _ _ hst hb
    cases hst
    exact balanced_call_iff hb c

/-- A ledger of 100 tokens. -/
def Sample.hundred : Metering Nat := ⟨⟨.fresh ⟨100, 100⟩, 100, ∅, 0⟩, []⟩

/-- Two nodes claim and one of them settles: a run to which the condition applies. -/
theorem accounted_two_nodes : ∃ s log, (metering Nat).Logged (fun _ _ => True) s log ∧
    log.length = 3 ∧ s.state.ledger.availableTokens = 73 ∧
      ∀ p ∈ log.map Prod.fst ++ [s], Accounted p.state.ledger := by
  have hpl : ((metering Nat).play (fun _ _ => True)
      [.reserve 0 10, .reserve 1 20, .record 0 ⟨some ⟨4, 3, 7⟩, 0, 0⟩] Sample.hundred).any
        (fun s => decide (s.state.ledger.availableTokens = 73)) = true := by
    decide
  obtain ⟨s, hs, hav⟩ := (Option.any_eq_true _ _).mp hpl
  have hlog := logged_of_play (S := metering Nat) ⟨⟨100, 100⟩, 100, rfl⟩ hs
  refine ⟨s, _, hlog, rfl, of_decide_eq_true hav, (accounted_iff hlog).mpr ?_⟩
  simp only [record, metering, map_some, getD_some, forall_mem_cons]
  exact ⟨Or.inl rfl, Or.inl rfl, trivial, fun _ hent => absurd hent not_mem_nil⟩

/-- A node claims 10 tokens twice and gives back its claim: 10 tokens are held back for good. -/
theorem claim_leaked : ∃ s, (metering Nat).Reachable (fun _ _ => True) s ∧
    s.made.map (fun call => call.1.nodeId) = [0, 0, 0] ∧
      (∀ nodeId, s.state.ledger.reservations.get nodeId = none) ∧
        s.state.ledger.availableTokens = 90 ∧ ¬ Accounted s.state.ledger := by
  have hpl : ((metering Nat).play (fun _ _ => True)
      [.reserve 0 10, .reserve 0 10, .release 0] Sample.hundred).any
        (fun s => decide (s.made.map (fun call => call.1.nodeId) = [0, 0, 0] ∧
          s.state.ledger.reservations.keys = [] ∧ s.state.ledger.availableTokens = 90 ∧
            s.state.ledger.limits.maxTokensPerTask = 100 ∧ s.state.ledger.usedTokens = 0)) = true := by
    decide
  obtain ⟨s, hs, hmd, hke, hav, hcap, hus⟩ := exists_reachable (S := metering Nat) ⟨⟨100, 100⟩, 100, rfl⟩ hpl
  have hno : ∀ nodeId, s.state.ledger.reservations.get nodeId = none := by
    intro nodeId
    rw [← has_eq_false, ← Bool.not_eq_true, ← mem_keys_iff, hke]
    exact not_mem_nil
  refine ⟨s, hs, hmd, hno, hav, fun h => ?_⟩
  have hstl := h.settled hno
  rw [hav, hcap, hus] at hstl
  omega

/-! ## Whose usage -/

/-- What a call makes of the entry of its node. -/
def LedgerCall.written : LedgerCall κ → AgentUsageEntry → AgentUsageEntry
  | .record _ params, entry => entry.add params
  | .markExhausted _, entry => { entry with budgetExhausted := true }
  | .preparePrompt _ _, entry | .reserve _ _, entry | .release _, entry => entry

/-- The entry of a node and its flag, as they result from the calls of the node alone. -/
def alone (calls : List (LedgerCall κ × Bool)) : AgentUsageEntry × Bool :=
  calls.foldl (fun entry call => (call.1.written entry.1, entry.2 || call.2)) (.blank, false)

namespace Metering

def callsFor (s : Metering κ) (nodeId : κ) : List (LedgerCall κ × Bool) :=
  s.made.filter fun call => decide (call.1.nodeId = nodeId)

/-- Usage is attributed to the right node. -/
structure Attributed (s : Metering κ) : Prop where
  booked : s.state.ledger.Booked
  entry : ∀ nodeId, (s.state.ledger.entryFor nodeId, s.state.flagged nodeId) = alone (s.callsFor nodeId)
  trimmed : ∀ nodeId, s.state.flagged nodeId = true ↔ ∃ call ∈ s.callsFor nodeId, call.2 = true

end Metering

/-- A call is recorded while the prompt prepared last, of any node, was not shortened, or for a node whose
entry is flagged already. -/
def FlagsOwn (s : Metering κ) : LedgerCall κ → Prop
  | .record nodeId _ => s.state.lastTrimmedTokens ≤ 0 ∨ s.state.flagged nodeId = true
  | _ => True

section

omit [DecidableEq κ]

theorem alone_append (calls : List (LedgerCall κ × Bool)) (call : LedgerCall κ × Bool) :
    alone (calls ++ [call]) = (call.1.written (alone calls).1, (alone calls).2 || call.2) :=
  foldl_append

theorem alone_trimmed (calls : List (LedgerCall κ × Bool)) :
    (alone calls).2 = true ↔ ∃ call ∈ calls, call.2 = true := by
  induction calls using List.reverseRec with
  | nil => simp [alone]
  | append_singleton calls call ih =>
    rw [alone_append, Bool.or_eq_true, ih]
    simp only [mem_append, mem_singleton, or_and_right, exists_or, exists_eq_left]

end

theorem entries_call (l : PromptLedger κ) (c : LedgerCall κ) :
    (l.call c).ledger.entries = l.ledger.entries.set c.nodeId (c.written (l.ledger.entryFor c.nodeId)) ∨
      (l.call c).ledger.entries = l.ledger.entries ∧ ∀ entry, c.written entry = entry := by
  cases c with
  | reserve nodeId requested =>
    exact Or.inr ⟨(TaskBudgetLedger.reserve_frame requested).2.2.2, fun _ => rfl⟩
  | release nodeId =>
    exact Or.inr ⟨(TaskBudgetLedger.release_frame l.ledger nodeId).2.2.2, fun _ => rfl⟩
  | preparePrompt | markExhausted => exact Or.inl rfl
  | record nodeId =>
    have hens := (TaskBudgetLedger.release_frame l.ledger nodeId).2.2.2
    refine Or.inl ?_
    dsimp only [PromptLedger.call, PromptLedger.record, TaskBudgetLedger.record,
      TaskBudgetLedger.entryFor, LedgerCall.nodeId, LedgerCall.written]
    rw [hens]

theorem entryFor_call (l : PromptLedger κ) (c : LedgerCall κ) (nodeId : κ) :
    (l.call c).ledger.entryFor nodeId = if c.nodeId = nodeId then c.written (l.ledger.entryFor nodeId)
      else l.ledger.entryFor nodeId := by
  have hrd : (l.call c).ledger.entryFor nodeId = ((l.call c).ledger.entries.get nodeId).getD .blank := rfl
  rw [hrd]
  rcases entries_call l c with hset | ⟨hsm, hwrt⟩
  · rw [hset, get_set]
    by_cases ho : c.nodeId = nodeId
    · rw [if_pos ho, if_pos ho.symm, getD_some, ho]
    · rw [if_neg ho, if_neg (Ne.symm ho)]
      rfl
  · rw [hsm, hwrt, ite_self]
    rfl

theorem flagged_call (l : PromptLedger κ) (c : LedgerCall κ) (nodeId : κ) :
    (l.call c).flagged nodeId = (l.flagged nodeId || (decide (c.nodeId = nodeId) &&
      match c with
      | .record _ _ => decide (0 < l.lastTrimmedTokens)
      | _ => l.shortens c)) := by
  cases c with
  | reserve | release | markExhausted =>
    simp [PromptLedger.call, PromptLedger.shortens, PromptLedger.flagged]
  | preparePrompt other prompt =>
    dsimp only [PromptLedger.call, PromptLedger.preparePrompt, PromptLedger.shortens,
      PromptLedger.flagged, LedgerCall.nodeId]
    by_cases hsav : 0 < l.tokensSaved prompt
    · rw [if_pos hsav, get_set]
      by_cases ho : nodeId = other
      · simp [ho, hsav]
      · simp [ho, Ne.symm ho]
    · simp [hsav]
  | record other =>
    dsimp only [PromptLedger.call, PromptLedger.record, PromptLedger.flagged, LedgerCall.nodeId]
    rw [get_set]
    by_cases ho : nodeId = other
    · simp [ho]
    · simp [ho, Ne.symm ho]

theorem counters_call (l : PromptLedger κ) (c : LedgerCall κ) (entry : AgentUsageEntry) :
    (l.call c).ledger.usedTokens + entry.totalTokens = l.ledger.usedTokens + (c.written entry).totalTokens ∧
      (l.call c).ledger.calls + entry.calls = l.ledger.calls + (c.written entry).calls := by
  cases c with
  | reserve nodeId requested =>
    exact ⟨congrArg (· + _) (TaskBudgetLedger.reserve_frame requested).2.1,
      congrArg (· + _) (TaskBudgetLedger.reserve_frame requested).2.2.1⟩
  | release nodeId =>
    obtain ⟨_, hus, hcs, _⟩ := TaskBudgetLedger.release_frame l.ledger nodeId
    exact ⟨congrArg (· + _) hus, congrArg (· + _) hcs⟩
  | preparePrompt | markExhausted => exact ⟨rfl, rfl⟩
  | record nodeId =>
    obtain ⟨_, hus, hcs, _⟩ := TaskBudgetLedger.release_frame l.ledger nodeId
    dsimp only [PromptLedger.call, PromptLedger.record, TaskBudgetLedger.record,
      LedgerCall.written, AgentUsageEntry.add]
    rw [hus, hcs]
    exact ⟨by ring, by ring⟩

theorem booked_call {l : PromptLedger κ} (h : l.ledger.Booked) (c : LedgerCall κ) :
    (l.call c).ledger.Booked := by
  obtain ⟨hus, hcs⟩ := counters_call l c (l.ledger.entryFor c.nodeId)
  have hbo := h.used
  have hctd := h.calls
  rcases entries_call l c with hset | ⟨hsm, hwrt⟩
  · have hold : ∀ {M : Type} [AddCommMonoid M] (f : AgentUsageEntry → M), f .blank = 0 →
        (l.ledger.entries.get c.nodeId).elim 0 f = f (l.ledger.entryFor c.nodeId) := by
      intro M _ f hbla
      unfold TaskBudgetLedger.entryFor
      cases l.ledger.entries.get c.nodeId with
      | none => exact hbla.symm
      | some => rfl
    have htks := total_set l.ledger.entries c.nodeId
      (c.written (l.ledger.entryFor c.nodeId)) fun _ e => e.totalTokens
    have hcnt := total_set l.ledger.entries c.nodeId
      (c.written (l.ledger.entryFor c.nodeId)) fun _ e => e.calls
    rw [hold _ rfl] at htks hcnt
    rw [← hset] at htks hcnt
    exact ⟨by omega, by omega⟩
  · rw [hwrt] at hus hcs
    rw [← hsm] at hbo hctd
    exact ⟨by omega, by omega⟩

theorem attributed_start (h : (metering κ).start s) : s.Attributed := by
  obtain ⟨limits, maxPromptTokens, rfl⟩ := h
  refine ⟨TaskBudgetLedger.booked_fresh limits, fun _ => rfl, fun _ => ?_⟩
  simp [PromptLedger.flagged, Metering.callsFor]

theorem attributed_call_iff (h : s.Attributed) (c : LedgerCall κ) :
    Metering.Attributed ⟨s.state.call c, s.made ++ [(c, s.state.shortens c)]⟩ ↔ FlagsOwn s c := by
  have hcs : ∀ nodeId, Metering.callsFor ⟨s.state.call c, s.made ++ [(c, s.state.shortens c)]⟩
      nodeId = s.callsFor nodeId ++ if c.nodeId = nodeId then [(c, s.state.shortens c)] else [] := by
    intro nodeId
    unfold Metering.callsFor
    rw [filter_append, filter_singleton]
    by_cases ho : c.nodeId = nodeId
    · simp [ho]
    · simp [ho]
  have hent : ∀ nodeId, (s.state.call c).ledger.entryFor nodeId = (alone
      (Metering.callsFor ⟨s.state.call c, s.made ++ [(c, s.state.shortens c)]⟩ nodeId)).1 := by
    intro nodeId
    have hbf : s.state.ledger.entryFor nodeId = (alone (s.callsFor nodeId)).1 :=
      congrArg Prod.fst (h.entry nodeId)
    rw [hcs, entryFor_call, hbf]
    split
    · rw [alone_append]
    · rw [append_nil]
  -- the flag is right as long as what `record` adds to it is no other node's cut
  have hfl : ∀ nodeId, ((s.state.call c).flagged nodeId = (alone
      (Metering.callsFor ⟨s.state.call c, s.made ++ [(c, s.state.shortens c)]⟩ nodeId)).2) ↔
        (c.nodeId = nodeId → FlagsOwn s c) := by
    intro nodeId
    have hbf : s.state.flagged nodeId = (alone (s.callsFor nodeId)).2 :=
      congrArg Prod.snd (h.entry nodeId)
    rw [hcs, flagged_call]
    by_cases ho : c.nodeId = nodeId
    · rw [if_pos ho, alone_append, ← hbf]
      cases c with
      | record other =>
        cases ho
        cases hf : s.state.flagged other with
        | true | false => simp [FlagsOwn, PromptLedger.shortens, LedgerCall.nodeId, hf]
      | reserve | release | preparePrompt | markExhausted => simp [FlagsOwn, ho]
    · rw [if_neg ho, append_nil, ← hbf]
      simp [ho]
  constructor
  · intro haf
    exact (hfl c.nodeId).mp (congrArg Prod.snd (haf.entry c.nodeId)) rfl
  · intro hown
    have hall := fun nodeId => (hfl nodeId).mpr fun _ => hown
    refine ⟨booked_call h.booked c, fun nodeId => Prod.ext (hent nodeId) (hall nodeId), ?_⟩
    intro nodeId
    rw [← alone_trimmed]
    exact iff_of_eq (congrArg (· = true) (hall nodeId))

/--
**Usage goes to the right node as long as no other's cut does.** In a run, the counters are the sums over
the entries and each entry is what the calls of its node alone make of it, exactly as long as no call is
recorded for an unflagged node after the last prompt that was prepared, of any node, was shortened.
-/
theorem attributed_iff (h : (metering κ).Logged (fun _ _ => True) s log) :
    (∀ p ∈ log.map Prod.fst ++ [s], p.Attributed) ↔ ∀ entry ∈ log, FlagsOwn entry.1 entry.2 := by
  refine h.forall_passed_iff (fun s h0 => attributed_start h0) ?_
  intro s c s' _ _ hst hb
  cases hst
  exact attributed_call_iff hb c

/-- A prompt that is cut where at most 30 tokens are allowed. -/
def Sample.long : JsString := List.replicate 120 97

/-- A ledger that allows prompts of 30 tokens. -/
def Sample.thirty : Metering Nat := ⟨⟨.fresh ⟨1000, 1000⟩, 30, ∅, 0⟩, []⟩

/-- Two calls in turn; the first one's prompt is shortened. -/
def Sample.inTurn : List (LedgerCall Nat) :=
  [.preparePrompt 0 Sample.long, .record 0 ⟨some ⟨30, 5, 35⟩, 0, 0⟩, .preparePrompt 1 [],
    .record 1 ⟨some ⟨0, 5, 5⟩, 0, 0⟩]

/-- One node's prompt is shortened and the other's is not, in turn: a run to which the condition applies. -/
theorem attributed_in_turn : ∃ s log, (metering Nat).Logged (fun _ _ => True) s log ∧
    log.length = 4 ∧ s.state.flagged 0 = true ∧ s.state.flagged 1 = false ∧
      ∀ p ∈ log.map Prod.fst ++ [s], p.Attributed := by
  have hpl : ((metering Nat).play (fun _ _ => True) Sample.inTurn Sample.thirty).any
        (fun s => decide (s.state.flagged 0 = true ∧ s.state.flagged 1 = false)) = true := by
    decide +kernel
  obtain ⟨s, hs, hp⟩ := (Option.any_eq_true _ _).mp hpl
  obtain ⟨hfl, hpln⟩ := of_decide_eq_true hp
  have hlog := logged_of_play (S := metering Nat) ⟨⟨1000, 1000⟩, 30, rfl⟩ hs
  have hown : ∀ entry ∈ (metering Nat).record Sample.inTurn Sample.thirty, FlagsOwn entry.1 entry.2 := by
    simp only [Sample.inTurn, record, metering, map_some, getD_some, forall_mem_cons]
    refine ⟨trivial, Or.inr ?_, trivial, Or.inl ?_, fun _ hent => absurd hent not_mem_nil⟩
    · decide +kernel
    · decide
  exact ⟨s, _, hlog, rfl, hfl, hpln, (attributed_iff hlog).mpr hown⟩

/-- Node 0's prompt is shortened; then a call of node 1, which never had a prompt, is recorded. -/
theorem cut_misattributed : ∃ s, (metering Nat).Reachable (fun _ _ => True) s ∧
    s.callsFor 1 = [(.record 1 ⟨none, 3, 4⟩, false)] ∧ s.state.flagged 1 = true ∧ ¬ s.Attributed := by
  have hpl : ((metering Nat).play (fun _ _ => True)
      [.preparePrompt 0 Sample.long, .record 1 ⟨none, 3, 4⟩] Sample.thirty).any
        (fun s => decide (s.callsFor 1 = [(.record 1 ⟨none, 3, 4⟩, false)] ∧
          s.state.flagged 1 = true)) = true := by
    decide +kernel
  obtain ⟨s, hs, hcs, hfl⟩ := exists_reachable (S := metering Nat) ⟨⟨1000, 1000⟩, 30, rfl⟩ hpl
  refine ⟨s, hs, hcs, hfl, fun h => ?_⟩
  obtain ⟨call, hcl, hsh⟩ := (h.trimmed 1).mp hfl
  rw [hcs, mem_singleton] at hcl
  rw [hcl] at hsh
  cases hsh

end AiNet.Budget
