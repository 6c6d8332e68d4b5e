import AiNet.Budget.Holding

/-!
# Persisted cost and the attempts of a task

Every attempt has a ledger of its own, and what it persists overwrites what was there: the rows
of a task agree with what was recorded for it if one ledger bears all of it. That is so when
no call was recorded in an earlier attempt, and when the registry does not forget the
ledger before it is settled. `Kept` is the invariant; a task that is retried after some calls
loses what they cost, and may spend its budget once more.
-/

namespace AiNet.Budget

open Core List Option Process TaskBudgetLedger

variable {τ κ : Type} [DecidableEq τ] [DecidableEq κ] {limits : BudgetLimits}
  {s s' : Process τ κ} {e : Event τ κ} {task : τ} {calls : List (κ × UsageParams)}
  {l : TaskBudgetLedger κ} {nodeId : κ} {params : UsageParams} {a k : Nat}

/-! ## One ledger -/

/-- The ledger has these calls on its books. -/
structure Bears (l : TaskBudgetLedger κ) (calls : List (κ × UsageParams)) : Prop where
  used : l.usedTokens = tokens calls
  count : l.calls = calls.length
  node : ∀ nodeId, (l.entryFor nodeId).totalTokens = tokens (callsOf calls nodeId) ∧
    (l.entryFor nodeId).calls = (callsOf calls nodeId).length

omit [DecidableEq κ] in
theorem tokens_append (calls more : List (κ × UsageParams)) :
    tokens (calls ++ more) = tokens calls + tokens more := by
  unfold tokens
  rw [map_append, sum_append]

theorem callsOf_append (calls more : List (κ × UsageParams)) (nodeId : κ) :
    callsOf (calls ++ more) nodeId = callsOf calls nodeId ++ callsOf more nodeId :=
  filter_append calls more

theorem bears_fresh (limits : BudgetLimits) : Bears (.fresh limits : TaskBudgetLedger κ) [] :=
  ⟨rfl, rfl, fun _ => ⟨rfl, rfl⟩⟩

variable {l' : TaskBudgetLedger κ}

theorem Bears.congr (h : Bears l calls) (hus : l'.usedTokens = l.usedTokens)
    (hcs : l'.calls = l.calls)
    (hent : ∀ nodeId, (l'.entryFor nodeId).totalTokens = (l.entryFor nodeId).totalTokens ∧
      (l'.entryFor nodeId).calls = (l.entryFor nodeId).calls) : Bears l' calls where
  used := hus.trans h.used
  count := hcs.trans h.count
  node := fun nodeId =>
    ⟨(hent nodeId).1.trans (h.node nodeId).1, (hent nodeId).2.trans (h.node nodeId).2⟩

theorem Bears.of_entries (h : Bears l calls) (hus : l'.usedTokens = l.usedTokens)
    (hcs : l'.calls = l.calls) (hens : l'.entries = l.entries) : Bears l' calls := by
  refine h.congr hus hcs fun nodeId => ?_
  unfold entryFor
  rw [hens]
  exact ⟨rfl, rfl⟩

theorem Bears.reserve (h : Bears l calls) (requested : Int) :
    Bears (l.reserve nodeId requested) calls := by
  obtain ⟨_, hus, hcs, hens⟩ := @TaskBudgetLedger.reserve_frame κ _ l nodeId requested
  exact h.of_entries hus hcs hens

theorem Bears.release (h : Bears l calls) : Bears (l.release nodeId) calls := by
  obtain ⟨_, hus, hcs, hens⟩ := release_frame l nodeId
  exact h.of_entries hus hcs hens

theorem Bears.markExhausted (h : Bears l calls) : Bears (l.markExhausted nodeId) calls := by
  refine h.congr rfl rfl fun other => ?_
  unfold TaskBudgetLedger.markExhausted entryFor
  dsimp only
  rw [Storage.get_set]
  by_cases ho : other = nodeId
  · rw [if_pos ho, ho]
    exact ⟨rfl, rfl⟩
  · rw [if_neg ho]
    exact ⟨rfl, rfl⟩

theorem entryFor_record (l : TaskBudgetLedger κ) (nodeId other : κ) (params : UsageParams) :
    (l.record nodeId params).entryFor other =
      if other = nodeId then (l.entryFor nodeId).add params else l.entryFor other := by
  have hens := (release_frame l nodeId).2.2.2
  unfold record entryFor
  dsimp only
  rw [Storage.get_set, hens]
  split
  · rfl
  · rfl

/-- **Recording a call puts it on the books.** -/
theorem Bears.record (h : Bears l calls) (nodeId : κ) (params : UsageParams) :
    Bears (l.record nodeId params) (calls ++ [(nodeId, params)]) where
  used := by
    rw [record_usedTokens, tokens_append, h.used]
    simp [tokens]
  count := by
    have hcs := (release_frame l nodeId).2.2.1
    rw [length_append, length_singleton, ← h.count, ← hcs]
    rfl
  node := by
    intro other
    obtain ⟨htks, hcnt⟩ := h.node other
    rw [entryFor_record, callsOf_append, tokens_append, length_append]
    by_cases ho : other = nodeId
    · rw [if_pos ho, ← ho]
      unfold AgentUsageEntry.add
      rw [htks, hcnt]
      simp [callsOf, tokens]
    · rw [if_neg ho, htks, hcnt]
      simp [callsOf, tokens, Ne.symm ho]

/-! ## The invariant -/

/-- The holder's ledger bears all the calls of the task, and the rows follow. -/
structure Kept (task : τ) (calls : List (κ × UsageParams)) (s : Process τ κ) : Prop where
  bears : ∀ a k, s.ledgerOf a = some (task, k) → s.registry.lookup task = some k ∧
    ∃ l, s.ledgers.get k = some (task, l) ∧ Bears l calls
  alone : ∀ a b j k, s.ledgerOf a = some (task, j) → s.ledgerOf b = some (task, k) → a = b
  tracked : ∀ k, s.registry.lookup task = some k → ∃ a, s.ledgerOf a = some (task, k)
  spent : calls ≠ [] → ∃ k l, s.ledgers.get k = some (task, l) ∧ Bears l calls
  rows : ∀ nodeId, Counts (s.tokenUsage.get (task, nodeId)) (callsOf calls nodeId)
  costs : settled s task = true → ((s.taskCosts.get task).map TaskCost.usedTokens).getD 0 = tokens calls ∧
    ((s.taskCosts.get task).map TaskCost.calls).getD 0 = calls.length

/-- What a step that records nothing for the task and settles nothing of it leaves alone. -/
structure Untouched (task : τ) (s s' : Process τ κ) : Prop where
  holders : ∀ a k, s'.ledgerOf a = some (task, k) ↔ s.ledgerOf a = some (task, k)
  registry : s'.registry.lookup task = s.registry.lookup task
  ledgers : ∀ k l, s.ledgers.get k = some (task, l) →
    ∃ l', s'.ledgers.get k = some (task, l') ∧ ∀ calls, Bears l calls → Bears l' calls
  rows : ∀ nodeId, s'.tokenUsage.get (task, nodeId) = s.tokenUsage.get (task, nodeId)
  costs : settled s task = true → s'.taskCosts.get task = s.taskCosts.get task

theorem Kept.untouched (h : Kept task calls s) (hu : Untouched task s s') : Kept task calls s' where
  bears := by
    intro a k hhd
    obtain ⟨hlkp, l, hl, hbrs⟩ := h.bears a k ((hu.holders a k).mp hhd)
    obtain ⟨l', hl', himp⟩ := hu.ledgers k l hl
    exact ⟨hu.registry.trans hlkp, l', hl', himp calls hbrs⟩
  alone := by
    intro a b j k ha hb
    exact h.alone a b j k ((hu.holders a j).mp ha) ((hu.holders b k).mp hb)
  tracked := by
    intro k hlkp
    rw [hu.registry] at hlkp
    obtain ⟨a, ha⟩ := h.tracked k hlkp
    exact ⟨a, (hu.holders a k).mpr ha⟩
  spent := by
    intro hne
    obtain ⟨k, l, hl, hbrs⟩ := h.spent hne
    obtain ⟨l', hl', himp⟩ := hu.ledgers k l hl
    exact ⟨k, l', hl', himp calls hbrs⟩
  rows := by
    intro nodeId
    rw [hu.rows]
    exact h.rows nodeId
  costs := by
    intro hstl
    have hbf : settled s task = true := by
      rw [settled_iff] at hstl ⊢
      intro a k hhd
      exact hstl a k ((hu.holders a k).mpr hhd)
    rw [hu.costs hbf]
    exact h.costs hbf

theorem untouched_onLedger {f : TaskBudgetLedger κ → TaskBudgetLedger κ}
    (hf : (∀ l, s.ledgers.get k ≠ some (task, l)) ∨ ∀ l calls, Bears l calls → Bears (f l) calls) :
    Untouched task s (s.onLedger k f) where
  holders := fun _ _ => Iff.rfl
  registry := rfl
  ledgers := by
    intro j l hl
    rw [get_onLedger, hl]
    refine ⟨_, rfl, fun calls hbrs => ?_⟩
    split
    · rename_i hj
      rcases hf with hoth | hkps
      · exact absurd (hj ▸ hl) (hoth l)
      · exact hkps l calls hbrs
    · exact hbrs
  rows := fun _ => rfl
  costs := fun _ => rfl

/-! ## Steps that leave the task alone -/

variable {attempt : Attempt τ}

omit [DecidableEq τ] [DecidableEq κ] in
theorem ledgerOf_hold_other (hget : s.attempts.get a = some attempt) (hoth : attempt.taskId ≠ task)
    {ledger : Option Nat} {b j : Nat} :
    (s.hold a ledger).ledgerOf b = some (task, j) ↔ s.ledgerOf b = some (task, j) := by
  rw [ledgerOf_hold]
  by_cases hb : b = a
  · have hlf : ¬((s.attempts.get a).bind fun attempt =>
        ledger.map fun k => (attempt.taskId, k)) = some (task, j) := by
      rw [hget, bind_some]
      intro h
      obtain ⟨_, _, hpa⟩ := map_eq_some_iff.mp h
      exact hoth (Prod.mk.inj hpa).1
    have hrig : ¬s.ledgerOf a = some (task, j) := by
      intro h
      obtain ⟨attempt', hget', htk, _⟩ := ledgerOf_eq_some.mp h
      rw [hget] at hget'
      cases hget'
      exact hoth htk
    rw [if_pos hb, hb]
    exact iff_of_false hlf hrig
  · rw [if_neg hb]

theorem untouched_ledgerForTask (hget : s.attempts.get a = some attempt) (hoth : attempt.taskId ≠ task)
    (hkpt : s.registry.lookup attempt.taskId = none → maxTrackedTasks ≤ s.registry.length → ∀ n, s.registry.head? ≠ some (task, n)) :
    Untouched task s
      ((s.getLedger limits attempt.taskId).2.hold a (some (s.getLedger limits attempt.taskId).1)) := by
  unfold getLedger
  cases hlkp : s.registry.lookup attempt.taskId with
  | some k =>
    exact ⟨fun _ _ => ledgerOf_hold_other hget hoth, rfl, fun k l hl => ⟨l, hl, fun _ h => h⟩,
      fun _ => rfl, fun _ => rfl⟩
  | none =>
    refine ⟨?_, ?_, ?_, fun _ => rfl, fun _ => rfl⟩
    · intro b j
      exact (ledgerOf_hold_other hget hoth).trans Iff.rfl
    · dsimp only [Process.hold]
      have hoth' : [(attempt.taskId, s.ledgers.next)].lookup task = none := by
        rw [lookup_cons, beq_eq_false_iff_ne.mpr hoth.symm]
        rfl
      rw [lookup_append, hoth', or_none]
      split
      · rename_i hfl
        exact lookup_tail (hkpt hlkp hfl)
      · rfl
    · intro k l hl
      exact ⟨l, Register.get_add_of_some hl, fun _ h => h⟩

theorem untouched_settleCost (hget : s.attempts.get a = some attempt) (hoth : attempt.taskId ≠ task) :
    Untouched task s ((s.settleTaskCost attempt.taskId).hold a none) := by
  have hne : task ≠ attempt.taskId := hoth.symm
  unfold settleTaskCost
  split
  · exact ⟨fun _ _ => ledgerOf_hold_other hget hoth, rfl, fun k l hl => ⟨l, hl, fun _ h => h⟩,
      fun _ => rfl, fun _ => rfl⟩
  · split
    · exact ⟨fun _ _ => ledgerOf_hold_other hget hoth, rfl, fun k l hl => ⟨l, hl, fun _ h => h⟩,
        fun _ => rfl, fun _ => rfl⟩
    · refine ⟨?_, lookup_filter_ne hne, fun k l hl => ⟨l, hl, fun _ h => h⟩,
        fun nodeId => get_persistEntries_ne hne nodeId, fun _ => Storage.get_set_ne _ _ hne⟩
      intro b j
      exact (ledgerOf_hold_other hget hoth).trans Iff.rfl

theorem untouched_flushActiveCosts (h : Kept task calls s) : Untouched task s s.flushActiveCosts where
  holders := fun _ _ => Iff.rfl
  registry := rfl
  ledgers := fun k l hl => ⟨l, hl, fun _ h => h⟩
  rows := fun _ => rfl
  costs := by
    intro hstl
    have hnot : ∀ entry ∈ s.registry, task ≠ entry.1 := by
      have hno : s.registry.lookup task = none := by
        by_contra hso
        obtain ⟨k, hk⟩ := ne_none_iff_exists'.mp hso
        obtain ⟨a, ha⟩ := h.tracked k hk
        exact settled_iff.mp hstl a k ha
      intro entry hent
      exact bne_iff_ne.mp (lookup_eq_none_iff.mp hno entry hent)
    unfold Process.flushActiveCosts
    dsimp only
    generalize s.registry = entries at hnot
    generalize s.taskCosts = rows
    induction entries generalizing rows with
    | nil => rfl
    | cons entry rest ih =>
      rw [foldl_cons, ih fun x hx => hnot x (mem_cons_of_mem _ hx)]
      split
      · rfl
      · exact Storage.get_set_ne _ _ (hnot entry mem_cons_self)

/-! ## Steps of the task -/

/-- **The first ledger of the task bears what was recorded: nothing.** -/
theorem Kept.opened (h : Kept task calls s) (hget : s.attempts.get a = some attempt)
    (htk : attempt.taskId = task) (hstl : settled s task = true)
    (hbla : ∀ k l, s.ledgers.get k = some (task, l) → l.calls = 0) :
    Kept task calls
      ((s.getLedger limits attempt.taskId).2.hold a (some (s.getLedger limits attempt.taskId).1)) := by
  have hhl := settled_iff.mp hstl
  -- nothing was recorded, or some ledger of the task would have a call
  have hnil : calls = [] := by
    by_contra hne
    obtain ⟨k, l, hl, hbrs⟩ := h.spent hne
    have hz := hbla k l hl
    rw [hbrs.count, length_eq_zero_iff] at hz
    exact hne hz
  have hlkp : s.registry.lookup task = none := by
    by_contra hso
    obtain ⟨k, hk⟩ := ne_none_iff_exists'.mp hso
    obtain ⟨b, hb⟩ := h.tracked k hk
    exact hhl b k hb
  subst hnil
  rw [htk]
  unfold getLedger
  rw [hlkp]
  have hnew : ∀ b j, ({ s with
        ledgers := s.ledgers.add (task, .fresh limits)
        registry := (if maxTrackedTasks ≤ s.registry.length then s.registry.tail else s.registry) ++
          [(task, s.ledgers.next)] }.hold a (some s.ledgers.next)).ledgerOf b = some (task, j) ↔
      b = a ∧ j = s.ledgers.next := by
    intro b j
    rw [ledgerOf_hold]
    dsimp only
    rw [hget, bind_some, map_some, htk]
    by_cases hb : b = a
    · simp [hb, eq_comm]
    · rw [if_neg hb]
      exact iff_of_false (hhl b j) fun hbj => hb hbj.1
  have hfnd : ((if maxTrackedTasks ≤ s.registry.length then s.registry.tail else s.registry) ++
      [(task, s.ledgers.next)]).lookup task = some s.ledgers.next := by
    have hkpt : (if maxTrackedTasks ≤ s.registry.length then s.registry.tail
        else s.registry).lookup task = none := by
      split
      · exact lookup_tail_of_none hlkp
      · exact hlkp
    rw [lookup_append, hkpt, none_or, lookup_cons_self]
  refine ⟨?_, ?_, ?_, fun hne => absurd rfl hne, h.rows, ?_⟩
  · intro b j hb
    obtain ⟨_, rfl⟩ := (hnew b j).mp hb
    exact ⟨hfnd, _, Register.get_add_self, bears_fresh limits⟩
  · intro b c j k hb hc
    exact ((hnew b j).mp hb).1.trans ((hnew c k).mp hc).1.symm
  · intro k hk
    refine ⟨a, (hnew a k).mpr ⟨rfl, ?_⟩⟩
    exact some.inj (hk.symm.trans hfnd)
  · intro hs
    exact absurd ((hnew a s.ledgers.next).mpr ⟨rfl, rfl⟩) (settled_iff.mp hs a s.ledgers.next)

/-- **A call goes onto the books of the holder's ledger, and into the row of its node.** -/
theorem Kept.recorded (h : Kept task calls s) (hhd : s.ledgerOf a = some (task, k))
    (hl : s.ledgers.get k = some (task, l)) (nodeId : κ) (params : UsageParams) :
    Kept task (calls ++ [(nodeId, params)])
      { s.onLedger k fun l => l.record nodeId params with
        tokenUsage := setNodeUsage s.tokenUsage task nodeId ((l.record nodeId params).entryFor nodeId) } := by
  obtain ⟨hlkp, l', hl', hbrs⟩ := h.bears a k hhd
  rw [hl] at hl'
  obtain rfl := (Prod.mk.inj (some.inj hl')).2
  have hbrs' := hbrs.record nodeId params
  have hget : (s.onLedger k fun l => l.record nodeId params).ledgers.get k =
      some (task, l.record nodeId params) := by
    rw [get_onLedger, hl, map_some, if_pos rfl]
  refine ⟨?_, h.alone, h.tracked, fun _ => ⟨k, _, hget, hbrs'⟩, ?_, ?_⟩
  · intro b j hb
    obtain rfl := h.alone a b k j hhd hb
    obtain rfl := (Prod.mk.inj (some.inj (hhd.symm.trans hb))).2
    exact ⟨hlkp, _, hget, hbrs'⟩
  · intro other
    dsimp only
    by_cases ho : other = nodeId
    · rw [ho, get_setNodeUsage_self]
      exact Counts.flag (hbrs'.node nodeId) _
    · rw [get_setNodeUsage_ne fun hx => ho (Prod.mk.inj hx).2, callsOf_append]
      have hno : callsOf [(nodeId, params)] other = [] := by
        simp [callsOf, Ne.symm ho]
      rw [hno, append_nil]
      exact h.rows other
  · intro hs
    exact absurd hhd (settled_iff.mp hs a k)

theorem counts_persistEntries {rows : Storage (τ × κ) AgentUsageEntry} (hbrs : Bears l calls)
    (hrw : ∀ nodeId, Counts (rows.get (task, nodeId)) (callsOf calls nodeId)) (nodeId : κ) :
    Counts ((persistEntries rows task l).get (task, nodeId)) (callsOf calls nodeId) := by
  unfold persistEntries
  generalize l.entries.keys = nodes
  induction nodes generalizing rows with
  | nil => exact hrw nodeId
  | cons node nodes ih =>
    refine ih fun other => ?_
    by_cases ho : other = node
    · rw [ho, get_setNodeUsage_self]
      exact Counts.flag (hbrs.node node) _
    · rw [get_setNodeUsage_ne fun hx => ho (Prod.mk.inj hx).2]
      exact hrw other

/-- **At the end of an attempt the rows are those of its ledger, which are all there are.** -/
theorem Kept.settle (h : Kept task calls s) (hget : s.attempts.get a = some attempt)
    (htk : attempt.taskId = task) (hldg : attempt.ledger = some k) :
    Kept task calls ((s.settleTaskCost attempt.taskId).hold a none) := by
  have hhd := ledgerOf_eq_some.mpr ⟨attempt, hget, htk, hldg⟩
  obtain ⟨hlkp, l, hl, hbrs⟩ := h.bears a k hhd
  rw [htk]
  unfold settleTaskCost
  rw [hlkp]
  dsimp only
  rw [hl]
  have hno : ∀ b j, ¬({ s with
        registry := s.registry.filter fun entry => !decide (entry.1 = task)
        taskCosts := s.taskCosts.set task l.snapshot
        tokenUsage := persistEntries s.tokenUsage task l }.hold a none).ledgerOf b = some (task, j) := by
    intro b j hb
    obtain ⟨hne, hbf⟩ := ledgerOf_of_hold_none hb
    exact hne (h.alone b a j k hbf hhd)
  refine ⟨fun b j hb => absurd hb (hno b j), fun b _ j _ hb => absurd hb (hno b j), ?_, ?_, ?_, ?_⟩
  · intro j hj
    rw [show (Process.hold _ a none).registry.lookup task = none from lookup_filter_self] at hj
    cases hj
  · intro _
    exact ⟨k, l, hl, hbrs⟩
  · intro nodeId
    exact counts_persistEntries hbrs h.rows nodeId
  · intro _
    dsimp only [Process.hold]
    rw [Storage.get_set_self]
    exact ⟨hbrs.used, hbrs.count⟩

/-! ## Every step -/

omit [DecidableEq κ] in
theorem recorded_of_ledgerOf {task' : τ} (h : s.ledgerOf a = some (task', k)) :
    (Event.recordNodeUsage a nodeId params : Event τ κ).recorded s task =
      if task' = task then [(nodeId, params)] else [] := by
  obtain ⟨attempt, hget, rfl, _⟩ := ledgerOf_eq_some.mp h
  dsimp only [Event.recorded]
  rw [hget, any_some]
  by_cases ht : attempt.taskId = task
  · rw [if_pos ht, if_pos (decide_eq_true ht)]
  · rw [if_neg ht, if_neg (by simp [ht])]

omit [DecidableEq τ] [DecidableEq κ] in
theorem ne_of_owned {task' : τ} (h : s.ledgers.get k = some (task', l')) (hne : task' ≠ task)
    (l : TaskBudgetLedger κ) : s.ledgers.get k ≠ some (task, l) := by
  intro hl
  rw [h] at hl
  exact hne (Prod.mk.inj (some.inj hl)).1

/-- **Every step keeps what was recorded on one ledger**, in turn and undivided. -/
theorem Kept.step (h : Kept task calls s) (ho : Owned s) (htn : inTurn task s e = true)
    (hu : undivided task s e = true) (hst : step limits s e = some s') :
    Kept task (calls ++ e.recorded s task) s' := by
  cases e with
  | attempt =>
    cases hst
    dsimp only [Event.recorded]
    rw [append_nil]
    refine h.untouched ⟨fun b j => ?_, rfl, fun k l hl => ⟨l, hl, fun _ h => h⟩, fun _ => rfl, fun _ => rfl⟩
    rw [ledgerOf_attempt]
  | ledgerForTask =>
    dsimp only [Event.recorded]
    rw [append_nil]
    obtain ⟨attempt, hget, rfl⟩ := map_eq_some_iff.mp hst
    dsimp only [inTurn, undivided] at htn hu
    rw [hget, all_some] at htn hu
    cases hldg : attempt.ledger with
    | some => exact h
    | none =>
      rw [hldg] at htn hu
      by_cases htk : attempt.taskId = task
      · rw [if_pos htk, isSome_none, Bool.false_or, Bool.not_eq_true',
          Bool.eq_false_iff, Ne, Register.any_eq_true] at hu
        have hstl : settled s task = true := by simpa [htk] using htn
        refine h.opened hget htk hstl fun k l hl => ?_
        by_contra hpos
        refine hu ⟨k, (task, l), hl, ?_⟩
        simp [Nat.pos_of_ne_zero hpos]
      · refine h.untouched (untouched_ledgerForTask hget htk fun hlkp hfl n hhe => ?_)
        simp [htk, hlkp, hhe, Nat.not_lt.mpr hfl] at hu
  | reserve =>
    obtain ⟨x, hx, hst⟩ := bind_eq_some_iff.mp hst
    obtain ⟨y, hy, hst⟩ := bind_eq_some_iff.mp hst
    obtain ⟨_, hst⟩ := ite_none_left_eq_some.mp hst
    cases hst
    dsimp only [Event.recorded]
    rw [append_nil]
    exact h.untouched (untouched_onLedger (.inr fun l calls hbrs => hbrs.reserve _))
  | release =>
    cases hst
    dsimp only [Event.recorded]
    rw [append_nil]
    exact h.untouched (untouched_onLedger (.inr fun l calls hbrs => hbrs.release))
  | markExhausted =>
    cases hst
    dsimp only [Event.recorded]
    rw [append_nil]
    exact h.untouched (untouched_onLedger (.inr fun l calls hbrs => hbrs.markExhausted))
  | recordNodeUsage a nodeId params =>
    obtain ⟨⟨task', k⟩, hx, hst⟩ := bind_eq_some_iff.mp hst
    obtain ⟨y, hy, rfl⟩ := map_eq_some_iff.mp hst
    obtain ⟨l, hl⟩ := ho.held a task' k hx
    rw [hl] at hy
    cases hy
    rw [recorded_of_ledgerOf hx]
    by_cases htk : task' = task
    · subst htk
      rw [if_pos rfl]
      exact h.recorded hx hl nodeId params
    · -- the row is one of another task, too
      rw [if_neg htk, append_nil]
      have hfrm := untouched_onLedger (f := fun l => l.record nodeId params)
        (.inl (ne_of_owned hl htk))
      refine h.untouched ⟨hfrm.holders, hfrm.registry, hfrm.ledgers, fun other => ?_, hfrm.costs⟩
      exact get_setNodeUsage_ne fun hx => htk (Prod.mk.inj hx).1.symm
  | settleCost =>
    dsimp only [Event.recorded]
    rw [append_nil]
    obtain ⟨attempt, hget, rfl⟩ := map_eq_some_iff.mp hst
    cases hldg : attempt.ledger with
    | none => exact h
    | some =>
      by_cases htk : attempt.taskId = task
      · exact h.settle hget htk hldg
      · exact h.untouched (untouched_settleCost hget htk)
  | flushActiveCosts =>
    cases hst
    dsimp only [Event.recorded]
    rw [append_nil]
    exact h.untouched (untouched_flushActiveCosts h)

variable {log : List (Process τ κ × Event τ κ)}

theorem owned_logged {guard : Process τ κ → Event τ κ → Prop} (h : (system limits).Logged guard s log) : Owned s := by
  refine System.Reachable.invariant ?_ ?_ h.reachable
  · intro s h0
    rw [show s = ⟨.empty, [], .empty, ∅, ∅⟩ from h0]
    exact ⟨nofun, fun _ _ htr => absurd htr not_mem_nil⟩
  · intro s e s' _ _ hs hst
    exact hs.step hst

omit [DecidableEq κ] in
theorem recorded_snoc (log : List (Process τ κ × Event τ κ)) :
    recorded (log ++ [(s, e)]) task = recorded log task ++ e.recorded s task := by
  unfold recorded
  rw [flatMap_append]
  simp

theorem kept_logged
    (h : (system limits).Logged (fun s e => inTurn task s e = true ∧ undivided task s e = true) s log) :
    Kept task (recorded log task) s := by
  induction h with
  | @start s h0 =>
    rw [show s = ⟨.empty, [], .empty, ∅, ∅⟩ from h0]
    exact ⟨nofun, nofun, nofun, fun hne => absurd rfl hne, fun _ => ⟨rfl, rfl⟩, fun _ => ⟨rfl, rfl⟩⟩
  | @step s s' e log hlog hg hs ih =>
    rw [recorded_snoc]
    exact ih.step (owned_logged hlog) hg.1 hg.2 hs

/-! ## The cap -/

/-- The ledger is sound, and its task within the budget. -/
structure Capped (limits : BudgetLimits) (l : TaskBudgetLedger κ) : Prop where
  balanced : l.Balanced
  covered : l.Covered
  limits : l.limits = limits

omit [DecidableEq κ] in
theorem fresh_of_getLedger {taskId : τ}
    (h : (s.getLedger limits taskId).2.ledgers.get k = some (task, l)) :
    l = .fresh limits ∨ s.ledgers.get k = some (task, l) := by
  unfold getLedger at h
  split at h
  · exact .inr h
  · rcases Register.of_get_add h with ⟨_, hnew⟩ | hold
    · exact .inl (Prod.mk.inj hnew).2
    · exact .inr hold

/-- **Calls within their claims keep the ledgers of the task within the budget.** -/
theorem capped_step (h : ∀ k l, s.ledgers.get k = some (task, l) → Capped limits l) (ho : Owned s)
    (hw : withinGrant task s e = true) (hst : step limits s e = some s') :
    ∀ k l, s'.ledgers.get k = some (task, l) → Capped limits l := by
  -- an operation on one object
  have hoe : ∀ (f : TaskBudgetLedger κ → TaskBudgetLedger κ) (j : Nat),
      (∀ l, s.ledgers.get j = some (task, l) → Capped limits l → Capped limits (f l)) →
      ∀ k l, (s.onLedger j f).ledgers.get k = some (task, l) → Capped limits l := by
    intro f j hf k l hl
    rw [get_onLedger] at hl
    obtain ⟨⟨task', l₀⟩, hl₀, hpa⟩ := map_eq_some_iff.mp hl
    cases hpa
    have hcap := h k l₀ hl₀
    split
    · rename_i hkj
      exact hf l₀ (hkj ▸ hl₀) hcap
    · exact hcap
  cases e with
  | attempt | flushActiveCosts =>
    cases hst
    exact h
  | ledgerForTask =>
    obtain ⟨attempt, hget, rfl⟩ := map_eq_some_iff.mp hst
    split
    · exact h
    · intro k l hl
      rcases fresh_of_getLedger hl with rfl | hold
      · exact ⟨balanced_fresh limits, covered_fresh limits, rfl⟩
      · exact h k l hold
  | reserve a nodeId =>
    obtain ⟨x, hx, hst⟩ := bind_eq_some_iff.mp hst
    obtain ⟨y, hy, hst⟩ := bind_eq_some_iff.mp hst
    obtain ⟨hfr, hst⟩ := ite_none_left_eq_some.mp hst
    cases hst
    refine hoe _ _ fun l hl hcap => ?_
    rw [hy] at hl
    cases hl
    have hno := Storage.has_eq_false.mp (Bool.eq_false_iff.mpr hfr)
    have hlms := (@TaskBudgetLedger.reserve_frame κ _ l nodeId l.allowanceFor).1
    exact ⟨(hcap.balanced.reserve hno _).1, hcap.covered.reserve hcap.balanced _ _, hlms.trans hcap.limits⟩
  | release j nodeId =>
    cases hst
    refine hoe _ _ fun l _ hcap => ?_
    exact ⟨(hcap.balanced.release nodeId).1, hcap.covered.release hcap.balanced nodeId,
      (release_frame l nodeId).1.trans hcap.limits⟩
  | markExhausted j nodeId =>
    cases hst
    refine hoe _ _ fun l _ hcap => ?_
    exact ⟨hcap.balanced.markExhausted nodeId, hcap.covered, hcap.limits⟩
  | recordNodeUsage a nodeId params =>
    obtain ⟨⟨task', j⟩, hx, hst⟩ := bind_eq_some_iff.mp hst
    obtain ⟨y, hy, rfl⟩ := map_eq_some_iff.mp hst
    refine hoe (fun l => l.record nodeId params) j fun l hl hcap => ?_
    -- the ledger is one of the task, so the attempt is one, too
    obtain ⟨l', hl'⟩ := ho.held a task' j hx
    rw [hl] at hl'
    obtain ⟨rfl, rfl⟩ := Prod.mk.inj (some.inj hl')
    dsimp only [withinGrant] at hw
    rw [hx, all_some, hl, all_some] at hw
    have hwi : params.totalTokens ≤ l.held nodeId := by simpa using hw
    exact ⟨hcap.balanced.record nodeId params, hcap.covered.record hcap.balanced hwi,
      (record_limits params).trans hcap.limits⟩
  | settleCost =>
    obtain ⟨attempt, hget, rfl⟩ := map_eq_some_iff.mp hst
    split
    · unfold settleTaskCost
      split
      · exact h
      · split
        · exact h
        · exact h
    · exact h

theorem capped_logged (h : (system limits).Logged (fun s e => withinGrant task s e = true) s log) :
    ∀ k l, s.ledgers.get k = some (task, l) → Capped limits l := by
  induction h with
  | @start s h0 =>
    intro k l hl
    rw [show s = ⟨.empty, [], .empty, ∅, ∅⟩ from h0] at hl
    cases hl
  | @step s s' e log hlog hw hs ih => exact capped_step ih (owned_logged hlog) hw hs

/-! ## The theorem -/

/--
**The rows of a task are what all its attempts recorded, if one ledger bears it all.** In every run
in which the attempts of a task take their ledgers in turn, none takes a new one after a call was
recorded in an earlier attempt, and the registry never forgets the ledger of a running one:
whenever all attempts have settled, the rows of the task agree with the calls recorded for it; and
if its calls stay within what their nodes hold in reserve, all of them together stay within the
budget.
-/
theorem cost_covers_attempts (limits : BudgetLimits) (task : τ) {s : Process τ κ}
    {log : List (Process τ κ × Event τ κ)} (h : (system limits).Logged
      (fun s e => inTurn task s e = true ∧ undivided task s e = true) s log) :
    (settled s task = true → Persisted s task (recorded log task)) ∧
    ((∀ entry ∈ log, withinGrant task entry.1 entry.2 = true) →
      tokens (recorded log task) ≤ limits.maxTokensPerTask) := by
  have hkpt := kept_logged h
  constructor
  · intro hstl
    exact ⟨hkpt.costs hstl, hkpt.rows⟩
  · intro hwi
    have hcap := capped_logged (h.under hwi)
    by_cases hnil : recorded log task = []
    · rw [hnil]
      exact Int.natCast_nonneg _
    · obtain ⟨k, l, hl, hbrs⟩ := hkpt.spent hnil
      obtain ⟨hbld, hcvd, hlms⟩ := hcap k l hl
      have hrvd := hbld.reserved_nonneg
      unfold TaskBudgetLedger.Covered at hcvd
      rw [hlms, hbrs.used] at hcvd
      omega

/-! ## Examples -/

namespace Sample

/-- Eleven tokens for a task, ten of them for a call. -/
def narrow : BudgetLimits := ⟨11, 10⟩

/-- An agent reports that it used that many tokens. -/
def used (n : Int) : UsageParams := ⟨some ⟨0, n, n⟩, 0, 0⟩

/-- Node 1 spends ten tokens, with a flush in between; the second attempt has nothing to do. -/
def single : List (Event Nat Nat) :=
  [.attempt 7, .ledgerForTask 0, .reserve 0 1, .flushActiveCosts, .recordNodeUsage 0 1 (used 10),
    .flushActiveCosts, .settleCost 0, .attempt 7, .settleCost 1]

/-- Node 1 spends ten tokens, node 2 cannot be reached; the second attempt runs node 2. -/
def retried : List (Event Nat Nat) :=
  [.attempt 7, .ledgerForTask 0, .reserve 0 1, .recordNodeUsage 0 1 (used 10), .reserve 0 2,
    .release 0 2, .settleCost 0, .attempt 7, .ledgerForTask 1, .reserve 1 2,
    .recordNodeUsage 1 2 (used 10), .settleCost 1]

end Sample

/-- One attempt with a call, and one without. -/
theorem cost_covers_attempts_single : ∃ (s : Process Nat Nat) (log : List (Process Nat Nat × Event Nat Nat)),
    (system Sample.narrow).Logged
      (fun s e => inTurn 7 s e = true ∧ undivided 7 s e = true) s log ∧
    settled s 7 = true ∧ (recorded log 7).length = 1 ∧
    (settled s 7 = true → Persisted s 7 (recorded log 7)) ∧
    ((∀ entry ∈ log, withinGrant 7 entry.1 entry.2 = true) →
      tokens (recorded log 7) ≤ Sample.narrow.maxTokensPerTask) := by
  have hpl : ((system Sample.narrow).play
      (fun s e => inTurn 7 s e = true ∧ undivided 7 s e = true) Sample.single
      (⟨.empty, [], .empty, ∅, ∅⟩ : Process Nat Nat)).any (fun s => settled s 7) = true := by
    decide
  have hcs : (recorded ((system Sample.narrow).record Sample.single
      (⟨.empty, [], .empty, ∅, ∅⟩ : Process Nat Nat)) 7).length = 1 := by decide
  obtain ⟨s, hs, hstl⟩ := (Option.any_eq_true _ _).mp hpl
  have hlog := System.logged_of_play (S := system Sample.narrow) rfl hs
  exact ⟨s, _, hlog, hstl, hcs, cost_covers_attempts Sample.narrow 7 hlog⟩

/--
Two attempts with a call each, both within what their nodes hold in reserve: the row of the task
has the second one only, and both together are more than the budget.
-/
theorem cost_forgets_attempt : ∃ (s : Process Nat Nat) (log : List (Process Nat Nat × Event Nat Nat)),
    (system Sample.narrow).Logged
      (fun s e => inTurn 7 s e = true ∧ withinGrant 7 s e = true) s log ∧
    settled s 7 = true ∧ tokens (recorded log 7) = 20 ∧
    (s.taskCosts.get 7).map TaskCost.usedTokens = some 10 ∧
    ¬Persisted s 7 (recorded log 7) ∧
    (Sample.narrow.maxTokensPerTask : Int) < tokens (recorded log 7) := by
  have hpl : ((system Sample.narrow).play
      (fun s e => inTurn 7 s e = true ∧ withinGrant 7 s e = true) Sample.retried
      (⟨.empty, [], .empty, ∅, ∅⟩ : Process Nat Nat)).any (fun s => settled s 7 &&
        decide ((s.taskCosts.get 7).map TaskCost.usedTokens = some 10)) = true := by
    decide
  have htks : tokens (recorded ((system Sample.narrow).record Sample.retried
      (⟨.empty, [], .empty, ∅, ∅⟩ : Process Nat Nat)) 7) = 20 := by decide
  obtain ⟨s, hs, hend⟩ := (Option.any_eq_true _ _).mp hpl
  rw [Bool.and_eq_true] at hend
  have hrow := of_decide_eq_true hend.2
  have hlog := System.logged_of_play (S := system Sample.narrow) rfl hs
  refine ⟨s, _, hlog, hend.1, htks, hrow, ?_, ?_⟩
  · intro hpe
    have htot := hpe.total.1
    rw [hrow, htks] at htot
    cases htot
  · rw [htks]
    decide

end AiNet.Budget
