import AiNet.Budget.Ledger

/-!
# Who holds which ledger

What the operations of a process do to ledgers, holders and rows, one lemma each, and the
invariant `Owned`: a ledger that is held or tracked for a task is one of that task.
-/

namespace AiNet.Budget

open Core List Option Storage

variable {τ κ : Type} [DecidableEq τ] [DecidableEq κ] {limits : BudgetLimits}
  {s s' : Process τ κ} {e : Event τ κ} {task taskId : τ} {a b k : Nat}

/-! ## The registry as a list -/

section Registry

variable {registry : List (τ × Nat)}

omit [DecidableEq κ]

theorem lookup_filter_ne (h : task ≠ taskId) :
    (registry.filter fun entry => !decide (entry.1 = taskId)).lookup task = registry.lookup task := by
  induction registry with
  | nil => rfl
  | cons entry rest ih =>
    obtain ⟨first, n⟩ := entry
    by_cases hfst : first = taskId
    · rw [filter_cons_of_neg (by simp [hfst]), ih, lookup_cons, beq_eq_false_iff_ne.mpr (hfst ▸ h)]
    · rw [filter_cons_of_pos (by simp [hfst]), lookup_cons, lookup_cons, ih]

theorem lookup_filter_self :
    (registry.filter fun entry => !decide (entry.1 = taskId)).lookup taskId = none := by
  rw [lookup_eq_none_iff]
  intro entry hent
  have hne := (mem_filter.mp hent).2
  rw [Bool.not_eq_true', decide_eq_false_iff_not] at hne
  exact bne_iff_ne.mpr fun heq => hne heq.symm

theorem lookup_tail (h : ∀ n, registry.head? ≠ some (task, n)) :
    registry.tail.lookup task = registry.lookup task := by
  cases registry with
  | nil => rfl
  | cons entry =>
    obtain ⟨first, n⟩ := entry
    have hne : task ≠ first := by
      rintro rfl
      exact h n rfl
    rw [tail_cons, lookup_cons, beq_eq_false_iff_ne.mpr hne]

theorem lookup_tail_of_none (h : registry.lookup task = none) :
    registry.tail.lookup task = none := by
  rw [lookup_eq_none_iff] at h ⊢
  intro entry hent
  exact h entry (mem_of_mem_tail hent)

theorem mem_of_lookup (h : registry.lookup task = some k) : (task, k) ∈ registry := by
  induction registry with
  | nil => cases h
  | cons entry rest ih =>
    obtain ⟨first, n⟩ := entry
    rw [lookup_cons] at h
    split at h
    · rename_i heq
      cases h
      rw [eq_of_beq heq]
      exact mem_cons_self
    · exact mem_cons_of_mem _ (ih h)

end Registry

/-! ## Holders -/

namespace Process

omit [DecidableEq τ] [DecidableEq κ]

theorem ledgerOf_eq_some : s.ledgerOf a = some (task, k) ↔
    ∃ attempt, s.attempts.get a = some attempt ∧ attempt.taskId = task ∧ attempt.ledger = some k := by
  unfold ledgerOf
  rw [bind_eq_some_iff]
  constructor
  · intro ⟨attempt, hget, hmap⟩
    obtain ⟨j, hj, hpa⟩ := map_eq_some_iff.mp hmap
    obtain ⟨htk, rfl⟩ := Prod.mk.inj hpa
    exact ⟨attempt, hget, htk, hj⟩
  · intro ⟨attempt, hget, htk, hldg⟩
    refine ⟨attempt, hget, ?_⟩
    rw [hldg, map_some, htk]

theorem ledgerOf_hold (ledger : Option Nat) : (s.hold a ledger).ledgerOf b =
    if b = a then (s.attempts.get a).bind fun attempt => ledger.map fun k => (attempt.taskId, k)
    else s.ledgerOf b := by
  unfold hold ledgerOf
  dsimp only
  rw [Register.get_rewrite]
  by_cases hb : b = a
  · rw [if_pos hb, hb]
    cases s.attempts.get a with
    | none => rfl
    | some => simp
  · rw [if_neg hb]
    cases s.attempts.get b with
    | none => rfl
    | some => simp [hb]

theorem ledgerOf_attempt :
    ({ s with attempts := s.attempts.add ⟨taskId, none⟩ } : Process τ κ).ledgerOf b = s.ledgerOf b := by
  unfold ledgerOf
  dsimp only
  by_cases hb : b = s.attempts.next
  · rw [hb, Register.get_add_self, s.attempts.fresh _ (Nat.le_refl _)]
    rfl
  · rw [Register.get_add_of_ne hb]

theorem get_onLedger (f : TaskBudgetLedger κ → TaskBudgetLedger κ) (j : Nat) :
    (s.onLedger k f).ledgers.get j =
      (s.ledgers.get j).map fun x => (x.1, if j = k then f x.2 else x.2) := by
  unfold onLedger
  dsimp only
  rw [Register.get_rewrite]
  cases s.ledgers.get j with
  | none => rfl
  | some =>
    by_cases hj : j = k
    · simp [hj]
    · simp [hj]

end Process

omit [DecidableEq κ] in
theorem settled_iff : settled s task = true ↔ ∀ a k, s.ledgerOf a ≠ some (task, k) := by
  unfold settled
  rw [Bool.not_eq_true', Bool.eq_false_iff, Ne, Register.any_eq_true]
  constructor
  · intro h a k hhd
    obtain ⟨attempt, hget, htk, hldg⟩ := Process.ledgerOf_eq_some.mp hhd
    refine h ⟨a, attempt, hget, ?_⟩
    rw [decide_eq_true htk, hldg]
    rfl
  · intro h ⟨a, attempt, hget, hat⟩
    rw [Bool.and_eq_true] at hat
    obtain ⟨k, hk⟩ := isSome_iff_exists.mp hat.2
    exact h a k (Process.ledgerOf_eq_some.mpr ⟨attempt, hget, of_decide_eq_true hat.1, hk⟩)

/-! ## Rows -/

section Rows

variable {rows : Storage (τ × κ) AgentUsageEntry} {entry : AgentUsageEntry} {nodeId : κ}

/-- The counters of a row agree with some calls; no row counts nothing. -/
def Counts (row : Option AgentUsageEntry) (calls : List (κ × UsageParams)) : Prop :=
  (row.map AgentUsageEntry.totalTokens).getD 0 = tokens calls ∧
    (row.map AgentUsageEntry.calls).getD 0 = calls.length

omit [DecidableEq κ] in
theorem Counts.flag {calls : List (κ × UsageParams)} (h : Counts (some entry) calls) (flag : Bool) :
    Counts (some { entry with budgetExhausted := flag }) calls := h

theorem get_setNodeUsage_ne {x : τ × κ} (h : x ≠ (taskId, nodeId)) :
    (setNodeUsage rows taskId nodeId entry).get x = rows.get x :=
  get_set_ne _ _ h

theorem get_setNodeUsage_self : (setNodeUsage rows taskId nodeId entry).get (taskId, nodeId) =
    some { entry with
      budgetExhausted := (rows.get (taskId, nodeId)).any AgentUsageEntry.budgetExhausted ||
        entry.budgetExhausted } :=
  get_set_self _ _ _

theorem get_persistEntries_ne {l : TaskBudgetLedger κ} (h : task ≠ taskId) (nodeId : κ) :
    (persistEntries rows taskId l).get (task, nodeId) = rows.get (task, nodeId) := by
  unfold persistEntries
  generalize l.entries.keys = nodes
  induction nodes generalizing rows with
  | nil => rfl
  | cons node nodes ih =>
    rw [foldl_cons, ih]
    exact get_setNodeUsage_ne fun hx => h (Prod.mk.inj hx).1

end Rows

/-! ## Ownership -/

/-- A ledger that is held or tracked is one of the task it is held or tracked for. -/
structure Owned (s : Process τ κ) : Prop where
  held : ∀ a task k, s.ledgerOf a = some (task, k) → ∃ l, s.ledgers.get k = some (task, l)
  tracked : ∀ task k, (task, k) ∈ s.registry → ∃ l, s.ledgers.get k = some (task, l)

section

omit [DecidableEq τ] [DecidableEq κ]

theorem Owned.congr (h : Owned s) (hhds : ∀ a task k, s'.ledgerOf a = some (task, k) →
    s.ledgerOf a = some (task, k)) (hrgy : ∀ entry ∈ s'.registry, entry ∈ s.registry)
    (hle : ∀ task k l, s.ledgers.get k = some (task, l) →
      ∃ l', s'.ledgers.get k = some (task, l')) : Owned s' where
  held := by
    intro a task k hhd
    obtain ⟨l, hl⟩ := h.held a task k (hhds a task k hhd)
    exact hle task k l hl
  tracked := by
    intro task k htr
    obtain ⟨l, hl⟩ := h.tracked task k (hrgy _ htr)
    exact hle task k l hl

theorem exists_onLedger (f : TaskBudgetLedger κ → TaskBudgetLedger κ) {j : Nat}
    {l : TaskBudgetLedger κ} (h : s.ledgers.get j = some (task, l)) :
    ∃ l', (s.onLedger k f).ledgers.get j = some (task, l') := by
  rw [Process.get_onLedger, h]
  exact ⟨_, rfl⟩

end

omit [DecidableEq κ] in
theorem Owned.ledgerForTask (h : Owned s) {attempt : Attempt τ} (hget : s.attempts.get a = some attempt) :
    Owned ((s.getLedger limits attempt.taskId).2.hold a (some (s.getLedger limits attempt.taskId).1)) := by
  unfold Process.getLedger
  cases hlkp : s.registry.lookup attempt.taskId with
  | some =>
    refine ⟨?_, h.tracked⟩
    intro b task j hhd
    dsimp only at hhd
    rw [Process.ledgerOf_hold] at hhd
    split at hhd
    · rw [hget, bind_some, map_some] at hhd
      obtain ⟨rfl, rfl⟩ := Prod.mk.inj (some.inj hhd)
      exact h.tracked _ _ (mem_of_lookup hlkp)
    · exact h.held b task j hhd
  | none =>
    constructor
    · intro b task j hhd
      dsimp only at hhd
      rw [Process.ledgerOf_hold] at hhd
      split at hhd
      · rw [hget, bind_some, map_some] at hhd
        obtain ⟨rfl, rfl⟩ := Prod.mk.inj (some.inj hhd)
        exact ⟨_, Register.get_add_self⟩
      · obtain ⟨l, hl⟩ := h.held b task j hhd
        exact ⟨l, Register.get_add_of_some hl⟩
    · intro task j htr
      rcases mem_append.mp htr with hold | hnew
      · have hmem : (task, j) ∈ s.registry := by
          split at hold
          · exact mem_of_mem_tail hold
          · exact hold
        obtain ⟨l, hl⟩ := h.tracked task j hmem
        exact ⟨l, Register.get_add_of_some hl⟩
      · obtain ⟨rfl, rfl⟩ := Prod.mk.inj (mem_singleton.mp hnew)
        exact ⟨_, Register.get_add_self⟩

omit [DecidableEq τ] [DecidableEq κ] in
theorem ledgerOf_of_hold_none {task : τ} (h : (s.hold a none).ledgerOf b = some (task, k)) :
    b ≠ a ∧ s.ledgerOf b = some (task, k) := by
  rw [Process.ledgerOf_hold] at h
  split at h
  · cases hget : s.attempts.get a with
    | none | some =>
      rw [hget] at h
      cases h
  · rename_i hne
    exact ⟨hne, h⟩

theorem Owned.settleTaskCost (h : Owned s) (taskId : τ) : Owned (s.settleTaskCost taskId) := by
  unfold Process.settleTaskCost
  split
  · exact h
  · split
    · exact h
    · exact h.congr (fun _ _ _ hhd => hhd) (fun _ hent => mem_of_mem_filter hent)
        fun _ _ l hl => ⟨l, hl⟩

/-- **Every step leaves ledgers with their tasks.** -/
theorem Owned.step (h : Owned s) (hst : step limits s e = some s') : Owned s' := by
  cases e with
  | attempt =>
    cases hst
    refine h.congr ?_ (fun _ hent => hent) fun _ _ l hl => ⟨l, hl⟩
    intro b task j hhd
    rw [Process.ledgerOf_attempt] at hhd
    exact hhd
  | ledgerForTask =>
    obtain ⟨attempt, hget, rfl⟩ := map_eq_some_iff.mp hst
    split
    · exact h
    · exact h.ledgerForTask hget
  | reserve =>
    obtain ⟨x, hx, hst⟩ := bind_eq_some_iff.mp hst
    obtain ⟨y, hy, hst⟩ := bind_eq_some_iff.mp hst
    obtain ⟨_, hst⟩ := ite_none_left_eq_some.mp hst
    cases hst
    exact h.congr (fun _ _ _ hhd => hhd) (fun _ hent => hent) fun _ _ _ hl =>
      exists_onLedger _ hl
  | release | markExhausted =>
    cases hst
    exact h.congr (fun _ _ _ hhd => hhd) (fun _ hent => hent) fun _ _ _ hl =>
      exists_onLedger _ hl
  | recordNodeUsage a nodeId params =>
    obtain ⟨x, hx, hst⟩ := bind_eq_some_iff.mp hst
    obtain ⟨y, hy, rfl⟩ := map_eq_some_iff.mp hst
    exact h.congr (fun _ _ _ hhd => hhd) (fun _ hent => hent) fun _ _ _ hl =>
      exists_onLedger (fun l => l.record nodeId params) hl
  | settleCost =>
    obtain ⟨attempt, hget, rfl⟩ := map_eq_some_iff.mp hst
    split
    · refine (h.settleTaskCost attempt.taskId).congr ?_ (fun _ hent => hent)
        fun _ _ l hl => ⟨l, hl⟩
      intro b task j hhd
      exact (ledgerOf_of_hold_none hhd).2
    · exact h
  | flushActiveCosts =>
    cases hst
    exact h.congr (fun _ _ _ hhd => hhd) (fun _ hent => hent) fun _ _ l hl => ⟨l, hl⟩

end AiNet.Budget
