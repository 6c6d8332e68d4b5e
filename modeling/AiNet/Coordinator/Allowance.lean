import AiNet.Coordinator.Attempts
import Mathlib.Algebra.Ring.Int.Defs

/-!
# What the agents may spend

A node claims tokens when it starts and tells them to its agent later, after it has asked for
agents or waited for a retry. What it tells is computed anew then: the tokens that are neither
spent nor claimed, by any node. While that is at most what the node claimed itself, the tokens
recorded and those told to agents in flight stay within the budget. It is more when another
node gave back its claim in between; then the same tokens are told twice.
-/

namespace AiNet.Coordinator

open Core AiNet.Budget Relation List Option Function System

variable {κ : Type} [DecidableEq κ] {n : Nat} {p : Plan κ n}
  {guard : Run κ n → Event n → Prop} {marks : Fin n → Mark} {s s' : Run κ n}

/-! ## What is spent and what is told -/

def Effect.tokens : Effect n → Int
  | .recorded _ tokens => tokens
  | .task _ | .status _ _ | .dispatch _ | .call _ _ _ | .release _ | .paid _ _ | .aborted => 0

/-- The tokens recorded so far. -/
def spent (log : List (Effect n)) : Int := (log.map Effect.tokens).sum

/-- The tokens told to the agent whose call is in flight. -/
def Phase.told : Phase → Int
  | .calling _ told => told.getD 0
  | .idle | .taken | .waiting | .starting | .lookup | .answered _ | .retrying _ | .paying
  | .returned _ | .counted _ | .freed _ | .done _ => 0

/-- The sum of `budget.maxTokens` told to agents whose calls are in flight. -/
def toldInFlight (phase : Fin n → Phase) : Int := tally (fun _ f => f.told) phase

/-- Every agent reports at most what it was told. A `dispatch` function reports nothing. -/
def honest (s : Run κ n) : Event n → Bool
  | .answer i (.result _ params) =>
    match s.phase i with
    | .calling .override _ => true
    | f => decide (params.totalTokens ≤ f.told)
  | _ => true

/-- The run has not settled, and the allowance is at most what the node holds in reserve. -/
def holdsAllowance (p : Plan κ n) (s : Run κ n) (i : Fin n) : Bool :=
  !s.settled && decide (s.ledger.allowanceFor ≤ s.ledger.held (p.nodeId i))

/-- Every call that goes out finds it so. -/
def backed (p : Plan κ n) (s : Run κ n) : Event n → Bool
  | .agentsFor i (.ok _) => holdsAllowance p s i
  | .resume i =>
    match s.phase i with
    | .retrying (.call _) => holdsAllowance p s i
    | _ => true
  | _ => true

/-! ## What a small change does to the ledgers -/

/-- A node that may hold a claim. -/
def Phase.claims : Phase → Bool
  | .lookup | .calling _ _ | .answered _ | .retrying _ => true
  | .idle | .taken | .waiting | .starting | .paying | .returned _ | .counted _ | .freed _
  | .done _ => false

/-- What the ledgers have to do with in a run. -/
structure Account (κ : Type) (n : Nat) where
  phase : Fin n → Phase
  shelf : Nat → TaskBudgetLedger κ
  book : Nat
  holds : Fin n → Nat
  spent : Int
  settled : Bool

def Run.account (s : Run κ n) : Account κ n :=
  ⟨s.phase, s.shelf, s.book, s.holds, AiNet.Coordinator.spent s.log, s.settled⟩

/-- The ledger after the claim of a node is settled, and perhaps the node found out of budget. -/
def settledLedger (l : TaskBudgetLedger κ) (nodeId : κ) (exhaust : Bool) : TaskBudgetLedger κ :=
  let l := if l.usageCallsFor nodeId = 0 then l.release nodeId else l
  if exhaust then l.markExhausted nodeId else l

/-- What a small change does to them. Where `strict` holds, agents are honest and calls backed. -/
inductive Posting (p : Plan κ n) (strict : Prop) : Account κ n → Account κ n → Prop where
  /-- Nodes move on, no call goes out. -/
  | move {c} (phase : Fin n → Phase) : (∀ i, (phase i).claims = (c.phase i).claims) →
      (∀ i, (c.phase i).begun = true → (phase i).begun = true) →
      (∀ i, phase i = c.phase i ∨ (phase i).told = 0) → Posting p strict c { c with phase := phase }
  | refuse {c} (i) : c.phase i = .starting → Posting p strict c
      { c with
        holds := update c.holds i c.book
        shelf := update c.shelf c.book ((c.shelf c.book).markExhausted (p.nodeId i))
        phase := update c.phase i (.returned .refused) }
  | claim {c} (i phase) : c.phase i = .starting → phase.claims = true → phase.told = 0 → Posting p strict c
      { c with
        holds := update c.holds i c.book
        shelf := update c.shelf c.book
          ((c.shelf c.book).reserve (p.nodeId i) (c.shelf c.book).allowanceFor)
        phase := update c.phase i phase }
  | call {c} (i target) : (c.phase i).claims = true → (strict → c.settled = false ∧
        (c.shelf c.book).allowanceFor ≤ (c.shelf c.book).held (p.nodeId i)) → Posting p strict c
      { c with
        phase := update c.phase i (.calling target (some (c.shelf c.book).allowanceFor)) }
  | record {c} (i halt params) : (c.phase i).claims = true →
      (strict → params.totalTokens ≤ (c.phase i).told) → Posting p strict c
      { c with
        shelf := update c.shelf c.book ((c.shelf c.book).record (p.nodeId i) params)
        phase := update c.phase i (.answered halt)
        spent := c.spent + params.totalTokens }
  | close {c} (i phase exhaust) : (c.phase i).claims = true → phase.claims = false →
      phase.begun = true → phase.told = 0 → Posting p strict c
      { c with
        shelf := update c.shelf (c.holds i)
          (settledLedger (c.shelf (c.holds i)) (p.nodeId i) exhaust)
        phase := update c.phase i phase }
  | settle {c} : Posting p strict c { c with book := c.book + 1, settled := true }

section Account

omit [DecidableEq κ]

theorem account_eq {c : Account κ n} (hph : s.phase = c.phase) (hshe : s.shelf = c.shelf)
    (hbo : s.book = c.book) (hhds : s.holds = c.holds) (hspe : spent s.log = c.spent)
    (hstl : s.settled = c.settled) : s.account = c := by
  unfold Run.account
  rw [hph, hshe, hbo, hhds, hspe, hstl]

theorem spent_append (log more : List (Effect n)) : spent (log ++ more) = spent log + spent more := by
  unfold spent
  rw [map_append, sum_append]

end Account

variable {strict : Prop}

theorem Posting.congr_right {c c' : Account κ n} (h : Posting p strict c c')
    (heq : s.account = c') : Posting p strict c s.account :=
  heq ▸ h

variable {i : Fin n} {f : Phase}

theorem Posting.moves (f' : Phase) (hph : s.phase i = f) (hcls : f'.claims = f.claims)
    (hbeg : f.begun = true → f'.begun = true) (hto : f'.told = 0)
    (h : s'.account = { s.account with phase := update s.phase i f' }) :
    Posting p strict s.account s'.account := by
  rw [h]
  rw [← hph] at hcls hbeg
  refine .move _ ?_ ?_ ?_
  · intro j
    by_cases hji : j = i
    · rw [hji, update_self]
      exact hcls
    · rw [update_of_ne hji]
      rfl
  · intro j hj
    by_cases hji : j = i
    · rw [hji] at hj
      rw [hji, update_self]
      exact hbeg hj
    · rw [update_of_ne hji]
      exact hj
  · intro j
    by_cases hji : j = i
    · rw [hji, update_self]
      exact .inr hto
    · exact .inl (update_of_ne hji ..)

theorem Posting.stays (h : s'.account = s.account) :
    Posting p strict s.account s'.account := by
  rw [h]
  exact .move s.phase (fun _ => rfl) (fun _ => id) fun _ => .inl rfl

/-- What the guard of the runs has to say where `strict` holds. -/
abbrev Strict (p : Plan κ n) (guard : Run κ n → Event n → Prop) : Prop :=
  ∀ s e, guard s e → honest s e = true ∧ backed p s e = true

theorem holds_of_backed (h : holdsAllowance p s i = true) : s.account.settled = false ∧
    (s.account.shelf s.account.book).allowanceFor ≤ (s.account.shelf s.account.book).held (p.nodeId i) := by
  unfold holdsAllowance at h
  simp only [Bool.and_eq_true, Bool.not_eq_true', decide_eq_true_eq] at h
  exact h

/-- **What a small change does to the ledgers.** -/
theorem Change.posting (hw : Wired p s.control) (hc : Change p guard s s') :
    Posting p (Strict p guard) s.account s'.account := by
  have hno : ∀ {log : List (Effect n)} (es : List (Effect n)), log = s.log ++ es → spent es = 0 →
      spent log = spent s.log := by
    intro log es hlog hes
    rw [hlog, spent_append, hes, add_zero]
  cases hc with
  | take i hab hrdy =>
    have hil : s.phase i = .idle := by
      by_contra hne
      unfold Plan.ready at hrdy
      simp only [Bool.and_eq_true, Bool.not_eq_true', decide_eq_false_iff_not] at hrdy
      exact hrdy.1.2 (hw.scheduled i hne)
    exact .moves .taken hil rfl (by rintro ⟨⟩) rfl rfl
  | enqueue i hph => exact .moves .waiting hph rfl (by rintro ⟨⟩) rfl rfl
  | occupy i hph => exact .moves .starting hph rfl (by rintro ⟨⟩) rfl rfl
  | free i ending hph => exact .moves (.freed ending) hph rfl (fun _ => rfl) rfl rfl
  | finish i ending hph => exact .moves (.done ending) hph rfl (fun _ => rfl) rfl rfl
  | missing i message hph =>
    exact .moves (.retrying (.throw message)) hph rfl (fun _ => rfl) rfl rfl
  | overridden i halt params told hph =>
    exact .moves (.answered halt) hph rfl (fun _ => rfl) rfl rfl
  | fail i target retryable message told hph =>
    exact .moves (.retrying (Plan.afterFailure target retryable message)) hph rfl (fun _ => rfl)
      rfl rfl
  | countCompleted i hph => exact .moves (.counted .completed) hph rfl (fun _ => rfl) rfl rfl
  | countFailed i ending hph =>
    exact .moves (.counted ending) hph rfl (fun _ => rfl) rfl rfl
  | payment i ok hph =>
    exact .moves (.returned .completed) hph rfl (fun _ => rfl) rfl
      (account_eq rfl rfl rfl rfl (hno _ rfl rfl) rfl)
  | hand i ending j rest hph hque =>
    have hwts : s.phase j = .waiting := by
      rw [← show (j ∈ s.queue ↔ s.phase j = .waiting) from hw.queued j, hque]
      exact mem_cons_self
    refine .move _ (fun k => ?_) (fun k hk => ?_) fun k => ?_
    · dsimp only [Run.goto, Run.account]
      by_cases hkj : k = j
      · rw [hkj, update_self, hwts]
        rfl
      · rw [update_of_ne hkj]
        by_cases hki : k = i
        · rw [hki, update_self, hph]
          rfl
        · rw [update_of_ne hki]
    · dsimp only [Run.goto, Run.account] at hk ⊢
      by_cases hkj : k = j
      · rw [hkj, hwts] at hk
        cases hk
      · rw [update_of_ne hkj]
        by_cases hki : k = i
        · rw [hki, update_self]
          rfl
        · rw [update_of_ne hki]
          exact hk
    · dsimp only [Run.goto, Run.account]
      by_cases hkj : k = j
      · rw [hkj, update_self]
        exact .inr rfl
      · rw [update_of_ne hkj]
        by_cases hki : k = i
        · rw [hki, update_self]
          exact .inr rfl
        · exact .inl (update_of_ne hki ..)
  | refuse i hph =>
    have h : Posting p (Strict p guard) s.account _ := .refuse i hph
    refine h.congr_right (account_eq rfl ?_ rfl rfl ?_ rfl)
    · dsimp only [Plan.failNodeForBudget, Plan.enter, Run.goto, Run.setNode, Run.setStatus, Run.keep]
      rw [update_self]
      rfl
    · exact hno [.status i .running, .status i .failed] (append_assoc ..) rfl
  | dial i hph =>
    have h : Posting p (Strict p guard) s.account _ :=
      .claim i (.calling .override none) hph rfl rfl
    refine h.congr_right (account_eq rfl rfl rfl rfl ?_ rfl)
    exact hno [.status i .running, .dispatch i, .call i .override none]
      ((append_assoc ..).trans (append_assoc ..)) rfl
  | search i hph =>
    have h : Posting p (Strict p guard) s.account _ := .claim i .lookup hph rfl rfl
    refine h.congr_right (account_eq rfl rfl rfl rfl ?_ rfl)
    exact hno [.status i .running, .dispatch i] (append_assoc ..) rfl
  | found i fallback hph hg =>
    have h : Posting p (Strict p guard) s.account _ := .call i (.primary 1 fallback)
      (congrArg Phase.claims hph) fun hsct => holds_of_backed ((hsct _ _ hg).2)
    exact h.congr_right (account_eq rfl rfl rfl rfl (hno _ rfl rfl) rfl)
  | redial i target hph hg =>
    have h : Posting p (Strict p guard) s.account _ := .call i target
      (congrArg Phase.claims hph) fun hsct => (by
        have hbkd := (hsct _ _ hg).2
        unfold backed at hbkd
        dsimp only at hbkd
        rw [hph] at hbkd
        exact holds_of_backed hbkd)
    exact h.congr_right (account_eq rfl rfl rfl rfl (hno _ rfl rfl) rfl)
  | recorded i target halt params told hph htgt hg =>
    have h : Posting p (Strict p guard) s.account _ := .record i halt params
      (congrArg Phase.claims hph) fun hsct => (by
        have hho := (hsct _ _ hg).1
        unfold honest at hho
        dsimp only at hho
        rw [hph] at hho
        have hto : (s.account.phase i).told = (Phase.calling target told).told :=
          congrArg Phase.told hph
        rw [hto]
        cases target with
        | override => exact absurd rfl htgt
        | primary | fallback => exact of_decide_eq_true hho)
    refine h.congr_right (account_eq rfl rfl rfl rfl ?_ rfl)
    exact (spent_append ..).trans (congrArg (spent s.log + ·) (add_zero _))
  | halt i hph =>
    have h : Posting p (Strict p guard) s.account _ := .close i (.returned .failed) true
      (congrArg Phase.claims hph) rfl rfl rfl
    refine h.congr_right (account_eq rfl ?_ rfl rfl (hno _ rfl rfl) rfl)
    dsimp only [Plan.failNodeForBudget, Plan.settleClaim, Run.goto, Run.setNode, Run.keep]
    rw [update_idem, update_self]
    rfl
  | complete i hph =>
    have h : Posting p (Strict p guard) s.account _ := .close i .paying false
      (congrArg Phase.claims hph) rfl rfl rfl
    refine h.congr_right (account_eq rfl rfl rfl rfl ?_ rfl)
    exact hno [.status i .completed, .release i] (append_assoc ..) rfl
  | throw i message hph =>
    have h : Posting p (Strict p guard) s.account _ := .close i (.returned .failed) false
      (congrArg Phase.claims hph) rfl rfl rfl
    exact h.congr_right (account_eq rfl rfl rfl rfl (hno _ rfl rfl) rfl)
  | abort | cancel | block =>
    exact .stays (account_eq rfl rfl rfl rfl (hno _ rfl rfl) rfl)
  | settleCancelled | settle =>
    have h : Posting p (Strict p guard) s.account _ := .settle
    exact h.congr_right (account_eq rfl rfl rfl rfl (hno _ rfl rfl) rfl)

/-! ## Whose claims they are -/

section Settled

variable (l : TaskBudgetLedger κ) (nodeId : κ) (exhaust : Bool)

theorem settledLedger_frame : (settledLedger l nodeId exhaust).limits = l.limits ∧
    (settledLedger l nodeId exhaust).usedTokens = l.usedTokens ∧
      ∀ other, (settledLedger l nodeId exhaust).usageCallsFor other = l.usageCallsFor other := by
  obtain ⟨hlms, hus, _, hens⟩ := TaskBudgetLedger.release_frame l nodeId
  have husa : ∀ other, (l.release nodeId).usageCallsFor other = l.usageCallsFor other := by
    intro other
    unfold TaskBudgetLedger.usageCallsFor
    rw [hens]
  unfold settledLedger
  dsimp only
  split
  · split
    · exact ⟨hlms, hus, fun other =>
        (TaskBudgetLedger.usageCallsFor_markExhausted other).trans (husa other)⟩
    · exact ⟨rfl, rfl, fun other => TaskBudgetLedger.usageCallsFor_markExhausted other⟩
  · split
    · exact ⟨hlms, hus, husa⟩
    · exact ⟨rfl, rfl, fun _ => rfl⟩

variable {l nodeId} in
theorem settledLedger_reservations (h : l.usageCallsFor nodeId ≠ 0 → l.reservations.get nodeId = none)
    (hb : l.Balanced) : (settledLedger l nodeId exhaust).Balanced ∧
      (settledLedger l nodeId exhaust).reservedTokens = l.reservedTokens - l.held nodeId ∧
        ∀ other, (settledLedger l nodeId exhaust).reservations.get other =
          if other = nodeId then none else l.reservations.get other := by
  have hmk : ∀ {l' : TaskBudgetLedger κ}, l'.Balanced →
      (if exhaust = true then l'.markExhausted nodeId else l').Balanced ∧
        (if exhaust = true then l'.markExhausted nodeId else l').reservedTokens = l'.reservedTokens ∧
          (if exhaust = true then l'.markExhausted nodeId else l').reservations = l'.reservations := by
    intro l' hb'
    split
    · exact ⟨hb'.markExhausted nodeId, rfl, rfl⟩
    · exact ⟨hb', rfl, rfl⟩
  unfold settledLedger
  dsimp only
  by_cases hz : l.usageCallsFor nodeId = 0
  · rw [if_pos hz]
    obtain ⟨hb', hrvd, hre⟩ := hmk (hb.release nodeId).1
    refine ⟨hb', hrvd.trans (hb.release nodeId).2, fun other => ?_⟩
    rw [hre]
    exact TaskBudgetLedger.get_release other
  · rw [if_neg hz]
    have hno := h hz
    have hhd : l.held nodeId = 0 := by
      unfold TaskBudgetLedger.held
      rw [hno]
      rfl
    obtain ⟨hb', hrvd, hre⟩ := hmk hb
    refine ⟨hb', ?_, fun other => ?_⟩
    · rw [hrvd, hhd, Int.sub_zero]
    · rw [hre]
      split
      · rename_i ho
        rw [ho]
        exact hno
      · rfl

end Settled

/-- In every ledger a claim is that of a node on its way, for which no call was recorded. -/
structure Attributed (p : Plan κ n) (c : Account κ n) : Prop where
  balanced : ∀ b, (c.shelf b).Balanced
  claimed : ∀ b id held, (c.shelf b).reservations.get id = some held → ∃ i, p.nodeId i = id ∧
    (c.phase i).claims = true ∧ c.holds i = b ∧ (c.shelf b).usageCallsFor id = 0
  used : ∀ b id, (c.shelf b).usageCallsFor id ≠ 0 → ∃ i, p.nodeId i = id ∧ (c.phase i).begun = true

variable {strict : Prop} {c c' : Account κ n}

theorem Phase.begun_of_claims (h : f.claims = true) : f.begun = true := by
  cases f with
  | lookup | calling | answered | retrying => rfl
  | idle | taken | waiting | starting | paying | returned | counted | freed | done => cases h

theorem Phase.ne_idle_of_begun (h : f.begun = true) : f ≠ .idle := by
  intro hil
  rw [hil] at h
  cases h

theorem attributed_blank (p : Plan κ n) (marks : Fin n → Mark) :
    Attributed p (p.blank marks).account where
  balanced := fun _ => TaskBudgetLedger.balanced_fresh p.budgetLimits
  claimed := by
    intro b id held h
    cases h
  used := by
    intro b id h
    exact absurd rfl h

theorem Attributed.untouched (h : Attributed p c)
    (hun : ∀ i j, c.phase i ≠ .idle → c.phase j ≠ .idle → p.nodeId i = p.nodeId j → i = j)
    (hi : c.phase i = .starting) (b : Nat) :
    (c.shelf b).reservations.get (p.nodeId i) = none ∧ (c.shelf b).usageCallsFor (p.nodeId i) = 0 := by
  have hoth : ∀ {j : Fin n}, p.nodeId j = p.nodeId i → (c.phase j).begun = true → False := by
    intro j hid hj
    have hji := hun j i (Phase.ne_idle_of_begun hj) (hi.trans_ne Phase.noConfusion) hid
    rw [hji, hi] at hj
    cases hj
  constructor
  · by_contra hso
    obtain ⟨held, hhd⟩ := ne_none_iff_exists'.mp hso
    obtain ⟨j, hid, hcls, _⟩ := h.claimed b _ held hhd
    exact hoth hid (Phase.begun_of_claims hcls)
  · by_contra hne
    obtain ⟨j, hid, hbeg⟩ := h.used b _ hne
    exact hoth hid hbeg

theorem Attributed.settled (h : Attributed p c) (i : Fin n) (b : Nat)
    (hne : (c.shelf b).usageCallsFor (p.nodeId i) ≠ 0) :
    (c.shelf b).reservations.get (p.nodeId i) = none := by
  by_contra hso
  obtain ⟨held, hhd⟩ := ne_none_iff_exists'.mp hso
  obtain ⟨j, _, _, _, hz⟩ := h.claimed b _ held hhd
  exact hne hz

theorem Attributed.turn (h : Attributed p c) {f' : Phase} {b : Nat} {l : TaskBudgetLedger κ}
    (hph : c'.phase = update c.phase i f') (hshe : c'.shelf = update c.shelf b l)
    (hbeg : f'.begun = true) (hhds : ∀ j, j ≠ i → c'.holds j = c.holds j) (hbld : l.Balanced)
    (hcmd : ∀ id held, l.reservations.get id = some held → p.nodeId i = id ∧ f'.claims = true ∧ c'.holds i = b ∧ l.usageCallsFor id = 0 ∨ (c.shelf b).reservations.get id = some held ∧ l.usageCallsFor id = (c.shelf b).usageCallsFor id ∧ ((c.phase i).claims = true → p.nodeId i ≠ id))
    (hel : (c.phase i).claims = true → f'.claims = true ∧ c'.holds i = c.holds i ∨ c.holds i = b)
    (hus : ∀ id, l.usageCallsFor id ≠ 0 → p.nodeId i = id ∨ (c.shelf b).usageCallsFor id ≠ 0) :
    Attributed p c' := by
  have hkpt : ∀ {j : Fin n}, (c.phase j).begun = true → (c'.phase j).begun = true := by
    intro j hj
    rw [hph]
    by_cases hji : j = i
    · rw [hji, update_self]
      exact hbeg
    · rwa [update_of_ne hji]
  refine ⟨fun b' => ?_, fun b' id held hget => ?_, fun b' id hne => ?_⟩
  · rw [hshe]
    by_cases hb : b' = b
    · rw [hb, update_self]
      exact hbld
    · rw [update_of_ne hb]
      exact h.balanced b'
  · rw [hshe] at hget ⊢
    by_cases hb : b' = b
    · rw [hb, update_self] at hget ⊢
      rcases hcmd id held hget with ⟨hid, hcls, hhl, hz⟩ | ⟨hold, hsm, hnot⟩
      · refine ⟨i, hid, ?_, hhl, hz⟩
        rw [hph, update_self]
        exact hcls
      · obtain ⟨j, hid, hcls, hhl, hz⟩ := h.claimed b id held hold
        have hji : j ≠ i := fun hji => hnot (hji ▸ hcls) (hji ▸ hid)
        refine ⟨j, hid, ?_, (hhds j hji).trans hhl, hsm.trans hz⟩
        rw [hph, update_of_ne hji]
        exact hcls
    · rw [update_of_ne hb] at hget ⊢
      obtain ⟨j, hid, hcls, hhl, hz⟩ := h.claimed b' id held hget
      by_cases hji : j = i
      · rw [hji] at hid hcls hhl
        rcases hel hcls with ⟨hstl, hsm⟩ | hhd
        · refine ⟨i, hid, ?_, hsm.trans hhl, hz⟩
          rw [hph, update_self]
          exact hstl
        · exact absurd (hhl.symm.trans hhd) hb
      · refine ⟨j, hid, ?_, (hhds j hji).trans hhl, hz⟩
        rw [hph, update_of_ne hji]
        exact hcls
  · rw [hshe] at hne
    by_cases hb : b' = b
    · rw [hb, update_self] at hne
      rcases hus id hne with hid | hold
      · refine ⟨i, hid, ?_⟩
        rw [hph, update_self]
        exact hbeg
      · obtain ⟨j, hid, hj⟩ := h.used b id hold
        exact ⟨j, hid, hkpt hj⟩
    · rw [update_of_ne hb] at hne
      obtain ⟨j, hid, hj⟩ := h.used b' id hne
      exact ⟨j, hid, hkpt hj⟩

theorem Attributed.moves (h : Attributed p c) (hshe : c'.shelf = c.shelf) (hhds : c'.holds = c.holds)
    (hcls : ∀ i, (c.phase i).claims = true → (c'.phase i).claims = true)
    (hbeg : ∀ i, (c.phase i).begun = true → (c'.phase i).begun = true) : Attributed p c' where
  balanced := by
    rw [hshe]
    exact h.balanced
  claimed := by
    intro b id held hget
    rw [hshe] at hget ⊢
    obtain ⟨i, hid, hi, hhl, hz⟩ := h.claimed b id held hget
    exact ⟨i, hid, hcls i hi, (congrFun hhds i).trans hhl, hz⟩
  used := by
    intro b id hne
    rw [hshe] at hne
    obtain ⟨i, hid, hi⟩ := h.used b id hne
    exact ⟨i, hid, hbeg i hi⟩

/-- **The claims stay attributed.** -/
theorem Attributed.posting (h : Attributed p c)
    (hun : ∀ i j, c.phase i ≠ .idle → c.phase j ≠ .idle → p.nodeId i = p.nodeId j → i = j)
    (hp : Posting p strict c c') : Attributed p c' := by
  cases hp with
  | move phase hcls hbeg =>
    exact h.moves rfl rfl (fun i hi => (hcls i).trans hi) hbeg
  | settle => exact h.moves rfl rfl (fun _ => id) fun _ => id
  | call i =>
    refine h.moves rfl rfl (fun j hj => ?_) fun j hj => ?_
    · by_cases hji : j = i
      · dsimp only
        rw [hji, update_self]
        rfl
      · dsimp only
        rwa [update_of_ne hji]
    · by_cases hji : j = i
      · dsimp only
        rw [hji, update_self]
        rfl
      · dsimp only
        rwa [update_of_ne hji]
  | refuse i hph =>
    refine h.turn (i := i) (b := c.book) rfl rfl rfl (fun j hji => update_of_ne hji ..)
      ((h.balanced c.book).markExhausted _) (fun id held hget => .inr ⟨hget, ?_, ?_⟩) ?_
      fun id hne => .inr ?_
    · exact TaskBudgetLedger.usageCallsFor_markExhausted id
    · intro hcls
      rw [hph] at hcls
      cases hcls
    · intro hcls
      rw [hph] at hcls
      cases hcls
    · rwa [TaskBudgetLedger.usageCallsFor_markExhausted] at hne
  | claim i phase hph hcls hto =>
    have hfr := h.untouched hun hph
    have husa : ∀ id, ((c.shelf c.book).reserve (p.nodeId i)
        (c.shelf c.book).allowanceFor).usageCallsFor id = (c.shelf c.book).usageCallsFor id := by
      intro id
      unfold TaskBudgetLedger.usageCallsFor
      rw [(TaskBudgetLedger.reserve_frame _).2.2.2]
    refine h.turn (i := i) (b := c.book) rfl rfl (Phase.begun_of_claims hcls)
      (fun j hji => update_of_ne hji ..)
      ((h.balanced c.book).reserve (hfr c.book).1 _).1 (fun id held hget => ?_) ?_
      fun id hne => .inr ?_
    · rw [husa]
      rw [TaskBudgetLedger.get_reserve] at hget
      split at hget
      · rename_i hown
        refine .inl ⟨hown.1.symm, hcls, update_self .., ?_⟩
        rw [hown.1]
        exact (hfr c.book).2
      · refine .inr ⟨hget, rfl, fun hbf => ?_⟩
        rw [hph] at hbf
        cases hbf
    · intro hbf
      rw [hph] at hbf
      cases hbf
    · rwa [husa] at hne
  | record i halt params hcls hsct =>
    refine h.turn (i := i) (b := c.book) rfl rfl rfl (fun _ _ => rfl)
      ((h.balanced c.book).record _ params) (fun id held hget => .inr ?_)
      (fun _ => .inl ⟨rfl, rfl⟩) fun id hne => ?_
    · rw [TaskBudgetLedger.record_reservations, TaskBudgetLedger.get_release] at hget
      rw [TaskBudgetLedger.usageCallsFor_record]
      split at hget
      · cases hget
      · rename_i hoth
        exact ⟨hget, if_neg hoth, fun _ => Ne.symm hoth⟩
    · rw [TaskBudgetLedger.usageCallsFor_record] at hne
      split at hne
      · rename_i hown
        exact .inl hown.symm
      · exact .inr hne
  | close i phase exhaust hcls hnot hbeg hto =>
    obtain ⟨hbld, _, hget'⟩ := settledLedger_reservations exhaust (h.settled i (c.holds i))
      (h.balanced (c.holds i))
    obtain ⟨_, _, husa⟩ := settledLedger_frame (c.shelf (c.holds i)) (p.nodeId i) exhaust
    refine h.turn (i := i) (b := c.holds i) rfl rfl hbeg (fun _ _ => rfl) hbld
      (fun id held hget => .inr ?_) (fun _ => .inr rfl) fun id hne => .inr ?_
    · rw [hget'] at hget
      split at hget
      · cases hget
      · rename_i hoth
        exact ⟨hget, husa id, fun _ => Ne.symm hoth⟩
    · rwa [husa] at hne

theorem Passed.attributed (h : Passed p guard marks s) : Attributed p s.account := by
  refine h.invariant (I := fun s => Attributed p s.account) (attributed_blank p marks) ?_
  intro s s' hs hc ih
  exact ih.posting hs.wired.unique (hc.posting hs.wired)

/-- **After all calls are settled no ledger holds a reservation.** -/
theorem Passed.reserved_eq_zero (h : Passed p guard marks s) (hqt : Quiet s) (b : Nat) :
    (s.shelf b).reservedTokens = 0 := by
  have hat := h.attributed
  refine (hat.balanced b).reserved_eq_zero fun id => ?_
  by_contra hso
  obtain ⟨held, hhd⟩ := ne_none_iff_exists'.mp hso
  obtain ⟨i, _, hcls, _⟩ := hat.claimed b id held hhd
  have hph : (s.phase i).claims = true := hcls
  cases hi : s.phase i with
  | lookup | calling | answered | retrying =>
    rcases hqt i with hstl | hwts
    · rw [hi] at hstl
      cases hstl
    · rw [hi] at hwts
      cases hwts
  | idle | taken | waiting | starting | paying | returned | counted | freed | done =>
    rw [hi] at hph
    cases hph

/-! ## Calls that are backed -/

def Account.ledger (c : Account κ n) : TaskBudgetLedger κ := c.shelf c.book

/-- What a node on its way holds in the current ledger. -/
def claimOf (p : Plan κ n) (c : Account κ n) (i : Fin n) : Int :=
  if (c.phase i).claims then c.ledger.held (p.nodeId i) else 0

/-- What is recorded and told is in the current ledger, spent or held back for the node that was
told. -/
structure Funded (p : Plan κ n) (c : Account κ n) : Prop where
  holds : ∀ i, c.holds i = c.book
  limits : c.ledger.limits = p.budgetLimits
  used : c.ledger.usedTokens = c.spent
  covered : c.ledger.Covered
  reserved : c.ledger.reservedTokens = tally (fun _ x => x) (claimOf p c)
  told : ∀ i, (c.phase i).told ≤ claimOf p c i

theorem funded_blank (p : Plan κ n) (marks : Fin n → Mark) : Funded p (p.blank marks).account where
  holds := fun _ => rfl
  limits := rfl
  used := rfl
  covered := TaskBudgetLedger.covered_fresh p.budgetLimits
  reserved := (tally_eq_zero fun _ => rfl).symm
  told := fun _ => le_refl 0

theorem Funded.bound (h : Funded p c) :
    c.spent + toldInFlight c.phase ≤ p.budgetLimits.maxTokensPerTask := by
  have hto : toldInFlight c.phase ≤ tally (fun _ x => x) (claimOf p c) := tally_mono h.told
  have hcvd := h.covered
  unfold TaskBudgetLedger.Covered at hcvd
  rw [h.limits, h.used, h.reserved] at hcvd
  omega

theorem Funded.turn (h : Funded p c) {f' : Phase} {l : TaskBudgetLedger κ}
    (hph : c'.phase = update c.phase i f') (hldg : c'.ledger = l)
    (hhds : ∀ j, c'.holds j = c'.book) (hlms : l.limits = c.ledger.limits)
    (hus : l.usedTokens = c'.spent) (hcvd : l.Covered)
    (hots : ∀ j, j ≠ i → (c.phase j).claims = true → l.held (p.nodeId j) = c.ledger.held (p.nodeId j))
    {claim : Int} (hclm : (if f'.claims then l.held (p.nodeId i) else 0) = claim)
    (hrvd : l.reservedTokens + claimOf p c i = c.ledger.reservedTokens + claim)
    (hto : f'.told ≤ claim) : Funded p c' := by
  have hsm : ∀ j, j ≠ i → claimOf p c' j = claimOf p c j := by
    intro j hji
    unfold claimOf
    rw [hph, update_of_ne hji, hldg]
    split
    · rename_i hcls
      exact hots j hji hcls
    · rfl
  have hsf : claimOf p c' i = claim := by
    unfold claimOf
    rw [hph, update_self, hldg]
    exact hclm
  have hcls : claimOf p c' = update (claimOf p c) i claim := by
    funext j
    by_cases hji : j = i
    · rw [hji, update_self, hsf]
    · rw [update_of_ne hji]
      exact hsm j hji
  refine ⟨hhds, ?_, ?_, ?_, ?_, ?_⟩
  · rw [hldg]
    exact hlms.trans h.limits
  · rw [hldg]
    exact hus
  · rw [hldg]
    exact hcvd
  · have hupd : tally (fun _ x => x) (update (claimOf p c) i claim) + claimOf p c i =
        tally (fun _ x => x) (claimOf p c) + claim := tally_update i claim
    have hbf := h.reserved
    rw [hcls, hldg]
    omega
  · intro j
    rw [hph]
    by_cases hji : j = i
    · rw [hji, update_self, hsf]
      exact hto
    · rw [update_of_ne hji, hsm j hji]
      exact h.told j

section Held

variable {l l' : TaskBudgetLedger κ} {nodeId : κ}

theorem held_congr (h : l'.reservations.get nodeId = l.reservations.get nodeId) :
    l'.held nodeId = l.held nodeId := by
  unfold TaskBudgetLedger.held
  rw [h]

theorem held_eq_zero (h : l.reservations.get nodeId = none) : l.held nodeId = 0 := by
  unfold TaskBudgetLedger.held
  rw [h]
  rfl

omit [DecidableEq κ] in
theorem allowanceFor_nonneg (l : TaskBudgetLedger κ) : 0 ≤ l.allowanceFor := by
  unfold TaskBudgetLedger.allowanceFor TaskBudgetLedger.availableTokens
  omega

end Held

/-- **Until the run settles, an honest and backed posting leaves it so.** -/
theorem Funded.posting (h : Funded p c) (hat : Attributed p c)
    (hun : ∀ i j, c.phase i ≠ .idle → c.phase j ≠ .idle → p.nodeId i = p.nodeId j → i = j)
    (hsct : strict) (hp : Posting p strict c c') (hon : c'.settled = false) : Funded p c' := by
  have hbld : c.ledger.Balanced := hat.balanced c.book
  have hoth : ∀ {i j : Fin n}, j ≠ i → (c.phase j).claims = true → c.phase i ≠ .idle →
      p.nodeId j ≠ p.nodeId i := by
    intro i j hji hcls hil hid
    exact hji (hun j i (Phase.ne_idle_of_begun (Phase.begun_of_claims hcls)) hil hid)
  -- a node that starts has no claim yet, and the ledger it takes is the current one
  have hst : ∀ {i : Fin n}, c.phase i = .starting → claimOf p c i = 0 := by
    intro i hph
    unfold claimOf
    rw [hph]
    rfl
  have hhds : ∀ {i : Fin n} (j : Fin n), update c.holds i c.book j = c.book := by
    intro i j
    by_cases hji : j = i
    · rw [hji, update_self]
    · rw [update_of_ne hji]
      exact h.holds j
  cases hp with
  | settle => cases hon
  | move phase hcls hbeg hto =>
    have hsm : claimOf p { c with phase := phase } = claimOf p c := by
      funext i
      unfold claimOf
      dsimp only
      rw [hcls i]
      rfl
    refine ⟨h.holds, h.limits, h.used, h.covered, ?_, fun i => ?_⟩
    · rw [hsm]
      exact h.reserved
    · rw [hsm]
      rcases hto i with hkpt | hz
      · dsimp only
        rw [hkpt]
        exact h.told i
      · dsimp only
        rw [hz]
        unfold claimOf
        split
        · exact hbld.held_nonneg _
        · exact le_refl 0
  | call i target hcls hbkd =>
    exact h.turn (i := i) rfl rfl h.holds rfl h.used h.covered (fun _ _ _ => rfl) (if_pos rfl)
      (congrArg (c.ledger.reservedTokens + ·) (if_pos hcls)) (hbkd hsct).2
  | refuse i hph =>
    refine h.turn (i := i) rfl (update_self ..) hhds rfl h.used h.covered
      (fun _ _ _ => rfl) (if_neg Bool.false_ne_true) ?_ (le_refl 0)
    rw [hst hph]
    rfl
  | claim i phase hph hcls hto =>
    have hfr := (hat.untouched hun hph c.book).1
    obtain ⟨hlms, hus, _, _⟩ := @TaskBudgetLedger.reserve_frame _ _
      c.ledger (p.nodeId i) c.ledger.allowanceFor
    obtain ⟨hbld', hrvd⟩ := hbld.reserve hfr c.ledger.allowanceFor
    refine h.turn (i := i) rfl (update_self ..) hhds hlms (hus.trans h.used)
      (h.covered.reserve hbld _ _) (fun j hji hj => held_congr ?_) (if_pos hcls) ?_ ?_
    · rw [TaskBudgetLedger.get_reserve]
      exact if_neg fun hown => hoth hji hj (hph.trans_ne Phase.noConfusion) hown.1
    · rw [hst hph, add_zero]
      exact hrvd
    · rw [hto]
      exact hbld'.held_nonneg _
  | record i halt params hcls hho =>
    have hil := Phase.ne_idle_of_begun (Phase.begun_of_claims hcls)
    have hhe : claimOf p c i = c.ledger.held (p.nodeId i) := if_pos hcls
    have hwi : params.totalTokens ≤ c.ledger.held (p.nodeId i) :=
      hhe ▸ (hho hsct).trans (h.told i)
    have hno : (c.ledger.record (p.nodeId i) params).reservations.get (p.nodeId i) = none := by
      rw [TaskBudgetLedger.record_reservations, TaskBudgetLedger.get_release]
      exact if_pos rfl
    refine h.turn (i := i) rfl (update_self ..) h.holds
      (TaskBudgetLedger.record_limits params) ?_ (h.covered.record hbld hwi)
      (fun j hji hj => held_congr ?_) ((if_pos rfl).trans (held_eq_zero hno)) ?_ (le_refl 0)
    · exact (TaskBudgetLedger.record_usedTokens params).trans
        (congrArg (· + params.totalTokens) h.used)
    · rw [TaskBudgetLedger.record_reservations, TaskBudgetLedger.get_release]
      exact if_neg (hoth hji hj hil)
    · have hrvd := (hbld.release (p.nodeId i)).2
      rw [hhe]
      dsimp only [Account.ledger] at hrvd ⊢
      rw [TaskBudgetLedger.record_reservedTokens, hrvd]
      omega
  | close i phase exhaust hcls hnot hbeg hto =>
    have hil := Phase.ne_idle_of_begun (Phase.begun_of_claims hcls)
    have hhe : claimOf p c i = c.ledger.held (p.nodeId i) := if_pos hcls
    have hbo : c.shelf (c.holds i) = c.ledger := congrArg c.shelf (h.holds i)
    have hstl : c.ledger.usageCallsFor (p.nodeId i) ≠ 0 →
        c.ledger.reservations.get (p.nodeId i) = none := hat.settled i c.book
    obtain ⟨hlms, hus, _⟩ := settledLedger_frame c.ledger (p.nodeId i) exhaust
    obtain ⟨hbld', hrvd, hget⟩ := settledLedger_reservations exhaust hstl hbld
    refine h.turn (i := i) (l := settledLedger c.ledger (p.nodeId i) exhaust) rfl ?_ h.holds
      hlms (hus.trans h.used) ?_ (fun j hji hj => held_congr ?_)
      (if_neg (by rw [hnot]; exact Bool.false_ne_true)) ?_ hto.le
    · dsimp only [Account.ledger]
      rw [h.holds i, update_self]
    · have hcvd := h.covered
      have hhd := hbld.held_nonneg (p.nodeId i)
      unfold TaskBudgetLedger.Covered at hcvd ⊢
      rw [hlms, hus, hrvd]
      omega
    · rw [hget]
      exact if_neg (hoth hji hj hil)
    · rw [hrvd, hhe]
      omega

/-! ## The cap -/

theorem toldInFlight_update {phase : Fin n → Phase} (i : Fin n) (f : Phase) :
    toldInFlight (update phase i f) + (phase i).told = toldInFlight phase + f.told :=
  tally_update i f

theorem Posting.told_nonneg (hp : Posting p strict c c') (h : ∀ i, 0 ≤ (c.phase i).told) (i : Fin n) :
    0 ≤ (c'.phase i).told := by
  have hupd : ∀ {j : Fin n} {f : Phase}, 0 ≤ f.told → 0 ≤ (update c.phase j f i).told := by
    intro j f hf
    by_cases hij : i = j
    · rw [hij, update_self]
      exact hf
    · rw [update_of_ne hij]
      exact h i
  cases hp with
  | move phase hcls hbeg hto =>
    rcases hto i with hkpt | hz
    · dsimp only
      rw [hkpt]
      exact h i
    · dsimp only
      rw [hz]
  | settle => exact h i
  | call => exact hupd (allowanceFor_nonneg _)
  | refuse | record => exact hupd (le_refl 0)
  | claim j phase hph hcls hto | close j phase exhaust hcls hnot hbeg hto => exact hupd hto.ge

/-- What is recorded and told fits into the budget, for good. -/
structure Spends (p : Plan κ n) (c : Account κ n) : Prop where
  attributed : Attributed p c
  nonneg : ∀ i, 0 ≤ (c.phase i).told
  funded : c.settled = false → Funded p c
  bound : c.spent + toldInFlight c.phase ≤ p.budgetLimits.maxTokensPerTask

theorem Posting.opens (hp : Posting p strict c c') (hon : c'.settled = false) :
    c.settled = false := by
  cases hp with
  | settle => cases hon
  | move | refuse | claim | call | record | close => exact hon

/-- **Every honest and backed posting keeps within the budget.** -/
theorem Spends.posting (h : Spends p c)
    (hun : ∀ i j, c.phase i ≠ .idle → c.phase j ≠ .idle → p.nodeId i = p.nodeId j → i = j)
    (hsct : strict) (hp : Posting p strict c c') : Spends p c' where
  attributed := h.attributed.posting hun hp
  nonneg := hp.told_nonneg h.nonneg
  funded := by
    intro hon
    exact (h.funded (hp.opens hon)).posting h.attributed hun hsct hp hon
  bound := by
    have hbd := h.bound
    -- a call that is no longer in flight was told nothing negative
    have hle : ∀ {i : Fin n} {f : Phase}, f.told = 0 →
        toldInFlight (update c.phase i f) + (c.phase i).told = toldInFlight c.phase := by
      intro i f hf
      rw [toldInFlight_update, hf, add_zero]
    cases hp with
    | settle => exact hbd
    | move phase hcls hbeg hto =>
      have hmo : toldInFlight phase ≤ toldInFlight c.phase := by
        refine tally_mono fun i => ?_
        rcases hto i with hkpt | hz
        · rw [hkpt]
        · rw [hz]
          exact h.nonneg i
      dsimp only
      omega
    | call i target hcls hbkd =>
      have hon := (hbkd hsct).1
      exact ((h.funded hon).posting h.attributed hun hsct (.call i target hcls hbkd)
        hon).bound
    | refuse i =>
      have hsm := hle (i := i) (f := .returned .refused) rfl
      have hnn := h.nonneg i
      dsimp only
      omega
    | claim i phase hph hcls hto | close i phase exhaust hcls hnot hbeg hto =>
      have hsm := hle (i := i) hto
      have hnn := h.nonneg i
      dsimp only
      omega
    | record i halt params hcls hho =>
      have hsm := hle (i := i) (f := .answered halt) rfl
      have hwi := hho hsct
      dsimp only
      omega

theorem Passed.spends (hsct : Strict p guard) (h : Passed p guard marks s) :
    Spends p s.account := by
  refine h.invariant (I := fun s => Spends p s.account) ?_ ?_
  · have hfun := funded_blank p marks
    exact ⟨attributed_blank p marks, fun _ => le_refl 0, fun _ => hfun, hfun.bound⟩
  · intro s s' hs hc ih
    exact ih.posting hs.wired.unique hsct (hc.posting hs.wired)

/--
**Authorised spend stays under the cap, if calls are backed.** In every run in which the agents
report at most what they were told, and every call goes out before the run has settled and tells
at most what its node holds in reserve: at every moment the tokens recorded and the tokens told to
agents in flight fit into the budget of the task. In every run, once no call is left, no ledger of
the task holds a reservation.
-/
theorem executeDAG_spends (p : Plan κ n) (marks : Fin n → Mark) :
    (∀ s, (system p marks).Reachable (fun s e => honest s e = true ∧ backed p s e = true) s →
      spent s.log + toldInFlight s.phase ≤ p.budgetLimits.maxTokensPerTask) ∧
    ∀ s, (system p marks).Reachable (fun _ _ => True) s → Quiet s →
      ∀ b, (s.shelf b).reservedTokens = 0 := by
  constructor
  · intro s h
    exact ((passed_of_reachable h).spends fun _ _ hg => hg).bound
  · intro s h hqt b
    exact (passed_of_reachable h).reserved_eq_zero hqt b

/-! ## Examples -/

namespace Sample

/-- Nodes for agents of the registry, with a small budget. -/
def frugal (n : Nat) (dependencies : Fin n → List Nat) : Plan Nat n :=
  { plan n (fun i => i) dependencies with
    dispatchOverride := false
    budgetLimits := ⟨11, 5⟩ }

/-- What an agent reports. -/
def usage (tokens : Int) : UsageParams := ⟨some ⟨0, tokens, tokens⟩, 0, 0⟩

def found {n : Nat} (i : Fin n) : Event n := .agentsFor i (.ok false)

/-- A node's agent reports its tokens, and the node is completed. -/
def reports {n : Nat} (i : Fin n) (tokens : Int) : List (Event n) :=
  [ .answer i (.result false (usage tokens)), .resume i, .payment i true, .count i, .free i, .finish i ]

def asksAgain {n : Nat} (i : Fin n) : List (Event n) :=
  [ .answer i (.failure true "agent returned 503"), .resume i ]

/-- Three nodes, and one more after each of the first two. -/
def fan : Plan Nat 5 := frugal 5 fun i => if i = 3 then [0] else if i = 4 then [1] else []

/-- The first agent spends nothing, and while its claim is free the other two are asked again. -/
def overrun : List (Event 5) :=
  [found 0, found 1, found 2, .answer 0 (.result false (usage 0))] ++ asksAgain 1 ++ asksAgain 2 ++
    [.resume 0, .payment 0 true, .count 0, .free 0, .finish 0, found 3] ++ reports 1 2 ++
      [found 4, .answer 3 (.result false (usage 0))] ++ asksAgain 4

end Sample

open Sample

/-- A node spends what it was told, and then nothing is held back. -/
theorem executeDAG_spends_once : ∃ s,
    (system (Sample.frugal 1 fun _ => []) fresh).Reachable (fun s e => honest s e = true ∧
      backed (Sample.frugal 1 fun _ => []) s e = true) s ∧
    spent s.log + toldInFlight s.phase ≤ ((11 : Nat) : Int) ∧ spent s.log = 5 ∧ Quiet s ∧
    ∀ b, (s.shelf b).reservedTokens = 0 := by
  have hpl : ((system (Sample.frugal 1 fun _ => []) fresh).play
      (fun s e => honest s e = true ∧ backed (Sample.frugal 1 fun _ => []) s e = true)
      (Sample.found 0 :: Sample.reports 0 5)
      ((Sample.frugal 1 fun _ => []).executeDAG fresh)).any
        (fun s => decide (spent s.log = 5 ∧ Quiet s)) = true := by decide
  obtain ⟨s, hs, hspe, hqt⟩ := exists_reachable
    (S := system (Sample.frugal 1 fun _ => []) fresh) rfl hpl
  obtain ⟨hbd, hno⟩ := executeDAG_spends (Sample.frugal 1 fun _ => []) fresh
  exact ⟨s, hs, hbd s hs, hspe, hqt, hno s (hs.weaken fun _ _ _ => trivial) hqt⟩

/--
With a budget of 11, and all agents honest: 2 tokens are recorded, and two agents in flight are told
5 each. Both nodes hold less in reserve than that.
-/
theorem executeDAG_overspends : ∃ s, (system Sample.fan fresh).Reachable (fun s e => honest s e = true) s ∧
      Sample.fan.budgetLimits.maxTokensPerTask < spent s.log + toldInFlight s.phase := by
  have hpl : ((system Sample.fan fresh).play (fun s e => honest s e = true) Sample.overrun
      (Sample.fan.executeDAG fresh)).any
        (fun s => decide ((Sample.fan.budgetLimits.maxTokensPerTask : Int) <
          spent s.log + toldInFlight s.phase)) = true := by decide +kernel
  exact exists_reachable (S := system Sample.fan fresh) rfl hpl

end AiNet.Coordinator
