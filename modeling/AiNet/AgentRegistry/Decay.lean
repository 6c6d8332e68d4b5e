import AiNet.AgentRegistry.Effects
import Mathlib.Logic.Function.Iterate

/-!
# Decay that is applied on reading

A stored score stands for the score it has decayed to: one percentage step for every
epoch since it was written. `get_reputation` takes the steps that are due and moves the
time stamp by as many whole epochs, so a later reading takes the rest. What a reading
returns is therefore the same however often it was read before, as long as nothing but the
steps is done: the cut-off after a hundred epochs at once, and a writer that overlooks the
steps that are due, see how often.
-/

namespace AiNet.AgentRegistry

open Core Option Storage System Nat

/-! ## The steps -/

/-- What one epoch leaves of a score. -/
def decayOnce (keep score : Nat) : Nat := satMulU128 score keep / 100

/-- The percentage that an epoch leaves. -/
def ReputationConfig.keep (config : ReputationConfig) : Nat := 100 - min config.decayPct 100

/-- The whole epochs since a time. -/
def ReputationConfig.epochsSince (config : ReputationConfig) (lastUpdated now : Nat) : Nat :=
  (now - lastUpdated) / config.epochSecs

theorem decayOnce_zero (keep : Nat) : decayOnce keep 0 = 0 := by
  unfold decayOnce satMulU128
  rw [Nat.zero_mul, Nat.zero_min, Nat.zero_div]

variable {keep : Nat}

theorem decayOnce_le (hkp : keep ≤ 100) (score : Nat) :
    decayOnce keep score ≤ score := by
  have hmul : score * keep ≤ score * 100 := mul_le_mul_left score hkp
  have hle : satMulU128 score keep ≤ score * 100 := (min_le_left _ _).trans hmul
  unfold decayOnce
  omega

theorem iterate_decayOnce_zero (keep n : Nat) : (decayOnce keep)^[n] 0 = 0 :=
  Function.iterate_fixed (decayOnce_zero keep) n

theorem decayEpochs_eq_iterate (keep : Nat) :
    ∀ n score, decayEpochs keep n score = (decayOnce keep)^[n] score := by
  intro n
  induction n with
  | zero => exact fun _ => rfl
  | succ n ih =>
    intro score
    rw [Function.iterate_succ_apply]
    unfold decayEpochs
    by_cases hz : satMulU128 score keep / 100 = 0
    · rw [if_pos hz, hz]
      have : decayOnce keep score = 0 := hz
      rw [this, iterate_decayOnce_zero]
    · rw [if_neg hz]
      exact ih _

theorem iterate_decayOnce_anti (hkp : keep ≤ 100) (score : Nat) {m n : Nat}
    (h : m ≤ n) : (decayOnce keep)^[n] score ≤ (decayOnce keep)^[m] score := by
  induction h with
  | refl => exact le_refl _
  | step _ ih =>
    rw [Function.iterate_succ_apply']
    exact (decayOnce_le hkp _).trans ih

theorem ReputationConfig.keep_le (config : ReputationConfig) : config.keep ≤ 100 :=
  sub_le 100 _

theorem iterate_decayOnce_le (hkp : keep ≤ 100) (score n : Nat) :
    (decayOnce keep)^[n] score ≤ score :=
  iterate_decayOnce_anti hkp score (zero_le n)

theorem epochsSince_mul_le (config : ReputationConfig) (lastUpdated now : Nat) :
    config.epochsSince lastUpdated now * config.epochSecs ≤ now - lastUpdated :=
  div_mul_le_self _ _

/-- **What the source's decay computes**: the steps that are due, or nothing after too many. -/
theorem applyReputationDecay_eq (config : ReputationConfig) {score now : Nat} (lastUpdated : Nat)
    (hsc : score ≤ u64Max) (hnow : now ≤ u64Max) :
    applyReputationDecay score lastUpdated now config
      = (if maxDecayEpochs < config.epochsSince lastUpdated now then 0
          else (decayOnce config.keep)^[config.epochsSince lastUpdated now] score,
        lastUpdated + config.epochsSince lastUpdated now * config.epochSecs,
        config.epochsSince lastUpdated now) := by
  have hle := epochsSince_mul_le config lastUpdated now
  unfold applyReputationDecay
  by_cases hse : config.epochSecs = 0
  · have hep : config.epochsSince lastUpdated now = 0 := by
      unfold ReputationConfig.epochsSince
      rw [hse, Nat.div_zero]
    rw [if_pos hse, hep, Nat.zero_mul, if_neg (Nat.not_lt_zero _)]
    rfl
  · rw [if_neg hse]
    show (if config.epochsSince lastUpdated now = 0 then _ else _) = _
    by_cases hep : config.epochsSince lastUpdated now = 0
    · rw [if_pos hep, hep, Nat.zero_mul, if_neg (Nat.not_lt_zero _)]
      rfl
    · rw [if_neg hep]
      -- there are epochs, so the stamp is before now, and nothing saturates
      have hbf : lastUpdated ≤ now := by
        by_contra haf
        refine hep ?_
        unfold ReputationConfig.epochsSince
        rw [Nat.sub_eq_zero_of_le (by omega), Nat.zero_div]
      have hmul : satMul64 (satSub64 now lastUpdated / config.epochSecs) config.epochSecs
          = config.epochsSince lastUpdated now * config.epochSecs :=
        Nat.min_eq_left (by change config.epochsSince lastUpdated now * _ ≤ _; omega)
      have hadd : satAdd64 lastUpdated (config.epochsSince lastUpdated now * config.epochSecs)
          = lastUpdated + config.epochsSince lastUpdated now * config.epochSecs :=
        Nat.min_eq_left (by omega)
      dsimp only
      rw [hmul, hadd]
      show (if maxDecayEpochs < config.epochsSince lastUpdated now then _ else _) = _
      by_cases hma : maxDecayEpochs < config.epochsSince lastUpdated now
      · rw [if_pos hma, if_pos hma]
        rfl
      · have hsma := (iterate_decayOnce_le config.keep_le score
          (config.epochsSince lastUpdated now)).trans hsc
        rw [if_neg hma, if_neg hma, decayEpochs_eq_iterate]
        show (min ((decayOnce config.keep)^[config.epochsSince lastUpdated now] score) u64Max, _, _)
          = _
        rw [Nat.min_eq_left hsma]
        rfl

/-! ## Readings of one record -/

section Reading

variable {Sym : Type} {config : ReputationConfig} {now : Nat}

/-- The score after all the steps that are due. -/
def ReputationScore.due (config : ReputationConfig) (now : Nat) (r : ReputationScore Sym) : Nat :=
  (decayOnce config.keep)^[config.epochsSince r.lastUpdated now] r.score

/-- What a reading makes of a record. -/
def ReputationScore.read (config : ReputationConfig) (now : Nat) (r : ReputationScore Sym) :
    ReputationScore Sym :=
  { r with
    score := if maxDecayEpochs < config.epochsSince r.lastUpdated now then 0 else r.due config now
    lastUpdated := r.lastUpdated + config.epochsSince r.lastUpdated now * config.epochSecs }

/-- The cut-off takes nothing from the score that the steps would leave. -/
def ReputationScore.CutOffIdle (config : ReputationConfig) (now : Nat) (r : ReputationScore Sym) :
    Prop :=
  maxDecayEpochs < config.epochsSince r.lastUpdated now → r.due config now = 0

/-- A reading would return the stored score. -/
def ReputationScore.NothingDue (config : ReputationConfig) (now : Nat) (r : ReputationScore Sym) :
    Prop :=
  (r.read config now).score = r.score

/-- `r'` is `r` with some of the due steps taken, or cut off. -/
def ReputationScore.Ahead (config : ReputationConfig) (now : Nat) (r r' : ReputationScore Sym) :
    Prop :=
  ∃ k, k ≤ config.epochsSince r.lastUpdated now ∧ ((r' = { r with
        score := (decayOnce config.keep)^[k] r.score
        lastUpdated := r.lastUpdated + k * config.epochSecs }) ∨
      (maxDecayEpochs < config.epochsSince r.lastUpdated now ∧
        r' = { r with score := 0, lastUpdated := r.lastUpdated + k * config.epochSecs }))

theorem epochsSince_add {lastUpdated k : Nat} (h : k ≤ config.epochsSince lastUpdated now) :
    config.epochsSince (lastUpdated + k * config.epochSecs) now + k
      = config.epochsSince lastUpdated now := by
  unfold ReputationConfig.epochsSince at *
  rw [← Nat.sub_sub, Nat.mul_comm k, Nat.sub_mul_div]
  omega

variable {r : ReputationScore Sym}

theorem ReputationScore.read_score (h : r.CutOffIdle config now) :
    (r.read config now).score = r.due config now := by
  unfold ReputationScore.read
  dsimp only
  split
  · rename_i hma
    exact (h hma).symm
  · rfl

theorem ReputationScore.read_cutOff
    (h : maxDecayEpochs < config.epochsSince r.lastUpdated now) : (r.read config now).score = 0 := by
  unfold ReputationScore.read
  dsimp only
  rw [if_pos h]

theorem ReputationScore.read_zero (h : r.score = 0) :
    (r.read config now).score = 0 := by
  unfold ReputationScore.read ReputationScore.due
  dsimp only
  rw [h, iterate_decayOnce_zero, ite_self]

theorem ReputationScore.Ahead.refl (r : ReputationScore Sym) : r.Ahead config now r := by
  refine ⟨0, zero_le _, .inl ?_⟩
  rw [zero_mul, add_zero]
  rfl

variable {r r' : ReputationScore Sym}

theorem ReputationScore.Ahead.later {now' : Nat}
    (h : r.Ahead config now r') (hnow : now ≤ now') : r.Ahead config now' r' := by
  have hep : config.epochsSince r.lastUpdated now ≤ config.epochsSince r.lastUpdated now' :=
    Nat.div_le_div_right (Nat.sub_le_sub_right hnow _)
  obtain ⟨k, hk, htkn | ⟨hma, hcut⟩⟩ := h
  · exact ⟨k, hk.trans hep, .inl htkn⟩
  · exact ⟨k, hk.trans hep, .inr ⟨by omega, hcut⟩⟩

theorem ReputationScore.Ahead.read (h : r.Ahead config now r') :
    r.Ahead config now (r'.read config now) := by
  refine ⟨config.epochsSince r.lastUpdated now, le_refl _, ?_⟩
  obtain ⟨k, hk, htkn | ⟨hma, hcut⟩⟩ := h
  · have hrst := epochsSince_add hk
    subst htkn
    unfold ReputationScore.read ReputationScore.due
    dsimp only
    rw [← Function.iterate_add_apply, hrst, add_assoc, ← add_mul, add_comm k, hrst]
    by_cases hma : maxDecayEpochs
        < config.epochsSince (r.lastUpdated + k * config.epochSecs) now
    · rw [if_pos hma]
      exact .inr ⟨by omega, rfl⟩
    · rw [if_neg hma]
      exact .inl rfl
  · have hrst := epochsSince_add hk
    have hz : r'.score = 0 := by rw [hcut]
    have hrd : (r'.read config now).score = 0 := ReputationScore.read_zero hz
    refine .inr ⟨hma, ?_⟩
    subst hcut
    unfold ReputationScore.read at hrd ⊢
    dsimp only at hrd ⊢
    rw [hrd, add_assoc, ← add_mul, add_comm k, hrst]

/-- **A reading returns the same**, whatever was read before. -/
theorem ReputationScore.Ahead.read_score_eq (h : r.Ahead config now r') (hil : r.CutOffIdle config now) :
    (r'.read config now).score = (r.read config now).score := by
  obtain ⟨k, hk, htkn | ⟨hma, hcut⟩⟩ := h
  · have hrst := epochsSince_add hk
    -- the steps that are due do not depend on those that were taken
    have hdue : r'.due config now = r.due config now := by
      subst htkn
      unfold ReputationScore.due
      dsimp only
      rw [← Function.iterate_add_apply, hrst]
    have hil' : r'.CutOffIdle config now := by
      intro hma
      rw [hdue]
      subst htkn
      refine hil ?_
      dsimp only at hma
      omega
    rw [read_score hil', read_score hil, hdue]
  · rw [read_cutOff hma]
    exact read_zero (by rw [hcut])

theorem ReputationScore.Ahead.read_eq (h : r.Ahead config now r') (hil : r.CutOffIdle config now) :
    r'.read config now = r.read config now := by
  have hsc := h.read_score_eq hil
  obtain ⟨k, hk, hr'⟩ := h
  have hrst := epochsSince_add hk
  have hsta : r.lastUpdated + k * config.epochSecs
      + config.epochsSince (r.lastUpdated + k * config.epochSecs) now * config.epochSecs
      = r.lastUpdated + config.epochsSince r.lastUpdated now * config.epochSecs := by
    rw [add_assoc, ← add_mul, add_comm k, hrst]
  rcases hr' with rfl | ⟨-, rfl⟩
  · unfold ReputationScore.read at hsc ⊢
    dsimp only at hsc ⊢
    rw [hsc, hsta]
  · unfold ReputationScore.read at hsc ⊢
    dsimp only at hsc ⊢
    rw [hsc, hsta]

theorem ReputationScore.Ahead.score_eq (h : r.Ahead config now r')
    (hnth : r.NothingDue config now) : r'.score = r.score := by
  obtain ⟨k, hk, htkn | ⟨hma, hcut⟩⟩ := h
  · subst htkn
    dsimp only
    have hbel := iterate_decayOnce_anti config.keep_le r.score hk
    have hle := iterate_decayOnce_le config.keep_le r.score k
    unfold ReputationScore.NothingDue ReputationScore.read ReputationScore.due at hnth
    dsimp only at hnth
    split at hnth
    · omega
    · omega
  · unfold ReputationScore.NothingDue at hnth
    rw [read_cutOff hma] at hnth
    rw [hcut, ← hnth]

end Reading

/-! ## The calls -/

variable {Addr Sym : Type} [DecidableEq Addr] [DecidableEq Sym]
variable {env : Env Addr Sym} {w w' : World Addr Sym}

/-- Who may write a score, and of whom. -/
def MayUpdate (env : Env Addr Sym) (signed : Addr → Bool) (caller : Addr) (id : Sym)
    (w : World Addr Sym) : Prop :=
  w.paused = false ∧ requireCoordinatorOrAdmin env signed w caller = .ok () ∧ w.agents.has id = true

variable {signed : Addr → Bool} {caller : Addr} {input : ReputationInput}

theorem updateReputation_eq_ok {id : Sym} {score : Nat} :
    updateReputation env signed caller id input w = .ok (score, w') ↔
      MayUpdate env signed caller id w ∧ score = reputationScoreFp input ∧ w' = { w with
          reputation := w.reputation.set id ⟨id, reputationScoreFp input, w.now⟩ } := by
  simp only [updateReputation, bind_eq_ok, requireNotPaused_eq_ok, failIf_eq_ok, exists_const,
    Bool.not_eq_false, pure_eq_ok, Prod.mk.injEq, MayUpdate]
  constructor
  · rintro ⟨hpsd, u, hcl, hreg, hsc, hw⟩
    exact ⟨⟨hpsd, hcl, hreg⟩, hsc.symm, hw.symm⟩
  · rintro ⟨⟨hpsd, hcl, hreg⟩, hsc, hw⟩
    exact ⟨hpsd, (), hcl, hreg, hsc.symm, hw.symm⟩

def MayRecord (env : Env Addr Sym) (signed : Addr → Bool) (caller : Addr) (id : Sym)
    (taskId : Sym) (w : World Addr Sym) : Prop :=
  w.paused = false ∧ (caller ≠ env.self ∧ signed caller = true) ∧ caller ∈ w.authorizedCallers ∧
    w.taskOutcome.has taskId = false ∧ w.agents.has id = true

/-- The record of an agent's score; nothing is known of a new one. -/
def scoreOf (w : World Addr Sym) (id : Sym) : ReputationScore Sym :=
  (w.reputation.get id).getD ⟨id, 0, w.now⟩

variable {success : Bool} {delta : Int} {taskId : Sym}

theorem recordTaskOutcome_eq_ok {id : Sym} :
    recordTaskOutcome env signed caller id success delta taskId w = .ok w' ↔
      MayRecord env signed caller id taskId w ∧ w' = { w with
          reputation := w.reputation.set id { scoreOf w id with
            score := scoreAfter (scoreOf w id).score success delta
            lastUpdated := w.now }
          taskOutcome := w.taskOutcome.set taskId true } := by
  simp only [recordTaskOutcome, bind_eq_ok, requireNotPaused_eq_ok, requireAuth_eq_ok, failIf_eq_ok,
    exists_const, not_not, Bool.not_eq_true, Bool.not_eq_false, pure_eq_ok, MayRecord]
  constructor
  · rintro ⟨hpsd, hau, hcl, hnew, hreg, hw⟩
    exact ⟨⟨hpsd, hau, hcl, hnew, hreg⟩, hw.symm⟩
  · rintro ⟨⟨hpsd, hau, hcl, hnew, hreg⟩, hw⟩
    exact ⟨hpsd, hau, hcl, hnew, hreg, hw.symm⟩

omit [DecidableEq Addr] in
/-- **What a reading returns and stores.** -/
theorem getReputation_of_has {id : Sym} (hreg : w.agents.has id = true)
    (hsc : (scoreOf w id).score ≤ u64Max) (hnow : w.now ≤ u64Max) :
    getReputation id w = .ok ((scoreOf w id).read (reputationConfigOf w) w.now,
      if 0 < (reputationConfigOf w).epochsSince (scoreOf w id).lastUpdated w.now then
        { w with
          reputation := w.reputation.set id ((scoreOf w id).read (reputationConfigOf w) w.now) }
      else w) := by
  have hdec := applyReputationDecay_eq (reputationConfigOf w) (scoreOf w id).lastUpdated hsc
    hnow
  have hrd : ∀ config, config.epochsSince (scoreOf w id).lastUpdated w.now = 0 →
      (scoreOf w id).read config w.now = scoreOf w id := by
    intro config hz
    unfold ReputationScore.read ReputationScore.due
    rw [hz, if_neg (not_lt_zero _), zero_mul]
    rfl
  unfold getReputation
  unfold scoreOf at *
  refine bind_eq_ok.mpr ⟨(), failIf_eq_ok.mpr (by rw [hreg]; decide), ?_⟩
  dsimp only
  rw [hdec]
  dsimp only
  by_cases hso : 0 < (reputationConfigOf w).epochsSince
      ((w.reputation.get id).getD ⟨id, 0, w.now⟩).lastUpdated w.now
  · rw [if_pos hso, if_pos hso]
    rfl
  · rw [if_neg hso, if_neg hso, hrd _ (by omega)]
    rfl

/-! ## Scores are in range -/

/-- Every stored score is at most the scale. -/
def ScoresInRange (w : World Addr Sym) : Prop :=
  ∀ id r, w.reputation.get id = some r → r.score ≤ reputationScale

theorem reputationScoreFp_le (input : ReputationInput) :
    reputationScoreFp input ≤ reputationScale := by
  have h1 : clampReputationInput input.successRate ≤ 100 := Nat.min_le_right _ _
  have h2 : clampReputationInput input.quality ≤ 100 := Nat.min_le_right _ _
  have h3 : clampReputationInput input.uptime ≤ 100 := Nat.min_le_right _ _
  have h4 : clampReputationInput input.priceFairness ≤ 100 := Nat.min_le_right _ _
  unfold reputationScoreFp satMulU128
  refine (Nat.min_le_left _ _).trans ?_
  refine (Nat.div_le_div_right (Nat.min_le_left _ _)).trans ?_
  unfold reputationWSuccess reputationWQuality reputationWUptime reputationWPrice reputationScale
  omega

theorem scoreAfter_le {score : Nat} (h : score ≤ reputationScale) (success : Bool) (delta : Int) :
    scoreAfter score success delta ≤ reputationScale := by
  unfold scoreAfter satSub64
  dsimp only
  generalize (if success = true then delta else min delta 0) = d
  by_cases hd : 0 ≤ d
  · rw [if_pos hd]
    exact min_le_right _ _
  · rw [if_neg hd]
    omega

theorem decayEpochs_le (hkp : keep ≤ 100) (n score : Nat) :
    decayEpochs keep n score ≤ score := by
  rw [decayEpochs_eq_iterate]
  exact iterate_decayOnce_le hkp score n

theorem applyReputationDecay_le (score lastUpdated now : Nat) (config : ReputationConfig) :
    (applyReputationDecay score lastUpdated now config).1 ≤ score := by
  unfold applyReputationDecay
  split
  · exact le_refl _
  · dsimp only
    split
    · exact le_refl _
    · split
      · exact zero_le _
      · exact (min_le_left _ _).trans (decayEpochs_le (sub_le 100 _) _ _)

section

omit [DecidableEq Addr]

theorem ScoresInRange.set (h : ScoresInRange w) {id : Sym} {r : ReputationScore Sym}
    (hr : r.score ≤ reputationScale) :
    ScoresInRange { w with reputation := w.reputation.set id r } := by
  intro x r' hr'
  dsimp only at hr'
  rw [get_set] at hr'
  by_cases hx : x = id
  · rw [if_pos hx] at hr'
    rw [← Option.some.inj hr']
    exact hr
  · rw [if_neg hx] at hr'
    exact h x r' hr'

theorem ScoresInRange.scoreOf (h : ScoresInRange w) (id : Sym) :
    (scoreOf w id).score ≤ reputationScale := by
  unfold AgentRegistry.scoreOf
  cases hr : w.reputation.get id with
  | none => exact zero_le _
  | some r => exact h id r hr

theorem ScoresInRange.batch (updates : List (Sym × ReputationInput)) (h : ScoresInRange w) :
    ScoresInRange (updates.foldl
      (fun w update => { w with
        reputation := w.reputation.set update.1 ⟨update.1, reputationScoreFp update.2, w.now⟩ })
      w) := by
  induction updates generalizing w with
  | nil => exact h
  | cons update updates ih => exact ih (h.set (reputationScoreFp_le update.2))

end

theorem execReputation_inRange {op : ReputationOp Addr Sym}
    (h : execReputation env signed op w = .ok w') (hr : ScoresInRange w) : ScoresInRange w' := by
  cases op with
  | updateReputation caller id input =>
    obtain ⟨score, hok⟩ := bind_snd_eq_ok.mp h
    obtain ⟨-, -, rfl⟩ := updateReputation_eq_ok.mp hok
    exact hr.set (reputationScoreFp_le input)
  | recordTaskOutcome caller id success delta =>
    obtain ⟨-, rfl⟩ := recordTaskOutcome_eq_ok.mp h
    exact hr.set (scoreAfter_le (hr.scoreOf id) success delta)
  | getReputation id =>
    obtain ⟨score, hok⟩ := bind_snd_eq_ok.mp h
    simp only [getReputation, bind_eq_ok] at hok
    obtain ⟨-, -, hok⟩ := hok
    split at hok
    · obtain ⟨-, rfl⟩ := Prod.mk.inj (pure_eq_ok.mp hok)
      exact hr.set ((applyReputationDecay_le _ _ _ _).trans (hr.scoreOf id))
    · obtain ⟨-, rfl⟩ := Prod.mk.inj (pure_eq_ok.mp hok)
      exact hr
  | batchUpdateReputation caller updates =>
    obtain ⟨results, hok⟩ := bind_snd_eq_ok.mp h
    unfold batchUpdateReputation at hok
    split at hok
    · obtain ⟨-, rfl⟩ := Prod.mk.inj (pure_eq_ok.mp hok)
      exact hr
    · split at hok
      · cases hok
      · obtain ⟨-, rfl⟩ := Prod.mk.inj (pure_eq_ok.mp hok)
        exact hr
      · dsimp only at hok
        split at hok
        · obtain ⟨-, rfl⟩ := Prod.mk.inj (pure_eq_ok.mp hok)
          exact hr
        · obtain ⟨-, rfl⟩ := Prod.mk.inj (pure_eq_ok.mp hok)
          exact hr.batch updates
  | setCoordinator | addAuthorizedCaller | removeAuthorizedCaller | setReputationConfig =>
    simp only [execReputation, setCoordinator, addAuthorizedCaller, removeAuthorizedCaller,
      setReputationConfig] at h
    repeat obtain ⟨_, _, h⟩ := bind_eq_ok.mp h
    obtain rfl := pure_eq_ok.mp h
    exact hr

variable {op : Op Addr Sym}

theorem exec_reputation_kept (h : exec env signed op w = .ok w') (hop : ∀ r, op ≠ .reputation r) :
    w'.toReputation = w.toReputation := by
  cases op with
  | reputation r => exact absurd rfl (hop r)
  | control => rw [execControl_frame h]
  | multisig => rw [(execMultisig_moves h).2.frame]
  | registration => rw [execRegistration_frame h]
  | bond => rw [(execBond_moves h).2.frame]
  | metrics => rw [(execMetrics_moves h).2.frame]
  | registerAgentVersion => rw [registerAgentVersion_frame h]
  | discoverAgents => rw [execDiscover_frame h]

theorem scores_inRange {guard : World Addr Sym → Event Addr Sym → Prop}
    (h : (system env).Reachable guard w) : ScoresInRange w := by
  refine System.Reachable.invariant (I := ScoresInRange) ?_ ?_ h
  · rintro w₀ ⟨now, sequence, rfl⟩ id r hr
    cases hr
  · intro w e w' _ _ hI hs
    cases e with
    | close | lapse =>
      cases hs
      exact hI
    | invoke signed op =>
      have hec := step_invoke.mp hs
      by_cases hop : ∃ r, op = .reputation r
      · obtain ⟨r, rfl⟩ := hop
        exact execReputation_inRange hec hI
      · have hkpt := exec_reputation_kept hec fun r hr => hop ⟨r, hr⟩
        unfold ScoresInRange
        rw [congrArg Reputation.reputation hkpt]
        exact hI

/-! ## Two runs -/

/-- The same world, but for scores that were read in between. -/
structure SameButReads (w w' : World Addr Sym) : Prop where
  rest : w' = { w with reputation := w'.reputation }
  ahead : ∀ id, (w.reputation.get id = none ∧ w'.reputation.get id = none) ∨
    ∃ r r', w.reputation.get id = some r ∧ w'.reputation.get id = some r' ∧
      r.Ahead (reputationConfigOf w) w.now r'

def Event.isRead : Event Addr Sym → Bool
  | .invoke _ (.reputation (.getReputation _)) => true
  | _ => false

/-- The cut-off takes nothing from an agent's score. -/
def CutOffIdle (w : World Addr Sym) (id : Sym) : Prop :=
  (scoreOf w id).CutOffIdle (reputationConfigOf w) w.now

/-- No decay of an agent's score is due. -/
def NothingDue (w : World Addr Sym) (id : Sym) : Prop :=
  (scoreOf w id).NothingDue (reputationConfigOf w) w.now

/--
What may happen in `w`, between readings: the clock goes on, a score is updated, an outcome is recorded
for an agent none of whose decay is due, and a score is read.
-/
def Scoring (w : World Addr Sym) : Event Addr Sym → Prop
  | .close timestamp _ => w.now ≤ timestamp ∧ timestamp ≤ u64Max
  | .invoke _ (.reputation (.updateReputation _ _ _)) => True
  | .invoke _ (.reputation (.recordTaskOutcome _ agentId _ _ _)) => NothingDue w agentId
  | .invoke _ (.reputation (.getReputation _)) => True
  | _ => False

/-- Every event of a list may happen, in the run that leaves the readings out. -/
def AllScoring (env : Env Addr Sym) : List (Event Addr Sym) → World Addr Sym → Prop
  | [], _ => True
  | e :: es, w =>
    Scoring w e ∧ AllScoring env es (if e.isRead = true then w else (system env).attempt w e)

theorem attempt_ok (h : exec env signed op w = .ok w') : (system env).attempt w (.invoke signed op) = w' := by
  unfold attempt
  rw [step_invoke.mpr h]
  rfl

theorem attempt_refused (h : ∀ w', exec env signed op w ≠ .ok w') : (system env).attempt w (.invoke signed op) = w := by
  unfold attempt
  cases hs : (system env).step w (.invoke signed op) with
  | none => rfl
  | some w' => exact absurd (step_invoke.mp hs) (h w')

theorem attempt_update {id : Sym} :
    (MayUpdate env signed caller id w → (system env).attempt w
        (.invoke signed (.reputation (.updateReputation caller id input)))
      = { w with reputation := w.reputation.set id ⟨id, reputationScoreFp input, w.now⟩ }) ∧
    (¬ MayUpdate env signed caller id w → (system env).attempt w
        (.invoke signed (.reputation (.updateReputation caller id input))) = w) := by
  constructor
  · intro hmay
    exact attempt_ok (bind_eq_ok.mpr ⟨_, updateReputation_eq_ok.mpr ⟨hmay, rfl, rfl⟩, rfl⟩)
  · intro hnot
    refine attempt_refused fun w' h => hnot ?_
    obtain ⟨⟨score, w₁⟩, hok, -⟩ := bind_eq_ok.mp h
    exact (updateReputation_eq_ok.mp hok).1

theorem attempt_record {id : Sym} :
    (MayRecord env signed caller id taskId w → (system env).attempt w
        (.invoke signed (.reputation (.recordTaskOutcome caller id success delta taskId)))
      = { w with
          reputation := w.reputation.set id { scoreOf w id with
            score := scoreAfter (scoreOf w id).score success delta
            lastUpdated := w.now }
          taskOutcome := w.taskOutcome.set taskId true }) ∧
    (¬ MayRecord env signed caller id taskId w → (system env).attempt w
        (.invoke signed (.reputation (.recordTaskOutcome caller id success delta taskId))) = w) := by
  constructor
  · intro hmay
    exact attempt_ok (recordTaskOutcome_eq_ok.mpr ⟨hmay, rfl⟩)
  · intro hnot
    exact attempt_refused fun w' h => hnot (recordTaskOutcome_eq_ok.mp h).1

section

omit [DecidableEq Addr]

theorem SameButReads.refl (w : World Addr Sym) : SameButReads w w := by
  refine ⟨rfl, ?_⟩
  intro id
  cases hr : w.reputation.get id with
  | none => exact .inl ⟨rfl, rfl⟩
  | some r => exact .inr ⟨r, r, rfl, rfl, .refl r⟩

theorem SameButReads.config (h : SameButReads w w') :
    reputationConfigOf w' = reputationConfigOf w ∧ w'.now = w.now := by
  rw [h.rest]
  exact ⟨rfl, rfl⟩

theorem SameButReads.score (h : SameButReads w w') (id : Sym) :
    (scoreOf w id).Ahead (reputationConfigOf w) w.now (scoreOf w' id) := by
  unfold scoreOf
  rcases h.ahead id with ⟨hr, hr'⟩ | ⟨r, r', hr, hr', hahd⟩
  · rw [hr, hr', h.config.2]
    exact .refl _
  · rw [hr, hr']
    exact hahd

theorem SameButReads.set (h : SameButReads w w') (id : Sym) (r : ReputationScore Sym) (x : Sym) :
    ((w.reputation.set id r).get x = none ∧ (w'.reputation.set id r).get x = none) ∨
      ∃ a b, (w.reputation.set id r).get x = some a ∧ (w'.reputation.set id r).get x = some b ∧
        a.Ahead (reputationConfigOf w) w.now b := by
  rw [get_set, get_set]
  by_cases hx : x = id
  · rw [if_pos hx, if_pos hx]
    exact .inr ⟨r, r, rfl, rfl, .refl r⟩
  · rw [if_neg hx, if_neg hx]
    exact h.ahead x

end

/-- **The step** of a reading: it is made in one run only. -/
theorem SameButReads.read (h : SameButReads w w') {id : Sym} (hran : ScoresInRange w')
    (hnow : w.now ≤ u64Max) :
    SameButReads w ((system env).attempt w' (.invoke signed (.reputation (.getReputation id)))) := by
  obtain ⟨hcfg, hclk⟩ := h.config
  by_cases hreg : w'.agents.has id = true
  · have hsma : (scoreOf w' id).score ≤ u64Max := (hran.scoreOf id).trans (by decide)
    have hok := getReputation_of_has hreg hsma (hclk ▸ hnow)
    have hec : exec env signed (.reputation (.getReputation id)) w' = .ok _ :=
      bind_eq_ok.mpr ⟨_, hok, rfl⟩
    rw [attempt_ok hec]
    split
    · rename_i hso
      refine ⟨?_, ?_⟩
      · rw [h.rest]
      · intro x
        dsimp only
        rw [Storage.get_set]
        by_cases hx : x = id
        · rw [if_pos hx, hx, hcfg, hclk]
          rcases h.ahead id with ⟨-, hno⟩ | ⟨r, r', hr, hr', hahd⟩
          · -- an agent without a record has nothing due
            unfold scoreOf ReputationConfig.epochsSince at hso
            rw [hno, getD_none, Nat.sub_self, Nat.zero_div] at hso
            exact absurd hso (Nat.lt_irrefl 0)
          · unfold scoreOf
            rw [hr', getD_some]
            exact .inr ⟨r, _, hr, rfl, hahd.read⟩
        · rw [if_neg hx]
          exact h.ahead x
    · exact h
  · rw [attempt_refused]
    · exact h
    · intro w₁ hec
      obtain ⟨⟨score, w₂⟩, hok, -⟩ := bind_eq_ok.mp hec
      obtain ⟨u, hpsd, -⟩ := bind_eq_ok.mp hok
      exact failIf_eq_ok.mp hpsd (Bool.eq_false_iff.mpr hreg)

theorem SameButReads.update (h : SameButReads w w') {id : Sym} :
    SameButReads
      ((system env).attempt w (.invoke signed (.reputation (.updateReputation caller id input))))
      ((system env).attempt w' (.invoke signed (.reputation (.updateReputation caller id input)))) := by
  have hmay : MayUpdate env signed caller id w' ↔ MayUpdate env signed caller id w := by
    rw [h.rest]
    rfl
  by_cases hm : MayUpdate env signed caller id w
  · rw [attempt_update.1 hm, attempt_update.1 (hmay.mpr hm), h.config.2]
    refine ⟨?_, h.set id _⟩
    rw [h.rest]
  · rw [attempt_update.2 hm, attempt_update.2 (mt hmay.mp hm)]
    exact h

theorem SameButReads.outcome (h : SameButReads w w') {id : Sym} (hnth : NothingDue w id) :
    SameButReads
      ((system env).attempt w
        (.invoke signed (.reputation (.recordTaskOutcome caller id success delta taskId))))
      ((system env).attempt w'
        (.invoke signed (.reputation (.recordTaskOutcome caller id success delta taskId)))) := by
  have hsc : (scoreOf w' id).score = (scoreOf w id).score := (h.score id).score_eq hnth
  have hagt : (scoreOf w' id).agentId = (scoreOf w id).agentId := by
    obtain ⟨k, -, hk | ⟨-, hk⟩⟩ := h.score id
    · rw [hk]
    · rw [hk]
  have hmay : MayRecord env signed caller id taskId w' ↔ MayRecord env signed caller id taskId w := by
    rw [h.rest]
    rfl
  by_cases hm : MayRecord env signed caller id taskId w
  · rw [attempt_record.1 hm, attempt_record.1 (hmay.mpr hm)]
    dsimp only
    rw [hsc, hagt, h.config.2]
    refine ⟨?_, h.set id _⟩
    rw [h.rest]
  · rw [attempt_record.2 hm, attempt_record.2 (mt hmay.mp hm)]
    exact h

omit [DecidableEq Addr] in
theorem SameButReads.close (h : SameButReads w w') {timestamp : Nat} (sequence : Nat)
    (hnow : w.now ≤ timestamp) :
    SameButReads { w with now := timestamp, sequence := sequence }
      { w' with now := timestamp, sequence := sequence } := by
  refine ⟨?_, ?_⟩
  · rw [h.rest]
  · intro id
    rcases h.ahead id with hno | ⟨r, r', hr, hr', hahd⟩
    · exact .inl hno
    · exact .inr ⟨r, r', hr, hr', hahd.later hnow⟩

theorem attempt_now (env : Env Addr Sym) (w : World Addr Sym)
    (signed : Addr → Bool) (op : ReputationOp Addr Sym) :
    ((system env).attempt w (.invoke signed (.reputation op))).now = w.now := by
  by_cases h : ∃ w', exec env signed (.reputation op) w = .ok w'
  · obtain ⟨w', hw'⟩ := h
    rw [attempt_ok hw', execReputation_frame hw']
  · rw [attempt_refused fun w' hw' => h ⟨w', hw'⟩]

/-- **Leaving out the readings** of a run leads to the same world, but for scores that were read. -/
theorem sameButReads_attempts {es : List (Event Addr Sym)} (h : SameButReads w w')
    (hw : (system env).Reachable (fun _ _ => True) w')
    (hnow : w.now ≤ u64Max) (hes : AllScoring env es w) :
    SameButReads ((system env).attempts (es.filter fun e => !e.isRead) w)
        ((system env).attempts es w') ∧
      ((system env).attempts (es.filter fun e => !e.isRead) w).now ≤ u64Max ∧
      (system env).Reachable (fun _ _ => True) ((system env).attempts es w') := by
  induction es generalizing w w' with
  | nil => exact ⟨h, hnow, hw⟩
  | cons e es ih =>
    obtain ⟨he, hes⟩ := hes
    have hw' := hw.attempt (e := e)
    cases e with
    | close timestamp sequence => exact ih (h.close sequence he.1) hw' he.2 hes
    | lapse => exact absurd he id
    | invoke signed op =>
      cases op with
      | reputation op =>
        have hclk := attempt_now env w signed op
        cases op with
        | getReputation => exact ih (h.read (scores_inRange hw) hnow) hw' hnow hes
        | updateReputation => exact ih h.update hw' (hclk ▸ hnow) hes
        | recordTaskOutcome =>
          exact ih (h.outcome he) hw' (hclk ▸ hnow) hes
        | _ => exact absurd he id
      | _ => exact absurd he id

/--
**Readings are neutral.** Take the readings out of a run of scoring: a later reading returns what it did,
provided no outcome was recorded while decay was due, and the cut-off takes nothing at that later
reading. A stored score is in range whatever happens.
-/
theorem reading_neutral (hw : (system env).Reachable (fun _ _ => True) w) :
    ScoresInRange w ∧ ∀ es, w.now ≤ u64Max → AllScoring env es w → ∀ agentId,
        CutOffIdle ((system env).attempts (es.filter fun e => !e.isRead) w) agentId →
        (getReputation agentId ((system env).attempts es w)).map Prod.fst
          = (getReputation agentId
              ((system env).attempts (es.filter fun e => !e.isRead) w)).map Prod.fst := by
  refine ⟨scores_inRange hw, ?_⟩
  intro es hnow hes agentId hil
  obtain ⟨hsm, hnow', hw'⟩ := sameButReads_attempts (.refl w) hw hnow hes
  have hba : (system env).Reachable (fun _ _ => True)
      ((system env).attempts (es.filter fun e => !e.isRead) w) := hw.attempts
  generalize (system env).attempts (es.filter fun e => !e.isRead) w = w₁ at *
  generalize (system env).attempts es w = w₂ at *
  obtain ⟨hcfg, hclk⟩ := hsm.config
  have hags : w₂.agents = w₁.agents := by rw [hsm.rest]
  have hsma : ∀ {s : World Addr Sym}, ScoresInRange s → (scoreOf s agentId).score ≤ u64Max :=
    fun hs => (hs.scoreOf agentId).trans (by decide)
  by_cases hreg : w₁.agents.has agentId = true
  · rw [getReputation_of_has hreg (hsma (scores_inRange hba)) hnow',
      getReputation_of_has (hags ▸ hreg) (hsma (scores_inRange hw')) (hclk ▸ hnow')]
    show Except.ok _ = Except.ok _
    dsimp only
    rw [hcfg, hclk, (hsm.score agentId).read_eq hil]
  · have hre : ∀ {s : World Addr Sym}, s.agents.has agentId = false →
        getReputation agentId s = .error (.error .notFound) := by
      intro s hs
      unfold getReputation failIf
      rw [if_pos hs]
      rfl
    rw [hre (Bool.eq_false_iff.mpr hreg), hre (hags ▸ Bool.eq_false_iff.mpr hreg)]

/-! ## Runs of it -/

instance (w : World Addr Sym) (agentId : Sym) : Decidable (NothingDue w agentId) :=
  inferInstanceAs (Decidable (_ = _))

instance (w : World Addr Sym) (agentId : Sym) : Decidable (CutOffIdle w agentId) :=
  inferInstanceAs (Decidable (_ → _))

instance (w : World Addr Sym) (e : Event Addr Sym) : Decidable (Scoring w e) :=
  match e with
  | .close timestamp _ => inferInstanceAs (Decidable (w.now ≤ timestamp ∧ timestamp ≤ u64Max))
  | .invoke _ (.reputation (.updateReputation _ _ _)) => isTrue trivial
  | .invoke _ (.reputation (.recordTaskOutcome _ agentId _ _ _)) =>
    inferInstanceAs (Decidable (NothingDue w agentId))
  | .invoke _ (.reputation (.getReputation _)) => isTrue trivial
  | .lapse _ => isFalse id
  | .invoke _ (.control _) => isFalse id
  | .invoke _ (.multisig _) => isFalse id
  | .invoke _ (.registration _) => isFalse id
  | .invoke _ (.bond _) => isFalse id
  | .invoke _ (.metrics _) => isFalse id
  | .invoke _ (.registerAgentVersion _ _) => isFalse id
  | .invoke _ (.discoverAgents _) => isFalse id
  | .invoke _ (.reputation (.setCoordinator _)) => isFalse id
  | .invoke _ (.reputation (.addAuthorizedCaller _)) => isFalse id
  | .invoke _ (.reputation (.removeAuthorizedCaller _)) => isFalse id
  | .invoke _ (.reputation (.setReputationConfig _ _)) => isFalse id
  | .invoke _ (.reputation (.batchUpdateReputation _ _)) => isFalse id

instance decidableAllScoring : ∀ (es : List (Event Addr Sym)) (w : World Addr Sym),
    Decidable (AllScoring env es w)
  | [], _ => isTrue trivial
  | e :: es, w =>
    have := decidableAllScoring es (if e.isRead = true then w else (system env).attempt w e)
    inferInstanceAs (Decidable (_ ∧ _))

namespace Sample

/-- Agent `44` is registered, and `5` may record outcomes. -/
def enrolled : World Nat Nat :=
  (system deployment).attempts
    (installed ++
      [ call 4 (.registration (.registerAgent (agent 44 4 100))),
        call 1 (.reputation (.addAuthorizedCaller 5)) ])
    (World.init 0 0)

/-- The administrator sets the score to the full scale. -/
def praised : Event Nat Nat :=
  call 1 (.reputation (.updateReputation 1 44 ⟨100, 100, 100, 100⟩))

def looked : Event Nat Nat := call 9 (.reputation (.getReputation 44))

def weeks (n : Nat) : Event Nat Nat := .close (n * defaultEpochSecs) n

/-- An outcome that changes nothing by itself. -/
def recorded (taskId : Nat) : Event Nat Nat :=
  call 5 (.reputation (.recordTaskOutcome 5 44 true 0 taskId))

/-- Two readings after the score was set, and one after an outcome at the same time. -/
def watched : List (Event Nat Nat) :=
  [praised, weeks 3, looked, looked, weeks 5, looked, praised, recorded 80, weeks 7]

/-- A score that was read after 50 epochs and then not until the 101st. -/
def dormant : List (Event Nat Nat) := [praised, weeks 50, looked, weeks 101]

/-- An outcome that is recorded when an epoch has gone by. -/
def restamped : List (Event Nat Nat) := [praised, weeks 1, looked, recorded 80]

theorem enrolled_reachable : (system deployment).Reachable (fun _ _ => True) enrolled :=
  (System.Reachable.init (start_init _ 0 0)).attempts

end Sample

/-- The readings in between change nothing: two epochs are due at the end. -/
theorem reading_neutral_watched :
    (getReputation 44 ((system Sample.deployment).attempts Sample.watched Sample.enrolled)).map Prod.fst
        = (getReputation 44 ((system Sample.deployment).attempts
            (Sample.watched.filter fun e => !e.isRead) Sample.enrolled)).map Prod.fst ∧
      ((getReputation 44 ((system Sample.deployment).attempts Sample.watched Sample.enrolled)).map
        fun read => read.1.score) = .ok 902500 :=
  ⟨(reading_neutral Sample.enrolled_reachable).2 Sample.watched (by decide)
    (by decide) 44 (by decide), by decide⟩

/--
Readings that are not neutral. A score that nobody reads for more than a hundred epochs is cut off, and
is not if it was read in between; and an outcome keeps the decay that was due from being
taken, but not what a reading has taken.
-/
theorem reading_not_neutral :
    (system Sample.deployment).Reachable (fun _ _ => True) Sample.enrolled ∧
    ((getReputation 44 ((system Sample.deployment).attempts Sample.dormant Sample.enrolled)).map
        (fun read => read.1.score) = .ok 5615 ∧
      (getReputation 44 ((system Sample.deployment).attempts
        (Sample.dormant.filter fun e => !e.isRead) Sample.enrolled)).map
        (fun read => read.1.score) = .ok 0) ∧
    ((getReputation 44 ((system Sample.deployment).attempts Sample.restamped Sample.enrolled)).map
        (fun read => read.1.score) = .ok 950000 ∧
      (getReputation 44 ((system Sample.deployment).attempts
        (Sample.restamped.filter fun e => !e.isRead) Sample.enrolled)).map
        (fun read => read.1.score) = .ok 1000000) :=
  ⟨Sample.enrolled_reachable, by decide, by decide⟩

end AiNet.AgentRegistry
