import Mathlib.Algebra.Order.BigOperators.Group.List
import AiNet.Core.Transition
import AiNet.Core.Window
import AiNet.TaskRoutes.Submission

/-!
# What the wallet quota promises

The window of a quota is rolled for every event, but a rejection reports the next midnight. What was submitted on the
day of the rejection still counts then, so the promise is kept if and only if that is less than the limit.
-/

namespace AiNet.TaskRoutes

open Core List Option

def recordWalletTokenSpend (wallet : String) (tokens : Rat) (now : Nat) : List QuotaEvent :=
  if wallet = "" ∨ wallet = anonymousWallet ∨ tokens.ceil ≤ 0 then [] else [⟨wallet, .tokens, tokens.ceil.toNat, now⟩]

inductive QuotaCall where
  | checkAndConsumeTask (wallet : String) (now : Nat)
  | recordWalletTokenSpend (wallet : String) (tokens : Rat) (now : Nat)

structure QuotaTable where
  events : List QuotaEvent
  clock : Nat

variable (config : QuotaConfig)

/-- `assertWalletQuota`, where no statement fails and the clock stands. -/
abbrev asks (events : List QuotaEvent) (wallet : String) (now : Nat) : Except AppError WalletQuotaCheck :=
  assertWalletQuota config (fun _ => false) events wallet now now

def quotaStep (s : QuotaTable) : QuotaCall → Option QuotaTable
  | .checkAndConsumeTask wallet now =>
    if now < s.clock then none
    else some ⟨s.events ++ if (asks config s.events wallet now).isOk then charge wallet now else [], now⟩
  | .recordWalletTokenSpend wallet tokens now =>
    if now < s.clock then none else some ⟨s.events ++ recordWalletTokenSpend wallet tokens now, now⟩

def quotaSystem : System QuotaTable QuotaCall where
  start s := s.events = []
  step := quotaStep config

/-- When the wallet was let through. -/
def submissions (events : List QuotaEvent) (wallet : String) : List Nat :=
  (events.filter fun e => decide (e.walletPublicKey = wallet) && decide (e.kind = .task)).map QuotaEvent.createdAt

/-- Since the last midnight. -/
def today (now createdAt : Nat) : Bool := decide (now / quotaWindowMs * quotaWindowMs < createdAt)

def tokensToday (events : List QuotaEvent) (wallet : String) (now : Nat) : Nat :=
  ((events.filter fun e => decide (e.walletPublicKey = wallet) && decide (e.kind = .tokens) &&
    today now e.createdAt).map (·.units)).sum

variable {config} {events : List QuotaEvent} {wallet : String} {now : Nat}

theorem countEvents_eq : countEvents events wallet .task now = (submissions events wallet).countP (inWindow now) := by
  unfold countEvents submissions
  rw [countP_map, Function.comp_def, countP_filter]
  simp only [Bool.and_comm]

theorem inWindow_nextMidnight (createdAt : Nat) : inWindow (nextMidnight now) createdAt = today now createdAt := by
  unfold inWindow nextMidnight today
  rw [Nat.succ_mul]
  exact decide_eq_decide.mpr (Nat.add_lt_add_iff_right ..)

/-- A quota that is on has room. -/
def Admits (config : QuotaConfig) (events : List QuotaEvent) (wallet : String) (now : Nat) : Prop :=
  (positiveInt config.maxDailyTasksPerWallet = 0 ∨
      countEvents events wallet .task now < positiveInt config.maxDailyTasksPerWallet) ∧
    (positiveInt config.maxDailyVeniceTokensPerWallet = 0 ∨
      sumUnits events wallet .tokens now < positiveInt config.maxDailyVeniceTokensPerWallet)

variable (config events now) in
theorem asks_cases (hwal : wallet ≠ anonymousWallet) :
    (Admits config events wallet now ∧ ∃ check, asks config events wallet now = .ok check) ∨
      (¬Admits config events wallet now ∧ ∃ check : WalletQuotaCheck, asks config events wallet now =
          .error (quotaExceeded check now) ∧ check.resetAt = nextMidnight now ∧
        check.limit = positiveInt config.maxDailyTasksPerWallet ∧
        (¬(0 < check.tokenLimit ∧ check.tokenLimit ≤ check.tokenUsed) → 0 < check.limit ∧
          check.limit ≤ countEvents events wallet .task now)) := by
  unfold asks assertWalletQuota checkWalletQuota Admits
  generalize countEvents events wallet .task now = used
  generalize sumUnits events wallet .tokens now = tokenUsed
  generalize positiveInt config.maxDailyTasksPerWallet = limit
  generalize positiveInt config.maxDailyVeniceTokensPerWallet = tokenLimit
  by_cases hoff : limit = 0 ∧ tokenLimit = 0
  · rw [if_pos (.inr hoff)]
    exact .inl ⟨⟨.inl hoff.1, .inl hoff.2⟩, _, rfl⟩
  rw [if_neg (not_or.mpr ⟨hwal, hoff⟩)]
  by_cases hrej : 0 < limit ∧ limit ≤ used ∨ 0 < tokenLimit ∧ tokenLimit ≤ tokenUsed
  · refine .inr ⟨by omega, ⟨limit, if 0 < limit then used else 0, if 0 < limit then some (limit - if 0 < limit then used else 0) else none, tokenLimit,
      if 0 < tokenLimit then tokenUsed else 0, nextMidnight now, false, true⟩, ?_, rfl, rfl, fun htok => ?_⟩
    · by_cases hl : 0 < limit <;> by_cases ht : 0 < tokenLimit <;>
        simp_all [execute, bind, Except.bind]
    · dsimp only at htok ⊢
      split at htok <;> omega
  · refine .inl ⟨by omega, ?_⟩
    by_cases hl : 0 < limit <;> by_cases ht : 0 < tokenLimit <;>
      simp_all [execute, bind, Except.bind]
    all_goals exact ⟨_, if_neg (by omega)⟩

structure QuotaTable.Sound (config : QuotaConfig) (s : QuotaTable) : Prop where
  past : ∀ e ∈ s.events, e.createdAt ≤ s.clock
  few : ∀ wallet ≠ anonymousWallet, 0 < positiveInt config.maxDailyTasksPerWallet → ∀ time,
    (submissions s.events wallet).countP (inTrailing quotaWindowMs time) ≤ positiveInt config.maxDailyTasksPerWallet

theorem countEvents_eq_trailing (h : ∀ e ∈ events, e.createdAt ≤ now) :
    countEvents events wallet .task now = (submissions events wallet).countP (inTrailing quotaWindowMs now) := by
  rw [countEvents_eq]
  refine countP_congr fun t ht => ?_
  obtain ⟨e, he, rfl⟩ := mem_map.mp ht
  simp only [inWindow, inTrailing, h e (mem_of_mem_filter he), decide_true, Bool.true_and]

theorem QuotaTable.Sound.add {s : QuotaTable} (h : s.Sound config) (hnow : s.clock ≤ now) {added : List QuotaEvent}
    (hadd : added = [] ∨ ∃ e, added = [e] ∧ e.createdAt = now ∧
      (e.kind = .task → e.walletPublicKey ≠ anonymousWallet → Admits config s.events e.walletPublicKey now)) :
    QuotaTable.Sound config ⟨s.events ++ added, now⟩ := by
  have hps : ∀ e ∈ s.events, e.createdAt ≤ now := fun e he => (h.past e he).trans hnow
  rcases hadd with rfl | ⟨e, rfl, hat, hadm⟩
  · rw [append_nil]
    exact ⟨hps, h.few⟩
  refine ⟨fun e' he' => ?_, fun wallet hwal hon time => ?_⟩
  · rcases mem_append.mp he' with hold | hsf
    · exact hps e' hold
    · exact (mem_singleton.mp hsf ▸ hat).le
  · unfold submissions
    rw [filter_append, map_append]
    by_cases hsf : e.walletPublicKey = wallet ∧ e.kind = .task
    · obtain ⟨rfl, htk⟩ := hsf
      rw [filter_cons_of_pos (by simp [htk]), filter_nil, map_singleton, hat]
      have hro := (hadm htk hwal).1.resolve_left (Nat.ne_of_gt hon)
      rw [countEvents_eq_trailing hps] at hro
      refine countP_trailing_snoc (fun t ht => ?_) hro (h.few _ hwal hon) time
      obtain ⟨e', he', rfl⟩ := mem_map.mp ht
      exact hps e' (mem_of_mem_filter he')
    · rw [filter_cons_of_neg (by simpa using hsf), filter_nil, map_nil, append_nil]
      exact h.few wallet hwal hon time

theorem sound_quotaStep {s s' : QuotaTable} {call : QuotaCall} (h : s.Sound config) (hs : quotaStep config s call = some s') :
    s'.Sound config := by
  cases call with
  | checkAndConsumeTask wallet now =>
    obtain ⟨hclk, hs⟩ := ite_none_left_eq_some.mp hs
    cases hs
    refine h.add (Nat.not_lt.mp hclk) ?_
    unfold charge
    split
    · rename_i hok
      split
      · exact .inl rfl
      · rename_i hwal
        refine .inr ⟨_, rfl, rfl, fun _ _ => ?_⟩
        rcases asks_cases config s.events now hwal with ⟨hadm, -⟩ | ⟨-, check, herr, -⟩
        · exact hadm
        · rw [herr] at hok
          cases hok
    · exact .inl rfl
  | recordWalletTokenSpend wallet tokens now =>
    obtain ⟨hclk, hs⟩ := ite_none_left_eq_some.mp hs
    cases hs
    refine h.add (Nat.not_lt.mp hclk) ?_
    unfold recordWalletTokenSpend
    split
    · exact .inl rfl
    · exact .inr ⟨_, rfl, rfl, nofun⟩

theorem asks_isOk_iff (hwal : wallet ≠ anonymousWallet) :
    (∃ check, asks config events wallet now = .ok check) ↔ Admits config events wallet now := by
  rcases asks_cases config events now hwal with ⟨hadm, hok⟩ | ⟨hno, check, herr, -⟩
  · exact ⟨fun _ => hadm, fun _ => hok⟩
  · refine ⟨fun ⟨_, hok⟩ => ?_, fun hadm => absurd hadm hno⟩
    cases herr.symm.trans hok

theorem Admits.later {later : Nat} (h : Admits config events wallet now) (hltr : now ≤ later) :
    Admits config events wallet later := by
  have hin : ∀ e : QuotaEvent, inWindow later e.createdAt = true → inWindow now e.createdAt = true := fun e he => by
    unfold inWindow at he ⊢
    rw [decide_eq_true_eq] at he ⊢
    omega
  have hcnt : countEvents events wallet .task later ≤ countEvents events wallet .task now :=
    countP_mono_left fun e _ he => by
      rw [Bool.and_eq_true] at he ⊢
      exact ⟨he.1, hin e he.2⟩
  have hsum : sumUnits events wallet .tokens later ≤ sumUnits events wallet .tokens now := by
    refine Sublist.sum_le_sum (Sublist.map _ (monotone_filter_right _ fun e he => ?_)) fun _ _ => Nat.zero_le _
    rw [Bool.and_eq_true] at he ⊢
    exact ⟨he.1, hin e he.2⟩
  exact ⟨h.1.imp_right hcnt.trans_lt, h.2.imp_right hsum.trans_lt⟩

/--
**What the wallet quota keeps of its promise.** No trailing window has more submissions than the limit. After a
rejection on the task quota, with no submission of the wallet in between, one is admitted at the reported reset and
after the reported time if and only if fewer than the limit are from the day of the rejection, and the tokens of that
day and of the time between leave the token quota open.
-/
theorem promise_kept_iff (config : QuotaConfig) :
    (∀ s, (quotaSystem config).Reachable (fun _ _ => True) s → ∀ wallet, wallet ≠ anonymousWallet →
      0 < positiveInt config.maxDailyTasksPerWallet → ∀ time, (submissions s.events wallet).countP
        (inTrailing quotaWindowMs time) ≤ positiveInt config.maxDailyTasksPerWallet) ∧
    ∀ (events between : List QuotaEvent) (wallet : String) (now : Nat) (message : String)
      (used limit resetAt retryAfterSeconds : Nat), wallet ≠ anonymousWallet →
      asks config events wallet now =
        .error (.quotaExceeded message .tasks used limit (some resetAt) retryAfterSeconds) →
      (∀ e ∈ between, e.kind = .task → e.walletPublicKey ≠ wallet) →
      ((∀ later, later = resetAt ∨ now + 1000 * retryAfterSeconds ≤ later →
          ∃ check, asks config (events ++ between) wallet later = .ok check) ↔
        (submissions events wallet).countP (today now) < limit ∧
          (positiveInt config.maxDailyVeniceTokensPerWallet = 0 ∨
            tokensToday (events ++ between) wallet now < positiveInt config.maxDailyVeniceTokensPerWallet)) := by
  refine ⟨fun s h => ?_, fun events between wallet now message used limit resetAt retryAfterSeconds hwal hrej hno => ?_⟩
  · refine (h.invariant (I := QuotaTable.Sound config) (fun s hs => ⟨?_, fun _ _ _ _ => ?_⟩)
      fun s e s' _ _ hI hs => sound_quotaStep hI hs).few
    · rw [show s.events = [] from hs]
      exact nofun
    · rw [show s.events = [] from hs]
      exact Nat.zero_le _
  rcases asks_cases config events now hwal with ⟨-, check, hok⟩ | ⟨-, check, herr, hres, hlim, htas⟩
  · cases hok.symm.trans hrej
  have herr := Except.error.inj (herr.symm.trans hrej)
  unfold quotaExceeded at herr
  split at herr
  · cases herr
  rename_i htok
  obtain ⟨hpos, -⟩ := htas htok
  obtain ⟨-, -, -, rfl, hat, hret⟩ := AppError.quotaExceeded.inj herr
  obtain rfl := hres.symm.trans (Option.some.inj hat)
  have hD : nextMidnight now ≤ now + 1000 * retryAfterSeconds := by
    rw [← hret, hres, secondsUntil]
    omega
  -- at the reset, what is in the window is of the day of the rejection
  have htod : countEvents (events ++ between) wallet .task (nextMidnight now) =
      (submissions events wallet).countP (today now) := by
    have hbetw : submissions between wallet = [] := map_eq_nil_iff.mpr <| filter_eq_nil_iff.mpr fun e he hsf => by
      rw [Bool.and_eq_true, decide_eq_true_eq, decide_eq_true_eq] at hsf
      exact hno e he hsf.2 hsf.1
    have hall : submissions (events ++ between) wallet = submissions events wallet ++ submissions between wallet := by
      unfold submissions
      rw [filter_append, map_append]
    rw [countEvents_eq, hall, hbetw, append_nil]
    exact countP_congr fun t _ => by rw [inWindow_nextMidnight]
  have htks : sumUnits (events ++ between) wallet .tokens (nextMidnight now) =
      tokensToday (events ++ between) wallet now := by
    unfold sumUnits tokensToday
    simp only [inWindow_nextMidnight]
  have hadmi : Admits config (events ++ between) wallet (nextMidnight now) ↔
      (submissions events wallet).countP (today now) < check.limit ∧
        (positiveInt config.maxDailyVeniceTokensPerWallet = 0 ∨
          tokensToday (events ++ between) wallet now < positiveInt config.maxDailyVeniceTokensPerWallet) := by
    rw [hlim] at hpos ⊢
    unfold Admits
    rw [htod, htks]
    exact and_congr_left' ⟨fun h => h.resolve_left (Nat.ne_of_gt hpos), .inr⟩
  rw [← hadmi]
  refine ⟨fun h => (asks_isOk_iff hwal).mp (h _ (.inl rfl)), fun h later hltr => (asks_isOk_iff hwal).mpr (h.later ?_)⟩
  rcases hltr with rfl | hwa
  · exact le_refl _
  · exact hD.trans hwa

/-- One submission in the trailing day. -/
def onePerDay : QuotaConfig := ⟨1, 0, 0, 0⟩

/-- A submission at noon, a rejection at six the next morning, and one that is admitted from midnight on. -/
theorem promise_kept_once : ∀ later, later = 172800000 ∨ 108000000 + 1000 * 64800 ≤ later →
    ∃ check, asks onePerDay [⟨"w", .task, 1, 43200000⟩] "w" later = .ok check :=
  ((promise_kept_iff onePerDay).2 [⟨"w", .task, 1, 43200000⟩] [] "w" 108000000
    "Task submission quota reached (max 1 per 24 hours)" 1 1 172800000 64800 (by decide) (by decide) nofun).mpr
    (by decide)

/-- A submission at noon, a rejection right after it, and another one at the reported midnight. -/
theorem promise_broken : asks onePerDay [⟨"w", .task, 1, 43200000⟩] "w" 43200001 = .error (.quotaExceeded
      "Task submission quota reached (max 1 per 24 hours)" .tasks 1 1 (some 86400000) 43200) ∧
    (asks onePerDay [⟨"w", .task, 1, 43200000⟩] "w" 86400000).isOk = false := by
  decide

end AiNet.TaskRoutes
