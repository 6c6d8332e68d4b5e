import AiNet.EscrowSdk.Found
import Mathlib.Algebra.GroupWithZero.Nat

/-!
# Milestones

The total of a plan is locked in one balance, and a balance can only be claimed whole. So the release of one
milestone pays out the plan. A plan of a single milestone is paid as it should be, as long as its calls find its own
balance.
-/

namespace AiNet.EscrowSdk

open Core List Option System

variable {κ ν : Type} {numbers : Numbers ν} {w w' : World κ ν}

/-! ## What a plan has paid -/

/-- The plan that a call belongs to, once there is one. -/
def Purpose.ofPlan : Purpose κ ν → Option Nat
  | .milestone p _ | .cancel p => some p
  | .plain | .plan _ => none

/-- The milestone that a call is to release. -/
def Purpose.paysFor : Purpose κ ν → Option (Nat × Nat)
  | .milestone p index => some (p, index)
  | .plain | .plan _ | .cancel _ => none

def World.purposeOf (w : World κ ν) (t : Nat) : Option (Purpose κ ν) :=
  (((w.network.transactions.get t).bind Transaction.sender).bind w.calls.get).map Call.purpose

/-- What was claimed to release a milestone. -/
def World.payments (w : World κ ν) (p index : Nat) : List Claim :=
  w.network.claims.filter fun c => decide ((w.purposeOf c.transaction).bind Purpose.paysFor = some (p, index))

/-- What was claimed for a plan, to release its milestones or to refund it. -/
def World.settlements (w : World κ ν) (p : Nat) : List Claim :=
  w.network.claims.filter fun c => decide ((w.purposeOf c.transaction).bind Purpose.ofPlan = some p)

/-- Every milestone of a plan is paid once, and what is paid and refunded adds up. -/
structure World.PaidOnce (numbers : Numbers ν) (w : World κ ν) (p : Nat) (plan : Plan κ ν) : Prop where
  /-- Of what was released, something was paid. -/
  released : ∀ index m, plan.milestones[index]? = some m → m.released = true → w.payments p index ≠ []
  /-- What was paid went to the agent, and is the amount of the milestone. -/
  own : ∀ index m, plan.milestones[index]? = some m → ∀ c ∈ w.payments p index,
    xlmToStroops (numbers.toText m.amountXLM) = some (c.amount : Int) ∧
      ∃ tx, w.network.Succeeded c.transaction tx ∧ tx.operation = .release c.balanceId m.agentAddress c.amount
  once : ∀ index, (w.payments p index).length ≤ 1
  /-- Nothing is paid after a refund. -/
  refunded : ∀ before c after, w.network.claims = before ++ c :: after →
    w.purposeOf c.transaction = some (.cancel p) → ∀ c' ∈ after, ∀ index,
      (w.purposeOf c'.transaction).bind Purpose.paysFor ≠ some (p, index)
  /-- Once everything is released or cancelled, the claims add up to what was locked. -/
  whole : plan.milestones.all MilestonePayment.released = true ∨ plan.cancelled = true →
    ∃ tx amount, w.network.Succeeded plan.lock tx ∧ tx.operation = .createClaimableBalance amount ∧
      ((w.settlements p).map Claim.amount).sum = amount

/-- The newest transaction with the memo that created a balance, however far back. -/
def newestLock (history : List Record) (taskId : Text) : Option Nat :=
  history.reverse.findSome? fun r => if r.memo = some taskId then r.balanceId else none

/-- When a call for a plan looks at the history, the newest balance of the task is the plan's; and no release gets a
balance that is there for several milestones. -/
def Separate (w : World κ ν) : Event κ ν → Prop
  | .advance c => ∀ call ∈ w.calls.get c, call.stage = .resolving → ∀ p ∈ call.purpose.ofPlan,
      ∀ plan ∈ w.plans.get p, newestLock w.network.history call.taskId = some plan.lock
  | .includes t => ∀ purpose ∈ w.purposeOf t, ∀ milestone ∈ purpose.paysFor, ∀ plan ∈ w.plans.get milestone.1,
      ∀ tx ∈ w.network.transactions.get t, ∀ b ∈ tx.operation.claims,
        w.network.balances.get b ≠ none → plan.milestones.length = 1
  | _ => True

instance (w : World κ ν) (e : Event κ ν) : Decidable (Separate w e) := by
  unfold Separate
  split <;> infer_instance

/-! ## What calls are after -/

def MilestonePayment.terms (m : MilestonePayment κ ν) : κ × ν := (m.agentAddress, m.amountXLM)

/-- What never changes of a plan. -/
structure Deal (κ ν : Type) where
  lock : Nat
  terms : List (κ × ν)

def Plan.deal (plan : Plan κ ν) : Deal κ ν := ⟨plan.lock, plan.milestones.map MilestonePayment.terms⟩

def World.deal (w : World κ ν) (p : Nat) : Option (Deal κ ν) := (w.plans.get p).map Plan.deal

/-- If the call is for a plan, the balance is the plan's. -/
def World.Aims (w : World κ ν) (call : Call κ ν) (b : Nat) : Prop :=
  ∀ p, call.purpose.ofPlan = some p → ∃ deal, w.deal p = some deal ∧ deal.lock = b

def World.Fits (numbers : Numbers ν) (w : World κ ν) (call : Call κ ν) : Prop :=
  match call.purpose with
  | .plain => True
  | .plan milestones => milestones ≠ [] ∧ (∀ m ∈ milestones, m.released = false) ∧ ∃ stroops,
      call.action = .lock stroops ∧ xlmToStroops (numbers.toText (totalXLM numbers milestones)) = some stroops
  | .milestone p index => ∃ deal agent amountXLM, w.deal p = some deal ∧
      deal.terms[index]? = some (agent, amountXLM) ∧ call.action = .release agent
  | .cancel p => (∃ deal, w.deal p = some deal) ∧ call.action = .refund

def Network.Created (n : Network κ) (b amount : Nat) : Prop :=
  ∃ tx balance, n.Succeeded b tx ∧ tx.operation.creates = some balance ∧ balance.amount = amount

def World.Knows (w : World κ ν) (c : Nat) (call : Call κ ν) : Prop :=
  match call.stage with
  | .checking b => w.Aims call b
  | .building b amount => w.Aims call b ∧ w.network.Created b amount
  | .submitted t => ∃ tx, w.network.transactions.get t = some tx ∧ tx.sender = some c
  | .loading | .resolving | .ended _ => True

def World.Sends (w : World κ ν) (call : Call κ ν) : Operation κ → Prop
  | .createClaimableBalance amount => ∃ stroops, call.action = .lock stroops ∧ (amount : Int) = stroops
  | .release b agent amount => call.action = .release agent ∧ w.network.Created b amount ∧ w.Aims call b
  | .refund b => call.action = .refund ∧ w.Aims call b
  | .other _ => False

def Deal.Backed (numbers : Numbers ν) (n : Network κ) (deal : Deal κ ν) : Prop :=
  ∃ (milestones : List (MilestonePayment κ ν)) (tx : Transaction κ) (amount : Nat), milestones ≠ [] ∧
    deal.terms = milestones.map MilestonePayment.terms ∧ n.Succeeded deal.lock tx ∧
    tx.operation = .createClaimableBalance amount ∧
    xlmToStroops (numbers.toText (totalXLM numbers milestones)) = some (amount : Int)

structure World.Planned (numbers : Numbers ν) (w : World κ ν) : Prop where
  fits : ∀ c call, w.calls.get c = some call → w.Fits numbers call
  knows : ∀ c call, w.calls.get c = some call → w.Knows c call
  sent : ∀ t tx c, w.network.transactions.get t = some tx → tx.sender = some c →
    ∃ call, w.calls.get c = some call ∧ w.Sends call tx.operation
  backed : ∀ p deal, w.deal p = some deal → deal.Backed numbers w.network
  /-- What was claimed for a milestone was claimed for the only one of its plan. -/
  only : ∀ c ∈ w.network.claims, ∀ p index, (w.purposeOf c.transaction).bind Purpose.paysFor = some (p, index) →
    ∃ deal, w.deal p = some deal ∧ deal.terms.length = 1
  released : ∀ p plan index m, w.plans.get p = some plan → plan.milestones[index]? = some m → m.released = true →
    ∃ c ∈ w.network.claims, (w.purposeOf c.transaction).bind Purpose.paysFor = some (p, index)
  cancelled : ∀ p plan, w.plans.get p = some plan → plan.cancelled = true →
    ∃ c ∈ w.network.claims, (w.purposeOf c.transaction).bind Purpose.ofPlan = some p

/-! ## What stays -/

/-- Transactions keep their senders and calls their purposes, and what was agreed on or claimed is there for good. -/
structure Grows (w w' : World κ ν) : Prop where
  deals : ∀ p deal, w.deal p = some deal → w'.deal p = some deal
  keeps : Keeps w.network w'.network
  senders : ∀ t tx, w.network.transactions.get t = some tx →
    ∃ tx', w'.network.transactions.get t = some tx' ∧ tx'.sender = tx.sender
  calls : ∀ c call, w.calls.get c = some call →
    ∃ call', w'.calls.get c = some call' ∧ call'.purpose = call.purpose ∧ call'.action = call.action
  claims : ∀ c ∈ w.network.claims, c ∈ w'.network.claims

section Grows

variable (hg : Grows w w') {call call' : Call κ ν} (hpurpose : call'.purpose = call.purpose)
  (haction : call'.action = call.action)

include hg

theorem Network.Created.grows {b amount : Nat} (h : w.network.Created b amount) : w'.network.Created b amount := by
  obtain ⟨tx, balance, hcrt, hcrs⟩ := h
  exact ⟨tx, balance, hg.keeps b tx hcrt, hcrs⟩

theorem Deal.Backed.grows {deal : Deal κ ν} (h : deal.Backed numbers w.network) :
    deal.Backed numbers w'.network := by
  obtain ⟨milestones, tx, amount, hne, htrm, hcrt, hrst⟩ := h
  exact ⟨milestones, tx, amount, hne, htrm, hg.keeps _ tx hcrt, hrst⟩

include hpurpose

theorem World.Aims.grows {b : Nat} (h : w.Aims call b) : w'.Aims call' b := by
  intro p hp
  rw [hpurpose] at hp
  obtain ⟨deal, hde, hlk⟩ := h p hp
  exact ⟨deal, hg.deals p deal hde, hlk⟩

include haction

theorem World.Fits.grows (h : w.Fits numbers call) : w'.Fits numbers call' := by
  unfold World.Fits at h ⊢
  rw [hpurpose, haction]
  cases hca : call.purpose with
  | plain => trivial
  | plan =>
    rw [hca] at h
    exact h
  | milestone p =>
    rw [hca] at h
    obtain ⟨deal, agent, amountXLM, hde, hrst⟩ := h
    exact ⟨deal, agent, amountXLM, hg.deals p deal hde, hrst⟩
  | cancel p =>
    rw [hca] at h
    obtain ⟨⟨deal, hde⟩, hrfd⟩ := h
    exact ⟨⟨deal, hg.deals p deal hde⟩, hrfd⟩

theorem World.Sends.grows {operation : Operation κ} (h : w.Sends call operation) : w'.Sends call' operation := by
  unfold World.Sends at h ⊢
  cases operation with
  | createClaimableBalance =>
    obtain ⟨stroops, hlk, hamt⟩ := h
    exact ⟨stroops, haction.trans hlk, hamt⟩
  | release =>
    obtain ⟨hrls, hcrt, hai⟩ := h
    exact ⟨haction.trans hrls, hcrt.grows hg, hai.grows hg hpurpose⟩
  | refund =>
    obtain ⟨hrfd, hai⟩ := h
    exact ⟨haction.trans hrfd, hai.grows hg hpurpose⟩
  | other => exact h.elim

end Grows

variable {c : Nat}

theorem World.Knows.grows {call call' : Call κ ν} (hg : Grows w w') (hpurpose : call'.purpose = call.purpose)
    (hstg : call'.stage = call.stage) (h : w.Knows c call) : w'.Knows c call' := by
  unfold World.Knows at h ⊢
  rw [hstg]
  cases hca : call.stage with
  | checking =>
    rw [hca] at h
    exact h.grows hg hpurpose
  | building =>
    rw [hca] at h
    exact ⟨h.1.grows hg hpurpose, h.2.grows hg⟩
  | submitted t =>
    rw [hca] at h
    obtain ⟨tx, htx, hsnr⟩ := h
    obtain ⟨tx', htx', hsnr'⟩ := hg.senders t tx htx
    exact ⟨tx', htx', hsnr'.trans hsnr⟩
  | loading | resolving | ended => trivial

variable {t : Nat} {tx : Transaction κ}

theorem World.Planned.purposeOf_grows (h : w.Planned numbers) (hg : Grows w w')
    (htx : w.network.transactions.get t = some tx) : w'.purposeOf t = w.purposeOf t := by
  obtain ⟨tx', htx', hsnr⟩ := hg.senders t tx htx
  unfold World.purposeOf
  rw [htx, htx', bind_some, bind_some, hsnr]
  cases hca : tx.sender with
  | none => rfl
  | some c =>
    obtain ⟨call, hcl, -⟩ := h.sent t tx c htx hca
    obtain ⟨call', hcl', hpurpose, -⟩ := hg.calls c call hcl
    rw [bind_some, bind_some, hcl, hcl', map_some, map_some, hpurpose]

/-! ## Steps -/

theorem purposeOf_claim (h : w.Planned numbers) (hsnd : w.network.Sound) (hg : Grows w w') {c : Claim}
    (hc : c ∈ w.network.claims) : w'.purposeOf c.transaction = w.purposeOf c.transaction := by
  obtain ⟨-, created, balance, tx, -, -, hsuc, -⟩ := hsnd.claimed c hc
  exact h.purposeOf_grows hg hsuc.1

theorem World.Planned.calls (h : w.Planned numbers) (hsnd : w.network.Sound) (hne : w'.network = w.network)
    (hpla : w'.plans = w.plans)
    (hcs : ∀ c call, w.calls.get c = some call →
      ∃ call', w'.calls.get c = some call' ∧ call'.purpose = call.purpose ∧ call'.action = call.action)
    (hft : ∀ c call', w'.calls.get c = some call' → w.Fits numbers call')
    (hkns : ∀ c call', w'.calls.get c = some call' → w.Knows c call') : w'.Planned numbers := by
  have hde : ∀ p, w'.deal p = w.deal p := fun p => by rw [World.deal, hpla, World.deal]
  have hg : Grows w w' := by
    refine ⟨?_, ?_, ?_, hcs, ?_⟩
    · intro p deal hp
      rw [hde, hp]
    · intro t tx htx
      rwa [hne]
    · intro t tx htx
      exact ⟨tx, by rw [hne, htx], rfl⟩
    · intro c hc
      rwa [hne]
  refine ⟨?_, ?_, ?_, ?_, ?_, ?_, ?_⟩
  · intro c call' hcl'
    exact (hft c call' hcl').grows hg rfl rfl
  · intro c call' hcl'
    exact (hkns c call' hcl').grows hg rfl rfl
  · intro t tx c htx hsnr
    rw [hne] at htx
    obtain ⟨call, hcl, hsns⟩ := h.sent t tx c htx hsnr
    obtain ⟨call', hcl', hpurpose, haction⟩ := hcs c call hcl
    exact ⟨call', hcl', hsns.grows hg hpurpose haction⟩
  · intro p deal hp
    rw [hde] at hp
    exact (h.backed p deal hp).grows hg
  · intro c hc p index hpa
    rw [hne] at hc
    rw [purposeOf_claim h hsnd hg hc] at hpa
    rw [hde]
    exact h.only c hc p index hpa
  · intro p plan index m hpn hm hrel
    rw [hpla] at hpn
    obtain ⟨c, hc, hpa⟩ := h.released p plan index m hpn hm hrel
    refine ⟨c, hg.claims c hc, ?_⟩
    rwa [purposeOf_claim h hsnd hg hc]
  · intro p plan hpn hcan
    rw [hpla] at hpn
    obtain ⟨c, hc, hof⟩ := h.cancelled p plan hpn hcan
    refine ⟨c, hg.claims c hc, ?_⟩
    rwa [purposeOf_claim h hsnd hg hc]

variable {n : Network κ}

theorem World.Planned.network (h : w.Planned numbers) (hsnd : w.network.Sound) (hkps : Keeps w.network n)
    (hsn : ∀ t tx, w.network.transactions.get t = some tx → ∃ tx', n.transactions.get t = some tx' ∧ tx'.sender = tx.sender)
    (hse : ∀ t tx c, n.transactions.get t = some tx → tx.sender = some c → (∃ tx', w.network.transactions.get t = some tx' ∧ tx'.sender = some c ∧ tx'.operation = tx.operation) ∨ ∃ call, w.calls.get c = some call ∧ w.Sends call tx.operation)
    (hcls : ∀ c ∈ w.network.claims, c ∈ n.claims)
    (hon : ∀ c ∈ n.claims, c ∈ w.network.claims ∨ ∃ tx, w.network.transactions.get c.transaction = some tx ∧ ∀ p index, (w.purposeOf c.transaction).bind Purpose.paysFor = some (p, index) → ∃ deal, w.deal p = some deal ∧ deal.terms.length = 1) :
    World.Planned numbers { w with network := n } := by
  have hg : Grows w { w with network := n } :=
    ⟨fun _ _ hp => hp, hkps, hsn, fun _ call hcl => ⟨call, hcl, rfl, rfl⟩, hcls⟩
  refine ⟨?_, ?_, ?_, ?_, ?_, ?_, ?_⟩
  · intro c call hcl
    exact (h.fits c call hcl).grows hg rfl rfl
  · intro c call hcl
    exact (h.knows c call hcl).grows hg rfl rfl
  · intro t tx c htx hsnr
    rcases hse t tx c htx hsnr with ⟨tx', htx', hsnr', hopn⟩ | ⟨call, hcl, hsns⟩
    · obtain ⟨call, hcl, hsns⟩ := h.sent t tx' c htx' hsnr'
      rw [hopn] at hsns
      exact ⟨call, hcl, hsns.grows hg rfl rfl⟩
    · exact ⟨call, hcl, hsns.grows hg rfl rfl⟩
  · intro p deal hp
    exact (h.backed p deal hp).grows hg
  · intro c hc p index hpa
    rcases hon c hc with hold | ⟨tx, htx, hnew⟩
    · rw [purposeOf_claim h hsnd hg hold] at hpa
      exact h.only c hold p index hpa
    · rw [h.purposeOf_grows hg htx] at hpa
      exact hnew p index hpa
  · intro p plan index m hpn hm hrel
    obtain ⟨c, hc, hpa⟩ := h.released p plan index m hpn hm hrel
    refine ⟨c, hcls c hc, ?_⟩
    rwa [purposeOf_claim h hsnd hg hc]
  · intro p plan hpn hcan
    obtain ⟨c, hc, hof⟩ := h.cancelled p plan hpn hcan
    refine ⟨c, hcls c hc, ?_⟩
    rwa [purposeOf_claim h hsnd hg hc]

theorem World.Planned.plans {plans : Register (Plan κ ν)} {store : Storage Text Nat} (h : w.Planned numbers)
    (hdea : ∀ p plan, w.plans.get p = some plan → ∃ plan', plans.get p = some plan' ∧ plan'.deal = plan.deal)
    (hbk : ∀ p plan', plans.get p = some plan' →
      (∃ plan, w.plans.get p = some plan ∧ plan'.deal = plan.deal) ∨ plan'.deal.Backed numbers w.network)
    (hrel : ∀ p plan' index m, plans.get p = some plan' → plan'.milestones[index]? = some m →
      m.released = true →
        ∃ c ∈ w.network.claims, (w.purposeOf c.transaction).bind Purpose.paysFor = some (p, index))
    (hcan : ∀ p plan', plans.get p = some plan' → plan'.cancelled = true →
      ∃ c ∈ w.network.claims, (w.purposeOf c.transaction).bind Purpose.ofPlan = some p) :
    World.Planned numbers { w with plans := plans, milestoneStore := store } := by
  have hgr : ∀ p deal, w.deal p = some deal →
      World.deal { w with plans := plans, milestoneStore := store } p = some deal := by
    intro p deal hp
    obtain ⟨plan, hpn, rfl⟩ := map_eq_some_iff.mp hp
    obtain ⟨plan', hpn', hde⟩ := hdea p plan hpn
    exact map_eq_some_iff.mpr ⟨plan', hpn', hde⟩
  have hg : Grows w { w with plans := plans, milestoneStore := store } :=
    ⟨hgr, fun _ _ htx => htx, fun _ tx htx => ⟨tx, htx, rfl⟩, fun _ call hcl => ⟨call, hcl, rfl, rfl⟩,
      fun _ hc => hc⟩
  refine ⟨?_, ?_, ?_, ?_, ?_, hrel, hcan⟩
  · intro c call hcl
    exact (h.fits c call hcl).grows hg rfl rfl
  · intro c call hcl
    exact (h.knows c call hcl).grows hg rfl rfl
  · intro t tx c htx hsnr
    obtain ⟨call, hcl, hsns⟩ := h.sent t tx c htx hsnr
    exact ⟨call, hcl, hsns.grows hg rfl rfl⟩
  · intro p deal hp
    obtain ⟨plan', hpn', rfl⟩ := map_eq_some_iff.mp hp
    rcases hbk p plan' hpn' with ⟨plan, hpn, hde⟩ | hbkd
    · rw [hde]
      exact h.backed p plan.deal (map_eq_some_iff.mpr ⟨plan, hpn, rfl⟩)
    · exact hbkd
  · intro c hc p index hpa
    obtain ⟨deal, hde, hone⟩ := h.only c hc p index hpa
    exact ⟨deal, hgr p deal hde, hone⟩

variable {call : Call κ ν}

theorem World.Planned.setStage {stage : Stage} (h : w.Planned numbers)
    (hsnd : w.network.Sound) (hcl : w.calls.get c = some call)
    (hkns : w.Knows c { call with stage := stage }) : (w.setStage c stage).Planned numbers := by
  have hcss : ∀ k call', (w.setStage c stage).calls.get k = some call' →
      k = c ∧ call' = { call with stage := stage } ∨ w.calls.get k = some call' := by
    intro k call' hcl'
    rw [get_setStage] at hcl'
    obtain ⟨old, hold, rfl⟩ := map_eq_some_iff.mp hcl'
    by_cases hk : k = c
    · rw [hk, hcl] at hold
      cases hold
      rw [if_pos hk]
      exact .inl ⟨hk, rfl⟩
    · rw [if_neg hk]
      exact .inr hold
  refine h.calls hsnd rfl rfl ?_ ?_ ?_
  · intro k call' hcl'
    refine ⟨_, by rw [get_setStage, hcl', map_some], ?_⟩
    split
    · exact ⟨rfl, rfl⟩
    · exact ⟨rfl, rfl⟩
  · intro k call' hcl'
    rcases hcss k call' hcl' with ⟨-, rfl⟩ | hold
    · exact h.fits c call hcl
    · exact h.fits k call' hold
  · intro k call' hcl'
    rcases hcss k call' hcl' with ⟨rfl, rfl⟩ | hold
    · exact hkns
    · exact h.knows k call' hold

theorem begin_fits (request : Request κ ν) : w.Fits numbers (w.begin numbers request) := by
  have hpn : ∀ {taskId : Text} {p : Nat} {plan : Plan κ ν}, w.planOf taskId = some (p, plan) →
      w.plans.get p = some plan := by
    intro taskId p plan hof
    obtain ⟨p', -, hof⟩ := bind_eq_some_iff.mp hof
    obtain ⟨plan', hget, heq⟩ := map_eq_some_iff.mp hof
    cases heq
    exact hget
  cases request with
  | lockEscrow =>
    unfold World.begin EscrowSdk.lockEscrow
    dsimp only
    split
    · trivial
    · split <;> trivial
  | releasePayment | refundEscrow | getEscrowBalance => trivial
  | lockMilestoneEscrow taskId milestones =>
    unfold World.begin EscrowSdk.lockMilestoneEscrow EscrowSdk.lockEscrow
    dsimp only
    split
    · trivial
    · rename_i hne
      split
      · trivial
      · split
        · trivial
        · split
          · trivial
          · split
            · trivial
            · rename_i stroops hst
              have htot : totalXLM numbers (milestones.map fun m => { m with released := false }) =
                  totalXLM numbers milestones := by
                rw [totalXLM, foldl_map, totalXLM]
              refine ⟨by simpa using hne, ?_, stroops, rfl, by rw [htot, hst]⟩
              intro m hm
              obtain ⟨old, -, rfl⟩ := List.mem_map.mp hm
              rfl
  | releaseMilestone taskId milestoneId =>
    unfold World.begin World.releaseMilestone
    dsimp only
    cases hof : w.planOf taskId with
    | none => trivial
    | some entry =>
      obtain ⟨p, plan⟩ := entry
      dsimp only
      split
      · trivial
      · rename_i m hm
        split
        · trivial
        · refine ⟨plan.deal, m.agentAddress, m.amountXLM, ?_, ?_, rfl⟩
          · rw [World.deal, hpn hof, map_some]
          · rw [Plan.deal, List.getElem?_map, hm]
            rfl
  | cancelMilestoneEscrow taskId =>
    unfold World.begin World.cancelMilestoneEscrow
    dsimp only
    cases hof : w.planOf taskId with
    | none => trivial
    | some entry =>
      obtain ⟨p, plan⟩ := entry
      dsimp only
      split
      · trivial
      · exact ⟨⟨plan.deal, by rw [World.deal, hpn hof, map_some]⟩, rfl⟩

theorem World.Planned.called {request : Request κ ν} (h : w.Planned numbers) (hsnd : w.network.Sound) :
    World.Planned numbers { w with calls := w.calls.add (w.begin numbers request) } := by
  refine h.calls hsnd rfl rfl ?_ ?_ ?_
  · intro c call hcl
    exact ⟨call, Register.get_add_of_some hcl, rfl, rfl⟩
  · intro c call hcl
    rcases Register.of_get_add hcl with ⟨-, rfl⟩ | hold
    · exact begin_fits request
    · exact h.fits c call hold
  · intro c call hcl
    rcases Register.of_get_add hcl with ⟨-, rfl⟩ | hold
    · have hstg := @begin_stage _ _ numbers w request
      unfold World.Knows
      rcases hstg with hstg | hstg | ⟨result, hstg⟩
      · rw [hstg]; trivial
      · rw [hstg]; trivial
      · rw [hstg]; trivial
    · exact h.knows c call hold

theorem World.Planned.submit {operation : Operation κ} (h : w.Planned numbers) (hsnd : w.network.Sound)
    (hcl : w.calls.get c = some call) (hsns : w.Sends call operation) :
    (w.submit c call operation).Planned numbers := by
  have hnot : ∀ creates, operation ≠ .other creates := by
    intro creates heq
    rw [heq] at hsns
    exact hsns
  have hpld : World.Planned numbers { w with network := w.network.send c call.taskId operation } := by
    refine h.network hsnd (keeps_add rfl) ?_ ?_ (fun _ hc => hc) fun _ hc => .inl hc
    · intro t tx htx
      exact ⟨tx, Register.get_add_of_some htx, rfl⟩
    · intro t tx k htx hsnr
      rcases Register.of_get_add htx with ⟨-, rfl⟩ | hold
      · cases hsnr
        exact .inr ⟨call, hcl, hsns⟩
      · exact .inl ⟨tx, hold, hsnr, rfl⟩
  exact hpld.setStage (hsnd.send hnot) hcl ⟨_, Register.get_add_self, rfl⟩

theorem World.Planned.conclude {status : TransactionStatus} (h : w.Planned numbers) (hsnd : w.network.Sound)
    (htx : w.network.transactions.get t = some tx) (hpnd : tx.status = .pending)
    (htxs : n.transactions = (w.network.conclude t status).transactions)
    (hcls : n.claims = w.network.claims ∨ ∃ b amount, n.claims = w.network.claims ++ [⟨t, b, amount⟩] ∧ ∀ p index, (w.purposeOf t).bind Purpose.paysFor = some (p, index) → ∃ deal, w.deal p = some deal ∧ deal.terms.length = 1) :
    World.Planned numbers { w with network := n } := by
  refine h.network hsnd (keeps_conclude htxs htx hpnd) ?_ ?_ ?_ ?_
  · intro k tx' htx'
    refine ⟨_, by rw [htxs, get_conclude, htx', map_some], ?_⟩
    split
    · rfl
    · rfl
  · intro k tx' c htx' hsnr
    rw [htxs] at htx'
    obtain ⟨old, hold, hopn, -, hsnr'⟩ := of_get_conclude htx'
    exact .inl ⟨old, hold, hsnr'.trans hsnr, hopn⟩
  · intro c hc
    rcases hcls with hsm | ⟨b, amount, hmo, -⟩
    · rwa [hsm]
    · rw [hmo]
      exact mem_append_left _ hc
  · intro c hc
    rcases hcls with hsm | ⟨b, amount, hmo, hon⟩
    · rw [hsm] at hc
      exact .inl hc
    · rw [hmo] at hc
      rcases mem_append.mp hc with hold | hnew
      · exact .inl hold
      · rw [mem_singleton.mp hnew]
        exact .inr ⟨tx, htx, hon⟩

theorem World.Planned.includes (h : w.Planned numbers) (hsnd : w.network.Sound)
    (hgrd : Separate w (.includes t)) (hs : w.network.includes t = some n) :
    World.Planned numbers { w with network := n } := by
  obtain ⟨tx, htx, hpnd, hinc⟩ := includes_cases hs
  cases hinc with
  | created | failed => exact h.conclude hsnd htx hpnd rfl (.inl rfl)
  | @claimed b amount balance hclm hbal htks =>
    refine h.conclude hsnd htx hpnd rfl (.inr ⟨b, amount, rfl, ?_⟩)
    intro p index hpa
    obtain ⟨purpose, hpurpose, hpa⟩ := bind_eq_some_iff.mp hpa
    -- the call that sent it knows the plan
    obtain ⟨call, hcl, hcd⟩ := map_eq_some_iff.mp hpurpose
    obtain ⟨c, -, hcl⟩ := bind_eq_some_iff.mp hcl
    have hft := h.fits c call hcl
    unfold World.Fits at hft
    rw [hcd] at hft
    cases purpose with
    | plain | plan | cancel => cases hpa
    | milestone =>
      cases hpa
      obtain ⟨deal, agent, amountXLM, hde, -⟩ := hft
      obtain ⟨plan, hpn, rfl⟩ := map_eq_some_iff.mp hde
      refine ⟨plan.deal, hde, ?_⟩
      have hthe : w.network.balances.get b ≠ none := by
        rw [hbal]
        exact some_ne_none _
      rw [Plan.deal, length_map]
      exact hgrd _ hpurpose (p, index) rfl plan hpn tx htx b hclm hthe

theorem World.Planned.others (h : w.Planned numbers) (hsnd : w.network.Sound) (memo : Option Text)
    (creates : Option Balance) : World.Planned numbers { w with network := w.network.others memo creates } := by
  refine h.network hsnd (keeps_add rfl) ?_ ?_ (fun _ hc => hc) fun _ hc => .inl hc
  · intro t tx htx
    exact ⟨tx, Register.get_add_of_some htx, rfl⟩
  · intro t tx k htx hsnr
    rcases Register.of_get_add htx with ⟨-, rfl⟩ | hold
    · cases hsnr
    · exact .inl ⟨tx, hold, hsnr, rfl⟩

/-! ## A call ends -/

/-- The transaction that a call has sent. -/
structure World.Done (w : World κ ν) (c : Nat) (call : Call κ ν) (t : Nat) (tx : Transaction κ) : Prop where
  call : ∃ call', w.calls.get c = some call' ∧ call'.purpose = call.purpose ∧ call'.action = call.action
  sender : tx.sender = some c
  succeeded : w.network.Succeeded t tx

variable {c t : Nat}

theorem World.Done.purposeOf (h : w.Done c call t tx) :
    w.purposeOf t = some call.purpose := by
  obtain ⟨call', hcl', hpurpose, -⟩ := h.call
  rw [World.purposeOf, h.succeeded.1, bind_some, h.sender, bind_some, hcl', map_some, hpurpose]

theorem World.Done.sends (h : w.Done c call t tx)
    (hpld : w.Planned numbers) : ∃ call', call'.action = call.action ∧ w.Sends call' tx.operation := by
  obtain ⟨call', hcl', -, haction⟩ := h.call
  obtain ⟨sent, hse, hsns⟩ := hpld.sent t tx c h.succeeded.1 h.sender
  rw [hcl'] at hse
  cases hse
  exact ⟨call', haction, hsns⟩

theorem World.Done.claimed (h : w.Done c call t tx) (hpld : w.Planned numbers) (hsnd : w.network.Sound)
    (haction : ∀ stroops, call.action ≠ .lock stroops) :
    ∃ claim ∈ w.network.claims, w.purposeOf claim.transaction = some call.purpose := by
  obtain ⟨call', hac', hsns⟩ := h.sends hpld
  have hcls : ∃ b, tx.operation.claims = some b := by
    cases hopn : tx.operation with
    | createClaimableBalance =>
      rw [hopn] at hsns
      obtain ⟨stroops, hlk, -⟩ := hsns
      exact absurd (hac'.symm.trans hlk) (haction stroops)
    | release b | refund b => exact ⟨b, rfl⟩
    | other =>
      rw [hopn] at hsns
      exact hsns.elim
  obtain ⟨b, hb⟩ := hcls
  obtain ⟨claim, hclm, ht⟩ := hsnd.counted t tx b h.succeeded hb
  exact ⟨claim, hclm, by rw [ht, h.purposeOf]⟩

theorem World.Done.locked (h : w.Done c call t tx) (hpld : w.Planned numbers) {stroops : Int}
    (haction : call.action = .lock stroops) :
    ∃ amount, tx.operation = .createClaimableBalance amount ∧ (amount : Int) = stroops := by
  obtain ⟨call', hac', hsns⟩ := h.sends hpld
  rw [haction] at hac'
  cases hopn : tx.operation with
  | createClaimableBalance amount =>
    rw [hopn] at hsns
    obtain ⟨stroops', hlk, hamt⟩ := hsns
    cases hac'.symm.trans hlk
    exact ⟨amount, rfl, hamt⟩
  | release | refund =>
    rw [hopn] at hsns
    cases hac'.symm.trans hsns.1
  | other =>
    rw [hopn] at hsns
    exact hsns.elim

theorem deal_release (plan : Plan κ ν) (index : Nat) : (plan.release index).deal = plan.deal := by
  have htrm : (plan.milestones.modify index fun m => { m with released := true }).map MilestonePayment.terms =
      plan.milestones.map MilestonePayment.terms := by
    refine ext_getElem? fun k => ?_
    rw [List.getElem?_map, List.getElem?_map, List.getElem?_modify]
    cases plan.milestones[k]? with
    | none => rfl
    | some =>
      dsimp only [Option.map_eq_map, map_some]
      split
      · rfl
      · rfl
  rw [Plan.deal, Plan.release, htrm]
  rfl

theorem World.Planned.amend {p : Nat} {f : Plan κ ν → Plan κ ν} {store : Storage Text Nat} (h : w.Planned numbers)
    (hde : ∀ plan, (f plan).deal = plan.deal)
    (hrel : ∀ plan index m, (f plan).milestones[index]? = some m → m.released = true →
      (∃ m', plan.milestones[index]? = some m' ∧ m'.released = true) ∨
        ∃ c ∈ w.network.claims, (w.purposeOf c.transaction).bind Purpose.paysFor = some (p, index))
    (hcan : ∀ plan, (f plan).cancelled = true → plan.cancelled = true ∨
      ∃ c ∈ w.network.claims, (w.purposeOf c.transaction).bind Purpose.ofPlan = some p) :
    World.Planned numbers { w.amend p f with milestoneStore := store } := by
  have hget : ∀ q, (w.amend p f).plans.get q = (w.plans.get q).map fun plan => if q = p then f plan else plan := by
    intro q
    unfold World.amend
    dsimp only
    rw [Register.get_rewrite]
    cases w.plans.get q with
    | none => rfl
    | some => simp only [map_some, decide_eq_true_eq]
  have hsm : ∀ q plan, (if q = p then f plan else plan).deal = plan.deal := by
    intro q plan
    split
    · exact hde plan
    · rfl
  refine h.plans ?_ ?_ ?_ ?_
  · intro q plan hpn
    exact ⟨_, by rw [hget, hpn, map_some], hsm q plan⟩
  · intro q plan' hpn'
    rw [hget] at hpn'
    obtain ⟨plan, hpn, rfl⟩ := map_eq_some_iff.mp hpn'
    exact .inl ⟨plan, hpn, hsm q plan⟩
  · intro q plan' index m hpn' hm hrel'
    rw [hget] at hpn'
    obtain ⟨plan, hpn, rfl⟩ := map_eq_some_iff.mp hpn'
    by_cases hq : q = p
    · rw [if_pos hq] at hm
      rcases hrel plan index m hm hrel' with ⟨m', hm', hold⟩ | hnew
      · exact h.released q plan index m' hpn hm' hold
      · rwa [hq]
    · rw [if_neg hq] at hm
      exact h.released q plan index m hpn hm hrel'
  · intro q plan' hpn' hcan'
    rw [hget] at hpn'
    obtain ⟨plan, hpn, rfl⟩ := map_eq_some_iff.mp hpn'
    by_cases hq : q = p
    · rw [if_pos hq] at hcan'
      rcases hcan plan hcan' with hold | hnew
      · exact h.cancelled q plan hpn hold
      · rwa [hq]
    · rw [if_neg hq] at hcan'
      exact h.cancelled q plan hpn hcan'

theorem World.Planned.finish (h : w.Planned numbers)
    (hsnd : w.network.Sound) (hcl : w.calls.get c = some call) (hstg : call.stage = .submitted t)
    (htx : w.network.Succeeded t tx) : (w.finish c call t).Planned numbers := by
  have hset : (w.setStage c (.ended (.hash t))).Planned numbers := h.setStage hsnd hcl trivial
  have hdn : (w.setStage c (.ended (.hash t))).Done c call t tx := by
    refine ⟨⟨_, get_setStage_self hcl, rfl, rfl⟩, ?_, htx⟩
    have hkns := h.knows c call hcl
    unfold World.Knows at hkns
    rw [hstg] at hkns
    obtain ⟨tx', htx', hsnr⟩ := hkns
    rw [htx.1] at htx'
    rwa [Option.some.inj htx']
  have hft := h.fits c call hcl
  unfold World.Fits at hft
  unfold World.finish
  cases hpurpose : call.purpose with
  | plain => exact hset
  | plan milestones =>
    rw [hpurpose] at hft
    obtain ⟨hne, hun, stroops, haction, hst⟩ := hft
    obtain ⟨amount, hopn, rfl⟩ := hdn.locked hset haction
    have hpla : ∀ q plan', (w.plans.add ⟨call.taskId, milestones, t, false⟩).get q = some plan' →
        plan' = ⟨call.taskId, milestones, t, false⟩ ∨ w.plans.get q = some plan' :=
      fun q plan' hpn' => (Register.of_get_add hpn').imp_left And.right
    refine hset.plans ?_ ?_ ?_ ?_
    · intro q plan hpn
      exact ⟨plan, Register.get_add_of_some hpn, rfl⟩
    · intro q plan' hpn'
      rcases hpla q plan' hpn' with rfl | hold
      · exact .inr ⟨milestones, tx, amount, hne, rfl, htx, hopn, hst⟩
      · exact .inl ⟨plan', hold, rfl⟩
    · intro q plan' index m hpn' hm hrel
      rcases hpla q plan' hpn' with rfl | hold
      · rw [hun m (mem_of_getElem? hm)] at hrel
        cases hrel
      · exact hset.released q plan' index m hold hm hrel
    · intro q plan' hpn' hcan
      rcases hpla q plan' hpn' with rfl | hold
      · cases hcan
      · exact hset.cancelled q plan' hold hcan
  | milestone p index =>
    rw [hpurpose] at hft
    obtain ⟨deal, agent, amountXLM, -, -, haction⟩ := hft
    obtain ⟨claim, hclm, hof⟩ := hdn.claimed hset hsnd fun stroops heq => (by cases haction.symm.trans heq)
    refine hset.amend (fun plan => deal_release plan index) ?_ fun plan hcan => .inl hcan
    intro plan k m hm hrel
    by_cases hk : k = index
    · refine .inr ⟨claim, hclm, ?_⟩
      rw [hof, hpurpose, hk]
      rfl
    · have hold : plan.milestones[k]? = some m := by
        rw [Plan.release, List.getElem?_modify] at hm
        obtain ⟨old, hold, hnew⟩ := map_eq_some_iff.mp hm
        rw [if_neg (Ne.symm hk)] at hnew
        rw [hold, ← hnew]
      exact .inl ⟨m, hold, hrel⟩
  | cancel =>
    rw [hpurpose] at hft
    obtain ⟨claim, hclm, hof⟩ := hdn.claimed hset hsnd fun stroops heq => (by cases hft.2.symm.trans heq)
    refine hset.amend (fun plan => rfl) (fun plan k m hm hrel => .inl ⟨m, hm, hrel⟩) fun plan _ => .inr ?_
    refine ⟨claim, hclm, ?_⟩
    rw [hof, hpurpose]
    rfl

theorem newestLock_of_resolve {history : List Record} {taskId : Text} {b : Nat}
    (h : resolveBalanceId history taskId = some b) : newestLock history taskId = some b := by
  unfold newestLock
  rw [← take_append_drop historyLimit history.reverse, List.findSome?_append]
  unfold resolveBalanceId at h
  rw [h]
  rfl

/-- **Every step keeps it so.** -/
theorem World.Planned.step {e : Event κ ν} (h : w.Planned numbers) (hsnd : w.Sound) (hgrd : Separate w e)
    (hs : Stepped numbers w e w') : w'.Planned numbers := by
  have hn := hsnd.network
  cases hs with
  | called => exact h.called hn
  | ended hcl => exact h.setStage hn hcl trivial
  | @resolved c call b hcl hstg hrsv =>
    refine h.setStage hn hcl ?_
    intro p hp
    have hft := h.fits c call hcl
    unfold World.Fits at hft
    have hde : ∃ deal, w.deal p = some deal := by
      have hof : call.purpose.ofPlan = some p := hp
      cases hpurpose : call.purpose with
      | plain | plan => rw [hpurpose] at hof; cases hof
      | milestone =>
        rw [hpurpose] at hof hft
        cases hof
        obtain ⟨deal, -, -, hde, -⟩ := hft
        exact ⟨deal, hde⟩
      | cancel =>
        rw [hpurpose] at hof hft
        cases hof
        exact hft.1
    obtain ⟨deal, hde⟩ := hde
    obtain ⟨plan, hpn, rfl⟩ := map_eq_some_iff.mp hde
    have hne := hgrd call hcl hstg p hp plan hpn
    rw [newestLock_of_resolve hrsv] at hne
    exact ⟨plan.deal, hde, (Option.some.inj hne).symm⟩
  | @checked c call b balance hcl hstg hbal =>
    refine h.setStage hn hcl ?_
    have hkns := h.knows c call hcl
    unfold World.Knows at hkns
    rw [hstg] at hkns
    obtain ⟨created, hcrt, hcrs⟩ := hn.unclaimed b balance hbal
    exact ⟨hkns, created, balance, hcrt, hcrs, rfl⟩
  | @locks c call stroops hcl _ haction hpos =>
    refine h.submit hn hcl ⟨stroops, haction, ?_⟩
    omega
  | @claims c call b amount operation hcl hstg hclg =>
    refine h.submit hn hcl ?_
    have hkns := h.knows c call hcl
    unfold World.Knows at hkns
    rw [hstg] at hkns
    unfold Call.claiming at hclg
    cases haction : call.action with
    | release =>
      rw [haction] at hclg
      cases hclg
      exact ⟨haction, hkns.2, hkns.1⟩
    | refund =>
      rw [haction] at hclg
      cases hclg
      exact ⟨haction, hkns.1⟩
    | lock | balance => rw [haction] at hclg; cases hclg
  | finished hcl hstg htx => exact h.finish hn hcl hstg htx
  | included hinc => exact h.includes hn hgrd hinc
  | rejected hre =>
    obtain ⟨tx, htx, hpnd, rfl⟩ := rejects_cases hre
    exact h.conclude hn htx hpnd rfl (.inl rfl)
  | others => exact h.others hn _ _

theorem planned_opening : World.Planned numbers (World.opening : World κ ν) where
  fits := nofun
  knows := nofun
  sent := nofun
  backed := nofun
  only := fun _ hc => absurd hc not_mem_nil
  released := nofun
  cancelled := nofun

theorem planned_of_reachable (h : (system numbers).Reachable Separate w) : w.Planned numbers := by
  have hsta : ∀ w : World κ ν, (system numbers).start w → w.Planned numbers := by
    intro w hw
    rw [show w = .opening from hw]
    exact planned_opening
  refine h.invariant hsta ?_
  intro w e w' hrch hgrd hpld hs
  exact hpld.step (sound_of_reachable hrch) hgrd (step_stepped hs)

/-! ## What was claimed -/

def Network.Locks (n : Network κ) (lock amount : Nat) : Prop :=
  ∃ tx, n.Succeeded lock tx ∧ tx.operation = .createClaimableBalance amount

theorem Network.Locks.created {lock amount amount' : Nat} (h : n.Locks lock amount)
    (hcrt : n.Created lock amount') : amount' = amount := by
  obtain ⟨tx, hsuc, hopn⟩ := h
  obtain ⟨tx', balance, hsuc', hcrs, rfl⟩ := hcrt
  rw [← hsuc.eq hsuc', hopn] at hcrs
  rw [← Option.some.inj hcrs]

theorem World.Planned.settled (h : w.Planned numbers) (hsnd : w.network.Sound) {c : Claim}
    (hc : c ∈ w.network.claims) {purpose : Purpose κ ν} (hpurpose : w.purposeOf c.transaction = some purpose)
    {p amount : Nat} {deal : Deal κ ν} (hp : purpose.ofPlan = some p) (hde : w.deal p = some deal)
    (hlks : w.network.Locks deal.lock amount) :
    c.balanceId = deal.lock ∧ c.amount = amount ∧ ∃ tx call, w.network.Succeeded c.transaction tx ∧
      call.purpose = purpose ∧ w.Fits numbers call ∧
      ∀ agent, call.action = .release agent → tx.operation = .release c.balanceId agent c.amount := by
  obtain ⟨-, created, balance, tx, hcrt, hcrs, hsuc, hcls, htks⟩ := hsnd.claimed c hc
  obtain ⟨call, hcl, rfl⟩ := map_eq_some_iff.mp hpurpose
  obtain ⟨k, hsnr, hcl⟩ := bind_eq_some_iff.mp hcl
  rw [hsuc.1, bind_some] at hsnr
  obtain ⟨call', hcl', hsns⟩ := h.sent _ tx k hsuc.1 hsnr
  rw [hcl] at hcl'
  cases hcl'
  have hai : ∀ b, w.Aims call b → b = deal.lock := by
    intro b hai
    obtain ⟨deal', hde', hlk⟩ := hai p hp
    rw [hde] at hde'
    rw [← hlk, Option.some.inj hde']
  unfold Transaction.takes at htks
  cases hopn : tx.operation with
  | createClaimableBalance | other => rw [hopn] at hcls; cases hcls
  | release =>
    rw [hopn] at hcls hsns htks
    cases hcls
    obtain ⟨haction, hcrt', hb⟩ := hsns
    have hlk := hai _ hb
    rw [hlk] at hcrt'
    have hamt : c.amount = amount := Eq.trans htks (hlks.created hcrt')
    refine ⟨hlk, hamt, tx, call, hsuc, rfl, h.fits k call hcl, ?_⟩
    intro agent' hac'
    rw [haction] at hac'
    cases hac'
    rw [hopn, htks]
  | refund =>
    rw [hopn] at hcls hsns htks
    cases hcls
    obtain ⟨haction, hb⟩ := hsns
    have hlk := hai _ hb
    have hamt : c.amount = amount := by
      rw [hlk] at hcrt
      exact Eq.trans htks (hlks.created ⟨created, balance, hcrt, hcrs, rfl⟩)
    refine ⟨hlk, hamt, tx, call, hsuc, rfl, h.fits k call hcl, ?_⟩
    intro agent hac'
    rw [haction] at hac'
    cases hac'

theorem World.Fits.terms (hft : w.Fits numbers call) {p index : Nat}
    (hpa : call.purpose.paysFor = some (p, index)) {plan : Plan κ ν} (hpn : w.plans.get p = some plan) :
    ∃ agent amountXLM, plan.deal.terms[index]? = some (agent, amountXLM) ∧ call.action = .release agent := by
  unfold World.Fits at hft
  cases hpurpose : call.purpose with
  | plain | plan | cancel => rw [hpurpose] at hpa; cases hpa
  | milestone =>
    rw [hpurpose] at hpa hft
    cases hpa
    obtain ⟨deal, agent, amountXLM, hde, htrm, haction⟩ := hft
    rw [World.deal, hpn, map_some] at hde
    cases hde
    exact ⟨agent, amountXLM, htrm, haction⟩

theorem length_le_one {claims : List Claim} (hoc : (claims.map Claim.balanceId).Nodup) {q : Claim → Bool} {lock : Nat}
    (hlk : ∀ c ∈ claims, q c = true → c.balanceId = lock) : (claims.filter q).length ≤ 1 := by
  have hsub : ((claims.filter q).map Claim.balanceId).Nodup :=
    hoc.sublist (filter_sublist.map Claim.balanceId)
  have hall : (claims.filter q).map Claim.balanceId = List.replicate (claims.filter q).length lock := by
    refine eq_replicate_iff.mpr ⟨length_map _, ?_⟩
    intro b hb
    obtain ⟨c, hc, rfl⟩ := List.mem_map.mp hb
    obtain ⟨hmem, hq⟩ := mem_filter.mp hc
    exact hlk c hmem hq
  rw [hall] at hsub
  exact nodup_replicate.mp hsub

/-- **As long as the calls of a plan find its own balance and no balance is released that was locked for several
milestones, every milestone is paid its own amount once, and what is paid and refunded adds up.** -/
theorem milestones_paid (h : (system numbers).Reachable Separate w) {p : Nat} {plan : Plan κ ν}
    (hplan : w.plans.get p = some plan) : w.PaidOnce numbers p plan := by
  have hn := (sound_of_reachable h).network
  have hpld := planned_of_reachable h
  have hde : w.deal p = some plan.deal := by rw [World.deal, hplan, map_some]
  obtain ⟨milestones, lock, amount, hne, htrm, hlk, hopn, hst⟩ := hpld.backed p _ hde
  have hlks : w.network.Locks plan.deal.lock amount := ⟨lock, hlk, hopn⟩
  have hpa : ∀ {purpose : Purpose κ ν} {index}, purpose.paysFor = some (p, index) → purpose.ofPlan = some p := by
    intro purpose index hpa
    cases purpose with
    | plain | plan | cancel => cases hpa
    | milestone => cases hpa; rfl
  have hbal : ∀ c ∈ w.network.claims, (w.purposeOf c.transaction).bind Purpose.ofPlan = some p →
      c.balanceId = plan.deal.lock ∧ c.amount = amount := by
    intro c hc hbi
    obtain ⟨purpose, hpurpose, hp⟩ := bind_eq_some_iff.mp hbi
    obtain ⟨hb, hamt, -⟩ := hpld.settled hn hc hpurpose hp hde hlks
    exact ⟨hb, hamt⟩
  have hpd : ∀ c index, (w.purposeOf c).bind Purpose.paysFor = some (p, index) →
      (w.purposeOf c).bind Purpose.ofPlan = some p := by
    intro c index hbi
    obtain ⟨purpose, hpurpose, hp⟩ := bind_eq_some_iff.mp hbi
    rw [hpurpose]
    exact hpa hp
  have hstl : ∀ c ∈ w.network.claims, (w.purposeOf c.transaction).bind Purpose.ofPlan = some p →
      ((w.settlements p).map Claim.amount).sum = amount := by
    intro c hc hbi
    have hmem : c ∈ w.settlements p := mem_filter.mpr ⟨hc, decide_eq_true hbi⟩
    have hone : (w.settlements p).length ≤ 1 :=
      length_le_one hn.once fun c hc hq => (hbal c hc (of_decide_eq_true hq)).1
    obtain ⟨c', hall⟩ : ∃ c', w.settlements p = [c'] := by
      have hpos := length_pos_of_mem hmem
      exact length_eq_one_iff.mp (by omega)
    rw [hall, mem_singleton] at hmem
    rw [hall, ← hmem, map_singleton, sum_singleton]
    exact (hbal c hc hbi).2
  refine ⟨?_, ?_, ?_, ?_, ?_⟩
  · intro index m hm hrel
    obtain ⟨c, hc, hbi⟩ := hpld.released p plan index m hplan hm hrel
    exact ne_nil_of_mem (mem_filter.mpr ⟨hc, decide_eq_true hbi⟩)
  · intro index m hm c hc
    obtain ⟨hc, hq⟩ := mem_filter.mp hc
    have hbi := of_decide_eq_true hq
    obtain ⟨purpose, hpurpose, hp⟩ := bind_eq_some_iff.mp hbi
    obtain ⟨-, hamt, tx, call, htx, hcd, hft, hrls⟩ :=
      hpld.settled hn hc hpurpose (hpa hp) hde hlks
    rw [← hcd] at hp
    obtain ⟨agent, amountXLM, hte, haction⟩ := hft.terms hp hplan
    have hm' : plan.deal.terms[index]? = some m.terms := by rw [Plan.deal, List.getElem?_map, hm, map_some]
    rw [hm'] at hte
    cases hte
    refine ⟨?_, tx, htx, hrls _ haction⟩
    -- the milestone is the only one, so the total is its amount
    obtain ⟨deal, hde', hone⟩ := hpld.only c hc p index hbi
    rw [hde] at hde'
    cases hde'
    rw [htrm] at hm' hone
    obtain ⟨only, rfl⟩ := length_eq_one_iff.mp ((length_map _).symm.trans hone)
    have hsm : only.amountXLM = m.amountXLM := by
      cases index with
      | zero => exact congrArg Prod.snd (Option.some.inj hm')
      | succ => cases hm'
    rw [totalXLM, foldl_cons, foldl_nil, numbers.zero_add, hsm] at hst
    rw [hst, hamt]
  · intro index
    exact length_le_one hn.once fun c hc hq => (hbal c hc (hpd _ index (of_decide_eq_true hq))).1
  · intro before c after hcls hcnl c' hc' index hbi
    have hc : c ∈ w.network.claims := by
      rw [hcls]
      exact mem_append_right _ mem_cons_self
    have hmem : c' ∈ w.network.claims := by
      rw [hcls]
      exact mem_append_right _ (mem_cons_of_mem _ hc')
    have hoc := hn.once
    rw [hcls, map_append, map_cons] at hoc
    have hfr := (nodup_cons.mp (nodup_append.mp hoc).2.1).1
    have hlk := (hbal c hc (by rw [hcnl]; rfl)).1
    have hlk' := (hbal c' hmem (hpd _ index hbi)).1
    refine hfr ?_
    rw [hlk, ← hlk']
    exact List.mem_map_of_mem hc'
  · intro hend
    refine ⟨lock, amount, hlk, hopn, ?_⟩
    rcases hend with hall | hcan
    · -- the first milestone was released
      cases hfst : plan.milestones with
      | nil =>
        rw [Plan.deal, hfst] at htrm
        exact absurd (map_eq_nil_iff.mp htrm.symm) hne
      | cons m =>
        have hm : plan.milestones[0]? = some m := by rw [hfst]; rfl
        have hrel := List.all_eq_true.mp hall m (mem_of_getElem? hm)
        obtain ⟨c, hc, hbi⟩ := hpld.released p plan 0 m hplan hm hrel
        exact hstl c hc (hpd _ 0 hbi)
    · obtain ⟨c, hc, hbi⟩ := hpld.cancelled p plan hplan hcan
      exact hstl c hc hbi

def firstReleased (milestones : List (MilestonePayment Nat Nat)) : List (Event Nat Nat) :=
  [.call (.lockMilestoneEscrow "task".toList milestones), .advance 0, .includes 0, .advance 0,
    .call (.releaseMilestone "task".toList "first".toList), .advance 1, .advance 1, .advance 1, .includes 1, .advance 1]

theorem first_paid : ∃ (w : World Nat Nat) (plan : Plan Nat Nat), (system wholeXLM).Reachable Separate w ∧
    w.plans.get 0 = some plan ∧ plan.milestones.all MilestonePayment.released = true ∧
    w.network.claims = [⟨1, 0, 30000000⟩] ∧ w.PaidOnce wholeXLM 0 plan := by
  have hpl : ((system wholeXLM).play Separate (firstReleased [⟨"first".toList, 7, 3, false⟩]) .opening).any
      (fun w => decide (w.plans.get 0 = some ⟨"task".toList, [⟨"first".toList, 7, 3, true⟩], 0, false⟩ ∧
        w.network.claims = [⟨1, 0, 30000000⟩])) = true := by
    decide
  obtain ⟨w, hrch, hpn, hcls⟩ := exists_reachable rfl hpl
  exact ⟨w, _, hrch, hpn, rfl, hcls, milestones_paid hrch hpn⟩

/-- Of milestones of one and two XLM, the agent of the first gets three. -/
theorem first_overpaid : ∃ (w : World Nat Nat) (plan : Plan Nat Nat), (system wholeXLM).Reachable (fun _ _ => True) w ∧
    w.plans.get 0 = some plan ∧ ¬w.PaidOnce wholeXLM 0 plan := by
  have hpl : ((system wholeXLM).play (fun _ _ => True)
      (firstReleased [⟨"first".toList, 7, 1, false⟩, ⟨"second".toList, 8, 2, false⟩]) .opening).any (fun w =>
        decide (w.plans.get 0 =
            some ⟨"task".toList, [⟨"first".toList, 7, 1, true⟩, ⟨"second".toList, 8, 2, false⟩], 0, false⟩ ∧
          w.payments 0 0 = [⟨1, 0, 30000000⟩])) = true := by
    decide
  obtain ⟨w, hrch, hpn, hpa⟩ := exists_reachable rfl hpl
  refine ⟨w, _, hrch, hpn, ?_⟩
  intro hpd
  have hown := (hpd.own 0 _ rfl ⟨1, 0, 30000000⟩ (by rw [hpa]; exact mem_singleton_self _)).1
  revert hown
  decide

end AiNet.EscrowSdk
