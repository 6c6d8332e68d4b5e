import AiNet.EscrowSdk.Ledger

/-!
# Steps of the SDK

A call looks up a balance by the memo of the transaction that created it, and that is the memo of its own
transaction. So no call claims a balance of another task, however calls are interleaved.
-/

namespace AiNet.EscrowSdk

open Core List Option

variable {κ ν : Type} {numbers : Numbers ν} {w w' : World κ ν}

/-! ## Steps -/

def Call.claiming (call : Call κ ν) (balanceId amount : Nat) : Option (Operation κ) :=
  match call.action with
  | .release agent => some (.release balanceId agent amount)
  | .refund => some (.refund balanceId)
  | .lock _ | .balance => none

/-- **What a step does.** -/
inductive Stepped (numbers : Numbers ν) (w : World κ ν) : Event κ ν → World κ ν → Prop
  | called {request} : Stepped numbers w (.call request) { w with calls := w.calls.add (w.begin numbers request) }
  | ended {e c call result} : w.calls.get c = some call → e = .advance c ∨ e = .abandon c →
      Stepped numbers w e (w.setStage c (.ended result))
  | resolved {c call balanceId} : w.calls.get c = some call → call.stage = .resolving →
      resolveBalanceId w.network.history call.taskId = some balanceId →
      Stepped numbers w (.advance c) (w.setStage c (.checking balanceId))
  | checked {c call balanceId balance} : w.calls.get c = some call → call.stage = .checking balanceId →
      w.network.balances.get balanceId = some balance →
      Stepped numbers w (.advance c) (w.setStage c (.building balanceId balance.amount))
  | locks {c call stroops} : w.calls.get c = some call → call.stage = .loading → call.action = .lock stroops →
      0 < stroops → Stepped numbers w (.advance c) (w.submit c call (.createClaimableBalance stroops.toNat))
  | claims {c call balanceId amount operation} : w.calls.get c = some call →
      call.stage = .building balanceId amount → call.claiming balanceId amount = some operation →
      Stepped numbers w (.advance c) (w.submit c call operation)
  | finished {c call t tx} : w.calls.get c = some call → call.stage = .submitted t → w.network.Succeeded t tx →
      Stepped numbers w (.advance c) (w.finish c call t)
  | included {t network} : w.network.includes t = some network →
      Stepped numbers w (.includes t) { w with network := network }
  | rejected {t network} : w.network.rejects t = some network →
      Stepped numbers w (.rejects t) { w with network := network }
  | others {memo creates} : Stepped numbers w (.others memo creates) { w with network := w.network.others memo creates }

variable {c : Nat} {call : Call κ ν}

theorem advance_stepped (hcl : w.calls.get c = some call)
    (h : w.advance c call = some w') : Stepped numbers w (.advance c) w' := by
  have hmis : ∀ failure, Stepped numbers w (.advance c) (w.missing c call failure) := by
    intro failure
    unfold World.missing
    cases call.action <;> exact .ended hcl (.inl rfl)
  unfold World.advance at h
  cases hstg : call.stage with
  | loading =>
    rw [hstg] at h
    cases hac : call.action with
    | lock stroops =>
      rw [hac] at h
      dsimp only at h
      split at h
      · rename_i hamt
        cases h
        exact .locks hcl hstg hac hamt.1
      · cases h
        exact .ended hcl (.inl rfl)
    | release | refund | balance => rw [hac] at h; cases h
  | resolving =>
    rw [hstg] at h
    dsimp only at h
    cases hrsv : resolveBalanceId w.network.history call.taskId with
    | none =>
      rw [hrsv] at h
      cases h
      exact hmis _
    | some =>
      rw [hrsv] at h
      cases h
      exact .resolved hcl hstg hrsv
  | checking balanceId =>
    rw [hstg] at h
    dsimp only at h
    cases hbal : w.network.balances.get balanceId with
    | none =>
      rw [hbal] at h
      cases h
      exact hmis _
    | some balance =>
      rw [hbal] at h
      cases hac : call.action with
      | balance =>
        rw [hac] at h
        cases h
        exact .ended hcl (.inl rfl)
      | lock | release | refund =>
        rw [hac] at h
        cases h
        exact .checked hcl hstg hbal
  | building =>
    rw [hstg] at h
    cases hac : call.action with
    | release | refund =>
      rw [hac] at h
      cases h
      exact .claims hcl hstg (by rw [Call.claiming, hac])
    | lock | balance => rw [hac] at h; cases h
  | submitted =>
    rw [hstg] at h
    obtain ⟨tx, htx, h⟩ := bind_eq_some_iff.mp h
    obtain ⟨hsuc, h⟩ := ite_none_right_eq_some.mp h
    cases h
    exact .finished hcl hstg ⟨htx, hsuc⟩
  | ended =>
    rw [hstg] at h
    cases h

theorem step_stepped {e : Event κ ν} (h : step numbers w e = some w') : Stepped numbers w e w' := by
  cases e with
  | call =>
    cases h
    exact .called
  | advance =>
    obtain ⟨call, hcl, h⟩ := bind_eq_some_iff.mp h
    exact advance_stepped hcl h
  | abandon =>
    obtain ⟨call, hcl, h⟩ := bind_eq_some_iff.mp h
    unfold World.abandon at h
    split at h
    · cases h
    · cases h
      exact .ended hcl (.inr rfl)
  | includes =>
    obtain ⟨network, hinc, rfl⟩ := map_eq_some_iff.mp h
    exact .included hinc
  | rejects =>
    obtain ⟨network, hre, rfl⟩ := map_eq_some_iff.mp h
    exact .rejected hre
  | others =>
    cases h
    exact .others

variable {stage : Stage}

theorem get_setStage {c k : Nat} : (w.setStage c stage).calls.get k =
    (w.calls.get k).map fun call => if k = c then { call with stage := stage } else call := by
  unfold World.setStage
  dsimp only
  rw [Register.get_rewrite]
  cases w.calls.get k with
  | none => rfl
  | some => simp only [map_some, decide_eq_true_eq]

theorem get_setStage_self (hcl : w.calls.get c = some call) :
    (w.setStage c stage).calls.get c = some { call with stage := stage } := by
  rw [get_setStage, hcl, map_some, if_pos rfl]

variable {c t : Nat}

theorem finish_network : (w.finish c call t).network = w.network := by
  unfold World.finish
  cases call.purpose <;> rfl

theorem finish_calls :
    (w.finish c call t).calls = (w.setStage c (.ended (.hash t))).calls := by
  unfold World.finish
  cases call.purpose <;> rfl

/-! ## Only balances of the task -/

def Stage.looked : Stage → Option Nat
  | .checking balanceId | .building balanceId _ => some balanceId
  | .loading | .resolving | .submitted _ | .ended _ => none

/-- A balance was locked for a task: the transaction that created it has the task id as its memo. -/
def Network.LockedFor (n : Network κ) (taskId : Text) (b : Nat) : Prop :=
  ∃ created, n.Succeeded b created ∧ created.memo = some taskId

/-- Calls look up balances with their own task id, and claim no others. -/
structure World.Sound (w : World κ ν) : Prop where
  network : w.network.Sound
  looked : ∀ c call b, w.calls.get c = some call → call.stage.looked = some b →
    w.network.LockedFor call.taskId b
  claims : ∀ t tx b, w.network.transactions.get t = some tx → tx.operation.claims = some b →
    ∃ c call, tx.sender = some c ∧ w.calls.get c = some call ∧ w.network.LockedFor call.taskId b

theorem begin_stage (request : Request κ ν) : (w.begin numbers request).stage = .loading ∨
    (w.begin numbers request).stage = .resolving ∨ ∃ result, (w.begin numbers request).stage = .ended result := by
  have hlk : ∀ (amountXLM taskId : Text) (purpose : Purpose κ ν),
      (EscrowSdk.lockEscrow amountXLM taskId purpose).stage = .loading ∨
        ∃ result, (EscrowSdk.lockEscrow amountXLM taskId purpose).stage = .ended result := by
    intro amountXLM taskId purpose
    unfold EscrowSdk.lockEscrow
    split
    · exact .inr ⟨_, rfl⟩
    · split
      · exact .inr ⟨_, rfl⟩
      · exact .inl rfl
  cases request with
  | lockEscrow agent amountXLM taskId => exact (hlk amountXLM taskId .plain).imp_right .inr
  | releasePayment | refundEscrow | getEscrowBalance => exact .inr (.inl rfl)
  | lockMilestoneEscrow taskId =>
    unfold World.begin EscrowSdk.lockMilestoneEscrow
    dsimp only
    split
    · exact .inr (.inr ⟨_, rfl⟩)
    · split
      · exact .inr (.inr ⟨_, rfl⟩)
      · split
        · exact .inr (.inr ⟨_, rfl⟩)
        · exact (hlk _ taskId _).imp_right .inr
  | releaseMilestone =>
    unfold World.begin World.releaseMilestone
    dsimp only
    split
    · exact .inr (.inr ⟨_, rfl⟩)
    · split
      · exact .inr (.inr ⟨_, rfl⟩)
      · split
        · exact .inr (.inr ⟨_, rfl⟩)
        · exact .inr (.inl rfl)
  | cancelMilestoneEscrow =>
    unfold World.begin World.cancelMilestoneEscrow
    dsimp only
    split
    · exact .inr (.inr ⟨_, rfl⟩)
    · split
      · exact .inr (.inr ⟨_, rfl⟩)
      · exact .inr (.inl rfl)

theorem begin_looked (request : Request κ ν) : (w.begin numbers request).stage.looked = none := by
  have hstg := @begin_stage _ _ numbers w request
  rcases hstg with h | h | ⟨result, h⟩
  · rw [h]; rfl
  · rw [h]; rfl
  · rw [h]; rfl

theorem mem_of_resolve {history : List Record} {taskId : Text} {b : Nat}
    (h : resolveBalanceId history taskId = some b) : ⟨some taskId, some b⟩ ∈ history := by
  obtain ⟨r, hr, hfnd⟩ := List.exists_of_findSome?_eq_some h
  obtain ⟨hme, hb⟩ := ite_none_right_eq_some.mp hfnd
  have hmem : r ∈ history := mem_reverse.mp (mem_of_mem_take hr)
  obtain ⟨memo, balanceId⟩ := r
  dsimp only at hme hb
  rwa [hme, hb] at hmem

theorem Network.LockedFor.keeps {n n' : Network κ} {taskId : Text} {b : Nat} (h : n.LockedFor taskId b)
    (hkps : Keeps n n') : n'.LockedFor taskId b := by
  obtain ⟨created, hcrt, hme⟩ := h
  exact ⟨created, hkps b created hcrt, hme⟩

theorem World.Sound.setStage (h : w.Sound) (hcl : w.calls.get c = some call)
    (hstg : ∀ b, stage.looked = some b → w.network.LockedFor call.taskId b) : (w.setStage c stage).Sound where
  network := h.network
  looked := by
    intro k call' b hcl' hlo
    rw [get_setStage] at hcl'
    obtain ⟨old, hold, rfl⟩ := map_eq_some_iff.mp hcl'
    by_cases hk : k = c
    · rw [hk, hcl] at hold
      cases hold
      rw [if_pos hk] at hlo ⊢
      exact hstg b hlo
    · rw [if_neg hk] at hlo ⊢
      exact h.looked k old b hold hlo
  claims := by
    intro t tx b htx hclm
    obtain ⟨k, call', hsnr, hcl', hlck⟩ := h.claims t tx b htx hclm
    refine ⟨k, _, hsnr, by rw [get_setStage, hcl', map_some], ?_⟩
    split
    · exact hlck
    · exact hlck

theorem World.Sound.keeps {network : Network κ} (h : w.Sound) (hsnd : network.Sound)
    (hkps : Keeps w.network network)
    (hcls : ∀ t tx b, network.transactions.get t = some tx → tx.operation.claims = some b →
      (∃ tx', w.network.transactions.get t = some tx' ∧ tx'.operation = tx.operation ∧ tx'.sender = tx.sender) ∨
        ∃ c call, tx.sender = some c ∧ w.calls.get c = some call ∧ w.network.LockedFor call.taskId b) :
    World.Sound { w with network := network } where
  network := hsnd
  looked := by
    intro c call b hcl hlo
    exact (h.looked c call b hcl hlo).keeps hkps
  claims := by
    intro t tx b htx hclm
    rcases hcls t tx b htx hclm with ⟨tx', htx', hopn, hsnr⟩ | ⟨c, call, hsnr, hcl, hlck⟩
    · rw [← hopn] at hclm
      obtain ⟨c, call, hsnr', hcl, hlck⟩ := h.claims t tx' b htx' hclm
      exact ⟨c, call, hsnr.symm.trans hsnr', hcl, hlck.keeps hkps⟩
    · exact ⟨c, call, hsnr, hcl, hlck.keeps hkps⟩

theorem World.Sound.submit {operation : Operation κ} (h : w.Sound) (hcl : w.calls.get c = some call)
    (hnot : ∀ creates, operation ≠ .other creates)
    (hcls : ∀ b, operation.claims = some b → w.network.LockedFor call.taskId b) :
    (w.submit c call operation).Sound := by
  have hse : World.Sound { w with network := w.network.send c call.taskId operation } := by
    refine h.keeps (h.network.send hnot) (keeps_add rfl) ?_
    intro t tx b htx hclm
    rcases Register.of_get_add htx with ⟨-, rfl⟩ | hold
    · exact .inr ⟨c, call, rfl, hcl, hcls b hclm⟩
    · exact .inl ⟨tx, hold, rfl, rfl⟩
  exact hse.setStage hcl fun b hb => (by cases hb)

theorem World.Sound.finish (h : w.Sound) (hcl : w.calls.get c = some call) :
    (w.finish c call t).Sound := by
  have hset : (w.setStage c (.ended (.hash t))).Sound := h.setStage hcl fun b hb => (by cases hb)
  refine ⟨?_, ?_, ?_⟩
  · rw [finish_network]
    exact h.network
  · rw [finish_network, finish_calls]
    exact hset.looked
  · rw [finish_network, finish_calls]
    exact hset.claims

theorem World.Sound.conclude {network : Network κ} {t : Nat} {tx : Transaction κ} {status : TransactionStatus}
    (h : w.Sound) (hsnd : network.Sound) (htx : w.network.transactions.get t = some tx)
    (hpnd : tx.status = .pending) (htxs : network.transactions = (w.network.conclude t status).transactions) :
    World.Sound { w with network := network } := by
  refine h.keeps hsnd (keeps_conclude htxs htx hpnd) ?_
  intro k tx' b htx' _
  rw [htxs] at htx'
  obtain ⟨old, hold, hopn, -, hsnr⟩ := of_get_conclude htx'
  exact .inl ⟨old, hold, hopn, hsnr⟩

theorem claims_of_claiming {b amount : Nat} {operation : Operation κ}
    (h : call.claiming b amount = some operation) :
    operation.claims = some b ∧ ∀ creates, operation ≠ .other creates := by
  unfold Call.claiming at h
  cases hac : call.action with
  | release | refund =>
    rw [hac] at h
    cases h
    exact ⟨rfl, nofun⟩
  | lock | balance => rw [hac] at h; cases h

/-- **Every step keeps it so.** -/
theorem World.Sound.step {e : Event κ ν} (h : w.Sound) (hs : Stepped numbers w e w') : w'.Sound := by
  cases hs with
  | called =>
    refine ⟨h.network, ?_, ?_⟩
    · intro c call b hcl hlo
      rcases Register.of_get_add hcl with ⟨-, rfl⟩ | hold
      · rw [begin_looked] at hlo
        cases hlo
      · exact h.looked c call b hold hlo
    · intro t tx b htx hclm
      obtain ⟨c, call, hsnr, hcl, hlck⟩ := h.claims t tx b htx hclm
      exact ⟨c, call, hsnr, Register.get_add_of_some hcl, hlck⟩
  | ended hcl => exact h.setStage hcl fun b hb => (by cases hb)
  | resolved hcl _ hrsv =>
    refine h.setStage hcl fun b hb => ?_
    cases hb
    obtain ⟨created, hcrt, hme, -⟩ := h.network.listed _ (mem_of_resolve hrsv) _ rfl
    exact ⟨created, hcrt, hme⟩
  | checked hcl hstg =>
    refine h.setStage hcl fun b hb => ?_
    cases hb
    exact h.looked _ _ _ hcl (by rw [hstg]; rfl)
  | locks hcl => exact h.submit hcl nofun fun b hb => (by cases hb)
  | claims hcl hstg hclg =>
    obtain ⟨hclm, hnot⟩ := claims_of_claiming hclg
    refine h.submit hcl hnot fun b hb => ?_
    rw [hclm] at hb
    cases hb
    exact h.looked _ _ _ hcl (by rw [hstg]; rfl)
  | finished hcl => exact h.finish hcl
  | included hinc =>
    obtain ⟨tx, status, htx, hpnd, htxs⟩ := includes_conclude hinc
    exact h.conclude (h.network.includes hinc) htx hpnd htxs
  | rejected hre =>
    obtain ⟨tx, htx, hpnd, rfl⟩ := rejects_cases hre
    exact h.conclude (h.network.failed htx hpnd) htx hpnd rfl
  | others =>
    refine h.keeps (h.network.other _ _) (keeps_add rfl) ?_
    intro t tx b htx hclm
    rcases Register.of_get_add htx with ⟨-, rfl⟩ | hold
    · cases hclm
    · exact .inl ⟨tx, hold, rfl, rfl⟩

theorem sound_opening : (World.opening : World κ ν).Sound where
  network := sound_empty
  looked := nofun
  claims := nofun

theorem sound_of_reachable {guard : World κ ν → Event κ ν → Prop} (h : (system numbers).Reachable guard w) :
    w.Sound := by
  have hsta : ∀ w : World κ ν, (system numbers).start w → w.Sound := by
    intro w hw
    rw [show w = .opening from hw]
    exact sound_opening
  refine h.invariant hsta ?_
  intro w e w' _ _ hsnd hs
  exact hsnd.step (step_stepped hs)

end AiNet.EscrowSdk
