import AiNet.EscrowSdk.Steps

/-!
# Finding the escrow

The SDK finds the newest balance with the memo that it sees, and what is further back than a hundred
transactions it does not see.
-/

namespace AiNet.EscrowSdk

open Core List Option Storage System

variable {κ ν : Type} {numbers : Numbers ν} {w w' : World κ ν} {n : Network κ}

/-! ## What is listed after a balance -/

/-- The transactions listed after the one that created the balance, the newest one first. -/
def newer (history : List Record) (b : Nat) : List Record :=
  history.reverse.takeWhile fun r => decide (r.balanceId ≠ some b)

variable {b : Nat}

theorem newer_append {history : List Record} {r : Record} :
    newer (history ++ [r]) b = if r.balanceId = some b then [] else r :: newer history b := by
  unfold newer
  rw [reverse_append, reverse_singleton, singleton_append, takeWhile_cons]
  by_cases hr : r.balanceId = some b
  · rw [if_pos hr, if_neg (by simpa using hr)]
  · rw [if_neg hr, if_pos (by simpa using hr)]

variable {taskId : Text}

theorem findSome?_take_iff {l : List Record} (hmem : ∃ r ∈ l, r.balanceId = some b)
    (hme : ∀ r ∈ l, r.balanceId = some b → r.memo = some taskId) {k : Nat} :
    ((l.take k).findSome? fun r => if r.memo = some taskId then r.balanceId else none) = some b ↔
      (l.takeWhile fun r => decide (r.balanceId ≠ some b)).length < k ∧
        ∀ r ∈ l.takeWhile fun r => decide (r.balanceId ≠ some b), r.memo = some taskId → r.balanceId = none := by
  induction l generalizing k with
  | nil =>
    obtain ⟨r, hr, -⟩ := hmem
    cases hr
  | cons r l ih =>
    cases k with
    | zero => simp
    | succ k =>
      rw [take_succ_cons, List.findSome?_cons]
      by_cases hr : r.balanceId = some b
      · rw [if_pos (hme r mem_cons_self hr), hr, takeWhile_cons_of_neg (by simpa using hr)]
        simp
      · have hmem' : ∃ r ∈ l, r.balanceId = some b := by
          obtain ⟨r', hr', hb⟩ := hmem
          rcases mem_cons.mp hr' with rfl | hr'
          · exact absurd hb hr
          · exact ⟨r', hr', hb⟩
        have hnx := ih hmem' (fun r' hr' => hme r' (mem_cons_of_mem _ hr')) (k := k)
        rw [takeWhile_cons_of_pos (by simpa using hr), forall_mem_cons, length_cons,
          Nat.add_lt_add_iff_right]
        by_cases hfnd : r.memo = some taskId ∧ r.balanceId ≠ none
        · -- another balance with the memo hides the one that is looked for
          obtain ⟨hm, hso⟩ := hfnd
          rw [if_pos hm]
          cases hid : r.balanceId with
          | none => exact absurd hid hso
          | some =>
            refine iff_of_false (fun heq => hr (hid.trans heq)) fun hall => ?_
            cases hall.2.1 hm
        · have hsk : (if r.memo = some taskId then r.balanceId else none) = none := by
            split
            · rename_i hm
              by_contra hso
              exact hfnd ⟨hm, hso⟩
            · rfl
          rw [hsk, hnx]
          refine and_congr_right fun _ => (and_iff_right fun hm => ?_).symm
          by_contra hso
          exact hfnd ⟨hm, hso⟩

/-! ## Which balance is found -/

/-- A balance that the SDK has locked for a task, and nobody has claimed. -/
structure Locked (n : Network κ) (taskId : Text) (b amount : Nat) : Prop where
  unclaimed : n.balances.get b = some ⟨amount, true⟩
  lock : ∃ tx, n.Succeeded b tx ∧ tx.memo = some taskId ∧ tx.operation = .createClaimableBalance amount

/-- Fewer than a hundred transactions are listed after it. -/
def Recent (n : Network κ) (b : Nat) : Prop := (newer n.history b).length < historyLimit

/-- Somebody else has created a balance with the task's memo since. -/
def Forged (n : Network κ) (taskId : Text) (b : Nat) : Prop :=
  ∃ r ∈ newer n.history b, r.memo = some taskId ∧
    ∃ b' tx, r.balanceId = some b' ∧ n.Succeeded b' tx ∧ tx.sender = none

/-- A task is locked again only after its earlier balance was claimed. -/
def OneLock (w : World κ ν) : Event κ ν → Prop
  | .includes t => ∀ tx, w.network.transactions.get t = some tx →
      ∀ amount, tx.operation = .createClaimableBalance amount →
        ∀ taskId b locked, Locked w.network taskId b locked → tx.memo ≠ some taskId
  | _ => True

/-- What has been locked since with the same memo is not the SDK's. -/
def Unrivalled (n : Network κ) : Prop :=
  ∀ taskId b amount, Locked n taskId b amount → ∀ r ∈ newer n.history b, r.memo = some taskId →
    ∀ b', r.balanceId = some b' → ∃ tx, n.Succeeded b' tx ∧ tx.sender = none

theorem Unrivalled.keeps {n' : Network κ} (h : Unrivalled n) (hkps : Keeps n n')
    (hlck : ∀ taskId b amount, Locked n' taskId b amount → Locked n taskId b amount)
    (hhst : n'.history = n.history ∨ ∃ memo, n'.history = n.history ++ [⟨memo, none⟩]) : Unrivalled n' := by
  intro taskId b amount hlk r hr hme b' hb'
  have hold : ∀ r ∈ newer n.history b, r.memo = some taskId → r.balanceId = some b' →
      ∃ tx, n'.Succeeded b' tx ∧ tx.sender = none := by
    intro r hr hme hb'
    obtain ⟨tx, hsuc, hsnr⟩ := h taskId b amount (hlck _ _ _ hlk) r hr hme b' hb'
    exact ⟨tx, hkps b' tx hsuc, hsnr⟩
  rcases hhst with hsm | ⟨memo, hmo⟩
  · rw [hsm] at hr
    exact hold r hr hme hb'
  · rw [hmo, newer_append, if_neg (by simp)] at hr
    rcases mem_cons.mp hr with rfl | hr
    · cases hb'
    · exact hold r hr hme hb'

theorem Unrivalled.failed {t : Nat} {tx : Transaction κ} (h : Unrivalled n) (htx : n.transactions.get t = some tx)
    (hpnd : tx.status = .pending) : Unrivalled (n.conclude t .failed) := by
  refine h.keeps (keeps_conclude rfl htx hpnd) ?_ (.inl rfl)
  intro taskId b amount ⟨hget, tx', hsuc, hme, hopn⟩
  rcases of_succeeded_conclude rfl htx hsuc with ⟨-, hst, -⟩ | hold
  · cases hst
  · exact ⟨hget, tx', hold, hme, hopn⟩

theorem Unrivalled.includes {t : Nat} {n' : Network κ} (h : Unrivalled n)
    (hgrd : ∀ tx, n.transactions.get t = some tx → ∀ amount, tx.operation = .createClaimableBalance amount →
      ∀ taskId b locked, Locked n taskId b locked → tx.memo ≠ some taskId)
    (hs : n.includes t = some n') : Unrivalled n' := by
  obtain ⟨tx, htx, hpnd, hinc⟩ := includes_cases hs
  cases hinc with
  | @created amount hopn =>
    intro taskId b locked hlk r hr hme b' hb'
    rw [newer_append] at hr
    by_cases hbt : b = t
    · rw [if_pos (by rw [hbt])] at hr
      cases hr
    · rw [if_neg fun heq => hbt (Option.some.inj heq).symm] at hr
      have hbf : Locked n taskId b locked := by
        obtain ⟨hget, tx', hsuc, hme', hopn'⟩ := hlk
        refine ⟨?_, tx', ?_, hme', hopn'⟩
        · rwa [get_set_ne _ _ hbt] at hget
        · rcases of_succeeded_conclude rfl htx hsuc with ⟨heq, -, -⟩ | hold
          · exact absurd heq hbt
          · exact hold
      rcases mem_cons.mp hr with rfl | hr
      · exact absurd hme (hgrd tx htx amount hopn taskId b locked hbf)
      · obtain ⟨tx', hsuc, hsnr⟩ := h taskId b locked hbf r hr hme b' hb'
        exact ⟨tx', keeps_conclude rfl htx hpnd b' tx' hsuc, hsnr⟩
  | @claimed balanceId amount balance hclm hbal _ =>
    refine h.keeps (keeps_conclude rfl htx hpnd) ?_ (.inr ⟨tx.memo, rfl⟩)
    intro taskId b locked ⟨hget, tx', hsuc, hme', hopn'⟩
    refine ⟨get_of_remove hget, tx', ?_, hme', hopn'⟩
    rcases of_succeeded_conclude rfl htx hsuc with ⟨-, -, rfl⟩ | hold
    · dsimp only at hopn'
      rw [hopn'] at hclm
      cases hclm
    · exact hold
  | failed => exact h.failed htx hpnd

variable {operation : Operation κ}

theorem Unrivalled.send {sender : Nat} {memo : Text} (h : Unrivalled n) :
    Unrivalled (n.send sender memo operation) := by
  refine h.keeps (keeps_add rfl) ?_ (.inl rfl)
  intro taskId b amount ⟨hget, tx, hsuc, hme, hopn⟩
  rcases of_succeeded_add rfl hsuc with ⟨-, rfl⟩ | hold
  · cases hsuc.2
  · exact ⟨hget, tx, hold, hme, hopn⟩

theorem Unrivalled.others (h : Unrivalled n) (memo : Option Text) (creates : Option Balance) :
    Unrivalled (n.others memo creates) := by
  have hsf : (n.others memo creates).Succeeded n.transactions.next ⟨memo, .other creates, .success, none⟩ :=
    ⟨Register.get_add_self, rfl⟩
  intro taskId b amount hlk r hr hme b' hb'
  obtain ⟨hget, tx, hsuc, hme', hopn⟩ := hlk
  rcases of_succeeded_add rfl hsuc with ⟨-, rfl⟩ | hold
  · cases hopn
  · have hne : b ≠ n.transactions.next := by
      intro heq
      have hbd := n.transactions.lt_next hold.1
      omega
    have hbf : Locked n taskId b amount := by
      refine ⟨?_, tx, hold, hme', hopn⟩
      unfold Network.others at hget
      cases creates with
      | none => exact hget
      | some =>
        dsimp only at hget
        rwa [get_set_ne _ _ hne] at hget
    have hrec : (⟨memo, creates.map fun _ => n.transactions.next⟩ : Record).balanceId ≠ some b := by
      cases creates with
      | none => exact nofun
      | some => exact fun heq => hne (Option.some.inj heq).symm
    have hhst : (n.others memo creates).history = n.history ++ [⟨memo, creates.map fun _ => n.transactions.next⟩] :=
      rfl
    rw [hhst, newer_append, if_neg hrec] at hr
    rcases mem_cons.mp hr with rfl | hr
    · obtain ⟨balance, -, rfl⟩ := map_eq_some_iff.mp hb'
      exact ⟨_, hsf, rfl⟩
    · obtain ⟨tx', hsuc', hsnr⟩ := h taskId b amount hbf r hr hme b' hb'
      exact ⟨tx', keeps_add rfl b' tx' hsuc', hsnr⟩

theorem unrivalled_of_reachable (h : (system numbers).Reachable OneLock w) : Unrivalled w.network := by
  have hsta : ∀ w : World κ ν, (system numbers).start w → Unrivalled w.network := by
    intro w hw
    rw [show w = .opening from hw]
    intro taskId b amount hlk
    cases hlk.unclaimed
  refine h.invariant hsta ?_
  intro w e w' _ hgrd hun hs
  cases step_stepped hs with
  | called | ended | resolved | checked => exact hun
  | locks | claims => exact hun.send
  | finished =>
    rw [finish_network]
    exact hun
  | included hinc => exact hun.includes hgrd hinc
  | rejected hre =>
    obtain ⟨tx, htx, hpnd, rfl⟩ := rejects_cases hre
    exact hun.failed htx hpnd
  | others => exact hun.others _ _

variable {b amount : Nat}

/-- **Where a locked balance is looked for, it is found if it is recent and nobody else has used the memo.** -/
theorem resolve_iff (hsnd : n.Sound) (hun : Unrivalled n) (hlk : Locked n taskId b amount) :
    resolveBalanceId n.history taskId = some b ↔ Recent n b ∧ ¬Forged n taskId b := by
  obtain ⟨tx, hsuc, hme, hopn⟩ := hlk.lock
  have hlst := hsnd.lists b tx amount hsuc hopn
  have hmem : ∃ r ∈ n.history.reverse, r.balanceId = some b := ⟨_, mem_reverse.mpr hlst, rfl⟩
  have hms : ∀ r ∈ n.history.reverse, r.balanceId = some b → r.memo = some taskId := by
    intro r hr hb
    obtain ⟨tx', hsuc', hme', -⟩ := hsnd.listed r (mem_reverse.mp hr) b hb
    rw [← hme', ← hsuc.eq hsuc', hme]
  unfold resolveBalanceId
  rw [findSome?_take_iff hmem hms]
  refine and_congr_right fun _ => ⟨?_, ?_⟩
  · intro hno ⟨r, hr, hrm, b', _, hb', _⟩
    rw [hno r hr hrm] at hb'
    cases hb'
  · intro hfo r hr hrm
    cases hb' : r.balanceId with
    | none => rfl
    | some b' =>
      obtain ⟨tx', hsuc', hsnr⟩ := hun taskId b amount hlk r hr hrm b' hb'
      exact absurd ⟨r, hr, hrm, b', tx', hb', hsuc', hsnr⟩ hfo

/-! ## Calls -/

/-- A call gets its next replies, and nothing else happens. -/
def World.proceed (w : World κ ν) (c : Nat) : Nat → World κ ν
  | 0 => w
  | k + 1 =>
    match (w.calls.get c).bind (w.advance c) with
    | some w' => w'.proceed c k
    | none => w

def World.asked (numbers : Numbers ν) (w : World κ ν) (request : Request κ ν) : World κ ν :=
  { w with calls := w.calls.add (w.begin numbers request) }

/-- A request from now on: for the history, the balance and the account three replies are awaited. -/
def World.attempt (numbers : Numbers ν) (w : World κ ν) (request : Request κ ν) : World κ ν :=
  (w.asked numbers request).proceed w.calls.next 3

def World.outcome (numbers : Numbers ν) (w : World κ ν) (request : Request κ ν) : Option Stage :=
  ((w.attempt numbers request).calls.get w.calls.next).map Call.stage

def World.sent (numbers : Numbers ν) (w : World κ ν) (request : Request κ ν) : Option (Operation κ) :=
  ((w.attempt numbers request).network.transactions.get w.network.transactions.next).map Transaction.operation

/-- The SDK finds the balance of a task: it reports it, releases it and refunds it. -/
structure World.Finds (numbers : Numbers ν) (w : World κ ν) (taskId : Text) (b amount : Nat) : Prop where
  reports : w.outcome numbers (.getEscrowBalance taskId) = some (.ended (.balance amount))
  releases : ∀ agent, w.sent numbers (.releasePayment agent taskId) = some (.release b agent amount)
  refunds : w.sent numbers (.refundEscrow taskId) = some (.refund b)

section Calls

variable {c k : Nat} {call : Call κ ν}

theorem proceed_advance (hcl : w.calls.get c = some call) (h : w.advance c call = some w') :
    w.proceed c (k + 1) = w'.proceed c k := by
  rw [World.proceed, hcl, bind_some, h]

theorem proceed_none (hcl : w.calls.get c = some call) (h : w.advance c call = none) : w.proceed c k = w := by
  cases k with
  | zero => rfl
  | succ => rw [World.proceed, hcl, bind_some, h]

theorem proceed_missing {failure : Failure} (hcl : w.calls.get c = some call)
    (h : w.advance c call = some (w.missing c call failure)) : (w.proceed c (k + 1)).network = w.network := by
  rw [proceed_advance hcl h]
  unfold World.missing
  cases call.action with
  | balance | lock | release | refund => rw [proceed_none (get_setStage_self hcl) rfl]; rfl

theorem advance_resolving (hstg : call.stage = .resolving) : w.advance c call =
    match resolveBalanceId w.network.history call.taskId with
    | some balanceId => some (w.setStage c (.checking balanceId))
    | none => some (w.missing c call .noTransaction) := by
  cases call
  cases hstg
  rfl

section Claiming

variable {b amount : Nat} {operation : Operation κ} (hclaiming : call.claiming b amount = some operation)

include hclaiming

theorem advance_checking (hstg : call.stage = .checking b) : w.advance c call =
    match w.network.balances.get b with
    | some balance => some (w.setStage c (.building b balance.amount))
    | none => some (w.missing c call .alreadySettled) := by
  unfold Call.claiming at hclaiming
  unfold World.advance
  rw [hstg]
  dsimp only
  cases hac : call.action with
  | release | refund => rfl
  | lock | balance => simp [hac] at hclaiming

theorem advance_building (hstg : call.stage = .building b amount) :
    w.advance c call = some (w.submit c call operation) := by
  unfold Call.claiming at hclaiming
  unfold World.advance
  rw [hstg]
  dsimp only
  cases hac : call.action with
  | release | refund =>
    rw [hac] at hclaiming
    rw [← Option.some.inj hclaiming]
  | lock | balance => rw [hac] at hclaiming; cases hclaiming

end Claiming

theorem proceed_claiming {balance : Balance} (hcl : w.calls.get c = some call)
    (hstg : call.stage = .resolving) (hrsv : resolveBalanceId w.network.history call.taskId = some b)
    (hbal : w.network.balances.get b = some balance)
    (hclaiming : call.claiming b balance.amount = some operation) :
    (w.proceed c 3).network = w.network.send c call.taskId operation := by
  have hfst : w.advance c call = some (w.setStage c (.checking b)) := by rw [advance_resolving hstg, hrsv]
  have hsec : (w.setStage c (.checking b)).advance c { call with stage := .checking b } =
      some ((w.setStage c (.checking b)).setStage c (.building b balance.amount)) := by
    have hget : (w.setStage c (.checking b)).network.balances.get b = some balance := hbal
    have hcls : ({ call with stage := .checking b } : Call κ ν).claiming b balance.amount = some operation := hclaiming
    rw [advance_checking hcls rfl, hget]
  have hch : (w.setStage c (.checking b)).calls.get c = some { call with stage := .checking b } :=
    get_setStage_self hcl
  have hbu : ((w.setStage c (.checking b)).setStage c (.building b balance.amount)).calls.get c =
      some { call with stage := .building b balance.amount } := by
    rw [get_setStage, hch, map_some, if_pos rfl]
  rw [proceed_advance hcl hfst, proceed_advance hch hsec,
    proceed_advance hbu (advance_building hclaiming rfl)]
  rfl

theorem proceed_reporting {balance : Balance} (hcl : w.calls.get c = some call)
    (hstg : call.stage = .resolving) (hac : call.action = .balance)
    (hrsv : resolveBalanceId w.network.history call.taskId = some b)
    (hbal : w.network.balances.get b = some balance) :
    ((w.proceed c 3).calls.get c).map Call.stage = some (.ended (.balance balance.amount)) := by
  have hfst : w.advance c call = some (w.setStage c (.checking b)) := by rw [advance_resolving hstg, hrsv]
  have hsec : (w.setStage c (.checking b)).advance c { call with stage := .checking b } =
      some ((w.setStage c (.checking b)).setStage c (.ended (.balance balance.amount))) := by
    have hget : (w.setStage c (.checking b)).network.balances.get b = some balance := hbal
    unfold World.advance
    dsimp only
    rw [hget, hac]
  have hch : (w.setStage c (.checking b)).calls.get c = some { call with stage := .checking b } :=
    get_setStage_self hcl
  have hedd : ((w.setStage c (.checking b)).setStage c (.ended (.balance balance.amount))).calls.get c =
      some { call with stage := .ended (.balance balance.amount) } := by
    rw [get_setStage, hch, map_some, if_pos rfl]
  rw [proceed_advance hcl hfst, proceed_advance hch hsec, proceed_none hedd rfl, hedd]
  rfl

theorem claims_of_proceed {tx : Transaction κ} (hcl : w.calls.get c = some call) (hstg : call.stage = .resolving)
    (hac : ∀ b amount, (call.claiming b amount).isSome = true)
    (htx : (w.proceed c 3).network.transactions.get w.network.transactions.next = some tx) :
    resolveBalanceId w.network.history call.taskId = tx.operation.claims := by
  have hfr : w.network.transactions.get w.network.transactions.next = none :=
    w.network.transactions.fresh _ (Nat.le_refl _)
  cases hrsv : resolveBalanceId w.network.history call.taskId with
  | none =>
    rw [proceed_missing hcl (by rw [advance_resolving hstg, hrsv]), hfr] at htx
    cases htx
  | some b =>
    cases hbal : w.network.balances.get b with
    | none =>
      have hget : (w.setStage c (.checking b)).network.balances.get b = none := hbal
      obtain ⟨operation, hclaiming⟩ := isSome_iff_exists.mp (hac b 0)
      have hcls : ({ call with stage := .checking b } : Call κ ν).claiming b 0 = some operation := hclaiming
      have hmis : (w.setStage c (.checking b)).advance c { call with stage := .checking b } =
          some ((w.setStage c (.checking b)).missing c { call with stage := .checking b } .alreadySettled) := by
        rw [advance_checking hcls rfl, hget]
      rw [proceed_advance hcl (by rw [advance_resolving hstg, hrsv]),
        proceed_missing (get_setStage_self hcl) hmis] at htx
      rw [show (w.setStage c (.checking b)).network = w.network from rfl, hfr] at htx
      cases htx
    | some balance =>
      obtain ⟨operation, hclaiming⟩ := isSome_iff_exists.mp (hac b balance.amount)
      rw [proceed_claiming hcl hstg hrsv hbal hclaiming, Network.send, Register.get_add_self] at htx
      rw [← Option.some.inj htx, (claims_of_claiming hclaiming).1]

end Calls

theorem get_asked {request : Request κ ν} :
    (w.asked numbers request).calls.get w.calls.next = some (w.begin numbers request) := Register.get_add_self

theorem sent_of_resolve {balance : Balance} {request : Request κ ν}
    (hrsv : resolveBalanceId w.network.history taskId = some b)
    (hbal : w.network.balances.get b = some balance)
    (hbeg : (w.begin numbers request).stage = .resolving ∧ (w.begin numbers request).taskId = taskId)
    (hclaiming : (w.begin numbers request).claiming b balance.amount = some operation) :
    w.sent numbers request = some operation := by
  rw [← hbeg.2] at hrsv
  rw [World.sent, World.attempt, proceed_claiming get_asked hbeg.1 hrsv hbal hclaiming, Network.send]
  rw [show (w.asked numbers request).network = w.network from rfl, Register.get_add_self]
  rfl

theorem Locked.finds (hlk : Locked w.network taskId b amount)
    (hrsv : resolveBalanceId w.network.history taskId = some b) : w.Finds numbers taskId b amount where
  reports := by
    rw [World.outcome, World.attempt]
    have hfnd : resolveBalanceId (w.asked numbers (.getEscrowBalance taskId)).network.history
        (w.begin numbers (.getEscrowBalance taskId)).taskId = some b := hrsv
    exact proceed_reporting get_asked rfl rfl hfnd hlk.unclaimed
  releases := fun agent => sent_of_resolve hrsv hlk.unclaimed ⟨rfl, rfl⟩ rfl
  refunds := sent_of_resolve hrsv hlk.unclaimed ⟨rfl, rfl⟩ rfl

theorem World.Finds.resolve (h : w.Finds numbers taskId b amount) :
    resolveBalanceId w.network.history taskId = some b := by
  obtain ⟨tx, htx, hopn⟩ := map_eq_some_iff.mp h.refunds
  have hcls := claims_of_proceed get_asked rfl (fun _ _ => rfl) htx
  rw [hopn] at hcls
  exact hcls

theorem finds_iff (hsnd : w.network.Sound) (hun : Unrivalled w.network)
    (hlk : Locked w.network taskId b amount) :
    w.Finds numbers taskId b amount ↔ Recent w.network b ∧ ¬Forged w.network taskId b := by
  rw [← resolve_iff hsnd hun hlk]
  constructor
  · intro hfin
    exact hfin.resolve
  · intro hrsv
    exact hlk.finds hrsv

/-- **The SDK finds what it has locked if and only if it is recent enough and nobody else has used the memo, and it
looks up and claims balances of other tasks never.** -/
theorem found_iff (h : (system numbers).Reachable OneLock w) :
    (∀ taskId b amount, Locked w.network taskId b amount →
      (w.Finds numbers taskId b amount ↔ Recent w.network b ∧ ¬Forged w.network taskId b)) ∧
    (∀ c call b, w.calls.get c = some call → call.stage.looked = some b → w.network.LockedFor call.taskId b) ∧
    ∀ t tx b, w.network.transactions.get t = some tx → tx.operation.claims = some b →
      ∃ c call, tx.sender = some c ∧ w.calls.get c = some call ∧ w.network.LockedFor call.taskId b := by
  have hsnd : w.Sound := sound_of_reachable h
  refine ⟨?_, hsnd.looked, hsnd.claims⟩
  intro taskId b amount hlk
  exact finds_iff hsnd.network (unrivalled_of_reachable h) hlk

def wholeXLM : Numbers Nat where
  zero := 0
  add := (· + ·)
  nonpositive amount := decide (amount ≤ 0)
  toText amount := (Nat.repr amount).toList
  zero_add := Nat.zero_add

/-- Nothing but the very first transaction is included. -/
def First (w : World κ ν) : Event κ ν → Prop
  | .includes _ => w.network.history = []
  | _ => True

instance (w : World κ ν) : (e : Event κ ν) → Decidable (First w e)
  | .includes _ => inferInstanceAs (Decidable (w.network.history = []))
  | .call _ | .advance _ | .abandon _ | .rejects _ | .others _ _ => .isTrue trivial

theorem reachable_of_first (h : (system numbers).Reachable First w) : (system numbers).Reachable OneLock w := by
  have hsta : ∀ w : World κ ν, (system numbers).start w → (system numbers).Reachable OneLock w :=
    fun _ hw => .init hw
  refine h.invariant hsta ?_
  intro w e w' _ hfst hrch hs
  refine hrch.tail ?_ hs
  cases e with
  | includes =>
    intro tx _ amount _ taskId b locked hlk
    obtain ⟨created, hcrt, -, hopn⟩ := hlk.lock
    have hlst := (sound_of_reachable hrch).network.lists b created locked hcrt hopn
    have hemp : w.network.history = [] := hfst
    rw [hemp] at hlst
    cases hlst
  | call | advance | abandon | rejects | others => trivial

/-- Ten XLM are locked for a task. -/
def locking : List (Event Unit Nat) :=
  [.call (.lockEscrow () "10".toList "task".toList), .advance 0, .includes 0]

theorem found_locked : ∃ w : World Unit Nat, (system wholeXLM).Reachable OneLock w ∧
    Locked w.network "task".toList 0 100000000 ∧ w.Finds wholeXLM "task".toList 0 100000000 := by
  have hpl : ((system wholeXLM).play First locking .opening).any (fun w =>
      decide (w.network.balances.get 0 = some ⟨100000000, true⟩ ∧ w.network.transactions.get 0 =
        some ⟨some "task".toList, .createClaimableBalance 100000000, .success, some 0⟩ ∧
        w.network.history = [⟨some "task".toList, some 0⟩])) = true := by decide
  obtain ⟨w, hrch, hbal, htx, hhst⟩ := exists_reachable rfl hpl
  have hlk : Locked w.network "task".toList 0 100000000 := ⟨hbal, _, ⟨htx, rfl⟩, rfl, rfl⟩
  have hnwr : newer w.network.history 0 = [] := by rw [hhst]; rfl
  refine ⟨w, reachable_of_first hrch, hlk, ((found_iff (reachable_of_first hrch)).1 _ _ _ hlk).mpr ?_⟩
  constructor
  · rw [Recent, hnwr]
    exact Nat.zero_lt_succ _
  · intro ⟨r, hr, _⟩
    rw [hnwr] at hr
    cases hr

/-- After a hundred transactions that have nothing to do with it, a locked balance counts as settled. -/
theorem escrow_lost : ∃ w : World Unit Nat, (system wholeXLM).Reachable OneLock w ∧
    Locked w.network "task".toList 0 100000000 ∧
    w.outcome wholeXLM (.getEscrowBalance "task".toList) = some (.ended (.balance 0)) ∧
    ¬w.Finds wholeXLM "task".toList 0 100000000 := by
  have hpl : ((system wholeXLM).play First (locking ++ List.replicate 100 (.others none none)) .opening).any
      (fun w => decide (w.network.balances.get 0 = some ⟨100000000, true⟩ ∧ w.network.transactions.get 0 =
        some ⟨some "task".toList, .createClaimableBalance 100000000, .success, some 0⟩ ∧
        w.outcome wholeXLM (.getEscrowBalance "task".toList) = some (.ended (.balance 0)))) = true := by
    decide +kernel
  obtain ⟨w, hrch, hbal, htx, hout⟩ := exists_reachable rfl hpl
  refine ⟨w, reachable_of_first hrch, ⟨hbal, _, ⟨htx, rfl⟩, rfl, rfl⟩, hout, ?_⟩
  intro hfin
  have hre := hfin.reports
  rw [hout] at hre
  cases hre

end AiNet.EscrowSdk
