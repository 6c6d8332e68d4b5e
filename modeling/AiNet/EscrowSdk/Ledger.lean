import AiNet.EscrowSdk.Payment

/-!
# What the network guarantees

A transaction succeeds once or not at all. A balance that is listed was created by a transaction with the
listed memo, and a balance is claimed once.
-/

namespace AiNet.EscrowSdk

open Core List Option Storage

variable {κ : Type} {n n' : Network κ} {t : Nat} {tx : Transaction κ} {status : TransactionStatus}

theorem get_conclude (k : Nat) : (n.conclude t status).transactions.get k =
    (n.transactions.get k).map fun tx => if k = t then { tx with status := status } else tx := by
  unfold Network.conclude
  dsimp only
  rw [Register.get_rewrite]
  cases n.transactions.get k with
  | none => rfl
  | some => simp only [map_some, decide_eq_true_eq]

/-- A transaction claims a balance: how much then goes where it says. -/
def Transaction.takes (tx : Transaction κ) (balance : Balance) (amount : Nat) : Prop :=
  match tx.operation with
  | .release _ _ amount' => amount = amount'
  | .refund _ => amount = balance.amount
  | .createClaimableBalance _ | .other _ => False

/-- **What including a transaction does:** it creates a balance, claims one, or fails. -/
inductive Includes (n : Network κ) (t : Nat) (tx : Transaction κ) : Network κ → Prop
  | created {amount : Nat} : tx.operation = .createClaimableBalance amount →
      Includes n t tx { n.conclude t .success with
        history := n.history ++ [⟨tx.memo, some t⟩]
        balances := n.balances.set t ⟨amount, true⟩ }
  | claimed {balanceId amount : Nat} {balance : Balance} : tx.operation.claims = some balanceId →
      n.balances.get balanceId = some balance → tx.takes balance amount →
      Includes n t tx { n.conclude t .success with
        history := n.history ++ [⟨tx.memo, none⟩]
        balances := n.balances.remove balanceId
        claims := n.claims ++ [⟨t, balanceId, amount⟩] }
  | failed : Includes n t tx (n.conclude t .failed)

theorem creates_of_claims {operation : Operation κ} {b : Nat} (h : operation.claims = some b) :
    operation.creates = none := by
  cases operation with
  | createClaimableBalance | other => cases h
  | release | refund => rfl

theorem includes_claim {balanceId : Nat} {amount : Balance → Nat} (hcls : tx.operation.claims = some balanceId)
    (htks : ∀ balance, tx.takes balance (amount balance)) : Includes n t tx (n.claim t tx.memo balanceId amount) := by
  unfold Network.claim
  cases hbal : n.balances.get balanceId with
  | none => exact .failed
  | some balance =>
    dsimp only
    split
    · exact .claimed hcls hbal (htks balance)
    · exact .failed

theorem includes_cases (h : n.includes t = some n') :
    ∃ tx, n.transactions.get t = some tx ∧ tx.status = .pending ∧ Includes n t tx n' := by
  obtain ⟨tx, htx, h⟩ := bind_eq_some_iff.mp h
  obtain ⟨hpnd, h⟩ := ite_none_right_eq_some.mp h
  refine ⟨tx, htx, hpnd, ?_⟩
  cases hopn : tx.operation with
  | createClaimableBalance =>
    rw [hopn] at h
    cases h
    exact .created hopn
  | release | refund =>
    rw [hopn] at h
    cases h
    refine includes_claim (by rw [hopn]; rfl) fun balance => ?_
    rw [Transaction.takes, hopn]
  | other =>
    rw [hopn] at h
    cases h

theorem rejects_cases (h : n.rejects t = some n') :
    ∃ tx, n.transactions.get t = some tx ∧ tx.status = .pending ∧ n' = n.conclude t .failed := by
  obtain ⟨tx, htx, h⟩ := bind_eq_some_iff.mp h
  obtain ⟨hpnd, h⟩ := ite_none_right_eq_some.mp h
  exact ⟨tx, htx, hpnd, (Option.some.inj h).symm⟩

theorem includes_conclude (h : n.includes t = some n') : ∃ tx status, n.transactions.get t = some tx ∧
    tx.status = .pending ∧ n'.transactions = (n.conclude t status).transactions := by
  obtain ⟨tx, htx, hpnd, hinc⟩ := includes_cases h
  cases hinc with
  | created | claimed => exact ⟨tx, .success, htx, hpnd, rfl⟩
  | failed => exact ⟨tx, .failed, htx, hpnd, rfl⟩

variable {k : Nat}

theorem of_get_conclude (h : (n.conclude t status).transactions.get k = some tx) :
    ∃ tx', n.transactions.get k = some tx' ∧ tx'.operation = tx.operation ∧ tx'.memo = tx.memo ∧
      tx'.sender = tx.sender := by
  rw [get_conclude] at h
  obtain ⟨old, hold, rfl⟩ := map_eq_some_iff.mp h
  refine ⟨old, hold, ?_⟩
  split
  · exact ⟨rfl, rfl, rfl⟩
  · exact ⟨rfl, rfl, rfl⟩

/-! ## Soundness -/

def Network.Succeeded (n : Network κ) (t : Nat) (tx : Transaction κ) : Prop :=
  n.transactions.get t = some tx ∧ tx.status = .success

structure Network.Sound (n : Network κ) : Prop where
  /-- What is listed with a balance has created it. -/
  listed : ∀ r ∈ n.history, ∀ b, r.balanceId = some b →
    ∃ tx, n.Succeeded b tx ∧ tx.memo = r.memo ∧ tx.operation.creates.isSome = true
  /-- What the SDK has locked is listed. -/
  lists : ∀ b tx amount, n.Succeeded b tx → tx.operation = .createClaimableBalance amount →
    ⟨tx.memo, some b⟩ ∈ n.history
  unclaimed : ∀ b balance, n.balances.get b = some balance →
    ∃ tx, n.Succeeded b tx ∧ tx.operation.creates = some balance
  claimed : ∀ c ∈ n.claims, n.balances.get c.balanceId = none ∧
    ∃ created balance tx, n.Succeeded c.balanceId created ∧ created.operation.creates = some balance ∧
      n.Succeeded c.transaction tx ∧ tx.operation.claims = some c.balanceId ∧ tx.takes balance c.amount
  once : (n.claims.map Claim.balanceId).Nodup
  counted : ∀ t tx b, n.Succeeded t tx → tx.operation.claims = some b → ∃ c ∈ n.claims, c.transaction = t
  /-- A transaction of somebody else does not wait. -/
  others : ∀ t tx creates, n.transactions.get t = some tx → tx.operation = .other creates → tx.status = .success

variable {tx' : Transaction κ}

theorem Network.Succeeded.eq (h : n.Succeeded t tx) (h' : n.Succeeded t tx') : tx = tx' :=
  Option.some.inj (h.1.symm.trans h'.1)

/-- Transactions that have succeeded are there for good. -/
def Keeps (n n' : Network κ) : Prop := ∀ t tx, n.Succeeded t tx → n'.Succeeded t tx

section Conclude

variable (hn : n'.transactions = (n.conclude t status).transactions) (htx : n.transactions.get t = some tx)

include hn htx

theorem keeps_conclude (hpnd : tx.status = .pending) : Keeps n n' := by
  intro k tx' ⟨hget, hsuc⟩
  have hne : k ≠ t := by
    intro hkt
    rw [hkt, htx] at hget
    cases hget
    rw [hpnd] at hsuc
    cases hsuc
  refine ⟨?_, hsuc⟩
  rw [hn, get_conclude, hget, map_some, if_neg hne]

theorem succeeded_conclude (hst : status = .success) : n'.Succeeded t { tx with status := .success } := by
  refine ⟨?_, rfl⟩
  rw [hn, get_conclude, htx, map_some, if_pos rfl, hst]

theorem of_succeeded_conclude (h : n'.Succeeded k tx') :
    k = t ∧ status = .success ∧ tx' = { tx with status := .success } ∨ n.Succeeded k tx' := by
  obtain ⟨hget, hsuc⟩ := h
  rw [hn, get_conclude] at hget
  obtain ⟨old, hold, hnew⟩ := map_eq_some_iff.mp hget
  by_cases hkt : k = t
  · rw [if_pos hkt] at hnew
    rw [hkt, htx] at hold
    cases hold
    rw [← hnew] at hsuc ⊢
    have hst : status = .success := hsuc
    rw [hst]
    exact .inl ⟨hkt, rfl, rfl⟩
  · rw [if_neg hkt] at hnew
    rw [hnew] at hold
    exact .inr ⟨hold, hsuc⟩

theorem others_conclude (h : n.Sound) (hpnd : tx.status = .pending) {creates : Option Balance}
    (hget : n'.transactions.get k = some tx') (hoth : tx'.operation = .other creates) :
    tx'.status = .success := by
  rw [hn, get_conclude] at hget
  obtain ⟨old, hold, hnew⟩ := map_eq_some_iff.mp hget
  by_cases hkt : k = t
  · rw [if_pos hkt] at hnew
    rw [hkt, htx] at hold
    cases hold
    rw [← hnew] at hoth
    have hsuc := h.others t tx creates htx hoth
    rw [hpnd] at hsuc
    cases hsuc
  · rw [if_neg hkt] at hnew
    rw [hnew] at hold
    exact h.others k tx' creates hold hoth

end Conclude

theorem sound_empty : (⟨.empty, [], ∅, []⟩ : Network κ).Sound where
  listed := fun _ hr => absurd hr not_mem_nil
  lists := fun _ _ _ h _ => (by cases h.1)
  unclaimed := nofun
  claimed := fun _ hc => absurd hc not_mem_nil
  once := nodup_nil
  counted := fun _ _ _ h _ => (by cases h.1)
  others := nofun

theorem Network.Sound.quiet (h : n.Sound) (hkps : Keeps n n')
    (hbk : ∀ k tx', n'.Succeeded k tx' → n.Succeeded k tx') (hhst : n'.history = n.history)
    (hbls : n'.balances = n.balances) (hcls : n'.claims = n.claims)
    (hots : ∀ k tx' creates, n'.transactions.get k = some tx' → tx'.operation = .other creates →
      tx'.status = .success) : n'.Sound := by
  refine ⟨?_, ?_, ?_, ?_, ?_, ?_, hots⟩
  · intro r hr b hb
    rw [hhst] at hr
    obtain ⟨tx', hsuc, hme⟩ := h.listed r hr b hb
    exact ⟨tx', hkps b tx' hsuc, hme⟩
  · intro b tx' amount hb
    rw [hhst]
    exact h.lists b tx' amount (hbk b tx' hb)
  · intro b balance hb
    rw [hbls] at hb
    obtain ⟨tx', hsuc, hcrs⟩ := h.unclaimed b balance hb
    exact ⟨tx', hkps b tx' hsuc, hcrs⟩
  · intro c hc
    rw [hcls] at hc
    rw [hbls]
    obtain ⟨hgn, created, balance, tx', hcrt, hcrs, hcl, hrst⟩ := h.claimed c hc
    exact ⟨hgn, created, balance, tx', hkps _ _ hcrt, hcrs, hkps _ _ hcl, hrst⟩
  · rw [hcls]
    exact h.once
  · intro k tx' b hk
    rw [hcls]
    exact h.counted k tx' b (hbk k tx' hk)

theorem Network.Sound.failed (h : n.Sound) (htx : n.transactions.get t = some tx) (hpnd : tx.status = .pending) :
    (n.conclude t .failed).Sound := by
  refine h.quiet (keeps_conclude rfl htx hpnd) ?_ rfl rfl rfl fun k tx' creates hget hoth => ?_
  · intro k tx' hk
    rcases of_succeeded_conclude rfl htx hk with ⟨-, hst, -⟩ | hold
    · cases hst
    · exact hold
  · exact others_conclude rfl htx h hpnd hget hoth

/-- One more transaction has succeeded: it is listed, and creates or claims what it says. -/
structure Applied (n n' : Network κ) (t : Nat) (tx : Transaction κ) (new : List Claim) : Prop where
  keeps : Keeps n n'
  self : n'.Succeeded t tx
  back : ∀ k tx', n'.Succeeded k tx' → k = t ∧ tx' = tx ∨ n.Succeeded k tx'
  fresh : ∀ tx', ¬n.Succeeded t tx'
  history : n'.history = n.history ++ [⟨tx.memo, tx.operation.creates.map fun _ => t⟩]
  balances : ∀ b balance, n'.balances.get b = some balance →
    n.balances.get b = some balance ∨ b = t ∧ tx.operation.creates = some balance
  gone : ∀ b, b ≠ t → n.balances.get b = none → n'.balances.get b = none
  claims : n'.claims = n.claims ++ new
  claimed : ∀ c ∈ new, c.transaction = t ∧ n'.balances.get c.balanceId = none ∧ ∃ balance,
    n.balances.get c.balanceId = some balance ∧ tx.operation.claims = some c.balanceId ∧ tx.takes balance c.amount
  once : (new.map Claim.balanceId).Nodup
  counted : ∀ b, tx.operation.claims = some b → ∃ c ∈ new, c.transaction = t

theorem Network.Sound.applied (h : n.Sound) (t : Nat) (tx : Transaction κ) (new : List Claim)
    (hapl : Applied n n' t tx new) (hots : ∀ k tx' creates, n'.transactions.get k = some tx' →
      tx'.operation = .other creates → tx'.status = .success) : n'.Sound := by
  refine ⟨?_, ?_, ?_, ?_, ?_, ?_, hots⟩
  · intro r hr b hb
    rw [hapl.history] at hr
    rcases mem_append.mp hr with hold | hnew
    · obtain ⟨tx', hsuc, hme⟩ := h.listed r hold b hb
      exact ⟨tx', hapl.keeps b tx' hsuc, hme⟩
    · rw [mem_singleton.mp hnew] at hb ⊢
      obtain ⟨balance, hcrs, rfl⟩ := map_eq_some_iff.mp hb
      exact ⟨_, hapl.self, rfl, by rw [hcrs]; rfl⟩
  · intro b tx' amount hb hcr
    rw [hapl.history]
    rcases hapl.back b tx' hb with ⟨rfl, rfl⟩ | hold
    · refine mem_append_right _ (mem_singleton.mpr ?_)
      rw [hcr]
      rfl
    · exact mem_append_left _ (h.lists b tx' amount hold hcr)
  · intro b balance hb
    rcases hapl.balances b balance hb with hold | ⟨rfl, hcrs⟩
    · obtain ⟨tx', hsuc, hcrt⟩ := h.unclaimed b balance hold
      exact ⟨tx', hapl.keeps b tx' hsuc, hcrt⟩
    · exact ⟨tx, hapl.self, hcrs⟩
  · intro c hc
    rw [hapl.claims] at hc
    rcases mem_append.mp hc with hold | hnew
    · obtain ⟨hgn, created, balance, tx', hcrt, hcrs, hcl, hrst⟩ := h.claimed c hold
      -- the balance of the new transaction was not claimed before it was there
      have hne : c.balanceId ≠ t := fun heq => hapl.fresh created (heq ▸ hcrt)
      exact ⟨hapl.gone _ hne hgn, created, balance, tx', hapl.keeps _ _ hcrt, hcrs,
        hapl.keeps _ _ hcl, hrst⟩
    · obtain ⟨rfl, hgn, balance, hbal, hclm, htks⟩ := hapl.claimed c hnew
      obtain ⟨created, hcrt, hcrs⟩ := h.unclaimed _ balance hbal
      exact ⟨hgn, created, balance, tx, hapl.keeps _ _ hcrt, hcrs, hapl.self, hclm, htks⟩
  · rw [hapl.claims, map_append]
    refine nodup_append.mpr ⟨h.once, hapl.once, ?_⟩
    intro b hb b' hb' heq
    obtain ⟨c, hc, rfl⟩ := List.mem_map.mp hb
    obtain ⟨c', hc', rfl⟩ := List.mem_map.mp hb'
    obtain ⟨_, _, balance, hbal, _⟩ := hapl.claimed c' hc'
    have hgn := (h.claimed c hc).1
    rw [heq, hbal] at hgn
    cases hgn
  · intro k tx' b hk hclm
    rw [hapl.claims]
    rcases hapl.back k tx' hk with ⟨rfl, rfl⟩ | hold
    · obtain ⟨c, hc, heq⟩ := hapl.counted b hclm
      exact ⟨c, mem_append_right _ hc, heq⟩
    · obtain ⟨c, hc, heq⟩ := h.counted k tx' b hold hclm
      exact ⟨c, mem_append_left _ hc, heq⟩

/-- **Including a transaction keeps the ledger sound.** -/
theorem Network.Sound.includes (h : n.Sound) (hs : n.includes t = some n') : n'.Sound := by
  obtain ⟨tx, htx, hpnd, hinc⟩ := includes_cases hs
  have hfr : ∀ tx', ¬n.Succeeded t tx' := by
    intro tx' ⟨hget, hsuc⟩
    rw [htx] at hget
    cases hget
    rw [hpnd] at hsuc
    cases hsuc
  have hots : ∀ {n' : Network κ} {status}, n'.transactions = (n.conclude t status).transactions →
      ∀ k tx' creates, n'.transactions.get k = some tx' → tx'.operation = .other creates →
        tx'.status = .success :=
    fun hn k tx' creates hget hoth => others_conclude hn htx h hpnd hget hoth
  have hbk : ∀ {n' : Network κ}, n'.transactions = (n.conclude t .success).transactions → ∀ k tx',
      n'.Succeeded k tx' → k = t ∧ tx' = { tx with status := .success } ∨ n.Succeeded k tx' :=
    fun hn k tx' hk => (of_succeeded_conclude hn htx hk).imp_left fun hnew => ⟨hnew.1, hnew.2.2⟩
  cases hinc with
  | created hopn =>
    refine h.applied t { tx with status := .success } [] ?_ (hots rfl)
    exact
      { keeps := keeps_conclude rfl htx hpnd
        self := succeeded_conclude rfl htx rfl
        back := hbk rfl
        fresh := hfr
        history := by rw [hopn]; rfl
        balances := by
          intro b balance hb
          rw [get_set] at hb
          split at hb
          · rename_i hbt
            cases hb
            exact .inr ⟨hbt, by rw [hopn]; rfl⟩
          · exact .inl hb
        gone := fun b hne hgn => (get_set_ne _ _ hne).trans hgn
        claims := (append_nil _).symm
        claimed := nofun
        once := nodup_nil
        counted := by
          intro b hclm
          rw [hopn] at hclm
          cases hclm }
  | claimed hclm hbal htks =>
    rename_i balanceId amount balance
    refine h.applied t { tx with status := .success } [⟨t, balanceId, amount⟩] ?_ (hots rfl)
    exact
      { keeps := keeps_conclude rfl htx hpnd
        self := succeeded_conclude rfl htx rfl
        back := hbk rfl
        fresh := hfr
        history := by rw [creates_of_claims hclm]; rfl
        balances := fun b balance hb => .inl (get_of_remove hb)
        gone := by
          intro b _ hgn
          rw [get_remove, hgn, ite_self]
        claims := rfl
        claimed := by
          intro c hc
          rw [mem_singleton.mp hc]
          exact ⟨rfl, get_remove_self _ _, _, hbal, hclm, htks⟩
        once := nodup_singleton _
        counted := fun b _ => ⟨_, mem_singleton_self _, rfl⟩ }
  | failed => exact h.failed htx hpnd

/-! ## Adding a transaction -/

theorem keeps_add {tx : Transaction κ} (hn : n'.transactions = n.transactions.add tx) : Keeps n n' := by
  intro k tx' ⟨hget, hsuc⟩
  refine ⟨?_, hsuc⟩
  rw [hn]
  exact Register.get_add_of_some hget

theorem of_succeeded_add {tx tx' : Transaction κ} (hn : n'.transactions = n.transactions.add tx)
    (h : n'.Succeeded k tx') : k = n.transactions.next ∧ tx' = tx ∨ n.Succeeded k tx' := by
  obtain ⟨hget, hsuc⟩ := h
  rw [hn] at hget
  rcases Register.of_get_add hget with hnew | hold
  · exact .inl hnew
  · exact .inr ⟨hold, hsuc⟩

theorem Network.Sound.send (h : n.Sound) {sender : Nat} {memo : Text} {operation : Operation κ}
    (hnot : ∀ creates, operation ≠ .other creates) : (n.send sender memo operation).Sound := by
  refine h.quiet (keeps_add rfl) ?_ rfl rfl rfl ?_
  · intro k tx' hk
    rcases of_succeeded_add rfl hk with ⟨-, rfl⟩ | hold
    · cases hk.2
    · exact hold
  · intro k tx' creates hget hoth
    rcases Register.of_get_add hget with ⟨-, rfl⟩ | hold
    · exact absurd hoth (hnot creates)
    · exact h.others k tx' creates hold hoth

theorem Network.Sound.other (h : n.Sound) (memo : Option Text) (creates : Option Balance) :
    (n.others memo creates).Sound := by
  have hno : n.transactions.get n.transactions.next = none := n.transactions.fresh _ (Nat.le_refl _)
  refine h.applied n.transactions.next ⟨memo, .other creates, .success, none⟩ [] ?_ ?_
  · exact
      { keeps := keeps_add rfl
        self := ⟨Register.get_add_self, rfl⟩
        back := fun k tx' hk => of_succeeded_add rfl hk
        fresh := by
          intro tx' ⟨hget, _⟩
          rw [hno] at hget
          cases hget
        history := rfl
        balances := by
          intro b balance hb
          unfold Network.others at hb
          cases creates with
          | none => exact .inl hb
          | some new =>
            dsimp only at hb
            rw [get_set] at hb
            split at hb
            · rename_i hbt
              exact .inr ⟨hbt, hb⟩
            · exact .inl hb
        gone := by
          intro b hne hgn
          unfold Network.others
          cases creates with
          | none => exact hgn
          | some => exact (get_set_ne _ _ hne).trans hgn
        claims := (append_nil _).symm
        claimed := nofun
        once := nodup_nil
        counted := nofun }
  · intro k tx' creates' hget hoth
    rcases Register.of_get_add hget with ⟨-, rfl⟩ | hold
    · rfl
    · exact h.others k tx' creates' hold hoth

end AiNet.EscrowSdk
