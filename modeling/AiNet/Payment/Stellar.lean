import AiNet.Core.Register
import AiNet.Core.Storage
import AiNet.Core.Transition
import Mathlib.Algebra.GroupWithZero.Nat

/-!
# Claimable balances on Stellar

As much of the ledger as an escrow needs. A transaction has a source account, carries that
account's next sequence number, and one operation. It waits until the network includes it, which
happens once or never; then it pays its fee and uses up its number, whether the operation
succeeds or not. `createClaimableBalance` takes the amount from the source and names the claimants;
`claimClaimableBalance` credits the source, which has to be a claimant, and consumes the balance.

A balance is named by what its id is a hash of: source and sequence number of the transaction that
created it. `claimed` is the ledger's record of claims. Amounts are stroops; reserves, limits and
time bounds only keep further transactions out and are left out, as are predicates, of which
only the unconditional one is used.
-/

namespace AiNet.Payment

open Core List Option Storage

section

/-- An account. -/
structure Account where
  balance : Nat
  sequence : Nat
  deriving DecidableEq

/-- The id of a claimable balance: who created it, with which sequence number. -/
abbrev BalanceId (κ : Type) := κ × Nat

structure ClaimableBalance (κ : Type) where
  amount : Nat
  claimants : List κ
  deriving DecidableEq

inductive Operation (κ : Type) where
  | createClaimableBalance (amount : Nat) (claimants : List κ)
  | claimClaimableBalance (balanceId : BalanceId κ)
  deriving DecidableEq

inductive TransactionStatus where
  | pending
  | success
  | failed
  deriving DecidableEq

structure Transaction (κ : Type) where
  source : κ
  sequence : Nat
  operation : Operation κ
  status : TransactionStatus
  deriving DecidableEq

/-- A claim that was executed. -/
structure Claim (κ : Type) where
  balanceId : BalanceId κ
  account : κ
  amount : Nat
  deriving DecidableEq

/-- The ledger, with the transactions that were ever sent; their number stands for their hash. -/
structure Ledger (κ : Type) where
  accounts : Storage κ Account
  balances : Storage (BalanceId κ) (ClaimableBalance κ)
  transactions : Register (Transaction κ)
  claimed : List (Claim κ)

def baseFee : Nat := 100

namespace Ledger

variable {κ : Type} [DecidableEq κ]

/-- Nothing has happened yet. -/
def opening (accounts : Storage κ Account) : Ledger κ := ⟨accounts, ∅, .empty, []⟩

variable (l : Ledger κ)

def balanceOf (account : κ) : Nat := ((l.accounts.get account).map Account.balance).getD 0

def paid (balanceId : BalanceId κ) (account : κ) : Nat :=
  ((l.claimed.filter fun c => decide (c.balanceId = balanceId ∧ c.account = account)).map
    Claim.amount).sum

/-- Execute an operation, if it can be. -/
def perform (source : κ) (sequence : Nat) : Operation κ → Option (Ledger κ)
  | .createClaimableBalance amount claimants =>
    (l.accounts.get source).bind fun account =>
      -- claimants must be unique
      if 0 < amount ∧ claimants ≠ [] ∧ claimants.Nodup ∧ amount ≤ account.balance then
        some { l with
          accounts := l.accounts.set source { account with balance := account.balance - amount }
          balances := l.balances.set (source, sequence) ⟨amount, claimants⟩ }
      else none
  | .claimClaimableBalance balanceId =>
    (l.accounts.get source).bind fun account => (l.balances.get balanceId).bind fun balance =>
      if source ∈ balance.claimants then
        some { l with
          accounts := l.accounts.set source { account with balance := account.balance + balance.amount }
          balances := l.balances.remove balanceId
          claimed := l.claimed ++ [⟨balanceId, source, balance.amount⟩] }
      else none

/-- A transaction is sent, and waits. -/
def send (source : κ) (sequence : Nat) (operation : Operation κ) : Ledger κ :=
  { l with transactions := l.transactions.add ⟨source, sequence, operation, .pending⟩ }

def conclude (t : Nat) (status : TransactionStatus) : Ledger κ :=
  { l with transactions := l.transactions.rewrite (fun k _ => decide (k = t)) fun tx =>
      { tx with status := status } }

/-- Fee and sequence number of a transaction of the account. -/
def charge (source : κ) (account : Account) : Ledger κ :=
  { l with accounts := l.accounts.set source ⟨account.balance - baseFee, account.sequence + 1⟩ }

/-- The network includes a waiting transaction whose turn it is. -/
def close (t : Nat) : Option (Ledger κ) :=
  (l.transactions.get t).bind fun tx => (l.accounts.get tx.source).bind fun account =>
    if tx.status = .pending ∧ tx.sequence = account.sequence + 1 ∧ baseFee ≤ account.balance then
      some (match (l.charge tx.source account).perform tx.source tx.sequence tx.operation with
        | some l' => l'.conclude t .success
        | none => (l.charge tx.source account).conclude t .failed)
    else none

end Ledger

variable {κ : Type} [DecidableEq κ] {l l' : Ledger κ} {t : Nat} {tx : Transaction κ}
  {status : TransactionStatus}

/-! ## What closing does -/

/-- The effect of an operation, by its success. -/
inductive Effect (l l' : Ledger κ) (tx : Transaction κ) : TransactionStatus → Prop where
  | failed : l'.balances = l.balances → l'.claimed = l.claimed →
      l'.balanceOf tx.source + baseFee = l.balanceOf tx.source → Effect l l' tx .failed
  | created {amount claimants} : tx.operation = .createClaimableBalance amount claimants →
      0 < amount → claimants.Nodup →
      l'.balances = l.balances.set (tx.source, tx.sequence) ⟨amount, claimants⟩ →
      l'.claimed = l.claimed →
      l'.balanceOf tx.source + baseFee + amount = l.balanceOf tx.source → Effect l l' tx .success
  | claimed {balanceId balance} : tx.operation = .claimClaimableBalance balanceId →
      l.balances.get balanceId = some balance → tx.source ∈ balance.claimants →
      l'.balances = l.balances.remove balanceId →
      l'.claimed = l.claimed ++ [⟨balanceId, tx.source, balance.amount⟩] →
      l'.balanceOf tx.source + baseFee = l.balanceOf tx.source + balance.amount →
      Effect l l' tx .success

/-- A waiting transaction was included. -/
structure Closes (l l' : Ledger κ) (t : Nat) (tx : Transaction κ) (status : TransactionStatus) :
    Prop where
  get : l.transactions.get t = some tx
  pending : tx.status = .pending
  turn : ∃ account, l.accounts.get tx.source = some account ∧ tx.sequence = account.sequence + 1
  next : ∃ account, l'.accounts.get tx.source = some account ∧ account.sequence = tx.sequence
  others : ∀ k, k ≠ tx.source → l'.accounts.get k = l.accounts.get k
  transactions : l'.transactions = (l.conclude t status).transactions
  effect : Effect l l' tx status

theorem Ledger.balanceOf_of_get {k : κ} {account : Account} (h : l.accounts.get k = some account) :
    l.balanceOf k = account.balance := by
  unfold Ledger.balanceOf
  rw [h]
  rfl

theorem balanceOf_conclude {k : κ} {account : Account} (h : l.accounts.get k = some account) :
    (l.conclude t status).balanceOf k = account.balance :=
  Ledger.balanceOf_of_get h

/-- **What the network does when it includes a transaction.** -/
theorem close_cases (h : l.close t = some l') : ∃ tx status, Closes l l' t tx status := by
  obtain ⟨⟨source, sequence, operation, status⟩, hget, h⟩ := bind_eq_some_iff.mp h
  obtain ⟨⟨balance, used⟩, hacc, h⟩ := bind_eq_some_iff.mp h
  obtain ⟨⟨hpnd, htn, hfee⟩, h⟩ := ite_none_right_eq_some.mp h
  dsimp only at hacc hpnd htn hfee h
  have hbf : l.balanceOf source = balance := Ledger.balanceOf_of_get hacc
  -- whatever becomes of the operation, the fee is paid and the number used up
  have hch : (l.charge source ⟨balance, used⟩).accounts.get source =
      some ⟨balance - baseFee, used + 1⟩ := get_set_self _ _ _
  have hots : ∀ k, k ≠ source → (l.charge source ⟨balance, used⟩).accounts.get k = l.accounts.get k :=
    fun k hk => get_set_ne _ _ hk
  cases hpfm : (l.charge source ⟨balance, used⟩).perform source sequence operation with
  | none =>
    rw [hpfm] at h
    cases h
    refine ⟨_, .failed, hget, hpnd, ⟨_, hacc, htn⟩, ⟨_, hch, htn.symm⟩, hots, rfl, .failed rfl rfl ?_⟩
    rw [hbf, balanceOf_conclude hch]
    dsimp only
    omega
  | some l₁ =>
    rw [hpfm] at h
    cases h
    cases operation with
    | createClaimableBalance amount =>
      obtain ⟨account, hsrc, hpfm⟩ := bind_eq_some_iff.mp hpfm
      obtain ⟨⟨hpos, _, hnd, hamt⟩, hpfm⟩ := ite_none_right_eq_some.mp hpfm
      cases hch.symm.trans hsrc
      dsimp only at hamt hpfm
      have hl₁ := (some.inj hpfm).symm
      have haf : l₁.accounts.get source = some ⟨balance - baseFee - amount, used + 1⟩ := by
        rw [hl₁]
        exact get_set_self _ _ _
      refine ⟨_, .success, hget, hpnd, ⟨_, hacc, htn⟩, ⟨_, haf, htn.symm⟩, ?_, ?_,
        .created rfl hpos hnd ?_ ?_ ?_⟩
      · intro k hk
        rw [hl₁]
        exact (get_set_ne _ _ hk).trans (hots k hk)
      · rw [hl₁]
        rfl
      · rw [hl₁]
        rfl
      · rw [hl₁]
        rfl
      · rw [hbf, balanceOf_conclude haf]
        dsimp only
        omega
    | claimClaimableBalance =>
      obtain ⟨account, hsrc, hpfm⟩ := bind_eq_some_iff.mp hpfm
      obtain ⟨claimable, hcl, hpfm⟩ := bind_eq_some_iff.mp hpfm
      obtain ⟨hmem, hpfm⟩ := ite_none_right_eq_some.mp hpfm
      cases hch.symm.trans hsrc
      have hl₁ := (some.inj hpfm).symm
      have haf : l₁.accounts.get source = some ⟨balance - baseFee + claimable.amount, used + 1⟩ := by
        rw [hl₁]
        exact get_set_self _ _ _
      refine ⟨_, .success, hget, hpnd, ⟨_, hacc, htn⟩, ⟨_, haf, htn.symm⟩, ?_, ?_,
        .claimed rfl hcl hmem ?_ ?_ ?_⟩
      · intro k hk
        rw [hl₁]
        exact (get_set_ne _ _ hk).trans (hots k hk)
      · rw [hl₁]
        rfl
      · rw [hl₁]
        rfl
      · rw [hl₁]
        rfl
      · rw [hbf, balanceOf_conclude haf]
        dsimp only
        omega

omit [DecidableEq κ] in
theorem get_conclude (k : Nat) : (l.conclude t status).transactions.get k =
    (l.transactions.get k).map fun tx => if k = t then { tx with status := status } else tx := by
  unfold Ledger.conclude
  rw [Register.get_rewrite]
  cases l.transactions.get k with
  | none => rfl
  | some => simp only [map_some, decide_eq_true_eq]

variable {k : Nat} {tx' : Transaction κ}

theorem Closes.of_get (h : Closes l l' t tx status) (hk : l'.transactions.get k = some tx') :
    k = t ∧ tx' = { tx with status := status } ∨ k ≠ t ∧ l.transactions.get k = some tx' := by
  rw [h.transactions, get_conclude] at hk
  obtain ⟨old, hold, hnew⟩ := map_eq_some_iff.mp hk
  by_cases hkt : k = t
  · rw [if_pos hkt] at hnew
    rw [hkt, h.get] at hold
    cases hold
    exact .inl ⟨hkt, hnew.symm⟩
  · rw [if_neg hkt] at hnew
    exact .inr ⟨hkt, hnew ▸ hold⟩

theorem Closes.get_self (h : Closes l l' t tx status) :
    l'.transactions.get t = some { tx with status := status } := by
  rw [h.transactions, get_conclude, h.get, map_some, if_pos rfl]

theorem Closes.get_of_concluded (h : Closes l l' t tx status) (hk : l.transactions.get k = some tx')
    (hdn : tx'.status ≠ .pending) :
    l'.transactions.get k = some tx' := by
  have hkt : k ≠ t := by
    intro hkt
    rw [hkt, h.get] at hk
    cases hk
    exact hdn h.pending
  rw [h.transactions, get_conclude, hk, map_some, if_neg hkt]

/-! ## What the ledger guarantees -/

def Created (l : Ledger κ) (balanceId : BalanceId κ) (amount : Nat) (claimants : List κ) : Prop :=
  ∃ t, l.transactions.get t =
    some ⟨balanceId.1, balanceId.2, .createClaimableBalance amount claimants, .success⟩

/-- Sequence numbers are used once, balances are created and claimed once, by who may do so. -/
structure Sound (l : Ledger κ) : Prop where
  used : ∀ t tx, l.transactions.get t = some tx → tx.status ≠ .pending →
    ∃ account, l.accounts.get tx.source = some account ∧ tx.sequence ≤ account.sequence
  single : ∀ t tx t' tx', l.transactions.get t = some tx → tx.status ≠ .pending →
    l.transactions.get t' = some tx' → tx'.status ≠ .pending → tx.source = tx'.source →
    tx.sequence = tx'.sequence → t = t'
  created : ∀ balanceId balance, l.balances.get balanceId = some balance →
    Created l balanceId balance.amount balance.claimants
  wellFormed : ∀ balanceId amount claimants, Created l balanceId amount claimants →
    0 < amount ∧ claimants.Nodup
  claimed : ∀ c ∈ l.claimed, l.balances.get c.balanceId = none ∧
    ∃ claimants, Created l c.balanceId c.amount claimants ∧ c.account ∈ claimants
  once : (l.claimed.map Claim.balanceId).Nodup
  credited : ∀ t source sequence balanceId,
    l.transactions.get t = some ⟨source, sequence, .claimClaimableBalance balanceId, .success⟩ →
    ∃ c ∈ l.claimed, c.balanceId = balanceId ∧ c.account = source
  lone : ∀ t tx t' tx' balanceId, l.transactions.get t = some tx → tx.status = .success →
    l.transactions.get t' = some tx' → tx'.status = .success →
    tx.operation = .claimClaimableBalance balanceId →
    tx'.operation = .claimClaimableBalance balanceId → t = t'

theorem sound_opening (accounts : Storage κ Account) : Sound (Ledger.opening accounts) where
  used := nofun
  single := nofun
  created := nofun
  wellFormed := fun _ _ _ ⟨_, h⟩ => (by cases h)
  claimed := fun _ h => absurd h not_mem_nil
  once := nodup_nil
  credited := nofun
  lone := nofun

/-! ### Sending -/

omit [DecidableEq κ] in
theorem of_get_send {source : κ} {sequence : Nat} {operation : Operation κ}
    (h : (l.send source sequence operation).transactions.get k = some tx) :
    tx = ⟨source, sequence, operation, .pending⟩ ∨ l.transactions.get k = some tx := by
  rcases Register.of_get_add h with ⟨_, hnew⟩ | hold
  · exact .inl hnew
  · exact .inr hold

variable {balanceId : BalanceId κ} {amount : Nat} {claimants : List κ}

omit [DecidableEq κ] in
theorem created_send {source : κ} {sequence : Nat} {operation : Operation κ} :
    Created (l.send source sequence operation) balanceId amount claimants ↔
      Created l balanceId amount claimants := by
  constructor
  · intro ⟨k, hk⟩
    rcases of_get_send hk with hnew | hold
    · cases hnew
    · exact ⟨k, hold⟩
  · intro ⟨k, hk⟩
    exact ⟨k, Register.get_add_of_some hk⟩

/-- **A waiting transaction changes nothing.** -/
theorem Sound.send (h : Sound l) (source : κ) (sequence : Nat) (operation : Operation κ) :
    Sound (l.send source sequence operation) where
  used := by
    intro k tx hk hdn
    rcases of_get_send hk with rfl | hold
    · exact absurd rfl hdn
    · exact h.used k tx hold hdn
  single := by
    intro j tx k tx' hj hdn hk hdn'
    rcases of_get_send hj with rfl | hj
    · exact absurd rfl hdn
    · rcases of_get_send hk with rfl | hk
      · exact absurd rfl hdn'
      · exact h.single j tx k tx' hj hdn hk hdn'
  created := fun balanceId balance hget => created_send.mpr (h.created balanceId balance hget)
  wellFormed := fun balanceId amount claimants hcrt =>
    h.wellFormed balanceId amount claimants (created_send.mp hcrt)
  claimed := by
    intro c hc
    obtain ⟨hgn, claimants, hcrt, hmem⟩ := h.claimed c hc
    exact ⟨hgn, claimants, created_send.mpr hcrt, hmem⟩
  once := h.once
  credited := by
    intro k source' sequence' balanceId hk
    rcases of_get_send hk with hnew | hold
    · cases hnew
    · exact h.credited k source' sequence' balanceId hold
  lone := by
    intro j tx k tx' balanceId hj hdn hk hdn'
    rcases of_get_send hj with rfl | hj
    · cases hdn
    · rcases of_get_send hk with rfl | hk
      · cases hdn'
      · exact h.lone j tx k tx' balanceId hj hdn hk hdn'

/-! ### Closing -/

theorem Sound.unused (h : Sound l) (hc : Closes l l' t tx status) (hk : l.transactions.get k = some tx')
    (hdn : tx'.status ≠ .pending) (hsrc : tx'.source = tx.source) : tx'.sequence < tx.sequence := by
  obtain ⟨account, hacc, htn⟩ := hc.turn
  obtain ⟨account', hacc', hle⟩ := h.used k tx' hk hdn
  rw [hsrc, hacc] at hacc'
  cases hacc'
  omega

theorem Closes.created (hc : Closes l l' t tx status) (h : Created l balanceId amount claimants) :
    Created l' balanceId amount claimants := by
  obtain ⟨k, hk⟩ := h
  exact ⟨k, hc.get_of_concluded hk nofun⟩

theorem Closes.claimed (hc : Closes l l' t tx status) {c : Claim κ} (h : c ∈ l.claimed) :
    c ∈ l'.claimed := by
  cases hc.effect with
  | failed hbls hcmd | created hop hpos hnd hbls hcmd => exact hcmd ▸ h
  | claimed hop hget hacc hbls hcmd =>
    rw [hcmd]
    exact mem_append_left _ h

theorem Closes.of_created (hc : Closes l l' t tx status) (h : Created l' balanceId amount claimants) :
    (balanceId = (tx.source, tx.sequence) ∧ status = .success ∧
      tx.operation = .createClaimableBalance amount claimants) ∨
    Created l balanceId amount claimants := by
  obtain ⟨k, hk⟩ := h
  rcases hc.of_get hk with ⟨_, hnew⟩ | ⟨_, hold⟩
  · refine .inl ?_
    obtain ⟨source, sequence, operation, _⟩ := tx
    cases hnew
    exact ⟨rfl, rfl, rfl⟩
  · exact .inr ⟨k, hold⟩

theorem Sound.fresh (h : Sound l) (hc : Closes l l' t tx status) :
    ¬Created l (tx.source, tx.sequence) amount claimants := by
  intro ⟨k, hk⟩
  have hlt := h.unused hc hk nofun rfl
  exact Nat.lt_irrefl _ hlt

/-- **Including a transaction keeps the guarantees.** -/
theorem Sound.close (h : Sound l) (hc : Closes l l' t tx status) : Sound l' := by
  -- a balance that is claimed stays claimed: its id is not given out again
  have hgn : ∀ c ∈ l.claimed, l'.balances.get c.balanceId = none := by
    intro c hmem
    obtain ⟨hno, claimants, hcrt, _⟩ := h.claimed c hmem
    cases hc.effect with
    | failed hbls => rw [hbls, hno]
    | created hop hpos hnd hbls =>
      have hne : c.balanceId ≠ (tx.source, tx.sequence) := by
        intro heq
        rw [heq] at hcrt
        exact h.fresh hc hcrt
      rw [hbls, get_set_ne _ _ hne, hno]
    | claimed hop hget hmem' hbls =>
      rw [hbls, get_remove, hno, ite_self]
  refine ⟨?_, ?_, ?_, ?_, ?_, ?_, ?_, ?_⟩
  · -- used
    intro k tx' hk hdn
    obtain ⟨account', hnx, hseq⟩ := hc.next
    rcases hc.of_get hk with ⟨_, rfl⟩ | ⟨_, hold⟩
    · exact ⟨account', hnx, hseq.ge⟩
    · by_cases hsrc : tx'.source = tx.source
      · have hlt := h.unused hc hold hdn hsrc
        rw [hsrc]
        exact ⟨account', hnx, by omega⟩
      · rw [hc.others _ hsrc]
        exact h.used k tx' hold hdn
  · -- single
    intro j tx₁ k tx₂ hj hdn hk hdn' hsrc hseq
    rcases hc.of_get hj with ⟨hjt, rfl⟩ | ⟨_, hj⟩
    · rcases hc.of_get hk with ⟨hkt, _⟩ | ⟨_, hk⟩
      · exact hjt.trans hkt.symm
      · have hlt := h.unused hc hk hdn' hsrc.symm
        dsimp only at hseq
        omega
    · rcases hc.of_get hk with ⟨_, rfl⟩ | ⟨_, hk⟩
      · have hlt := h.unused hc hj hdn hsrc
        dsimp only at hseq
        omega
      · exact h.single j tx₁ k tx₂ hj hdn hk hdn' hsrc hseq
  · -- created
    intro balanceId balance hget
    cases hc.effect with
    | failed hbls =>
      rw [hbls] at hget
      exact hc.created (h.created balanceId balance hget)
    | created hop hpos hnd hbls =>
      rw [hbls, get_set] at hget
      split at hget
      · rename_i hid
        cases hget
        refine ⟨t, ?_⟩
        rw [hc.get_self, hid, hop]
      · exact hc.created (h.created balanceId balance hget)
    | claimed hop hfnd hmem hbls =>
      rw [hbls] at hget
      exact hc.created (h.created balanceId balance (get_of_remove hget))
  · -- wellFormed
    intro balanceId amount claimants hcrt
    rcases hc.of_created hcrt with ⟨_, rfl, hop⟩ | hold
    · cases hc.effect with
      | created hop' hpos hnd =>
        rw [hop] at hop'
        cases hop'
        exact ⟨hpos, hnd⟩
      | claimed hop' =>
        rw [hop] at hop'
        cases hop'
    · exact h.wellFormed balanceId amount claimants hold
  · -- claimed
    intro c hmem
    have hkpt : c ∈ l.claimed → l'.balances.get c.balanceId = none ∧
        ∃ claimants, Created l' c.balanceId c.amount claimants ∧ c.account ∈ claimants := by
      intro hold
      obtain ⟨_, claimants, hcrt, hacc⟩ := h.claimed c hold
      exact ⟨hgn c hold, claimants, hc.created hcrt, hacc⟩
    cases hc.effect with
    | failed hbls hcmd | created hop hpos hnd hbls hcmd => exact hkpt (hcmd ▸ hmem)
    | claimed hop hget hacc hbls hcmd =>
      rw [hcmd] at hmem
      rcases mem_append.mp hmem with hold | hnew
      · exact hkpt hold
      · rw [mem_singleton.mp hnew]
        refine ⟨?_, _, hc.created (h.created _ _ hget), hacc⟩
        rw [hbls]
        exact get_remove_self _ _
  · -- once
    cases hc.effect with
    | failed hbls hcmd | created hop hpos hnd hbls hcmd => exact hcmd ▸ h.once
    | claimed hop hget hacc hbls hcmd =>
      rw [hcmd, map_append, map_singleton, nodup_append]
      refine ⟨h.once, nodup_singleton _, ?_⟩
      intro a ha b hb hab
      obtain ⟨c, hmem, rfl⟩ := List.mem_map.mp ha
      rw [mem_singleton.mp hb] at hab
      -- a balance that was claimed is not there
      have hno := (h.claimed c hmem).1
      rw [hab] at hno
      cases hget.symm.trans hno
  · -- credited
    intro k source sequence balanceId hk
    have hkpt : (∃ c ∈ l.claimed, c.balanceId = balanceId ∧ c.account = source) →
        ∃ c ∈ l'.claimed, c.balanceId = balanceId ∧ c.account = source := by
      rintro ⟨c, hmem, hc'⟩
      exact ⟨c, hc.claimed hmem, hc'⟩
    rcases hc.of_get hk with ⟨_, hnew⟩ | ⟨_, hold⟩
    · obtain ⟨source', sequence', operation', _⟩ := tx
      cases hnew
      cases hc.effect with
      | created hop =>
        cases hop
      | claimed hop hget hacc hbls hcmd =>
        cases hop
        exact ⟨_, hcmd ▸ mem_append_right _ mem_cons_self, rfl, rfl⟩
    · exact hkpt (h.credited k source sequence balanceId hold)
  · -- lone
    have hfst : ∀ k tx' balanceId, l.transactions.get k = some tx' → tx'.status = .success →
        tx'.operation = .claimClaimableBalance balanceId → status = .success →
        tx.operation ≠ .claimClaimableBalance balanceId := by
      intro k tx' balanceId hk hdn hop' hst hop
      obtain ⟨source, sequence, operation, _⟩ := tx'
      cases hdn
      cases hop'
      obtain ⟨c, hmem, rfl, _⟩ := h.credited k source sequence balanceId hk
      subst hst
      cases hc.effect with
      | created hop' =>
        rw [hop] at hop'
        cases hop'
      | claimed hop' hget =>
        rw [hop] at hop'
        cases hop'
        rw [(h.claimed c hmem).1] at hget
        cases hget
    intro j tx₁ k tx₂ balanceId hj hdn hk hdn' hop hop'
    rcases hc.of_get hj with ⟨hjt, rfl⟩ | ⟨_, hj⟩
    · rcases hc.of_get hk with ⟨hkt, _⟩ | ⟨_, hk⟩
      · exact hjt.trans hkt.symm
      · exact absurd hop (hfst k tx₂ balanceId hk hdn' hop' hdn)
    · rcases hc.of_get hk with ⟨_, rfl⟩ | ⟨_, hk⟩
      · exact absurd hop' (hfst j tx₁ balanceId hj hdn hop hdn')
      · exact h.lone j tx₁ k tx₂ balanceId hj hdn hk hdn' hop hop'

end

/-!
## The payment service

`lock` puts an amount into a claimable balance with two claimants, the agent and the coordinator;
`release` and `refund` claim it. All three are signed by the coordinator, whose account is the
source of every transaction. A call reads the record, loads the account, sends a
transaction, waits for an answer and writes the record; anything may happen in between. Sending
the same transaction again, as `withRetry` does, changes nothing. A call may give up at any
time: Horizon cannot be reached, the transaction failed, or it was included and the answer was
lost. Others send transactions, too.
-/

inductive PaymentStatus where
  | locked
  | released
  | refunded
  | orphaned
  deriving DecidableEq

/-- A row of `payments`; the key is the task and the node. -/
structure PaymentRecord (κ : Type) where
  balanceId : BalanceId κ
  status : PaymentStatus
  amountStroops : Nat
  txHash : Option Nat
  deriving DecidableEq

/-- What is called. -/
inductive Request (κ : Type) where
  | lock (agentPublicKey : κ) (amountStroops : Nat)
  | release
  | refund
  deriving DecidableEq

/-- How far a call is: `lock` returns a balance id, the others a hash. -/
inductive Outcome (κ : Type) where
  | running
  | locked (balanceId : BalanceId κ)
  | settled (txHash : Nat)
  | threw
  deriving DecidableEq

/-- A call, with the record that it read and the transaction that it sent. -/
structure Call (τ ν κ : Type) where
  taskId : τ
  nodeId : ν
  request : Request κ
  record : Option (PaymentRecord κ)
  tx : Option Nat
  outcome : Outcome κ
  deriving DecidableEq

/-- The ledger, the database, and the calls that were made. -/
structure Books (τ ν κ : Type) where
  ledger : Ledger κ
  payments : Storage (τ × ν) (PaymentRecord κ)
  calls : Register (Call τ ν κ)

variable {τ ν κ : Type} [DecidableEq τ] [DecidableEq ν] [DecidableEq κ]

/-- What a call does before it first waits. -/
def begin (payments : Storage (τ × ν) (PaymentRecord κ)) (taskId : τ) (nodeId : ν)
    (request : Request κ) : Call τ ν κ :=
  let record := payments.get (taskId, nodeId)
  let call outcome : Call τ ν κ := ⟨taskId, nodeId, request, record, none, outcome⟩
  match request, record with
  | .lock .., _ => call .running
  | .release, none => call .threw
  | .release, some r =>
    match r.status, r.txHash with
    | .released, some txHash => call (.settled txHash)
    | _, _ => call .running
  | .refund, none => call .threw
  | .refund, some r => call (if r.status = .released then .threw else .running)

def Call.operation (coordinator : κ) (call : Call τ ν κ) : Option (Operation κ) :=
  match call.request with
  | .lock agent amount => some (.createClaimableBalance amount [agent, coordinator])
  | .release | .refund => call.record.map fun r => .claimClaimableBalance r.balanceId

def updateStatus (payments : Storage (τ × ν) (PaymentRecord κ)) (taskId : τ) (nodeId : ν)
    (status : PaymentStatus) (txHash : Nat) : Storage (τ × ν) (PaymentRecord κ) :=
  payments.adjust (taskId, nodeId) fun r => { r with status := status, txHash := some txHash }

namespace Books

variable (s : Books τ ν κ)

def setCall (c : Nat) (f : Call τ ν κ → Call τ ν κ) : Books τ ν κ :=
  { s with calls := s.calls.rewrite (fun k _ => decide (k = c)) f }

def conclude (c : Nat) (outcome : Outcome κ) : Books τ ν κ :=
  s.setCall c fun call => { call with outcome := outcome }

/-- What a call does when it hears that its transaction succeeded. -/
def answered (coordinator : κ) (c : Nat) (call : Call τ ν κ) (t : Nat) (tx : Transaction κ) :
    Books τ ν κ :=
  match call.request with
  | .lock _ amount =>
    let balanceId := (coordinator, tx.sequence)
    -- the key is unique: `insert` throws
    if s.payments.has (call.taskId, call.nodeId) then s.conclude c .threw
    else
      let record := ⟨balanceId, .locked, amount, none⟩
      { s with payments := s.payments.set (call.taskId, call.nodeId) record }.conclude c
        (.locked balanceId)
  | .release =>
    { s with payments := updateStatus s.payments call.taskId call.nodeId .released t }.conclude c
      (.settled t)
  | .refund =>
    { s with payments := updateStatus s.payments call.taskId call.nodeId .refunded t }.conclude c
      (.settled t)

end Books

/-- What may happen next. -/
inductive Event (τ ν κ : Type) where
  | call (taskId : τ) (nodeId : ν) (request : Request κ)
  /-- The account was loaded; the transaction is built, signed and sent. -/
  | submit (c : Nat)
  /-- The network includes a transaction. -/
  | close (t : Nat)
  /-- The call hears that its transaction succeeded. -/
  | answer (c : Nat)
  /-- The call throws. -/
  | fail (c : Nat)
  /-- Somebody else sends a transaction. -/
  | other (source : κ) (sequence : Nat) (operation : Operation κ)

/-- One step of a call, of the network or of somebody else. -/
def step (coordinator : κ) (s : Books τ ν κ) : Event τ ν κ → Option (Books τ ν κ)
  | .call taskId nodeId request =>
    some { s with calls := s.calls.add (begin s.payments taskId nodeId request) }
  | .submit c => (s.calls.get c).bind fun call =>
    if call.outcome = .running ∧ call.tx = none then
      (s.ledger.accounts.get coordinator).bind fun account =>
        (call.operation coordinator).map fun operation =>
          { s with ledger := s.ledger.send coordinator (account.sequence + 1) operation }.setCall c
            fun call => { call with tx := some s.ledger.transactions.next }
    else none
  | .close t => (s.ledger.close t).map fun ledger => { s with ledger := ledger }
  | .answer c => (s.calls.get c).bind fun call => call.tx.bind fun t =>
    (s.ledger.transactions.get t).bind fun tx =>
      if call.outcome = .running ∧ tx.status = .success then
        some (s.answered coordinator c call t tx)
      else none
  | .fail c => (s.calls.get c).bind fun call =>
    if call.outcome = .running then some (s.conclude c .threw) else none
  | .other source seq operation =>
    some { s with ledger := s.ledger.send source seq operation }

/-- The runs from an empty table. -/
def system (coordinator : κ) : System (Books τ ν κ) (Event τ ν κ) where
  start s := ∃ accounts, s = ⟨.opening accounts, ∅, .empty⟩
  step := step coordinator

end AiNet.Payment
