import AiNet.Payment.Calls

/-!
# Records and chain

A call writes the record after the network has included its transaction, and throws if it does not
hear of it. Records and balances agree when no call is running, provided that a transaction
succeeds only while its call waits for it and that no lock succeeds for a payment that another
lock has funded. A second lock funds a second balance before the insert fails, and a call that
gives up after its transaction took effect leaves a balance without a record, or a claimed
balance with a record that says otherwise.
-/

namespace AiNet.Payment

open Core List Option System

variable {τ ν κ : Type} [DecidableEq τ] [DecidableEq ν] [DecidableEq κ] {coordinator : κ}
  {s s' : Books τ ν κ} {e : Event τ ν κ}

/-- The transaction will succeed if it is included now. -/
def Ledger.succeeds (l : Ledger κ) (t : Nat) : Bool :=
  (l.close t).any fun l' => (l'.transactions.get t).any fun tx => decide (tx.status = .success)

def Books.through (s : Books τ ν κ) (call : Call τ ν κ) : Bool :=
  call.tx.any fun t => (s.ledger.transactions.get t).any fun tx => decide (tx.status = .success)

def Request.locks : Request κ → Bool
  | .lock .. => true
  | .release | .refund => false

/-- All transactions are those of calls. -/
def ours : Event τ ν κ → Bool
  | .other .. => false
  | _ => true

/-- Another lock has funded the payment that this call locks. -/
def Books.funded (s : Books τ ν κ) (c : Nat) (call : Call τ ν κ) : Bool :=
  call.request.locks && s.calls.any fun c' call' => decide (c' ≠ c) &&
    decide (call'.taskId = call.taskId ∧ call'.nodeId = call.nodeId) &&
      call'.request.locks && s.through call'

/--
A transaction succeeds only for a call that waits for it, and not for a second lock; a call does
not give up after its transaction succeeded.
-/
def confirmed (s : Books τ ν κ) : Event τ ν κ → Bool
  | .close t => !s.ledger.succeeds t || s.calls.any fun c call =>
    decide (call.tx = some t) && decide (call.outcome = .running) && !s.funded c call
  | .fail c => !(s.calls.get c).any s.through
  | _ => true

def Funded (coordinator : κ) (s : Books τ ν κ) (key : τ × ν) (balanceId : BalanceId κ) : Prop :=
  balanceId.1 = coordinator ∧ ∃ c call t agent amount, s.calls.get c = some call ∧
    (call.taskId, call.nodeId) = key ∧ call.request = .lock agent amount ∧ call.tx = some t ∧
    s.ledger.transactions.get t = some ⟨coordinator, balanceId.2,
      .createClaimableBalance amount [agent, coordinator], .success⟩

/-- Nothing is under way that records do not show yet, and nothing was lost. -/
structure Tracked (s : Books τ ν κ) : Prop where
  owner : ∀ t tx, s.ledger.transactions.get t = some tx →
    ∃ c call, s.calls.get c = some call ∧ call.tx = some t
  alone : ∀ c call c' call', s.calls.get c = some call → s.calls.get c' = some call' →
    call.request.locks = true → call'.request.locks = true → s.through call = true →
    s.through call' = true → call'.taskId = call.taskId → call'.nodeId = call.nodeId → c = c'
  heard : ∀ c call, s.calls.get c = some call → s.through call = true → call.outcome ≠ .threw
  written : ∀ c call, s.calls.get c = some call → call.request.locks = false → call.tx ≠ none →
    (∃ t, call.outcome = .settled t) → ∃ r, s.payments.get (call.taskId, call.nodeId) = some r ∧
      (r.status = .released ∨ r.status = .refunded)
  status : ∀ key r, s.payments.get key = some r → r.status = .released ∨ r.status = .refunded →
    ∃ claim ∈ s.ledger.claimed, claim.balanceId = r.balanceId

/-! ## Transactions that are through -/

variable {call : Call τ ν κ}

omit [DecidableEq τ] [DecidableEq ν] [DecidableEq κ] in
theorem through_iff : s.through call = true ↔
    ∃ t tx, call.tx = some t ∧ s.ledger.transactions.get t = some tx ∧ tx.status = .success := by
  unfold Books.through
  rw [Option.any_eq_true]
  constructor
  · intro ⟨t, ht, h⟩
    obtain ⟨tx, htx, hsuc⟩ := (Option.any_eq_true _ _).mp h
    exact ⟨t, tx, ht, htx, of_decide_eq_true hsuc⟩
  · intro ⟨t, tx, ht, htx, hsuc⟩
    exact ⟨t, ht, (Option.any_eq_true _ _).mpr ⟨tx, htx, decide_eq_true hsuc⟩⟩

theorem of_success (hs : Stepped coordinator s e s') {t : Nat} {tx : Transaction κ}
    (htx : s'.ledger.transactions.get t = some tx) (hsuc : tx.status = .success) :
    s.ledger.transactions.get t = some tx ∨ e = .close t ∧ s.ledger.succeeds t = true := by
  have hse : ∀ source sequence operation,
      (s.ledger.send source sequence operation).transactions.get t = some tx →
      s.ledger.transactions.get t = some tx := by
    intro source sequence operation h
    rcases of_get_send h with rfl | hold
    · cases hsuc
    · exact hold
  cases hs with
  | called | failed => exact .inl htx
  | submitted | others => exact .inl (hse _ _ _ htx)
  | @closed k l' hclo =>
    obtain ⟨_, _, hc⟩ := close_cases hclo
    rcases hc.of_get htx with ⟨rfl, _⟩ | ⟨_, hold⟩
    · refine .inr ⟨rfl, ?_⟩
      unfold Ledger.succeeds
      rw [hclo, any_some, htx, any_some, hsuc]
      rfl
    · exact .inl hold
  | answered =>
    rw [ledger_answered] at htx
    exact .inl htx

variable {c : Nat} {call' : Call τ ν κ}

/-- **A call whose transaction is through was there, and its transaction was through or is now.** -/
theorem of_through (hs : Stepped coordinator s e s') (hcl' : s'.calls.get c = some call')
    (hthr : s'.through call' = true) :
    (∃ call, s.calls.get c = some call ∧ Later call call' ∧ s.through call = true) ∨
    ∃ t, e = .close t ∧ call'.tx = some t ∧ s.calls.get c = some call' ∧ s.ledger.succeeds t = true := by
  obtain ⟨t, tx, ht, htx, hsuc⟩ := through_iff.mp hthr
  have hkpt : ∀ call, s.calls.get c = some call → call.tx = some t → e ≠ .close t →
      ∃ call, s.calls.get c = some call ∧ Later call call' ∧ s.through call = true := by
    intro call hcl htca hclo
    obtain ⟨later, hltr, hco⟩ := (grows_step hs).calls c call hcl
    cases hcl'.symm.trans hltr
    rcases of_success hs htx hsuc with hold | ⟨he, _⟩
    · exact ⟨call, hcl, hco, through_iff.mpr ⟨t, tx, htca, hold, hsuc⟩⟩
    · exact absurd he hclo
  cases origin_step hs hcl' with
  | same hcl =>
    rcases of_success hs htx hsuc with hold | ⟨he, hsu⟩
    · exact .inl ⟨call', hcl, .refl call', through_iff.mpr ⟨t, tx, ht, hold, hsuc⟩⟩
    · exact .inr ⟨t, he, ht, hcl, hsu⟩
  | begun =>
    rw [(begin_spec _ _ _ _).2.2.1] at ht
    cases ht
  | submitted hcl hrng hno hopn he =>
    -- the transaction that was just sent waits
    cases ht
    rcases of_success hs htx hsuc with hold | ⟨he', _⟩
    · exact absurd (Register.lt_next hold) (Nat.lt_irrefl _)
    · rw [he] at he'
      cases he'
  | @answered call _ _ hcl hrng _ _ _ he | @failed call hcl hrng he =>
    refine .inl (hkpt call hcl ht fun he' => ?_)
    rw [he] at he'
    cases he'

/-! ## Claims and records -/

theorem claimed_grows (hs : Stepped coordinator s e s') {claim : Claim κ}
    (h : claim ∈ s.ledger.claimed) : claim ∈ s'.ledger.claimed := by
  cases hs with
  | called | submitted | failed | others => exact h
  | closed hclo =>
    obtain ⟨_, _, hc⟩ := close_cases hclo
    exact hc.claimed h
  | answered =>
    rw [ledger_answered]
    exact h

def Executed (l : Ledger κ) : Prop :=
  ∀ claim ∈ l.claimed, ∃ t sequence, l.transactions.get t =
    some ⟨claim.account, sequence, .claimClaimableBalance claim.balanceId, .success⟩

theorem executed_step (h : Executed s.ledger) (hs : Stepped coordinator s e s') :
    Executed s'.ledger := by
  have hkpt : ∀ claim ∈ s.ledger.claimed, ∃ t sequence, s'.ledger.transactions.get t =
      some ⟨claim.account, sequence, .claimClaimableBalance claim.balanceId, .success⟩ := by
    intro claim hclm
    obtain ⟨t, sequence, ht⟩ := h claim hclm
    obtain ⟨tx, htx, _, _, _, hdn⟩ := (grows_step hs).transactions t _ ht
    exact ⟨t, sequence, by rw [htx, hdn nofun]⟩
  intro claim hclm
  cases hs with
  | called | submitted | failed | others => exact hkpt claim hclm
  | @closed t l' hclo =>
    obtain ⟨⟨source, sequence, operation, before⟩, status, hc⟩ := close_cases hclo
    have hsf := hc.get_self
    cases hc.effect with
    | failed _ hcmd | created _ _ _ _ hcmd => exact hkpt claim (hcmd ▸ hclm)
    | claimed hop _ _ _ hcmd =>
      dsimp only at hclm
      rw [hcmd] at hclm
      rcases mem_append.mp hclm with hold | hnew
      · exact hkpt claim hold
      · rw [mem_singleton.mp hnew]
        exact ⟨t, sequence, by rw [hsf, ← hop]⟩
  | answered =>
    rw [ledger_answered] at hclm
    exact hkpt claim hclm

theorem settled_grows (hs : Stepped coordinator s e s') {key : τ × ν} {r : PaymentRecord κ}
    (hr : s.payments.get key = some r) (h : r.status = .released ∨ r.status = .refunded) :
    ∃ r', s'.payments.get key = some r' ∧ (r'.status = .released ∨ r'.status = .refunded) := by
  obtain ⟨r', hr', _⟩ := (grows_step hs).payments key r hr
  refine ⟨r', hr', ?_⟩
  rcases of_payments hs hr' with
    ⟨_, _, _, _, _, _, _, _, _, _, _, _, _, hno, _⟩ | ⟨r₁, hr₁, _, hwrt⟩
  · rw [hr] at hno
    cases hno
  · rcases hwrt with rfl | ⟨_, _, _, _, _, _, _, _, _, _, _, hst⟩
    · cases hr.symm.trans hr₁
      exact h
    · rcases hst with ⟨_, hrel⟩ | ⟨_, hrfd⟩
      · exact .inl hrel
      · exact .inr hrfd

/-! ## Every step -/

omit [DecidableEq κ] in
theorem tracked_start {accounts : Storage κ Account} :
    Tracked (⟨.opening accounts, ∅, .empty⟩ : Books τ ν κ) where
  owner := fun _ _ h => (by cases h)
  alone := fun _ _ _ _ h => (by cases h)
  heard := fun _ _ h => (by cases h)
  written := fun _ _ h => (by cases h)
  status := fun _ _ h => (by cases h)

theorem Consistent.waits (h : Consistent coordinator s) {t c : Nat} (hgrd : confirmed s (.close t) = true)
    (hsu : s.ledger.succeeds t = true) (hcl : s.calls.get c = some call) (ht : call.tx = some t) :
    call.outcome = .running ∧ s.funded c call = false := by
  dsimp only [confirmed] at hgrd
  rw [hsu, Bool.not_true, Bool.false_or, Register.any_eq_true] at hgrd
  obtain ⟨c', call', hcl', hwts⟩ := hgrd
  simp only [Bool.and_eq_true, decide_eq_true_eq, Bool.not_eq_true'] at hwts
  obtain ⟨⟨ht', hrng⟩, hfun⟩ := hwts
  have hc := h.own c call c' call' t hcl ht hcl' ht'
  rw [← hc] at hcl' hfun
  cases hcl.symm.trans hcl'
  exact ⟨hrng, hfun⟩

variable {c c' : Nat} {call call' : Call τ ν κ}

omit [DecidableEq κ] in
theorem not_through (hfun : s.funded c call = false) (hcl' : s.calls.get c' = some call')
    (hlks : call.request.locks = true) (hlks' : call'.request.locks = true)
    (htk : call'.taskId = call.taskId) (hno : call'.nodeId = call.nodeId)
    (hthr : s.through call' = true) : c' = c := by
  unfold Books.funded at hfun
  rw [hlks, Bool.true_and, Bool.eq_false_iff] at hfun
  by_contra hne
  refine hfun (Register.any_eq_true.mpr ⟨c', call', hcl', ?_⟩)
  rw [hlks', hthr, decide_eq_true hne, decide_eq_true (And.intro htk hno)]
  rfl

theorem owner_step (h : Tracked s) (hs : Stepped coordinator s e s') (hou : ours e = true)
    {t : Nat} {tx : Transaction κ} (htx : s'.ledger.transactions.get t = some tx) :
    ∃ c call, s'.calls.get c = some call ∧ call.tx = some t := by
  have hkpt : ∀ tx, s.ledger.transactions.get t = some tx →
      ∃ c call, s'.calls.get c = some call ∧ call.tx = some t := by
    intro tx htx
    obtain ⟨c, call, hcl, ht⟩ := h.owner t tx htx
    obtain ⟨call', hcl', hltr⟩ := (grows_step hs).calls c call hcl
    exact ⟨c, call', hcl', hltr.tx t ht⟩
  cases hs with
  | called | failed => exact hkpt tx htx
  | @submitted c call account operation hcl =>
    rcases Register.of_get_add htx with ⟨rfl, _⟩ | hold
    · refine ⟨c, { call with tx := some s.ledger.transactions.next }, ?_, rfl⟩
      rw [get_setCall, hcl, map_some, if_pos rfl]
    · exact hkpt tx hold
  | closed hclo =>
    obtain ⟨_, _, hc⟩ := close_cases hclo
    rcases hc.of_get htx with ⟨rfl, _⟩ | ⟨_, hold⟩
    · exact hkpt _ hc.get
    · exact hkpt tx hold
  | answered =>
    rw [ledger_answered] at htx
    exact hkpt tx htx
  | others => cases hou

theorem alone_step (h : Tracked s) (hc : Consistent coordinator s) (hs : Stepped coordinator s e s')
    (hgrd : confirmed s e = true) (hcl : s'.calls.get c = some call)
    (hcl' : s'.calls.get c' = some call') (hlks : call.request.locks = true)
    (hlks' : call'.request.locks = true) (hthr : s'.through call = true)
    (hthr' : s'.through call' = true) (htk : call'.taskId = call.taskId)
    (hno : call'.nodeId = call.nodeId) : c = c' := by
  rcases of_through hs hcl hthr with ⟨old, hold, hltr, hwas⟩ | ⟨t, rfl, ht, hold, hnow⟩
  · rcases of_through hs hcl' hthr' with
      ⟨old', hold', hltr', hwas'⟩ | ⟨t, rfl, ht, hold', hnow⟩
    · exact h.alone c old c' old' hold hold' (hltr.request ▸ hlks) (hltr'.request ▸ hlks')
        hwas hwas' (by rw [← hltr.taskId, ← hltr'.taskId, htk])
        (by rw [← hltr.nodeId, ← hltr'.nodeId, hno])
    · have hfr := (hc.waits hgrd hnow hold' ht).2
      exact not_through hfr hold hlks' (hltr.request ▸ hlks) (by rw [← hltr.taskId, htk])
        (by rw [← hltr.nodeId, hno]) hwas
  · rcases of_through hs hcl' hthr' with
      ⟨old', hold', hltr', hwas'⟩ | ⟨t', he, ht', hold', _⟩
    · have hfr := (hc.waits hgrd hnow hold ht).2
      exact (not_through hfr hold' hlks (hltr'.request ▸ hlks')
        (by rw [← hltr'.taskId, htk]) (by rw [← hltr'.nodeId, hno]) hwas').symm
    · cases he
      exact hc.own c call c' call' t hold ht hold' ht'

omit [DecidableEq κ] in
theorem Locked.through {balanceId : BalanceId κ} (h : Locked coordinator s call balanceId) :
    call.request.locks = true ∧ s.through call = true := by
  obtain ⟨⟨agent, amount, t, hreq, ht, htx, _⟩, _⟩ := h
  exact ⟨by rw [hreq]; rfl, through_iff.mpr ⟨t, _, ht, htx, rfl⟩⟩

theorem heard_step (h : Tracked s) (hc : Consistent coordinator s) (hs : Stepped coordinator s e s')
    (hgrd : confirmed s e = true) (hcl' : s'.calls.get c = some call')
    (hthr : s'.through call' = true) : call'.outcome ≠ .threw := by
  rcases of_through hs hcl' hthr with ⟨call, hcl, hltr, hwas⟩ | ⟨t, rfl, ht, hcl, hnow⟩
  · cases origin_step hs hcl' with
    | same hsm =>
      obtain rfl := some.inj (hcl.symm.trans hsm)
      exact h.heard c call hcl hwas
    | begun hnew =>
      rw [hnew] at hcl
      exact absurd (Register.lt_next hcl) (Nat.lt_irrefl _)
    | submitted hcl hrng =>
      intro hth
      rw [hrng] at hth
      cases hth
    | @answered call₁ t tx hcl₁ hrng =>
      obtain rfl := some.inj (hcl.symm.trans hcl₁)
      intro hth
      unfold Books.result at hth
      split at hth
      · rename_i hreq
        split at hth
        · -- the record is there because another lock is through
          rename_i hhas
          obtain ⟨r, hr⟩ := Storage.has_eq_true.mp hhas
          obtain ⟨_, c₂, call₂, hcl₂, hkey, hout⟩ := hc.recorded _ r hr
          obtain ⟨hlks₂, hthr₂⟩ := (hc.locked c₂ call₂ _ hcl₂ hout).through
          obtain ⟨htk, hno⟩ := Prod.mk.inj hkey
          have hsm := h.alone c call c₂ call₂ hcl hcl₂ (by rw [hreq]; rfl) hlks₂ hwas
            hthr₂ htk hno
          rw [← hsm, hcl] at hcl₂
          cases hcl₂
          rw [hrng] at hout
          cases hout
        · cases hth
      · cases hth
      · cases hth
    | @failed call₁ hcl₁ hrng he =>
      obtain rfl := some.inj (hcl.symm.trans hcl₁)
      rw [he] at hgrd
      dsimp only [confirmed] at hgrd
      rw [hcl, any_some, hwas] at hgrd
      cases hgrd
  · rw [(hc.waits hgrd hnow hcl ht).1]
    rintro ⟨⟩

theorem Consistent.target (h : Consistent coordinator s) {c t : Nat} (hcl : s.calls.get c = some call)
    (ht : call.tx = some t) (hlks : call.request.locks = false) :
    ∃ r, s.payments.get (call.taskId, call.nodeId) = some r := by
  obtain ⟨tx, _, _, hopn⟩ := h.sent c call t hcl ht
  have hrec : ∃ r, call.record = some r := by
    unfold Call.operation at hopn
    cases hreq : call.request with
    | lock =>
      rw [hreq] at hlks
      cases hlks
    | release | refund =>
      rw [hreq] at hopn
      obtain ⟨r, hr, _⟩ := map_eq_some_iff.mp hopn
      exact ⟨r, hr⟩
  obtain ⟨r, hr⟩ := hrec
  obtain ⟨r', hr', _⟩ := h.read c call r hcl hr
  exact ⟨r', hr'⟩

theorem written_step (h : Tracked s) (hc : Consistent coordinator s) (hs : Stepped coordinator s e s')
    (hcl' : s'.calls.get c = some call') (hlks : call'.request.locks = false) (hse : call'.tx ≠ none)
    (hstl : ∃ t, call'.outcome = .settled t) :
    ∃ r, s'.payments.get (call'.taskId, call'.nodeId) = some r ∧
      (r.status = .released ∨ r.status = .refunded) := by
  cases origin_step hs hcl' with
  | same hcl =>
    obtain ⟨r, hr, hst⟩ := h.written c call' hcl hlks hse hstl
    exact settled_grows hs hr hst
  | begun => exact absurd (begin_spec _ _ _ _).2.2.1 hse
  | submitted hcl hrng =>
    obtain ⟨t, hstl⟩ := hstl
    rw [hrng] at hstl
    cases hstl
  | failed =>
    obtain ⟨t, hstl⟩ := hstl
    cases hstl
  | @answered call t tx hcl hrng ht htx hsuc he hs' =>
    obtain ⟨r, hr⟩ := hc.target hcl ht hlks
    rw [hs', payments_answered, if_pos rfl]
    cases hreq : call.request with
    | lock =>
      rw [hreq] at hlks
      cases hlks
    | release =>
      rw [hr]
      exact ⟨_, rfl, .inl rfl⟩
    | refund =>
      rw [hr]
      exact ⟨_, rfl, .inr rfl⟩

theorem status_step (h : Tracked s) (hc : Consistent coordinator s)
    (hs : Stepped coordinator s e s') {key : τ × ν} {r' : PaymentRecord κ}
    (hr' : s'.payments.get key = some r') (hst : r'.status = .released ∨ r'.status = .refunded) :
    ∃ claim ∈ s'.ledger.claimed, claim.balanceId = r'.balanceId := by
  rcases of_payments hs hr' with
    ⟨_, _, _, _, _, _, _, _, _, _, _, _, _, _, _, rfl⟩ | ⟨r, hr, hbal, hwrt⟩
  · rcases hst with hrel | hrfd
    · cases hrel
    · cases hrfd
  · have hclm : ∃ claim ∈ s.ledger.claimed, claim.balanceId = r.balanceId := by
      rcases hwrt with rfl |
        ⟨c, call, t, tx, hcl, ht, htx, hsuc, hkey, _, _, hwhi⟩
      · exact h.status key r' hr hst
      · have hreq : call.request = .release ∨ call.request = .refund := by
          rcases hwhi with ⟨hrls, _⟩ | ⟨href, _⟩
          · exact .inl hrls
          · exact .inr href
        obtain ⟨_, _, r₁, sequence, _, _, _, _, hr₁, htx₁⟩ := hc.claims hcl ht htx hsuc hreq
        rw [hkey, hr] at hr₁
        cases hr₁
        obtain ⟨claim, hclm, hid, _⟩ := hc.ledger.credited t coordinator sequence _ htx₁
        exact ⟨claim, hclm, hid⟩
    obtain ⟨claim, hmem, hid⟩ := hclm
    exact ⟨claim, claimed_grows hs hmem, hid.trans hbal.symm⟩

/-- **While calls hear of their transactions, nothing is lost.** -/
theorem Tracked.step (h : Tracked s) (hc : Consistent coordinator s)
    (hs : Stepped coordinator s e s') (hou : ours e = true) (hgrd : confirmed s e = true) :
    Tracked s' where
  owner := fun _ _ htx => owner_step h hs hou htx
  alone := fun _ _ _ _ hcl hcl' hlks hlks' hthr hthr' htk hno =>
    alone_step h hc hs hgrd hcl hcl' hlks hlks' hthr hthr' htk hno
  heard := fun _ _ hcl hthr => heard_step h hc hs hgrd hcl hthr
  written := fun _ _ hcl hlks hse hstl => written_step h hc hs hcl hlks hse hstl
  status := fun _ _ hr hst => status_step h hc hs hr hst

/-! ## When no call is running -/

def Books.Idle (s : Books τ ν κ) : Prop :=
  ∀ c call, s.calls.get c = some call → call.outcome ≠ .running

/-- Records and chain agree. -/
structure Agrees (coordinator : κ) (s : Books τ ν κ) : Prop where
  single : ∀ key balanceId balanceId', Funded coordinator s key balanceId →
    Funded coordinator s key balanceId' → balanceId = balanceId'
  recorded : ∀ balanceId amount claimants, Created s.ledger balanceId amount claimants →
    ∃ key r, Funded coordinator s key balanceId ∧ s.payments.get key = some r ∧ r.balanceId = balanceId
  settled : ∀ key r, s.payments.get key = some r → ((r.status = .released ∨ r.status = .refunded) ↔
      ∃ claim ∈ s.ledger.claimed, claim.balanceId = r.balanceId)

theorem Consistent.locked_inj (h : Consistent coordinator s) {balanceId : BalanceId κ}
    (hcl : s.calls.get c = some call) (hlck : call.outcome = .locked balanceId)
    (hcl' : s.calls.get c' = some call') (hlck' : call'.outcome = .locked balanceId) : c = c' := by
  obtain ⟨_, _, t, _, ht, htx, _⟩ := (h.locked c call balanceId hcl hlck).request
  obtain ⟨_, _, t', _, ht', htx', _⟩ := (h.locked c' call' balanceId hcl' hlck').request
  have hsm := h.ledger.single t _ t' _ htx nofun htx' nofun
    rfl rfl
  rw [← hsm] at ht'
  exact h.own c call c' call' t hcl ht hcl' ht'

theorem Tracked.returned (h : Tracked s) (hc : Consistent coordinator s) (hil : s.Idle) {c t : Nat}
    {agent : κ} {amount sequence : Nat} (hcl : s.calls.get c = some call)
    (hlk : call.request = .lock agent amount) (ht : call.tx = some t)
    (htx : s.ledger.transactions.get t = some ⟨coordinator, sequence, .createClaimableBalance amount [agent, coordinator], .success⟩) :
    call.outcome = .locked (coordinator, sequence) := by
  cases hout : call.outcome with
  | running => exact absurd hout (hil c call hcl)
  | threw =>
    exact absurd hout (h.heard c call hcl (through_iff.mpr ⟨t, _, ht, htx, rfl⟩))
  | settled t' =>
    obtain ⟨hreq, _⟩ := hc.settled c call t' hcl hout
    rw [hlk] at hreq
    rcases hreq with hrls | hrfd
    · cases hrls
    · cases hrfd
  | locked balanceId =>
    obtain ⟨⟨agent', amount', t', _, ht', htx', _⟩, hsrc⟩ :=
      hc.locked c call balanceId hcl hout
    cases ht.symm.trans ht'
    have hseq := congrArg Transaction.sequence (some.inj (htx.symm.trans htx'))
    dsimp only at hseq
    rw [hseq, ← hsrc]

theorem Tracked.wrote (h : Tracked s) (hc : Consistent coordinator s) (hil : s.Idle)
    (hcl : s.calls.get c = some call) (hlks : call.request.locks = false)
    (hthr : s.through call = true) : ∃ r, s.payments.get (call.taskId, call.nodeId) = some r ∧
      (r.status = .released ∨ r.status = .refunded) := by
  obtain ⟨t, _, ht, _⟩ := through_iff.mp hthr
  have hse : call.tx ≠ none := by
    rw [ht]
    exact nofun
  cases hout : call.outcome with
  | running => exact absurd hout (hil c call hcl)
  | threw => exact absurd hout (h.heard c call hcl hthr)
  | settled t' => exact h.written c call hcl hlks hse ⟨t', hout⟩
  | locked balanceId =>
    have hlks' := (hc.locked c call balanceId hcl hout).through.1
    rw [hlks] at hlks'
    cases hlks'

theorem Tracked.agrees (h : Tracked s) (hc : Consistent coordinator s) (he : Executed s.ledger)
    (hil : s.Idle) : Agrees coordinator s where
  single := by
    intro key balanceId balanceId' ⟨hsrc, c, call, t, agent, amount, hcl, hkey, hlk, ht, htx⟩
      ⟨hsrc', c', call', t', agent', amount', hcl', hkey', hlk', ht', htx'⟩
    obtain ⟨htk, hno⟩ := Prod.mk.inj (hkey'.trans hkey.symm)
    have hsm := h.alone c call c' call' hcl hcl' (by rw [hlk]; rfl) (by rw [hlk']; rfl)
      (through_iff.mpr ⟨t, _, ht, htx, rfl⟩) (through_iff.mpr ⟨t', _, ht', htx', rfl⟩) htk hno
    rw [← hsm, hcl] at hcl'
    cases hcl'
    cases ht.symm.trans ht'
    have hseq := congrArg Transaction.sequence (some.inj (htx.symm.trans htx'))
    exact Prod.ext (hsrc.trans hsrc'.symm) hseq
  recorded := by
    intro balanceId amount claimants ⟨t, htx⟩
    obtain ⟨c, call, hcl, ht⟩ := h.owner t _ htx
    obtain ⟨tx, htx', hsrc, hopn⟩ := hc.sent c call t hcl ht
    cases htx.symm.trans htx'
    dsimp only at hsrc hopn
    -- only a lock creates a balance
    have hlk : ∃ agent, call.request = .lock agent amount ∧ claimants = [agent, coordinator] := by
      unfold Call.operation at hopn
      split at hopn
      · rename_i agent amount' hreq
        obtain ⟨rfl, rfl⟩ := Operation.createClaimableBalance.inj (some.inj hopn)
        exact ⟨agent, hreq, rfl⟩
      · obtain ⟨_, _, hop⟩ := map_eq_some_iff.mp hopn
        cases hop
      · obtain ⟨_, _, hop⟩ := map_eq_some_iff.mp hopn
        cases hop
    obtain ⟨agent, hreq, rfl⟩ := hlk
    rw [hsrc] at htx
    have hout := h.returned hc hil hcl hreq ht htx
    obtain ⟨_, _, _, _, _, _, r, hr, hbal, _⟩ := (hc.locked c call _ hcl hout).request
    refine ⟨(call.taskId, call.nodeId), r, ⟨hsrc, c, call, t, agent, amount, hcl, rfl, hreq,
      ht, htx⟩, hr, ?_⟩
    rw [hbal, ← hsrc]
  settled := by
    intro key r hr
    constructor
    · exact h.status key r hr
    · intro ⟨claim, hclm, hid⟩
      -- the claim is of a call, and that call is one of this payment
      obtain ⟨t, sequence, htx⟩ := he claim hclm
      obtain ⟨c, call, hcl, ht⟩ := h.owner t _ htx
      obtain ⟨tx, htx', _, hopn⟩ := hc.sent c call t hcl ht
      cases htx.symm.trans htx'
      have hrd : call.request.locks = false ∧ ∃ r', call.record = some r' ∧
          r'.balanceId = claim.balanceId := by
        unfold Call.operation at hopn
        split at hopn
        · cases hopn
        · rename_i hreq
          obtain ⟨r', hr', hop⟩ := map_eq_some_iff.mp hopn
          exact ⟨by rw [hreq]; rfl, r', hr', Operation.claimClaimableBalance.inj hop⟩
        · rename_i hreq
          obtain ⟨r', hr', hop⟩ := map_eq_some_iff.mp hopn
          exact ⟨by rw [hreq]; rfl, r', hr', Operation.claimClaimableBalance.inj hop⟩
      obtain ⟨hlks, r₁, hrec, hid₁⟩ := hrd
      obtain ⟨r₂, hr₂, hid₂⟩ := hc.read c call r₁ hcl hrec
      obtain ⟨_, c₃, call₃, hcl₃, hkey₃, hlck₃⟩ := hc.recorded key r hr
      obtain ⟨_, c₄, call₄, hcl₄, hkey₄, hlck₄⟩ := hc.recorded _ r₂ hr₂
      rw [hid₂, hid₁, hid] at hlck₄
      have hsm := hc.locked_inj hcl₃ hlck₃ hcl₄ hlck₄
      rw [← hsm, hcl₃] at hcl₄
      cases hcl₄
      obtain ⟨r', hr', hst⟩ :=
        h.wrote hc hil hcl hlks (through_iff.mpr ⟨t, _, ht, htx, rfl⟩)
      rw [← hkey₄, hkey₃, hr] at hr'
      cases hr'
      exact hst

/--
**Records and chain agree when calls hear of their transactions.** In every run of calls in which
a transaction succeeds only for a call that waits for it, not for a second lock of a payment, and in
which no call gives up after its transaction succeeded: whenever no call is running, a payment has
funded at most one balance, every balance has a record with its id, and a record is released or
refunded exactly when its balance has been claimed.
-/
theorem records_agree (coordinator : κ) {s : Books τ ν κ}
    (h : (system coordinator).Reachable (fun s e => ours e = true ∧ confirmed s e = true) s)
    (hidle : s.Idle) : Agrees coordinator s := by
  have hall : Tracked s ∧ Executed s.ledger ∧ Consistent coordinator s := by
    refine System.Reachable.invariant
      (I := fun s => Tracked s ∧ Executed s.ledger ∧ Consistent coordinator s) ?_ ?_ h
    · intro s hsta
      have hrch : (system coordinator).Reachable (fun _ _ => True) s := .init hsta
      have hcst := consistent_reachable hrch
      obtain ⟨accounts, h0⟩ := hsta
      rw [h0] at hcst ⊢
      exact ⟨tracked_start, fun _ h => absurd h not_mem_nil, hcst⟩
    · intro s e s' _ ⟨hou, hgrd⟩ ⟨htr, hexd, hcst⟩ hst
      have hs := step_stepped hst
      exact ⟨htr.step hcst hs hou hgrd, executed_step hexd hs, hcst.step hs⟩
  obtain ⟨htr, hexd, hcst⟩ := hall
  exact htr.agrees hcst hexd hidle

def Books.busy (s : Books τ ν κ) : Bool :=
  s.calls.any fun _ call => decide (call.outcome = .running)

omit [DecidableEq τ] [DecidableEq ν] in
theorem idle_of_not_busy (h : s.busy = false) : s.Idle := by
  intro c call hcl hrng
  exact Bool.eq_false_iff.mp h (Register.any_eq_true.mpr ⟨c, call, hcl, decide_eq_true hrng⟩)

/-! ## Examples -/

namespace Sample

/-- Two locks of one payment. -/
def lockedTwice : List (Event Nat Nat Nat) :=
  [.call 7 1 (.lock 2 500), .submit 0, .close 0, .answer 0, .call 7 1 (.lock 2 500), .submit 1,
    .close 1, .answer 1]

/-- A lock that gives up after its transaction was included. -/
def lockGivenUp : List (Event Nat Nat Nat) :=
  [.call 7 1 (.lock 2 500), .submit 0, .close 0, .fail 0]

def releaseGivenUp : List (Event Nat Nat Nat) :=
  [.call 7 1 (.lock 2 500), .submit 0, .close 0, .answer 0, .call 7 1 .release, .submit 1, .close 1,
    .fail 1]

end Sample

/-- A payment is locked and released, and all agree. -/
theorem records_agree_once : ∃ s : Books Nat Nat Nat, s.Idle ∧
    s.payments.get (7, 1) = some ⟨(1, 1), .released, 500, some 1⟩ ∧ Agrees 1 s := by
  have hpl : ((system 1).play (fun s e => ours e = true ∧ confirmed s e = true) Sample.released
      (⟨.opening Sample.accounts, ∅, .empty⟩ : Books Nat Nat Nat)).any (fun s => decide (s.busy = false ∧
        s.payments.get (7, 1) = some ⟨(1, 1), .released, 500, some 1⟩)) = true := by decide
  obtain ⟨s, hs, hil, hrec⟩ := exists_reachable (S := system 1) ⟨_, rfl⟩ hpl
  have hil := idle_of_not_busy hil
  exact ⟨s, hil, hrec, records_agree 1 hs hil⟩

/--
A second lock funds a second balance, of which there is no record; a lock that gave up after its
transaction was included leaves a balance without a record; a release that did so leaves a record
that says locked, of a balance that was claimed.
-/
theorem records_disagree :
    (∃ s : Books Nat Nat Nat, (system 1).Reachable (fun _ e => ours e = true) s ∧ s.Idle ∧
      s.ledger.balances.get (1, 2) = some ⟨500, [2, 1]⟩ ∧
      s.payments.get (7, 1) = some ⟨(1, 1), .locked, 500, none⟩ ∧ ¬Agrees 1 s) ∧
    (∃ s : Books Nat Nat Nat, (system 1).Reachable (fun _ e => ours e = true) s ∧ s.Idle ∧
      s.ledger.balances.get (1, 1) = some ⟨500, [2, 1]⟩ ∧
      s.payments.get (7, 1) = none ∧ ¬Agrees 1 s) ∧
    ∃ s : Books Nat Nat Nat, (system 1).Reachable (fun _ e => ours e = true) s ∧ s.Idle ∧
      s.ledger.claimed = [⟨(1, 1), 1, 500⟩] ∧
      s.payments.get (7, 1) = some ⟨(1, 1), .locked, 500, none⟩ ∧ ¬Agrees 1 s := by
  have hpl : ∀ (es : List (Event Nat Nat Nat)) (p : Books Nat Nat Nat → Prop) [DecidablePred p],
      ((system 1).play (fun _ e => ours e = true) es ⟨.opening Sample.accounts, ∅, .empty⟩).any
        (fun s => decide (s.busy = false ∧ p s)) = true →
      ∃ s, (system 1).Reachable (fun _ e => ours e = true) s ∧ s.Idle ∧ p s := by
    intro es p _ hpl
    obtain ⟨s, hs, hil, hp⟩ := exists_reachable (S := system 1) ⟨_, rfl⟩ hpl
    exact ⟨s, hs, idle_of_not_busy hil, hp⟩
  refine ⟨?_, ?_, ?_⟩
  · obtain ⟨s, hs, hil, hbal, hrec, hcl, htx, hcl', htx'⟩ := hpl Sample.lockedTwice
      (fun s => s.ledger.balances.get (1, 2) = some ⟨500, [2, 1]⟩ ∧
        s.payments.get (7, 1) = some ⟨(1, 1), .locked, 500, none⟩ ∧
        s.calls.get 0 = some ⟨7, 1, .lock 2 500, none, some 0, .locked (1, 1)⟩ ∧
        s.ledger.transactions.get 0 = some ⟨1, 1, .createClaimableBalance 500 [2, 1], .success⟩ ∧
        s.calls.get 1 = some ⟨7, 1, .lock 2 500, some ⟨(1, 1), .locked, 500, none⟩, some 1, .threw⟩ ∧
        s.ledger.transactions.get 1 = some ⟨1, 2, .createClaimableBalance 500 [2, 1], .success⟩)
      (by decide)
    refine ⟨s, hs, hil, hbal, hrec, fun hag => ?_⟩
    have hsm := hag.single (7, 1) (1, 1) (1, 2)
      ⟨rfl, 0, _, 0, 2, 500, hcl, rfl, rfl, rfl, htx⟩ ⟨rfl, 1, _, 1, 2, 500, hcl', rfl, rfl, rfl, htx'⟩
    cases hsm
  · obtain ⟨s, hs, hil, hbal, hno, hnx, hcl, htx⟩ := hpl Sample.lockGivenUp
      (fun s => s.ledger.balances.get (1, 1) = some ⟨500, [2, 1]⟩ ∧
        s.payments.get (7, 1) = none ∧ s.calls.next = 1 ∧
        s.calls.get 0 = some ⟨7, 1, .lock 2 500, none, some 0, .threw⟩ ∧
        s.ledger.transactions.get 0 = some ⟨1, 1, .createClaimableBalance 500 [2, 1], .success⟩)
      (by decide)
    refine ⟨s, hs, hil, hbal, hno, fun hag => ?_⟩
    obtain ⟨key, r, ⟨_, c, call, _, _, _, hcl', hkey, _⟩, hr, _⟩ :=
      hag.recorded (1, 1) 500 [2, 1] ⟨0, htx⟩
    -- there is only the one call
    have hc : c = 0 := by
      have hlt := Register.lt_next hcl'
      omega
    rw [hc, hcl] at hcl'
    cases hcl'
    rw [← hkey, hno] at hr
    cases hr
  · obtain ⟨s, hs, hil, hcmd, hrec⟩ := hpl Sample.releaseGivenUp
      (fun s => s.ledger.claimed = [⟨(1, 1), 1, 500⟩] ∧
        s.payments.get (7, 1) = some ⟨(1, 1), .locked, 500, none⟩) (by decide)
    refine ⟨s, hs, hil, hcmd, hrec, fun hag => ?_⟩
    have hst := (hag.settled (7, 1) _ hrec).mpr
      ⟨⟨(1, 1), 1, 500⟩, by rw [hcmd]; exact mem_cons_self, rfl⟩
    rcases hst with hrel | hrfd
    · cases hrel
    · cases hrfd

end AiNet.Payment
