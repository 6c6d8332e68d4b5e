import AiNet.Reconciliation.Service

/-!
# What a run does to payments and chain

Each discrepancy of a record leads to at most one operation: a row is written, or a balance is
claimed and the row of its record written. The records differ, so the operations do not
disturb each other: each finds its row as detection saw it, and a balance is gone afterwards
exactly when one of them claimed it.
-/

namespace AiNet.Reconciliation

open AiNet.Payment (PaymentStatus)
open List Option

variable {τ ν β : Type} [DecidableEq τ] [DecidableEq ν] [DecidableEq β]

/-! ## The table -/

namespace Payments

variable {p : Payments τ ν β} {key : τ × ν} {r : PaymentRecord τ ν β}

section

omit [DecidableEq β]

theorem findByKey_eq_some : p.findByKey key = some r ↔ r ∈ p.rows ∧ r.key = key := by
  unfold findByKey
  constructor
  · intro h
    have hkey := List.find?_some h
    exact ⟨List.mem_of_find?_eq_some h, of_decide_eq_true hkey⟩
  · intro ⟨hmem, hkey⟩
    cases hfi : p.rows.find? fun r => decide (r.key = key) with
    | none =>
      rw [List.find?_eq_none] at hfi
      exact absurd (decide_eq_true hkey) (hfi r hmem)
    | some =>
      have hkey' := List.find?_some hfi
      have hmem' := List.mem_of_find?_eq_some hfi
      rw [inj_on_of_nodup_map p.keys hmem' hmem ((of_decide_eq_true hkey').trans hkey.symm)]

theorem findByKey_self (h : r ∈ p.rows) : p.findByKey r.key = some r :=
  findByKey_eq_some.mpr ⟨h, rfl⟩

theorem findByKey_updateStatus (k : τ × ν) (status : PaymentStatus) (txHash : TxHash) :
    (p.updateStatus key status txHash).findByKey k =
      (p.findByKey k).map fun r => if k = key then settle status txHash r else r := by
  unfold findByKey updateStatus
  dsimp only
  rw [List.find?_map]
  have hsm : ((fun r : PaymentRecord τ ν β => decide (r.key = k)) ∘
      fun r => if r.key = key then settle status txHash r else r) = fun r => decide (r.key = k) := by
    funext r
    dsimp only [Function.comp]
    split
    · rfl
    · rfl
  rw [hsm]
  cases hfi : p.rows.find? fun r => decide (r.key = k) with
  | none => rfl
  | some =>
    have hkey := List.find?_some hfi
    rw [map_some, map_some, of_decide_eq_true hkey]

theorem updateStatus_twice (status : PaymentStatus) (txHash : TxHash) :
    (p.updateStatus key status txHash).updateStatus key status txHash =
      p.updateStatus key status txHash := by
  unfold updateStatus
  congr 1
  dsimp only
  rw [List.map_map]
  congr 1
  funext r
  rw [Function.comp_apply]
  by_cases hkey : r.key = key
  · have hwrt : (if r.key = key then settle status txHash r else r) = settle status txHash r :=
      if_pos hkey
    rw [hwrt]
    exact if_pos hkey
  · have hkpt : (if r.key = key then settle status txHash r else r) = r := if_neg hkey
    rw [hkpt]
    exact hkpt

theorem updateStatusIfCurrent_eq_some {expected status : PaymentStatus} {txHash : TxHash}
    {p' : Payments τ ν β} :
    p.updateStatusIfCurrent key expected status txHash = some p' ↔
      (∃ r, p.findByKey key = some r ∧ r.status = expected) ∧ p' = p.updateStatus key status txHash := by
  unfold updateStatusIfCurrent
  rw [ite_none_right_eq_some, Option.any_eq_true]
  constructor
  · intro ⟨⟨r, hr, hst⟩, hp⟩
    exact ⟨⟨r, hr, of_decide_eq_true hst⟩, (some.inj hp).symm⟩
  · intro ⟨⟨r, hr, hst⟩, hp⟩
    exact ⟨⟨r, hr, decide_eq_true hst⟩, by rw [hp]⟩

end

end Payments

/-! ## The chain -/

namespace Chain

variable {c c' : Chain β} {accepts : β → Bool} {balanceId : β} {txHash : TxHash}

theorem holds_eq_true {b : β} : c.holds b = true ↔ ∃ x ∈ c.balances, x.balanceId = b := by
  unfold holds
  simp only [List.any_eq_true, decide_eq_true_eq]

theorem claim_eq_some (h : c.claim accepts balanceId = some (txHash, c')) :
    c.holds balanceId = true ∧ accepts balanceId = true ∧ txHash = .transaction c.transactions.length ∧
      c'.balances = c.balances.filter (fun b => decide (b.balanceId ≠ balanceId)) ∧
      c'.transactions = c.transactions ++ [balanceId] := by
  unfold claim at h
  obtain ⟨hclm, heq⟩ := ite_none_right_eq_some.mp h
  obtain ⟨hhds, hacp⟩ := Bool.and_eq_true_iff.mp hclm
  obtain ⟨rfl, rfl⟩ := Prod.mk.inj (some.inj heq)
  exact ⟨hhds, hacp, rfl, rfl, rfl⟩

theorem claim_eq_none (h : c.claim accepts balanceId = none) :
    c.holds balanceId = false ∨ accepts balanceId = false := by
  unfold claim at h
  split at h
  · cases h
  · rename_i hclm
    rw [Bool.not_eq_true, Bool.and_eq_false_iff] at hclm
    exact hclm

theorem holds_of_claim (h : c.claim accepts balanceId = some (txHash, c')) (b : β) :
    c'.holds b = (c.holds b && decide (b ≠ balanceId)) := by
  obtain ⟨_, _, _, hbls, _⟩ := claim_eq_some h
  rw [Bool.eq_iff_iff, Bool.and_eq_true, decide_eq_true_eq, holds_eq_true, holds_eq_true, hbls]
  constructor
  · intro ⟨x, hx, hid⟩
    obtain ⟨hmem, hne⟩ := mem_filter.mp hx
    exact ⟨⟨x, hmem, hid⟩, hid ▸ of_decide_eq_true hne⟩
  · intro ⟨⟨x, hx, hid⟩, hne⟩
    exact ⟨x, mem_filter.mpr ⟨hx, decide_eq_true (hid ▸ hne)⟩, hid⟩

end Chain

/-! ## Operations -/

/-- What remediation does to payments and chain: no row becomes locked. -/
inductive Op (τ ν β : Type) where
  | settle (job : Job τ ν β)
  | write (key : τ × ν) (expected status : PaymentStatus) (txHash : TxHash)
      (settled : isSettledPaymentStatus status = true)

def Op.key : Op τ ν β → τ × ν
  | .settle job => job.key
  | .write key _ _ _ _ => key

namespace World

def apply (accepts : β → Bool) (w : World τ ν β) : Op τ ν β → World τ ν β
  | .settle job => w.execute accepts job
  | .write key expected status txHash _ =>
    match w.payments.updateStatusIfCurrent key expected status txHash with
    | none => w
    | some payments => { w with payments := payments }

def Agree (w w' : World τ ν β) : Prop := w'.payments = w.payments ∧ w'.chain = w.chain

end World

/-- The job claims the balance of the record if the network lets it. -/
def JobKind.claims (r : PaymentRecord τ ν β) : JobKind → Bool
  | .release => !(decide (r.status = .released) && r.txHash.isSome)
  | .refund => decide (r.status ≠ .released)

/-- The operation claims the balance, given the rows. -/
def Op.Claims (accepts : β → Bool) (w : World τ ν β) (b : β) (op : Op τ ν β) : Prop :=
  ∃ job r, op = .settle job ∧ w.payments.findByKey job.key = some r ∧ r.balanceId = b ∧
    job.kind.claims r = true ∧ accepts b = true

variable {accepts : β → Bool} {w w' : World τ ν β}

/-- How a release or refund of a job ends. -/
inductive Settles (accepts : β → Bool) (w : World τ ν β) (job : Job τ ν β) :
    World τ ν β → Settlement → Prop where
  | refused : (∀ r, w.payments.findByKey job.key = some r → job.kind.claims r = false) →
      Settles accepts w job w .refused
  | known {r h} : job.kind = .release → w.payments.findByKey job.key = some r →
      r.status = .released → r.txHash = some h → Settles accepts w job w (.known h)
  | failed {r} : w.payments.findByKey job.key = some r → job.kind.claims r = true →
      w.chain.holds r.balanceId = false ∨ accepts r.balanceId = false →
      Settles accepts w job w .failed
  | landed {r h c' status} : w.payments.findByKey job.key = some r → job.kind.claims r = true →
      w.chain.claim accepts r.balanceId = some (h, c') → isSettledPaymentStatus status = true →
      (job.kind = .refund → status = .refunded) →
      Settles accepts w job
        { w with chain := c', payments := w.payments.updateStatus job.key status h } (.landed h)

theorem settles_claim {job : Job τ ν β} {r : PaymentRecord τ ν β} {status : PaymentStatus}
    (hr : w.payments.findByKey job.key = some r) (hcls : job.kind.claims r = true)
    (hst : isSettledPaymentStatus status = true) (hrfd : job.kind = .refund → status = .refunded) :
    Settles accepts w job (w.claim accepts r status).1 (w.claim accepts r status).2 := by
  have hkey := (Payments.findByKey_eq_some.mp hr).2
  unfold World.claim
  cases hc : w.chain.claim accepts r.balanceId with
  | none => exact .failed hr hcls (Chain.claim_eq_none hc)
  | some =>
    dsimp only
    rw [hkey]
    exact .landed hr hcls hc hst hrfd

theorem settles_settle (accepts : β → Bool) (w : World τ ν β) (job : Job τ ν β) :
    Settles accepts w job (w.settle accepts job).1 (w.settle accepts job).2 := by
  have hmis : w.payments.findByKey job.key = none → Settles accepts w job w .refused := by
    intro hno
    refine .refused fun r hr => ?_
    rw [hno] at hr
    cases hr
  unfold World.settle
  cases hkd : job.kind with
  | release =>
    dsimp only
    unfold World.release
    cases hr : w.payments.findByKey job.key with
    | none => exact hmis hr
    | some r =>
      dsimp only
      split
      · rename_i h hst hsh
        exact .known hkd hr hst hsh
      · rename_i hnot
        refine settles_claim hr ?_ rfl (fun h => absurd (hkd.symm.trans h) nofun)
        rw [hkd]
        unfold JobKind.claims
        dsimp only
        by_cases hst : r.status = .released
        · cases hsh : r.txHash with
          | none => simp
          | some h => exact absurd hsh (hnot h hst)
        · simp [hst]
  | refund =>
    dsimp only
    unfold World.refund
    cases hr : w.payments.findByKey job.key with
    | none => exact hmis hr
    | some r =>
      dsimp only
      split
      · rename_i hst
        refine .refused fun r' hr' => ?_
        cases hr.symm.trans hr'
        rw [hkd]
        exact decide_eq_false (not_not_intro hst)
      · rename_i hst
        refine settles_claim hr ?_ rfl fun _ => rfl
        rw [hkd]
        exact decide_eq_true hst

/-! ### One operation -/

variable {b : β} {op : Op τ ν β}

omit [DecidableEq β] in
theorem key_of_claims (h : op.Claims accepts w b) :
    ∃ r, w.payments.findByKey op.key = some r ∧ r.balanceId = b := by
  obtain ⟨job, r, rfl, hr, hb, _⟩ := h
  exact ⟨r, hr, hb⟩

theorem findByKey_apply_ne {k : τ × ν} (hk : k ≠ op.key) :
    (w.apply accepts op).payments.findByKey k = w.payments.findByKey k := by
  have hwte : ∀ (p : Payments τ ν β) status h,
      (p.updateStatus op.key status h).findByKey k = p.findByKey k := by
    intro p status h
    rw [Payments.findByKey_updateStatus]
    simp only [if_neg hk, Option.map_id']
  cases op with
  | settle job =>
    unfold World.apply World.execute
    dsimp only
    have hs := settles_settle accepts w job
    generalize w.settle accepts job = result at hs
    obtain ⟨w', settlement⟩ := result
    cases hs with
    | refused | known | failed => rfl
    | landed => exact hwte _ _ _
  | write key expected status h hstl =>
    unfold World.apply
    dsimp only
    split
    · rfl
    · rename_i p hp
      rw [(Payments.updateStatusIfCurrent_eq_some.mp hp).2]
      exact hwte _ _ _

theorem findByKey_apply_write {key : τ × ν} {expected : PaymentStatus} {r : PaymentRecord τ ν β}
    (status : PaymentStatus) (h : TxHash) (hs : isSettledPaymentStatus status = true) (hr : w.payments.findByKey key = some r) (hee : r.status = expected) :
    (w.apply accepts (.write key expected status h hs)).payments.findByKey key =
      some (Payments.settle status h r) := by
  have hp := Payments.updateStatusIfCurrent_eq_some.mpr
    ⟨⟨r, hr, hee⟩, (rfl : w.payments.updateStatus key status h = _)⟩
  unfold World.apply
  dsimp only
  rw [hp]
  dsimp only
  rw [Payments.findByKey_updateStatus, hr, map_some, if_pos rfl]

/-- **A balance is there after an operation if it was and the operation does not claim it.** -/
theorem holds_apply (op : Op τ ν β) (b : β) :
    (w.apply accepts op).chain.holds b = true ↔ w.chain.holds b = true ∧ ¬op.Claims accepts w b := by
  cases op with
  | write key expected status h hstl =>
    have hno : ¬(Op.write key expected status h hstl).Claims accepts w b := by
      intro ⟨_, _, hop, _⟩
      cases hop
    have hchn : (w.apply accepts (.write key expected status h hstl)).chain = w.chain := by
      unfold World.apply
      dsimp only
      split
      · rfl
      · rfl
    rw [hchn]
    exact ⟨fun h => ⟨h, hno⟩, fun h => h.1⟩
  | settle job =>
    unfold World.apply World.execute
    dsimp only
    have hs := settles_settle accepts w job
    generalize w.settle accepts job = result at hs
    obtain ⟨w', settlement⟩ := result
    have hcls : ∀ r, w.payments.findByKey job.key = some r → ((Op.settle job).Claims accepts w b ↔
          r.balanceId = b ∧ job.kind.claims r = true ∧ accepts b = true) := by
      intro r hr
      constructor
      · intro ⟨job', r', hop, hr', hb, hc, ha⟩
        cases hop
        cases hr.symm.trans hr'
        exact ⟨hb, hc, ha⟩
      · intro ⟨hb, hc, ha⟩
        exact ⟨job, r, rfl, hr, hb, hc, ha⟩
    cases hs with
    | refused hnon =>
      refine ⟨fun h => ⟨h, fun hcl => ?_⟩, fun h => h.1⟩
      obtain ⟨r, hr, _⟩ := key_of_claims hcl
      have hclm := ((hcls r hr).mp hcl).2.1
      rw [hnon r hr] at hclm
      cases hclm
    | @known r h hkd hr hrel hsh =>
      refine ⟨fun h => ⟨h, fun hcl => ?_⟩, fun h => h.1⟩
      have hclm := ((hcls r hr).mp hcl).2.1
      rw [hkd] at hclm
      unfold JobKind.claims at hclm
      rw [hrel, hsh] at hclm
      cases hclm
    | @failed r hr _ hfa =>
      refine ⟨fun h => ⟨h, fun hcl => ?_⟩, fun h => h.1⟩
      obtain ⟨hb, _, ha⟩ := (hcls r hr).mp hcl
      rw [hb] at hfa
      rcases hfa with hgn | hno
      · rw [h] at hgn
        cases hgn
      · rw [ha] at hno
        cases hno
    | @landed r h c' status hr hc hclm =>
      dsimp only
      rw [Chain.holds_of_claim hclm, Bool.and_eq_true, decide_eq_true_eq, hcls r hr]
      obtain ⟨_, hacp, _⟩ := Chain.claim_eq_some hclm
      refine and_congr_right fun _ => ⟨fun hne hcl => hne hcl.1.symm, fun hcl heq => ?_⟩
      exact hcl ⟨heq.symm, hc, heq ▸ hacp⟩

omit [DecidableEq β] in
theorem claims_congr (h : w'.payments.findByKey op.key = w.payments.findByKey op.key) :
    op.Claims accepts w' b ↔ op.Claims accepts w b := by
  constructor
  · intro ⟨job, r, hop, hr, hrst⟩
    subst hop
    exact ⟨job, r, rfl, h.symm.trans hr, hrst⟩
  · intro ⟨job, r, hop, hr, hrst⟩
    subst hop
    exact ⟨job, r, rfl, h.trans hr, hrst⟩

def Kept (r r' : PaymentRecord τ ν β) : Prop :=
  r'.key = r.key ∧ r'.balanceId = r.balanceId ∧ (r' = r ∨ isSettledPaymentStatus r'.status = true)

section

omit [DecidableEq τ] [DecidableEq ν] [DecidableEq β]

theorem Kept.refl (r : PaymentRecord τ ν β) : Kept r r := ⟨rfl, rfl, .inl rfl⟩

theorem Kept.trans {r r' r'' : PaymentRecord τ ν β} (h : Kept r r') (h' : Kept r' r'') :
    Kept r r'' := by
  obtain ⟨hkey, hbal, hst⟩ := h
  obtain ⟨hkey', hbal', hst'⟩ := h'
  refine ⟨hkey'.trans hkey, hbal'.trans hbal, ?_⟩
  rcases hst' with rfl | hstl
  · exact hst
  · exact .inr hstl

end

/-- Rows are kept or settled, balances go and do not come, transactions are added. -/
structure Advances (w w' : World τ ν β) : Prop where
  rows : ∀ k r, w.payments.findByKey k = some r → ∃ r', w'.payments.findByKey k = some r' ∧ Kept r r'
  keys : w'.payments.rows.map PaymentRecord.key = w.payments.rows.map PaymentRecord.key
  balances : w'.chain.balances = w.chain.balances.filter fun b => w'.chain.holds b.balanceId
  transactions : w.chain.transactions <+: w'.chain.transactions

theorem Chain.filter_holds (c : Chain β) :
    c.balances = c.balances.filter fun b => c.holds b.balanceId := by
  symm
  rw [filter_eq_self]
  intro b hb
  exact Chain.holds_eq_true.mpr ⟨b, hb, rfl⟩

theorem Advances.refl (w : World τ ν β) : Advances w w where
  rows := fun _ r hr => ⟨r, hr, .refl r⟩
  keys := rfl
  balances := w.chain.filter_holds
  transactions := prefix_rfl

theorem Advances.holds (h : Advances w w') (hb : w'.chain.holds b = true) :
    w.chain.holds b = true := by
  obtain ⟨x, hx, hid⟩ := Chain.holds_eq_true.mp hb
  rw [h.balances] at hx
  exact Chain.holds_eq_true.mpr ⟨x, (mem_filter.mp hx).1, hid⟩

theorem Advances.trans {w'' : World τ ν β} (h : Advances w w') (h' : Advances w' w'') :
    Advances w w'' where
  rows := by
    intro k r hr
    obtain ⟨r', hr', hkpt⟩ := h.rows k r hr
    obtain ⟨r'', hr'', hkpt'⟩ := h'.rows k r' hr'
    exact ⟨r'', hr'', hkpt.trans hkpt'⟩
  keys := h'.keys.trans h.keys
  balances := by
    rw [h'.balances, h.balances, List.filter_filter]
    refine filter_congr fun b _ => ?_
    cases hthe : w''.chain.holds b.balanceId with
    | false => rfl
    | true => exact h'.holds hthe
  transactions := h.transactions.trans h'.transactions

omit [DecidableEq β] in
theorem advances_updateStatus (p : Payments τ ν β) (key : τ × ν) {status : PaymentStatus}
    (txHash : TxHash) (hst : isSettledPaymentStatus status = true) :
    (∀ k r, p.findByKey k = some r →
      ∃ r', (p.updateStatus key status txHash).findByKey k = some r' ∧ Kept r r') ∧
    (p.updateStatus key status txHash).rows.map PaymentRecord.key = p.rows.map PaymentRecord.key := by
  constructor
  · intro k r hr
    rw [Payments.findByKey_updateStatus, hr]
    refine ⟨_, rfl, ?_⟩
    split
    · exact ⟨rfl, rfl, .inr hst⟩
    · exact .refl r
  · unfold Payments.updateStatus
    dsimp only
    rw [List.map_map]
    refine map_congr_left fun r _ => ?_
    dsimp only [Function.comp]
    split
    · rfl
    · rfl

theorem Chain.claim_balances {c c' : Chain β} {balanceId : β} {txHash : TxHash}
    (h : c.claim accepts balanceId = some (txHash, c')) :
    c'.balances = c.balances.filter (fun b => c'.holds b.balanceId) ∧
      c.transactions <+: c'.transactions := by
  obtain ⟨_, _, _, hbls, htxs⟩ := Chain.claim_eq_some h
  refine ⟨?_, ⟨_, htxs.symm⟩⟩
  rw [hbls]
  refine filter_congr fun b hb => ?_
  rw [Chain.holds_of_claim h, Chain.holds_eq_true.mpr ⟨b, hb, rfl⟩, Bool.true_and]

theorem advances_apply (op : Op τ ν β) : Advances w (w.apply accepts op) := by
  cases op with
  | write key expected status h hstl =>
    unfold World.apply
    dsimp only
    split
    · exact .refl w
    · rename_i p hp
      obtain ⟨hrw, hke⟩ := advances_updateStatus w.payments key h hstl
      rw [(Payments.updateStatusIfCurrent_eq_some.mp hp).2]
      exact ⟨hrw, hke, w.chain.filter_holds, prefix_rfl⟩
  | settle job =>
    unfold World.apply World.execute
    dsimp only
    have hs := settles_settle accepts w job
    generalize w.settle accepts job = result at hs
    obtain ⟨w', settlement⟩ := result
    cases hs with
    | refused | known | failed => exact .refl _
    | @landed r h c' status hr hc hclm hst =>
      obtain ⟨hrw, hke⟩ :=
        advances_updateStatus w.payments job.key h hst
      obtain ⟨hbls, htxs⟩ := Chain.claim_balances hclm
      exact ⟨hrw, hke, hbls, htxs⟩

/-! ### Operations of different records -/

def World.applyAll (accepts : β → Bool) (start : World τ ν β) (ops : List (Op τ ν β)) : World τ ν β :=
  ops.foldl (World.apply accepts) start

theorem advances_applyAll (ops : List (Op τ ν β)) : Advances w (w.applyAll accepts ops) := by
  induction ops generalizing w with
  | nil => exact .refl w
  | cons op rest ih => exact (advances_apply op).trans ih

variable {ops : List (Op τ ν β)}

theorem findByKey_applyAll {k : τ × ν} (hk : k ∉ ops.map Op.key) :
    (w.applyAll accepts ops).payments.findByKey k = w.payments.findByKey k := by
  induction ops generalizing w with
  | nil => rfl
  | cons op rest ih =>
    rw [map_cons, mem_cons, not_or] at hk
    exact (ih hk.2).trans (findByKey_apply_ne hk.1)

/-- **The row of a record is what its operation makes of the row that was detected.** -/
theorem findByKey_applyAll_mem (hke : (ops.map Op.key).Nodup)
    (hop : op ∈ ops) : ∃ w₁ : World τ ν β, w₁.payments.findByKey op.key = w.payments.findByKey op.key ∧
      (w.applyAll accepts ops).payments.findByKey op.key =
        (w₁.apply accepts op).payments.findByKey op.key := by
  induction ops generalizing w with
  | nil => cases hop
  | cons first rest ih =>
    rw [map_cons, nodup_cons] at hke
    rcases mem_cons.mp hop with rfl | hrst
    · exact ⟨w, rfl, findByKey_applyAll hke.1⟩
    · have hne : op.key ≠ first.key := by
        intro heq
        exact hke.1 (heq ▸ List.mem_map_of_mem hrst)
      obtain ⟨w₁, hrow, haf⟩ := ih (w := w.apply accepts first) hke.2 hrst
      exact ⟨w₁, hrow.trans (findByKey_apply_ne hne), haf⟩

/-- **A balance is gone after the operations exactly when one of them claims it.** -/
theorem holds_applyAll (hke : (ops.map Op.key).Nodup) (b : β) :
    (w.applyAll accepts ops).chain.holds b = true ↔
      w.chain.holds b = true ∧ ∀ op ∈ ops, ¬op.Claims accepts w b := by
  induction ops generalizing w with
  | nil => exact ⟨fun h => ⟨h, nofun⟩, fun h => h.1⟩
  | cons first rest ih =>
    rw [map_cons, nodup_cons] at hke
    -- the first operation leaves the rows of the others alone
    have hrst : ∀ op ∈ rest, (op.Claims accepts (w.apply accepts first) b ↔ op.Claims accepts w b) := by
      intro op hop
      refine claims_congr (findByKey_apply_ne fun heq => ?_)
      exact hke.1 (heq ▸ List.mem_map_of_mem hop)
    have haf := ih (w := w.apply accepts first) hke.2
    unfold World.applyAll at haf ⊢
    rw [foldl_cons, haf, holds_apply, forall_mem_cons, and_assoc]
    refine and_congr_right fun _ => and_congr_right fun _ => ?_
    exact forall₂_congr fun op hop => not_congr (hrst op hop)

end AiNet.Reconciliation
