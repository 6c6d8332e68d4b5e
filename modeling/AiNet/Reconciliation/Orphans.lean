import AiNet.Reconciliation.Handling

/-!
# Orphaned records

A locked record whose balance is not in the list is marked orphaned. The list is what the pages
held that were read before one failed or their number was reached, so a record is marked although
its balance is there as soon as Horizon does not show it.
-/

namespace AiNet.Reconciliation

open AiNet.Payment (PaymentStatus)
open List Option

variable {τ ν β : Type} [DecidableEq τ] [DecidableEq ν] [DecidableEq β]

/-- The balance is on one of the pages that are read, and neither is any page before it empty nor
does its request fail. -/
def Horizon.Shows (horizon : Horizon β) (balanceId : β) : Prop :=
  ∃ n < listBalancesMaxPages, (∀ m ≤ n, ∃ page, horizon.pages m = some page ∧ page ≠ []) ∧
    ∃ page, horizon.pages n = some page ∧ Listed page balanceId

variable {balanceId : β}

section

omit [DecidableEq β]

theorem listed_readPages {pages : Nat → Option (List (ClaimableBalanceOnChain β))}
    (left n : Nat) : Listed (readPages pages left n) balanceId ↔
      ∃ k < left, (∀ m ≤ k, ∃ page, pages (n + m) = some page ∧ page ≠ []) ∧
        ∃ page, pages (n + k) = some page ∧ Listed page balanceId := by
  induction left generalizing n with
  | zero => exact ⟨fun ⟨_, h, _⟩ => (by cases h), fun ⟨k, hk, _⟩ => absurd hk (Nat.not_lt_zero k)⟩
  | succ left ih =>
    -- the first page ends it, or the balance is on it or on a later one
    have hen : (pages n = none ∨ pages n = some []) → ¬∃ k < left + 1,
        (∀ m ≤ k, ∃ page, pages (n + m) = some page ∧ page ≠ []) ∧
          ∃ page, pages (n + k) = some page ∧ Listed page balanceId := by
      intro hpa ⟨k, _, hbf, _⟩
      obtain ⟨page, hfst, hne⟩ := hbf 0 (Nat.zero_le k)
      rw [Nat.add_zero] at hfst
      rcases hpa with hno | hemp
      · rw [hno] at hfst
        cases hfst
      · rw [hemp] at hfst
        exact hne (some.inj hfst).symm
    unfold readPages
    split
    · rename_i hno
      exact ⟨fun ⟨_, h, _⟩ => (by cases h), fun h => absurd h (hen (.inl hno))⟩
    · rename_i hemp
      exact ⟨fun ⟨_, h, _⟩ => (by cases h), fun h => absurd h (hen (.inr hemp))⟩
    · rename_i page hne hpa
      have hspl : Listed (page ++ readPages pages left (n + 1)) balanceId ↔
          Listed page balanceId ∨ Listed (readPages pages left (n + 1)) balanceId := by
        unfold Listed
        simp only [mem_append, or_and_right, exists_or]
      rw [hspl, ih]
      constructor
      · intro h
        rcases h with hfst | ⟨k, hk, hbf, page', hpa', hlst⟩
        · refine ⟨0, Nat.succ_pos left, fun m hm => ?_, page, hpa, hfst⟩
          rw [Nat.le_zero.mp hm]
          exact ⟨page, hpa, hne⟩
        · refine ⟨k + 1, by omega, fun m hm => ?_, page', ?_, hlst⟩
          · cases m with
            | zero => exact ⟨page, hpa, hne⟩
            | succ m =>
              rw [show n + (m + 1) = n + 1 + m by omega]
              exact hbf m (by omega)
          · rw [show n + (k + 1) = n + 1 + k by omega]
            exact hpa'
      · intro ⟨k, hk, hbf, page', hpa', hlst⟩
        cases k with
        | zero =>
          rw [Nat.add_zero, hpa] at hpa'
          exact .inl (some.inj hpa' ▸ hlst)
        | succ k =>
          refine .inr ⟨k, by omega, fun m hm => ?_, page', ?_, hlst⟩
          · rw [show n + 1 + m = n + (m + 1) by omega]
            exact hbf (m + 1) (by omega)
          · rw [show n + 1 + k = n + (k + 1) by omega]
            exact hpa'

/-- **A balance is in the list if Horizon shows it.** -/
theorem listed_iff_shows {horizon : Horizon β} :
    Listed horizon.listBalances balanceId ↔ horizon.Shows balanceId := by
  unfold Horizon.listBalances Horizon.Shows
  rw [listed_readPages]
  simp only [Nat.zero_add]

theorem readPages_chunks (l : List (ClaimableBalanceOnChain β)) {k : Nat} (hk : 0 < k) (left n : Nat) :
    readPages (fun n => some ((l.drop (n * k)).take k)) left n = (l.drop (n * k)).take (left * k) := by
  induction left generalizing n with
  | zero =>
    rw [Nat.zero_mul, take_zero]
    rfl
  | succ left ih =>
    have hspl : (l.drop (n * k)).take ((left + 1) * k) =
        (l.drop (n * k)).take k ++ (l.drop ((n + 1) * k)).take (left * k) := by
      rw [Nat.succ_mul, Nat.add_comm (left * k), take_add, drop_drop, Nat.succ_mul]
    unfold readPages
    split
    · rename_i hno
      cases hno
    · rename_i hemp
      -- an empty page is one after the end
      have hnil : l.drop (n * k) = [] := by
        rcases take_eq_nil_iff.mp (some.inj hemp) with hz | hnil
        · omega
        · exact hnil
      rw [hnil, take_nil]
    · rename_i page _ hpa
      rw [ih, hspl, some.inj hpa]

end

/-- **An honest Horizon lists the first balances of the chain.** -/
theorem listBalances_horizon (c : Chain β) : c.horizon.listBalances =
    c.balances.take (listBalancesMaxPages * listBalancesPageLimit) := by
  unfold Horizon.listBalances Chain.horizon
  dsimp only
  rw [readPages_chunks _ (by decide), Nat.zero_mul, drop_zero]

variable {w : World τ ν β} {cfg : Config} {horizon : Horizon β} {taskState : τ → Option TaskState}
  {now : Int} {accepts : β → Bool}

def Marked (w' : World τ ν β) (r : PaymentRecord τ ν β) : Prop :=
  (w'.payments.findByKey r.key).map PaymentRecord.status = some .orphaned

variable {r : PaymentRecord τ ν β}

theorem status_refund (accepts : β → Bool) {job : Job τ ν β} (hkd : job.kind = .refund)
    (hr : w.payments.findByKey job.key = some r) :
    ((w.execute accepts job).payments.findByKey job.key).map PaymentRecord.status = some r.status ∨
      ((w.execute accepts job).payments.findByKey job.key).map PaymentRecord.status = some .refunded := by
  unfold World.execute
  have hs := settles_settle accepts w job
  generalize w.settle accepts job = result at hs
  obtain ⟨w', settlement⟩ := result
  cases hs with
  | refused | known | failed => exact .inl (by rw [hr]; rfl)
  | landed hr' _ _ _ hrfd =>
    refine .inr ?_
    rw [Payments.findByKey_updateStatus, hr, map_some, if_pos rfl, map_some, hrfd hkd]
    rfl

theorem op_of_locked {d : Discrepancy τ ν β} {op : Op τ ν β} (hlck : r.status = .locked)
    (hdft : w.driftOf cfg horizon taskState now r = some d) (hop : d.op cfg = some op) :
    cfg.remediationEnabled = true ∧ (¬Listed horizon.listBalances r.balanceId ∧
          op = .write r.key .locked .orphaned .reconciledRepair rfl ∨
        Listed horizon.listBalances r.balanceId ∧ ∃ job, op = .settle job ∧ job.kind = .refund) := by
  unfold Discrepancy.op at hop
  obtain ⟨henb, hop⟩ := ite_none_right_eq_some.mp hop
  refine ⟨henb, ?_⟩
  cases drift_of_driftOf hdft with
  | orphaned _ hnot =>
    cases hop
    exact .inl ⟨hnot, rfl⟩
  | expired _ hlst =>
    obtain ⟨_, hop⟩ := ite_none_right_eq_some.mp hop
    cases hop
    exact .inr ⟨hlst, _, rfl, rfl⟩
  | mismatch => cases hop
  | unconfirmed hstl =>
    rw [hlck] at hstl
    cases hstl
  | missing hrel =>
    rw [hlck] at hrel
    cases hrel

/-- **A run marks the locked records whose balance Horizon did not show.** -/
theorem marked_iff (hr : r ∈ w.payments.rows) (hlck : r.status = .locked) :
    Marked (w.run cfg horizon taskState now accepts).1 r ↔
      cfg.remediationEnabled = true ∧ ¬horizon.Shows r.balanceId := by
  rw [← listed_iff_shows]
  unfold Marked
  rcases row_run cfg horizon taskState now accepts hr with
    ⟨hno, hrow⟩ | ⟨d, op, w₁, hdft, hop, hkey, hrow, haf⟩
  · rw [hrow, map_some, hlck]
    refine ⟨nofun, fun ⟨henb, hnot⟩ => ?_⟩
    -- without the balance there is an operation
    have hdft : w.driftOf cfg horizon taskState now r = some (detectOrphanedLock r) :=
      driftOf_orphaned hlck hnot
    have hop := hno _ hdft
    unfold Discrepancy.op at hop
    rw [if_pos henb] at hop
    cases hop
  · obtain ⟨henb, hcss⟩ := op_of_locked hlck hdft hop
    rw [haf]
    rcases hcss with ⟨hnot, rfl⟩ | ⟨hlst, job, rfl, hkd⟩
    · refine ⟨fun _ => ⟨henb, hnot⟩, fun _ => ?_⟩
      rw [findByKey_apply_write .orphaned .reconciledRepair rfl hrow hlck]
      rfl
    · refine ⟨fun hmkd => ?_, fun h => absurd hlst h.2⟩
      have hkey' : job.key = r.key := hkey
      rw [← hkey'] at hrow hmkd
      rcases status_refund accepts hkd hrow with hsm | hrfd
      · rw [← show w₁.apply accepts (.settle job) = w₁.execute accepts job from rfl, hmkd, hlck]
          at hsm
        cases hsm
      · rw [← show w₁.apply accepts (.settle job) = w₁.execute accepts job from rfl, hmkd]
          at hrfd
        cases hrfd

theorem holds_of_not_shown (hnot : ¬horizon.Shows balanceId) :
    (w.run cfg horizon taskState now accepts).1.chain.holds balanceId = w.chain.holds balanceId := by
  rw [Bool.eq_iff_iff, holds_run]
  refine ⟨fun h => h.1, fun h => ⟨h, fun d hd op hop hcls => ?_⟩⟩
  obtain ⟨job, r, rfl, hr, hid, _⟩ := hcls
  obtain ⟨r', hr', _, hdft⟩ := of_mem_detect hd (key_op hop)
  cases hr.symm.trans hr'
  rw [← listed_iff_shows, ← hid] at hnot
  unfold Discrepancy.op at hop
  obtain ⟨_, hop⟩ := ite_none_right_eq_some.mp hop
  cases hdft with
  | orphaned => cases some.inj hop
  | expired _ hlst | unconfirmed _ hlst => exact hnot hlst
  | mismatch => cases hop
  | missing =>
    obtain ⟨_, _, hop⟩ := map_eq_some_iff.mp hop
    cases hop

/--
**When a run marks no false orphan.** For all payments, every chain and every behaviour of Horizon:
a run marks no locked record orphaned whose balance exists if and only if remediation is off
or Horizon shows the balance of every locked record that exists: on one of the pages up to the
cap, none of them before it empty or failed. The run does not touch the balance of a record
that it marks.
-/
theorem no_false_orphan_iff (w : World τ ν β) (cfg : Config) (horizon : Horizon β)
    (taskState : τ → Option TaskState) (now : Int) (accepts : β → Bool) :
    ((∀ r ∈ w.payments.rows, r.status = .locked →
        Marked (w.run cfg horizon taskState now accepts).1 r → w.chain.holds r.balanceId = false) ↔
      (cfg.remediationEnabled = true → ∀ r ∈ w.payments.rows, r.status = .locked →
        w.chain.holds r.balanceId = true → horizon.Shows r.balanceId)) ∧
    ∀ r ∈ w.payments.rows, r.status = .locked → Marked (w.run cfg horizon taskState now accepts).1 r →
      (w.run cfg horizon taskState now accepts).1.chain.holds r.balanceId = w.chain.holds r.balanceId := by
  refine ⟨⟨fun h henb r hr hlck hhds => ?_, fun h r hr hlck hmkd => ?_⟩, ?_⟩
  · by_contra hnot
    have hgn := h r hr hlck ((marked_iff hr hlck).mpr ⟨henb, hnot⟩)
    rw [hhds] at hgn
    cases hgn
  · obtain ⟨henb, hnot⟩ := (marked_iff hr hlck).mp hmkd
    rw [Bool.eq_false_iff]
    exact fun hhds => hnot (h henb r hr hlck hhds)
  · intro r hr hlck hmkd
    exact holds_of_not_shown ((marked_iff hr hlck).mp hmkd).2

/-! ## Examples -/

namespace Sample

def locked : Payments Nat Nat Nat := ⟨[⟨7, 1, 5, .locked, 500, none, some 0⟩], by decide⟩

def settling : Config := ⟨false, true, true, 86400000, 200⟩

/-- Its balance is on the chain, after those of others. -/
def world (others : Nat) : World Nat Nat Nat :=
  ⟨locked, ⟨List.replicate others ⟨0, 1⟩ ++ [⟨5, 500⟩], []⟩, [], [], []⟩

/-- The first request fails. -/
def failing : Horizon Nat := { (world 0).chain.horizon with pages := fun _ => none }

end Sample

/-- A listing that fails, and one of more balances than the pages hold: the record is orphaned. -/
theorem false_orphan :
    (∀ r ∈ Sample.locked.rows, r.status = .locked) ∧
    (Marked ((Sample.world 0).run Sample.settling Sample.failing (fun _ => none) 0 fun _ => true).1
        ⟨7, 1, 5, .locked, 500, none, some 0⟩ ∧ (Sample.world 0).chain.holds 5 = true ∧
      ((Sample.world 0).run Sample.settling Sample.failing (fun _ => none) 0
        fun _ => true).1.chain.holds 5 = true) ∧
    Marked ((Sample.world 2000).run Sample.settling (Sample.world 2000).chain.horizon (fun _ => none) 0
        fun _ => true).1 ⟨7, 1, 5, .locked, 500, none, some 0⟩ ∧
      (Sample.world 2000).chain.holds 5 = true := by
  refine ⟨by decide, ⟨?_, by decide, by decide⟩, ?_, ?_⟩
  · unfold Marked
    decide
  · refine (marked_iff mem_cons_self rfl).mpr ⟨rfl, ?_⟩
    rw [← listed_iff_shows, listBalances_horizon]
    intro ⟨balance, hmem, hid⟩
    -- the pages are full of other balances
    have hots : (Sample.world 2000).chain.balances.take (listBalancesMaxPages *
        listBalancesPageLimit) = List.replicate 2000 ⟨0, 1⟩ := by
      unfold Sample.world
      exact take_left' length_replicate
    rw [hots] at hmem
    obtain rfl := eq_of_mem_replicate hmem
    cases hid
  · exact Chain.holds_eq_true.mpr
      ⟨⟨5, 500⟩, mem_append_right _ mem_cons_self, rfl⟩

end AiNet.Reconciliation
