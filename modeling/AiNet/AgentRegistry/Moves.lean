import AiNet.AgentRegistry.Contract

/-!
# Every call is a list of moves

One lemma for each entry point that touches an account: it makes one move on one account
and leaves the others alone. The batch makes one move on each of several accounts; it is
reduced to single registrations elsewhere.
-/

namespace AiNet.AgentRegistry

open Core Storage

variable {Addr Sym : Type} [DecidableEq Addr] [DecidableEq Sym]
variable {env : Env Addr Sym} {signed : Addr → Bool} {w w' : World Addr Sym}

omit [DecidableEq Addr] in
@[simp] theorem requireNoDispute_eq_ok {id : Sym} {u : Unit} :
    requireNoDispute w id = .ok u ↔ w.disputeBondLock.has id = false := by
  simp [requireNoDispute]

/-! ## Slashing -/

/-- **What slashing does**, whoever asked for it. -/
structure SlashedFrom (id : Sym) (r : AgentRecord Addr Sym) (penalty : Int)
    (w w' : World Addr Sym) : Prop where
  account : w'.account id = (w.account id).slash (minBond w) r penalty
  others : ∀ x, x ≠ id → w'.account x = w.account x
  pool : w'.bondRewardPool
    = w.bondRewardPool + (r.bondAmount - remainingAfter r.bondAmount penalty)
  payouts : w'.payouts = w.payouts
  bondsOnly : BondsOnly w w'

section

omit [DecidableEq Addr]

theorem internalSlashBond_ok {id : Sym} {penalty actual : Int}
    (h : internalSlashBond id penalty w = .ok (actual, w')) :
    ∃ r, w.agents.get id = some r ∧ 0 ≤ penalty ∧ (∀ b, w.bonds.get id = some b → b.status ≠ .cooldown) ∧
      actual = r.bondAmount - remainingAfter r.bondAmount penalty ∧
      SlashedFrom id r penalty w w' := by
  simp only [internalSlashBond, bind_eq_ok, failIf_eq_ok, okOr_eq_ok, exists_const, not_lt,
    pure_eq_ok, Prod.mk.injEq, checked128_eq_some] at h
  obtain ⟨hpen, r, hr, hst, pool, ⟨-, hpo⟩, hac, hw'⟩ := h
  have hcd : ∀ b, w.bonds.get id = some b → b.status ≠ .cooldown := by
    intro b hb hs
    rw [hb] at hst
    simp [hs] at hst
  refine ⟨r, hr, hpen, hcd, hac.symm, ?_⟩
  subst hw'
  refine ⟨?_, ?_, hpo.symm, rfl, rfl, .set hr rfl⟩
  · unfold World.account Account.slash
    rw [Account.mk.injEq]
    refine ⟨get_set_self _ _ _, get_adjust_self _ _ _, rfl, ?_, rfl⟩
    dsimp only
    -- the mark is set when the bond fell below the minimum, and never cleared here
    by_cases hlow : 0 < r.bondAmount - remainingAfter r.bondAmount penalty ∧
        remainingAfter r.bondAmount penalty < minBond w
    · rw [if_pos hlow, has_set_self, decide_eq_true hlow, Bool.or_true]
    · rw [if_neg hlow, decide_eq_false hlow, Bool.or_false]
  · intro x hx
    unfold World.account
    rw [Account.mk.injEq]
    refine ⟨get_set_ne _ _ hx, get_adjust_ne _ _ hx, rfl, ?_, rfl⟩
    dsimp only
    split
    · exact has_set_ne _ _ hx
    · rfl

theorem exists_internalSlashBond {id : Sym} {penalty : Int} {r : AgentRecord Addr Sym}
    {b : BondRecord Addr} (hr : w.agents.get id = some r) (hb : w.bonds.get id = some b)
    (hst : b.status ≠ .cooldown) (hpen : 0 ≤ penalty) :
    (∃ out, internalSlashBond id penalty w = .ok out) ↔
      i128Min ≤ w.bondRewardPool + (r.bondAmount - remainingAfter r.bondAmount penalty) ∧
        w.bondRewardPool + (r.bondAmount - remainingAfter r.bondAmount penalty) ≤ i128Max := by
  have hno : ¬ (w.bonds.get id).any (fun bond => bond.status = .cooldown) = true := by
    rw [hb]
    simpa using hst
  simp only [internalSlashBond, bind_eq_ok, failIf_eq_ok, okOr_eq_ok, exists_const, not_lt,
    pure_eq_ok, checked128_eq_some]
  constructor
  · intro h
    obtain ⟨-, -, r', hr', -, pool, ⟨hft, -⟩, -⟩ := h
    cases hr.symm.trans hr'
    exact hft
  · intro hft
    exact ⟨_, hpen, r, hr, hno, _, ⟨hft, rfl⟩, rfl⟩

end

theorem slashBondAmount_moves {id : Sym} {penalty : Int}
    (h : slashBondAmount env signed id penalty w = .ok w') :
    Moved signed [(id, .slash)] w w' ∧ BondsOnly w w' := by
  simp only [slashBondAmount, bind_eq_ok, exists_and_left, failIf_eq_ok, exists_const, pure_eq_ok,
    Prod.exists] at h
  obtain ⟨admin, -, -, actual, w₁, hsls, rfl⟩ := h
  obtain ⟨r, hr, hpen, hst, -, hs⟩ := internalSlashBond_ok hsls
  refine ⟨.one ?_ hs.others hs.pool hs.payouts, hs.bondsOnly⟩
  rw [hs.account]
  exact .slash hr hpen hst

theorem slashBond_moves {id : Sym} {percentage : Nat} {reason : String}
    (h : slashBond env signed id percentage reason w = .ok w') :
    Moved signed [(id, .slash)] w w' ∧ BondsOnly w w' := by
  simp only [slashBond, bind_eq_ok, exists_and_left, failIf_eq_ok, exists_const, pure_eq_ok,
    Prod.exists] at h
  obtain ⟨admin, -, -, bond, -, -, penalty, -, actual, w₁, hsls, rfl⟩ := h
  obtain ⟨r, hr, hpen, hst, -, hs⟩ := internalSlashBond_ok hsls
  refine ⟨.one ?_ hs.others hs.pool hs.payouts, hs.bondsOnly⟩
  rw [hs.account]
  exact .slash hr hpen hst

variable {caller : Addr}

theorem slashBondFromDispute_moves {id : Sym} {percentage : Nat} {reason : String} {actual : Int}
    (h : slashBondFromDispute env signed caller id percentage reason w = .ok (actual, w')) :
    Moved signed [(id, .slashForDispute)] w w' ∧ BondsOnly w w' := by
  simp only [slashBondFromDispute, bind_eq_ok, exists_and_left, failIf_eq_ok, exists_const,
    pure_eq_ok, Prod.exists, requireDisputeResolver_eq_ok, Bool.not_eq_false,
    Prod.mk.injEq] at h
  obtain ⟨⟨⟨-, hsgn⟩, hrsr⟩, -, hlck, bond, -, -, penalty, -, actual', w₁, hsls, -, rfl⟩ := h
  obtain ⟨r, hr, hpen, hst, -, hs⟩ := internalSlashBond_ok hsls
  refine ⟨.one ?_ ?_ hs.pool hs.payouts, ?_⟩
  · have hsf : World.account id
        { w₁ with disputeBondLock := w₁.disputeBondLock.remove id }
        = { (w.account id).slash (minBond w) r penalty with locked := false } := by
      rw [← hs.account]
      simp [World.account]
    rw [hsf]
    exact .slashForDispute ⟨caller, hrsr, hsgn⟩ hlck hr hpen hst
  · intro x hx
    rw [← hs.others x hx]
    simp [World.account, has_remove_ne _ hx]
  · refine ⟨?_, hs.bondsOnly.faces⟩
    rw [hs.bondsOnly.frame]

/-! ## Locks -/

theorem lockBondForDispute_moves {id : Sym} (h : lockBondForDispute env signed caller id w = .ok w') :
    Moved signed [(id, .lock)] w w' ∧ BondsOnly w w' := by
  simp only [lockBondForDispute, bind_eq_ok, exists_and_left, failIf_eq_ok, exists_const,
    pure_eq_ok, requireDisputeResolver_eq_ok, Bool.not_eq_true, not_or, Bool.not_eq_false,
    not_not, not_le, loadBond_eq_ok] at h
  obtain ⟨⟨⟨-, hsgn⟩, hrsr⟩, hfr, ⟨hreg, hcd⟩, bond, hbo, ⟨hact, hpos⟩, rfl⟩ := h
  obtain ⟨r, hr⟩ := has_eq_true.mp hreg
  refine ⟨.one ?_ ?_ (Int.add_zero _).symm rfl, rfl, .refl _⟩
  · have hsf : World.account id { w with disputeBondLock := w.disputeBondLock.set id true }
        = { w.account id with locked := true } := by
      simp [World.account]
    rw [hsf]
    exact .lock ⟨caller, hrsr, hsgn⟩ hfr hr (has_eq_false.mp hcd) hbo
      hact hpos
  · intro x hx
    simp [World.account, has_set_ne _ _ hx]

theorem releaseBondAfterDispute_moves {id : Sym}
    (h : releaseBondAfterDispute env signed caller id w = .ok w') :
    Moved signed [(id, .release)] w w' ∧ BondsOnly w w' := by
  simp only [releaseBondAfterDispute, bind_eq_ok, exists_and_left, failIf_eq_ok, exists_const,
    pure_eq_ok, requireDisputeResolver_eq_ok, Bool.not_eq_false] at h
  obtain ⟨⟨⟨-, hsgn⟩, hrsr⟩, hlck, rfl⟩ := h
  refine ⟨.one ?_ ?_ (Int.add_zero _).symm rfl, rfl, .refl _⟩
  · have hsf : World.account id { w with disputeBondLock := w.disputeBondLock.remove id }
        = { w.account id with locked := false } := by
      simp [World.account]
    rw [hsf]
    exact .release ⟨caller, hrsr, hsgn⟩ hlck
  · intro x hx
    simp [World.account, has_remove_ne _ hx]

/-! ## Deposits and returns -/

theorem depositBond_moves {id : Sym} {amount : Int}
    (h : depositBond env signed id amount w = .ok w') :
    Moved signed [(id, .deposit amount)] w w' ∧ BondsOnly w w' := by
  simp only [depositBond, bind_eq_ok, exists_and_left, failIf_eq_ok, exists_const, pure_eq_ok,
    okOr_eq_ok, requireNotPaused_eq_ok, requireAuth_eq_ok, requireNoDispute_eq_ok, loadBond_eq_ok,
    checked128_eq_some] at h
  obtain ⟨-, hfr, -, r, hr, -, b, hb, hst, amount', ⟨-, rfl⟩, rfl⟩ := h
  refine ⟨.one (.of_account ?_ (.deposit hfr hr hb hst)) ?_ (Int.add_zero _).symm rfl, rfl, .set hr rfl⟩
  · simp [World.account]
  · intro x hx
    simp [World.account, get_set_ne _ _ hx]

theorem restoreSlashedBond_moves {id : Sym} {amount total : Int}
    (h : restoreSlashedBond env signed id amount w = .ok (total, w')) :
    Moved signed [(id, .restore amount)] w w' ∧ BondsOnly w w' := by
  simp only [restoreSlashedBond, bind_eq_ok, exists_and_left, failIf_eq_ok, exists_const,
    pure_eq_ok, okOr_eq_ok, requireNotPaused_eq_ok, requireAuth_eq_ok, requireNoDispute_eq_ok,
    loadBond_eq_ok, checked128_eq_some, not_or, not_le, Bool.not_eq_false, Prod.mk.injEq] at h
  obtain ⟨-, ⟨hpos, hsl⟩, hfr, b, hb, -, hst, amount', ⟨-, rfl⟩, -, rfl⟩ := h
  refine ⟨.one (.of_account ?_ (.restore hpos hsl hfr hb hst)) ?_
    (Int.add_zero _).symm rfl, rfl, .adjust fun _ => rfl⟩
  · simp [World.account]
  · intro x hx
    simp [World.account, get_set_ne _ _ hx, get_adjust_ne _ _ hx]

theorem initiateBondReturn_moves {id : Sym} (h : initiateBondReturn env signed id w = .ok w') :
    Moved signed [(id, .initiateReturn)] w w' ∧ BondsOnly w w' := by
  simp only [initiateBondReturn, startCooldown, bind_eq_ok, exists_and_left, failIf_eq_ok,
    exists_const, pure_eq_ok, orTrap_eq_ok, requireNotPaused_eq_ok, requireAuth_eq_ok,
    requireNoDispute_eq_ok, loadBond_eq_ok, not_le] at h
  obtain ⟨-, hfr, b, hb, -, hst, hpos, expiry, -, b', hb', rfl⟩ := h
  cases hb.symm.trans hb'
  have hchg : Account.Change signed w .initiateReturn (w.account id) { w.account id with
      bond := some { b with status := .cooldown, cooldownUntil := some expiry } } 0 0 :=
    .initiateReturn hfr hb hst hpos
  refine ⟨.one (.of_account ?_ hchg) ?_
    (Int.add_zero _).symm rfl, rfl, .refl _⟩
  · simp [World.account]
  · intro x hx
    simp [World.account, get_set_ne _ _ hx]

theorem claimBond_moves {id : Sym} {returned : Int}
    (h : claimBond env signed id w = .ok (returned, w')) :
    Moved signed [(id, .claim)] w w' ∧ BondsOnly w w' := by
  simp only [claimBond, bind_eq_ok, exists_and_left, failIf_eq_ok, exists_const, pure_eq_ok,
    okOr_eq_ok, requireAuth_eq_ok, requireNoDispute_eq_ok, loadBond_eq_ok, not_or, not_lt, not_not,
    Prod.mk.injEq] at h
  obtain ⟨hfr, b, hb, -, expiry, hexy, ⟨hst, hel⟩, -, rfl⟩ := h
  refine ⟨.pay rfl (.of_account ?_ (.claim hfr hb hst hexy hel)) ?_ rfl rfl, rfl, .adjust fun _ => rfl⟩
  · simp [World.account]
  · intro x hx
    simp [World.account, get_set_ne _ _ hx, get_adjust_ne _ _ hx,
      get_remove_ne _ hx]

theorem rewardBond_moves {id : Sym} {amount : Int}
    (h : rewardBond env signed id amount w = .ok w') :
    Moved signed [(id, .reward amount)] w w' ∧ BondsOnly w w' := by
  simp only [rewardBond, bind_eq_ok, exists_and_left, failIf_eq_ok, exists_const, pure_eq_ok,
    okOr_eq_ok, requireNoDispute_eq_ok, loadBond_eq_ok, checked128_eq_some, not_le, not_lt] at h
  obtain ⟨admin, -, hfr, hpos, r, hr, b, hb, hst, hpo, amount', ⟨-, rfl⟩, rfl⟩ := h
  refine ⟨.one (.of_account ?_ (.reward hfr hpos hr hb hst hpo)) ?_ (Int.sub_eq_add_neg)
    rfl, rfl, .set hr rfl⟩
  · simp [World.account]
  · intro x hx
    simp [World.account, get_set_ne _ _ hx]

end AiNet.AgentRegistry
