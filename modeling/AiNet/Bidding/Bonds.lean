import AiNet.Bidding.Invariant

/-!
# Bonds and their marks

Three facts that hold in every run, whatever calls are made. A bid is only marked
`forfeited` at the award, and only unrevealed; after an award or an abort every bid is
marked; and the marks are honest: the payments that left custody for a bond are exactly
the ones its marks stand for. What the marks do not exclude is a bid with both of them,
which has been paid out twice.
-/

namespace AiNet.Bidding

open Core List Option Function

variable {Addr Sym τ : Type}

/-! ## The result of a settlement loop -/

/-- A bid is settled once it carries one of the two marks. -/
def SealedBid.Settled (bid : SealedBid Addr) : Prop :=
  bid.refunded = true ∨ bid.forfeited = true

instance (bid : SealedBid Addr) : Decidable bid.Settled := inferInstanceAs (Decidable (_ ∨ _))

/-- What a loop leaves of one bid. -/
def Verdict.apply (verdict : Verdict Addr) (b : Addr) (bid : SealedBid Addr) :
    SealedBid Addr :=
  if bid.Settled then bid else (verdict b bid).1

section Loop

variable [DecidableEq Addr] {self : Addr} {t : Sym} {verdict : Verdict Addr}
  {l : List Addr} {bids bids' : Addr → Option (SealedBid Addr)}
  {ps : List (Payment Addr Sym)}

theorem Settled.untouched (h : Settled self t verdict l bids bids' ps) {b : Addr} (hb : b ∉ l) :
    bids' b = bids b := by
  induction h with
  | nil => rfl
  | skip _ _ ih => exact ih (fun hm => hb (mem_cons_of_mem _ hm))
  | pay _ _ _ _ _ ih =>
    rw [ih (fun hm => hb (mem_cons_of_mem _ hm))]
    refine update_of_ne ?_ _ _
    intro he
    exact hb (he ▸ mem_cons_self)

/-- **Every listed bidder gets the verdict once.** -/
theorem Settled.result (h : Settled self t verdict l bids bids' ps) (hn : l.Nodup) {b : Addr}
    (hb : b ∈ l) {bid : SealedBid Addr} (hbid : bids b = some bid) :
    bids' b = some (verdict.apply b bid) := by
  induction h with
  | nil => exact absurd hb not_mem_nil
  | @skip b₀ l bids bids' ps hsk hrst ih =>
    rw [nodup_cons] at hn
    by_cases he : b = b₀
    · subst he
      have hdn : bid.Settled := hsk bid hbid
      rw [hrst.untouched hn.1, hbid, Verdict.apply, if_pos hdn]
    · exact ih hn.2 ((mem_cons.mp hb).resolve_left he) hbid
  | @pay b₀ l bids bids' bid₀ p ps hb₀ hr hf _ hrst ih =>
    rw [nodup_cons] at hn
    by_cases he : b = b₀
    · subst he
      rw [hb₀] at hbid
      injection hbid with hbid
      subst hbid
      have hon : ¬ bid₀.Settled := by
        intro hs
        rcases hs with hs | hs
        · exact absurd hs (by simp [hr])
        · exact absurd hs (by simp [hf])
      rw [hrst.untouched hn.1, update_self, Verdict.apply, if_neg hon]
    · exact ih hn.2 ((mem_cons.mp hb).resolve_left he)
        ((update_of_ne he _ _).trans hbid)

theorem Settled.source (h : Settled self t verdict l bids bids' ps)
    (hv : ∀ b bid, (verdict b bid).1.face = bid.face) (hn : l.Nodup)
    (hmem : ∀ b bid, bids b = some bid → b ∈ l) {b : Addr} {bid' : SealedBid Addr}
    (hb : bids' b = some bid') : ∃ bid, bids b = some bid ∧ bid' = verdict.apply b bid := by
  obtain ⟨bid, hbid, -⟩ := (h.sameFaces hv).find hb
  have hres := h.result hn (hmem b bid hbid) hbid
  rw [hb] at hres
  injection hres with hres
  exact ⟨bid, hbid, hres⟩

end Loop

theorem awardVerdict_apply {creator b : Addr} {bid : SealedBid Addr}
    (hon : bid.forfeited = false) :
    ((awardVerdict creator).apply b bid).revealed = bid.revealed ∧
      (((awardVerdict creator).apply b bid).forfeited = true → bid.revealed = false) ∧
      ((awardVerdict creator).apply b bid).Settled := by
  unfold Verdict.apply
  by_cases hs : bid.Settled
  · rw [if_pos hs]
    refine ⟨rfl, ?_, hs⟩
    intro hf
    rw [hon] at hf
    cases hf
  · rw [if_neg hs]
    unfold awardVerdict
    by_cases hr : bid.revealed = true
    · rw [if_pos hr]
      refine ⟨rfl, ?_, .inl rfl⟩
      intro hf
      have hf : bid.forfeited = true := hf
      rw [hon] at hf
      cases hf
    · rw [if_neg hr]
      exact ⟨rfl, fun _ => Bool.not_eq_true _ ▸ hr, .inr rfl⟩

/-! ## What the marks stand for -/

/-- The exits the marks of a bid stand for, in the order they can have happened. -/
def SealedBid.exits (creator b : Addr) (bid : SealedBid Addr) : List (Addr × Int) :=
  (if bid.forfeited = true then [(creator, bid.bond)] else [])
    ++ (if bid.refunded = true then [(b, bid.bond)] else [])

theorem SealedBid.exits_of_unsettled {creator b : Addr} {bid : SealedBid Addr}
    (hr : bid.refunded = false) (hf : bid.forfeited = false) : bid.exits creator b = [] := by
  unfold SealedBid.exits
  simp [hr, hf]

/-- What a verdict writes is what it pays. -/
def Verdict.Honest (creator : Addr) (verdict : Verdict Addr) : Prop :=
  ∀ b bid, bid.bidder = b → bid.refunded = false → bid.forfeited = false →
    (verdict b bid).1.exits creator b = [((verdict b bid).2, bid.bond)]

theorem awardVerdict_honest (creator : Addr) : (awardVerdict creator).Honest creator := by
  intro b bid _ hr hf
  unfold awardVerdict SealedBid.exits
  by_cases hrev : bid.revealed = true
  · simp [hrev, hf]
  · simp [hrev, hr]

theorem abortVerdict_honest (creator : Addr) : Verdict.Honest creator abortVerdict := by
  intro b bid hb hr hf
  unfold abortVerdict SealedBid.exits
  simp [hf, hb]

/-! ## When bids are marked -/

/-- When an auction has forfeited bids, and when all its bids are settled. -/
structure Marked (a : Auction Addr Sym) (bids : Addr → Option (SealedBid Addr)) :
    Prop where
  forfeited : ∀ b bid, bids b = some bid → bid.forfeited = true → a.phase = .awarded ∧ bid.revealed = false
  closed : a.phase = .awarded ∨ a.phase = .cancelled → ∀ b bid, bids b = some bid → bid.Settled

def Lot.Marks (L : Lot Addr Sym) : Prop := ∀ a, L.auction = some a → Marked a L.bids

theorem Lot.Marks.unforfeited {L : Lot Addr Sym} (h : L.Marks) {a : Auction Addr Sym}
    (ha : L.auction = some a) (hph : a.phase ≠ .awarded) {b : Addr}
    {bid : SealedBid Addr} (hb : L.bids b = some bid) : bid.forfeited = false := by
  rw [← Bool.not_eq_true]
  intro hf
  exact hph ((h a ha).forfeited b bid hb hf).1

variable [DecidableEq Addr]

theorem Lot.Marks.refund {L : Lot Addr Sym} (h : L.Marks) {b : Addr}
    {bid : SealedBid Addr} (hb : L.bids b = some bid) (ps : List (Payment Addr Sym)) :
    Lot.Marks { L with
      bids := update L.bids b (some { bid with refunded := true })
      payments := L.payments ++ ps } := by
  intro a ha
  refine ⟨?_, ?_⟩
  · intro x y hy hf
    rcases find_update hy with ⟨-, rfl⟩ | hy
    · exact (h a ha).forfeited b bid hb hf
    · exact (h a ha).forfeited x y hy hf
  · intro hcld x y hy
    rcases find_update hy with ⟨-, rfl⟩ | hy
    · exact .inl rfl
    · exact (h a ha).closed hcld x y hy

theorem Lot.Change.marks {self : Addr} {now : Nat} {t : Sym} {act : Action Addr}
    {L L' : Lot Addr Sym} {ps : List (Payment Addr Sym)}
    (h : Lot.Change self now t act L L' ps) (hi : L.Inv self t) (hm : L.Marks) : L'.Marks := by
  cases h with
  | create hno =>
    rw [hi.vacant hno]
    intro a _
    refine ⟨?_, ?_⟩
    · intro b bid hb
      cases hb
    · intro _ b bid hb
      cases hb
  | submit ha hph hon hfl hno hfr hpd =>
    rename_i a new
    intro a' ha'
    cases ha'
    obtain ⟨-, -, -, -, -, -, hp, -⟩ := antiSnipe_fields now { a with bidCount := a.bidCount + 1 }
    refine ⟨?_, ?_⟩
    · -- while bids come in none is forfeited, the new one included
      intro x y hy hf
      rcases find_update hy with ⟨-, rfl⟩ | hy
      · rw [hfr.forfeited] at hf
        cases hf
      · rw [hm.unforfeited ha (by simp [hph]) hy] at hf
        cases hf
    · intro hcld
      rw [hp, hph] at hcld
      simp at hcld
  | reveal ha hph hdd hon hb hrvl hmin hmax =>
    rename_i a b bid price terms
    intro a' ha'
    cases ha'
    refine ⟨?_, ?_⟩
    · intro x y hy hf
      rcases find_update hy with ⟨-, rfl⟩ | hy
      · have hf : bid.forfeited = true := hf
        rw [hm.unforfeited ha (by simp [hph]) hb] at hf
        cases hf
      · rw [hm.unforfeited ha (by simp [hph]) hy] at hf
        cases hf
    · intro hcld
      have hcld : a.phase = .awarded ∨ a.phase = .cancelled := hcld
      rw [hph] at hcld
      simp at hcld
  | select ha hph hdd hrdy hmem hb hrvl =>
    rename_i a b bid score
    intro a' ha'
    cases ha'
    refine ⟨?_, ?_⟩
    · intro x y hy hf
      obtain ⟨z, hz, rfl⟩ := map_eq_some_iff.mp hy
      have hf : z.forfeited = true := hf
      rw [hm.unforfeited ha (by simp [hph]) hz] at hf
      cases hf
    · intro hcld
      simp at hcld
  | claimRefund ha hdd hwi hb | claimBidRefund ha hph hwin hne hb => exact hm.refund hb ps
  | award ha hph hfg hwin hb hset hpd =>
    rename_i a winner bid bids' qs rs
    have hros := (hi.live ha).roster
    have hvdt : ∀ b y, bids' b = some y →
        ∃ z, L.bids b = some z ∧ y = (awardVerdict a.creator).apply b z := fun b y hy =>
      hset.source (awardVerdict_face a.creator) hros.nodup
        (fun b z hz => (hros.mem b).mpr ⟨z, hz⟩) hy
    intro a' ha'
    cases ha'
    refine ⟨?_, ?_⟩
    · -- the award forfeits only what was never revealed
      intro b y hy hf
      obtain ⟨z, hz, rfl⟩ := hvdt b y hy
      have hon : z.forfeited = false := hm.unforfeited ha (by simp [hph]) hz
      obtain ⟨hrev, himp, -⟩ := @awardVerdict_apply _ a.creator b z hon
      exact ⟨rfl, hrev.trans (himp hf)⟩
    · intro _ b y hy
      obtain ⟨z, hz, rfl⟩ := hvdt b y hy
      exact (awardVerdict_apply (hm.unforfeited ha (by simp [hph]) hz)).2.2
  | abort ha hph hdd hno hset hpd =>
    rename_i a bids' qs rs
    have hros := (hi.live ha).roster
    have hvdt : ∀ b y, bids' b = some y →
        ∃ z, L.bids b = some z ∧ y = abortVerdict.apply b z := fun b y hy =>
      hset.source abortVerdict_face hros.nodup
        (fun b z hz => (hros.mem b).mpr ⟨z, hz⟩) hy
    intro a' ha'
    cases ha'
    refine ⟨?_, ?_⟩
    · -- an abort forfeits nothing
      intro b y hy hf
      obtain ⟨z, hz, rfl⟩ := hvdt b y hy
      have hz' := hm.unforfeited ha (by simp [hph]) hz
      unfold Verdict.apply at hf
      split at hf
      · rw [hz'] at hf
        cases hf
      · have hf : z.forfeited = true := hf
        rw [hz'] at hf
        cases hf
    · intro _ b y hy
      obtain ⟨z, hz, rfl⟩ := hvdt b y hy
      unfold Verdict.apply
      split
      · assumption
      · exact .inl rfl
  | releaseEscrow | refundEscrow => exact fun a ha => hm a ha

/-! ## What left custody for a bond -/

section Exits

variable [DecidableEq Sym]

/-- The payments out of custody for the bond of `b`: to whom, and how much. -/
def exits (me : Addr) (t : Sym) (b : Addr) (ps : List (Payment Addr Sym)) :
    List (Addr × Int) :=
  (ps.filter fun p => p.purpose = .bond t b ∧ p.src = me).map fun p => (p.dst, p.stroops)

theorem exits_append (me : Addr) (t : Sym) (b : Addr)
    (ps qs : List (Payment Addr Sym)) :
    exits me t b (ps ++ qs) = exits me t b ps ++ exits me t b qs := by
  unfold exits
  rw [filter_append, map_append]

theorem exits_of_paid {me : Addr} {t : Sym} {b : Addr} {ps : List (Payment Addr Sym)}
    {dst : Addr} {amount : Int} (h : Paid ps (.bond t b) me dst amount) (hpos : 0 < amount) :
    exits me t b ps = [(dst, amount)] := by
  rcases h with ⟨hz, -⟩ | ⟨-, asset, units, rfl⟩
  · omega
  · simp [exits]

theorem exits_of_other {me : Addr} {t : Sym} {b : Addr}
    {ps : List (Payment Addr Sym)} {why : Purpose Addr Sym} {src dst : Addr}
    {amount : Int} (h : Paid ps why src dst amount) (hne : why ≠ .bond t b ∨ src ≠ me) :
    exits me t b ps = [] := by
  rcases h with ⟨-, rfl⟩ | ⟨-, asset, units, rfl⟩
  · rfl
  · unfold exits
    rw [filter_cons_of_neg, filter_nil, map_nil]
    rcases hne with hne | hne <;> simp [hne]

/-- **The marks are honest**: they account for every payment of a bond out of custody. -/
def HonestMarks (me : Addr) (t : Sym) (creator : Addr)
    (bids : Addr → Option (SealedBid Addr)) (ps : List (Payment Addr Sym)) : Prop :=
  ∀ b, Bidding.exits me t b ps = (bids b).elim [] (SealedBid.exits creator b)

theorem HonestMarks.other {me : Addr} {t : Sym} {creator : Addr}
    {bids : Addr → Option (SealedBid Addr)} {ps qs : List (Payment Addr Sym)}
    (h : HonestMarks me t creator bids ps) (hq : ∀ b, Bidding.exits me t b qs = []) :
    HonestMarks me t creator bids (ps ++ qs) := by
  intro b
  rw [exits_append, hq b, append_nil, h b]

theorem HonestMarks.keep {me : Addr} {t : Sym} {creator : Addr}
    {bids : Addr → Option (SealedBid Addr)} {ps : List (Payment Addr Sym)}
    (h : HonestMarks me t creator bids ps) {b : Addr} {bid : SealedBid Addr}
    (hsm : bid.exits creator b = (bids b).elim [] (SealedBid.exits creator b)) :
    HonestMarks me t creator (update bids b (some bid)) ps := by
  intro x
  rw [h x]
  by_cases hx : x = b
  · subst hx
    rw [update_self, elim_some, hsm]
  · rw [update_of_ne hx]

theorem HonestMarks.pay {me : Addr} {t : Sym} {creator : Addr}
    {bids : Addr → Option (SealedBid Addr)} {ps qs : List (Payment Addr Sym)}
    (h : HonestMarks me t creator bids ps) {b dst : Addr} {bid bid' : SealedBid Addr}
    (hb : bids b = some bid) (hpd : Paid qs (.bond t b) me dst bid.bond) (hpos : 0 < bid.bond)
    (hmk : bid'.exits creator b = bid.exits creator b ++ [(dst, bid.bond)]) :
    HonestMarks me t creator (update bids b (some bid')) (ps ++ qs) := by
  intro x
  rw [exits_append, h x]
  by_cases hx : x = b
  · subst hx
    rw [update_self, hb, exits_of_paid hpd hpos]
    exact hmk.symm
  · have hne : (Purpose.bond t b : Purpose Addr Sym) ≠ .bond t x := by
      intro he
      injection he with _ he
      exact hx he.symm
    rw [update_of_ne hx, exits_of_other hpd (.inl hne), append_nil]

theorem Settled.honest {self : Addr} {t : Sym} {creator : Addr} {verdict : Verdict Addr}
    (hv : verdict.Honest creator) (hfa : ∀ b bid, (verdict b bid).1.face = bid.face)
    {l : List Addr} {bids bids' : Addr → Option (SealedBid Addr)}
    {ps : List (Payment Addr Sym)} (h : Settled self t verdict l bids bids' ps)
    {before : List (Payment Addr Sym)}
    (hwe : ∀ b bid, bids b = some bid → bid.bidder = b ∧ 0 < bid.bond)
    (hm : HonestMarks self t creator bids before) :
    HonestMarks self t creator bids' (before ++ ps) := by
  induction h generalizing before with
  | nil => rw [append_nil]; exact hm
  | skip _ _ ih => exact ih hwe hm
  | @pay b l bids bids' bid p ps hb hr hf hpd _ ih =>
    obtain ⟨hbi, hpos⟩ := hwe b bid hb
    rw [← append_assoc]
    refine ih ?_ (hm.pay hb hpd hpos ?_)
    · intro x y hy
      rcases find_update hy with ⟨rfl, rfl⟩ | hy
      · exact ⟨(SealedBid.bidder_of_face (hfa _ _)).trans hbi, SealedBid.bond_of_face (hfa x bid) ▸ hpos⟩
      · exact hwe x y hy
    · rw [SealedBid.exits_of_unsettled hr hf, nil_append]
      exact hv b bid hbi hr hf

def Lot.Honest (me : Addr) (t : Sym) (L : Lot Addr Sym) : Prop :=
  ∀ a, L.auction = some a → HonestMarks me t a.creator L.bids L.payments

theorem Lot.Change.honest {self : Addr} {now : Nat} {t : Sym} {act : Action Addr}
    {L L' : Lot Addr Sym} {ps : List (Payment Addr Sym)}
    (h : Lot.Change self now t act L L' ps) (hi : L.Inv self t) (hh : L.Honest self t) :
    L'.Honest self t := by
  have hwe : ∀ a, L.auction = some a → ∀ b bid, L.bids b = some bid → bid.bidder = b ∧ 0 < bid.bond := by
    intro a ha b bid hb
    have hl := hi.live ha
    have hw := hl.roster.well b bid hb
    exact ⟨hw.bidder, by rw [hw.bond]; exact hl.config.bond⟩
  cases h with
  | create hno hfr hpd =>
    rw [hi.vacant hno]
    intro a' _ b
    exact exits_of_other hpd (.inl (by simp))
  | submit ha hph hon hfl hno hfr hpd =>
    rename_i a new
    intro a' ha'
    cases ha'
    obtain ⟨-, hc, -⟩ := antiSnipe_fields now { a with bidCount := a.bidCount + 1 }
    rw [hc]
    refine ((hh a ha).keep ?_).other fun b => exits_of_other hpd (.inr hfr.bidder)
    -- the bid is new, and carries no mark yet
    rw [hno]
    exact SealedBid.exits_of_unsettled hfr.refunded hfr.forfeited
  | reveal ha hph hdd hon hb hrvl hmin hmax =>
    rename_i a b bid price terms
    intro a' ha'
    cases ha'
    refine (hh a ha).keep ?_
    rw [hb]
    rfl
  | select ha hph hdd hrdy hmem hb hrvl =>
    rename_i a b bid score
    intro a' ha'
    cases ha'
    intro x
    show exits self t x L.payments = ((L.bids x).map _).elim [] _
    rw [hh a ha x]
    cases L.bids x <;> rfl
  | claimRefund ha hdd hwi hb hunr hpd =>
    -- the bid may be forfeited by now; then this is its second exit, and both marks say so
    intro a' ha'
    obtain ⟨-, hpos⟩ := hwe a' ha' _ _ hb
    refine (hh a' ha').pay hb hpd hpos ?_
    unfold SealedBid.exits
    simp [hunr]
  | claimBidRefund ha hph hwin hne hb hunr hpd =>
    intro a' ha'
    obtain ⟨-, hpos⟩ := hwe a' ha' _ _ hb
    refine (hh a' ha').pay hb hpd hpos ?_
    unfold SealedBid.exits
    simp [hunr]
  | award ha hph hfg hwin hb hset hpd =>
    rename_i a winner bid bids' qs rs
    intro a' ha'
    cases ha'
    have hlo := hset.honest (awardVerdict_honest a.creator) (awardVerdict_face a.creator)
      (hwe a ha) (hh a ha)
    show HonestMarks self t a.creator bids' (L.payments ++ (qs ++ rs))
    rw [← append_assoc]
    exact hlo.other fun b => exits_of_other hpd (.inl (by simp))
  | abort ha hph hdd hno hset hpd =>
    rename_i a bids' qs rs
    intro a' ha'
    cases ha'
    have hlo := hset.honest (abortVerdict_honest a.creator) abortVerdict_face (hwe a ha)
      (hh a ha)
    show HonestMarks self t a.creator bids' (L.payments ++ (qs ++ rs))
    rw [← append_assoc]
    exact hlo.other fun b => exits_of_other hpd (.inl (by simp))
  | releaseEscrow he hrel href hpd | refundEscrow he hrel href hpd =>
    intro a' ha'
    exact (hh a' ha').other fun b => exits_of_other hpd (.inl (by simp))

theorem exits_lot (me : Addr) (w : World Addr Sym τ) (t : Sym) (b : Addr) :
    exits me t b (w.lot t).payments = exits me t b w.journal := by
  unfold exits World.lot
  dsimp only
  rw [List.filter_filter]
  refine congrArg (List.map _) (filter_congr ?_)
  intro p _
  by_cases hp : p.purpose = .bond t b
  · simp [hp, Purpose.task]
  · simp [hp]

/-! ## Runs -/

variable {env : Env Addr Sym τ}
  {guard : World Addr Sym τ → Event Addr Sym τ → Prop} {w : World Addr Sym τ}

theorem marks_reachable (h : (system env).Reachable guard w) (t : Sym) : (w.lot t).Marks :=
  lot_invariant_always nofun (fun _ _ _ _ _ hc hi hm => hc.marks hi hm) h

/-- **Marks are honest in every reachable state**, whatever the guard. -/
theorem honest_reachable (h : (system env).Reachable guard w) (t : Sym) :
    (w.lot t).Honest env.self t :=
  lot_invariant_always nofun (fun _ _ _ _ _ hc hi hh => hc.honest hi hh) h

end Exits

end AiNet.Bidding
