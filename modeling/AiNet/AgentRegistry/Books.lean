import AiNet.AgentRegistry.Effects

/-!
# Two records of one bond, and where its value goes

The balance of a registered agent is stored in its record and in its bond record. Each
move is looked at once: whether the two stay equal, and whether what leaves the bond
record reaches the reward pool or the owner. Both laws fail, and for each the moves that
break it are named exactly.
-/

namespace AiNet.AgentRegistry

open Core List Option System

variable {Addr Sym : Type}

/-! ## Accounts over a run -/

section Run

variable [DecidableEq Addr] [DecidableEq Sym] {env : Env Addr Sym}
variable {w w' : World Addr Sym}

/-- Every move of the event is one that `p` allows on the account it is made on. -/
def OnMoves (env : Env Addr Sym) (p : Account Addr Sym → Move Addr Sym → Prop)
    (w : World Addr Sym) (e : Event Addr Sym) : Prop :=
  ∀ id m, (id, m) ∈ e.moves env w → p (w.account id) m

theorem accounts_step {I : Account Addr Sym → Prop}
    {p : Account Addr Sym → Move Addr Sym → Prop}
    (hchg : ∀ signed w m A A' pool paid, Account.Change signed w m A A' pool paid → p A m → I A → I A')
    {e : Event Addr Sym} (he : OnMoves env p w e) (hs : (system env).step w e = some w')
    (h : ∀ id, I (w.account id)) : ∀ id, I (w'.account id) := by
  intro id
  obtain ⟨signed, hmv⟩ := step_moves hs
  by_cases hid : ∃ m, (id, m) ∈ e.moves env w
  · obtain ⟨m, hm⟩ := hid
    obtain ⟨pool, paid, hc, -, -⟩ := hmv.moved id m hm
    exact hchg signed w m _ _ _ _ hc (he id m hm) (h id)
  · rw [(hmv.others id fun m hm => hid ⟨m, hm⟩).1]
    exact h id

/-- **The invariant rule for accounts**, for what every move preserves. -/
theorem accounts_invariant {I : Account Addr Sym → Prop} (hvac : I .vacant)
    (hchg : ∀ signed w m A A' pool paid, Account.Change signed w m A A' pool paid → I A → I A')
    {guard : World Addr Sym → Event Addr Sym → Prop}
    (h : (system env).Reachable guard w) : ∀ id, I (w.account id) := by
  refine System.Reachable.invariant (I := fun w => ∀ id, I (w.account id)) ?_ ?_ h
  · rintro w₀ ⟨now, sequence, rfl⟩ id
    exact hvac
  · intro w e w' _ _ hI hs
    have hall : OnMoves env (fun _ _ => True) w e := fun _ _ _ => trivial
    exact accounts_step (fun _ _ _ _ _ _ _ hc _ => hchg _ _ _ _ _ _ _ hc) hall hs hI

end Run

/-! ## The two balances -/

/-- The record of a registered agent and its bond record say the same, and nothing negative. -/
def Account.InBooks (A : Account Addr Sym) : Prop :=
  ∀ r, A.record = some r → ∃ b, A.bond = some b ∧ r.bondAmount = b.amountStroops ∧ 0 ≤ b.amountStroops

def Move.KeepsBooks (A : Account Addr Sym) : Move Addr Sym → Prop
  | .register record => 0 ≤ record.bondAmount
  | .deposit amount => 0 ≤ A.held + amount
  -- the return of an earlier registration is completed from the bond of the present one
  | .deregister => A.cooldown = none ∨ A.record = none ∨ A.held = 0
  -- the penalty is not taken from the bond record
  | .checkSla false => ∀ r, A.record = some r → (r.bondAmount * slaPenaltyPercent).tdiv 100 ≤ 0
  | _ => True

variable {A : Account Addr Sym}

theorem Account.held_eq {b : BondRecord Addr} (h : A.bond = some b) : A.held = b.amountStroops := by
  unfold Account.held
  rw [h]
  rfl

theorem remainingAfter_ne {balance penalty : Int} (h : 0 < (balance * slaPenaltyPercent).tdiv 100)
    (hpen : penalty = (balance * slaPenaltyPercent).tdiv 100) (hbal : 0 ≤ balance) :
    remainingAfter balance penalty ≠ balance := by
  have hpos : 0 < balance := by
    by_contra hle
    obtain rfl : balance = 0 := by omega
    exact absurd h (by decide)
  unfold remainingAfter
  split
  · omega
  · omega

variable {r : AgentRecord Addr Sym}

theorem Account.InBooks.slash (minBond penalty : Int) (h : A.InBooks) (hr : A.record = some r) :
    (A.slash minBond r penalty).InBooks := by
  obtain ⟨b, hb, -, -⟩ := h r hr
  intro r' hr'
  cases hr'
  unfold Account.slash
  dsimp only
  rw [hb]
  exact ⟨_, rfl, rfl, remainingAfter_nonneg _ _⟩

variable {signed : Addr → Bool} {w : World Addr Sym} {m : Move Addr Sym}
  {A A' : Account Addr Sym} {pool paid : Int}

/-- **Which moves keep the books**: exactly those of `KeepsBooks`. -/
theorem Account.Change.keepsBooks (hc : Account.Change signed w m A A' pool paid) (h : A.InBooks) :
    A'.InBooks ↔ m.KeepsBooks A := by
  cases hc with
  | @register A record hnew heno =>
    constructor
    · intro h'
      obtain ⟨b, hb, -, hnn⟩ := h' record rfl
      cases hb
      exact hnn
    · rintro hnn r hr
      cases hr
      exact ⟨_, rfl, rfl, hnn⟩
  | @reprice A r price hr =>
    refine ⟨fun _ => trivial, fun _ r' hr' => ?_⟩
    cases hr'
    exact h r hr
  | @leave A r b expiry hfr hcd hr hb =>
    exact ⟨fun _ => .inl hcd, fun _ r' hr' => by cases hr'⟩
  | @complete A cr hfr hcd hel =>
    constructor
    · intro h'
      cases hr : A.record with
      | none => exact .inr (.inl hr)
      | some r =>
        refine .inr (.inr ?_)
        obtain ⟨b, hb, heq, -⟩ := h r hr
        obtain ⟨b', hb', heq', -⟩ := h' r hr
        dsimp only at hb'
        rw [hb] at hb'
        cases hb'
        rw [Account.held_eq hb, ← heq]
        exact heq'
    · rintro hkps r hr
      -- the bond record is emptied: a record that is still there has to be at zero already
      obtain ⟨b, hb, heq, hnn⟩ := h r hr
      have hz : b.amountStroops = 0 := by
        rcases hkps with hno | hno | hz
        · rw [hcd] at hno
          cases hno
        · exact absurd (hno.symm.trans hr) (by simp)
        · rwa [Account.held_eq hb] at hz
      dsimp only
      rw [hb]
      exact ⟨_, rfl, heq.trans hz, le_refl 0⟩
  | @deposit A r b amount hfr hr hb hst =>
    unfold Move.KeepsBooks
    rw [Account.held_eq hb]
    constructor
    · intro h'
      obtain ⟨b', hb', -, hnn⟩ := h' _ rfl
      cases hb'
      exact hnn
    · rintro hnn r' hr'
      cases hr'
      exact ⟨_, rfl, rfl, hnn⟩
  | @restore A b amount hpos hsl hfr hb hst =>
    refine ⟨fun _ => trivial, fun _ r' hr' => ?_⟩
    obtain ⟨r, hr, rfl⟩ := map_eq_some_iff.mp hr'
    obtain ⟨b₀, hb₀, -, hnn⟩ := h r hr
    cases hb.symm.trans hb₀
    exact ⟨_, rfl, rfl, by dsimp only; omega⟩
  | @initiateReturn A b expiry hfr hb hst hpos =>
    refine ⟨fun _ => trivial, fun _ r hr => ?_⟩
    obtain ⟨b₀, hb₀, heq, hnn⟩ := h r hr
    cases hb.symm.trans hb₀
    exact ⟨_, rfl, heq, hnn⟩
  | claim =>
    refine ⟨fun _ => trivial, fun _ r' hr' => ?_⟩
    obtain ⟨r, hr, rfl⟩ := map_eq_some_iff.mp hr'
    exact ⟨_, rfl, rfl, le_refl 0⟩
  | @reward A r b amount hfr hpos hr hb hst hpo =>
    refine ⟨fun _ => trivial, fun _ r' hr' => ?_⟩
    cases hr'
    obtain ⟨b₀, hb₀, -, hnn⟩ := h r hr
    cases hb.symm.trans hb₀
    exact ⟨_, rfl, rfl, by dsimp only; omega⟩
  | @slash A r penalty hr hpen hst => exact ⟨fun _ => trivial, fun _ => h.slash _ _ hr⟩
  | @slashForDispute A r penalty hby hlck hr hpen hst =>
    exact ⟨fun _ => trivial, fun _ => h.slash (minBond w) penalty hr⟩
  | lock | release | comply => exact ⟨fun _ => trivial, fun _ => h⟩
  | @spare A r hr hsp =>
    refine ⟨fun _ r' hr' => ?_, fun _ => h⟩
    cases hr.symm.trans hr'
    exact hsp
  | @penalise A r penalty hr hpen hpos =>
    obtain ⟨b, hb, heq, hnn⟩ := h r hr
    constructor
    · intro h'
      obtain ⟨b', hb', heq', -⟩ := h' _ rfl
      cases hb.symm.trans hb'
      exact absurd (heq'.trans heq.symm)
        (remainingAfter_ne (hpen ▸ hpos) hpen (heq ▸ hnn))
    · intro hkps
      have := hkps r hr
      omega

section Run

variable [DecidableEq Addr] [DecidableEq Sym] {env : Env Addr Sym}
variable {w w' : World Addr Sym}

def BooksAgree (w : World Addr Sym) : Prop := ∀ id, (w.account id).InBooks

/-- The event keeps the books, on every account it makes a move on. -/
def KeepsBooks (env : Env Addr Sym) (w : World Addr Sym) (e : Event Addr Sym) :
    Prop :=
  OnMoves env Move.KeepsBooks w e

theorem booksAgree_step {e : Event Addr Sym} (hs : (system env).step w e = some w')
    (h : BooksAgree w) : BooksAgree w' ↔ KeepsBooks env w e := by
  constructor
  · intro h' id m hm
    obtain ⟨signed, hmv⟩ := step_moves hs
    obtain ⟨pool, paid, hc, -, -⟩ := hmv.moved id m hm
    exact (hc.keepsBooks (h id)).mp (h' id)
  · intro hkps
    exact accounts_step (fun _ _ _ _ _ _ _ hc hm hA => (hc.keepsBooks hA).mpr hm) hkps hs h

/--
**When the two records agree.** In a run, the bond in the record of every registered agent equals the
one in its bond record and is not negative, in every state passed, if and only if no call of the run
makes a move that does not keep the books.
-/
theorem books_agree_iff {guard : World Addr Sym → Event Addr Sym → Prop}
    {log : List (World Addr Sym × Event Addr Sym)}
    (h : (system env).Logged guard w log) :
    (∀ s ∈ log.map Prod.fst ++ [w], BooksAgree s) ↔ ∀ entry ∈ log, KeepsBooks env entry.1 entry.2 := by
  refine h.forall_passed_iff ?_ fun _ _ _ _ _ hs hagr => booksAgree_step hs hagr
  rintro w₀ ⟨now, sequence, rfl⟩ id r hr
  cases hr

end Run

namespace Sample

/-- Agent `44` promises a response time, and is reported to be slower. -/
def penalised : List (Event Nat Nat) :=
  installed ++
    [ call 4 (.registration (.registerAgent (agent 44 4 1000))), call 4 (.metrics (.setSla 44 100 0 0)),
      call 9 (.metrics (.checkSlaCompliance 44 200 100 100)) ]

theorem exists_penalised : ∃ w, (system deployment).Logged ClockMonotone w
      ((system deployment).record penalised (World.init 0 0)) ∧
    ∃ r b, w.agents.get 44 = some r ∧ w.bonds.get 44 = some b ∧ r.bondAmount = 900 ∧
      b.amountStroops = 1000 := by
  have hpl : ((system deployment).play ClockMonotone penalised (World.init 0 0)).any (fun w =>
      (w.agents.get 44).any fun r => (w.bonds.get 44).any fun b =>
        r.bondAmount = 900 ∧ b.amountStroops = 1000) = true := by
    decide
  obtain ⟨w, hw, hend⟩ := (Option.any_eq_true _ _).mp hpl
  obtain ⟨r, hr, hend⟩ := (Option.any_eq_true _ _).mp hend
  obtain ⟨b, hb, hend⟩ := (Option.any_eq_true _ _).mp hend
  exact ⟨w, logged_of_play (start_init _ 0 0) hw, r, b, hr, hb, of_decide_eq_true hend⟩

end Sample

/-- The run with the penalty: the books agree throughout it if and only if no move breaks them. -/
theorem books_agree_iff_penalised : ∃ (w : World Nat Nat) (log : List (World Nat Nat × Event Nat Nat)),
    (system Sample.deployment).Logged ClockMonotone w log ∧ ((∀ s ∈ log.map Prod.fst ++ [w], BooksAgree s) ↔
        ∀ entry ∈ log, KeepsBooks Sample.deployment entry.1 entry.2) := by
  obtain ⟨w, hlog, -⟩ := Sample.exists_penalised
  exact ⟨w, _, hlog, books_agree_iff hlog⟩

/-- A penalty that one copy evades: the record says 900, the bond record still 1000. -/
theorem evaded_penalty : ∃ w : World Nat Nat, (system Sample.deployment).Reachable ClockMonotone w ∧
    ¬ BooksAgree w := by
  obtain ⟨w, hlog, r, b, hr, hb, hrec, hbo⟩ := Sample.exists_penalised
  refine ⟨w, hlog.reachable, ?_⟩
  intro h
  obtain ⟨b', hb', heq, -⟩ := h 44 r hr
  cases hb.symm.trans hb'
  omega

/-! ## Where the value goes -/

/-- A registered agent has a bond record. -/
def Account.Bonded (A : Account Addr Sym) : Prop :=
  ∀ r, A.record = some r → ∃ b, A.bond = some b

theorem Account.Change.bonded (hc : Account.Change signed w m A A' pool paid) (h : A.Bonded) : A'.Bonded := by
  cases hc with
  | register | deposit | restore | initiateReturn | claim | reward => exact fun r _ => ⟨_, rfl⟩
  | reprice hr | penalise hr => exact fun _ _ => h _ hr
  | leave => exact fun r hr => by cases hr
  | complete =>
    intro r hr
    obtain ⟨b, hb⟩ := h r hr
    exact ⟨_, map_eq_some_iff.mpr ⟨b, hb, rfl⟩⟩
  | slash hr | slashForDispute _ _ hr =>
    obtain ⟨b, hb⟩ := h _ hr
    exact fun _ _ => ⟨_, map_eq_some_iff.mpr ⟨b, hb, rfl⟩⟩
  | lock | release | comply | spare => exact h

/-- The moves after which nothing is missing and nothing was made. -/
def Move.Conserving (A : Account Addr Sym) : Move Addr Sym → Prop
  -- the penalty is computed from the agent's record, and taken from the bond record
  | .slash => ∀ r, A.record = some r → r.bondAmount = A.held
  | .slashForDispute => ∀ r, A.record = some r → r.bondAmount = A.held
  -- what was owed when the agent left is paid, and the present bond is written off
  | .deregister => ∀ cr, A.cooldown = some cr → max cr.bondAmount 0 = A.held
  | _ => True

theorem Account.held_slash (minBond penalty : Int) {b : BondRecord Addr} (hb : A.bond = some b) :
    (A.slash minBond r penalty).held = remainingAfter r.bondAmount penalty := by
  unfold Account.slash Account.held
  rw [hb]
  rfl

theorem Account.slash_conserves_iff {rest : Int} (hr : A.record = some r) (hrst : A'.held = rest) :
    A'.held - A.held + (r.bondAmount - rest) + 0 = 0 ↔ ∀ r, A.record = some r → r.bondAmount = A.held := by
  rw [hrst]
  constructor
  · intro hlaw r' hr'
    cases hr.symm.trans hr'
    omega
  · intro heq
    have := heq r hr
    omega

/-- **Which moves conserve value**: exactly those that are `Conserving`. -/
theorem Account.Change.conserving (hc : Account.Change signed w m A A' pool paid) (h : A.Bonded) :
    A'.held - A.held + pool + paid = m.added A ↔ m.Conserving A := by
  cases hc with
  | @register A record hnew heno =>
    refine iff_of_true ?_ trivial
    show record.bondAmount - A.held + 0 + 0 = record.bondAmount - A.held
    omega
  | @leave A r b expiry hfr hcd hr hb =>
    refine iff_of_true ?_ fun cr hcr => ?_
    · show b.amountStroops - A.held + 0 + 0 = 0
      rw [Account.held_eq hb]
      omega
    · rw [hcd] at hcr
      cases hcr
  | @complete A cr hfr hcd hel =>
    -- what is paid is the amount noted at the start of the cooldown, what leaves is what is held
    have hz : Account.held { A with
        cooldown := none
        bond := A.bond.map fun b =>
          { b with amountStroops := 0, status := .returned, cooldownUntil := none } } = 0 := by
      unfold Account.held
      cases A.bond <;> rfl
    rw [hz]
    constructor
    · intro hlaw cr' hcr'
      cases hcd.symm.trans hcr'
      have : 0 - A.held + 0 + max cr.bondAmount 0 = 0 := hlaw
      omega
    · intro heq
      have := heq cr hcd
      show 0 - A.held + 0 + max cr.bondAmount 0 = 0
      omega
  | @deposit A r b amount hfr hr hb hst | @restore A b amount hpos hsl hfr hb hst =>
    refine iff_of_true ?_ trivial
    show b.amountStroops + amount - A.held + 0 + 0 = amount
    rw [Account.held_eq hb]
    omega
  | @initiateReturn A b expiry hfr hb hst hpos =>
    refine iff_of_true ?_ trivial
    show b.amountStroops - A.held + 0 + 0 = 0
    rw [Account.held_eq hb]
    omega
  | @claim A b expiry hfr hb hst hexy hel =>
    refine iff_of_true ?_ trivial
    show 0 - A.held + 0 + b.amountStroops = 0
    rw [Account.held_eq hb]
    omega
  | @reward A r b amount hfr hpos hr hb hst hpo =>
    refine iff_of_true ?_ trivial
    show b.amountStroops + amount - A.held + -amount + 0 = 0
    rw [Account.held_eq hb]
    omega
  | @slash A r penalty hr hpen hst =>
    obtain ⟨b, hb⟩ := h r hr
    exact Account.slash_conserves_iff hr (Account.held_slash _ _ hb)
  | @slashForDispute A r penalty hby hlck hr hpen hst =>
    obtain ⟨b, hb⟩ := h r hr
    have hhd : Account.held { A.slash (minBond w) r penalty with locked := false }
        = remainingAfter r.bondAmount penalty := Account.held_slash (minBond w) penalty hb
    exact Account.slash_conserves_iff hr hhd
  | _ =>
    refine iff_of_true ?_ trivial
    show A.held - A.held + 0 + 0 = 0
    omega

section Law

variable [DecidableEq Addr] [DecidableEq Sym]

/--
Value is conserved by a call that makes these moves. For the account of each move, the change of the
balance held, the change of the reward pool and what was announced as paid out make up what the caller
added. The other accounts are not touched, and without a move the pool is not either.
-/
structure ValueConserved (moves : List (Sym × Move Addr Sym)) (w w' : World Addr Sym) :
    Prop where
  moved : ∀ id m, (id, m) ∈ moves →
    ((w'.account id).held - (w.account id).held) + (w'.bondRewardPool - w.bondRewardPool)
      + (paidOut id w'.payouts - paidOut id w.payouts) = m.added (w.account id)
  others : ∀ id, (∀ m, (id, m) ∉ moves) →
    (w'.account id).held = (w.account id).held ∧ paidOut id w'.payouts = paidOut id w.payouts
  pool : moves = [] → w'.bondRewardPool = w.bondRewardPool

variable {env : Env Addr Sym} {guard : World Addr Sym → Event Addr Sym → Prop}

theorem bonded_reachable (h : (system env).Reachable guard w) (id : Sym) :
    (w.account id).Bonded := by
  refine accounts_invariant ?_ (fun _ _ _ _ _ _ _ hc => hc.bonded) h id
  exact fun r hr => by cases hr

/--
**When value is conserved.** In every reachable state, a successful call conserves value if and only if
every move it makes is conserving on the account it finds.
-/
theorem value_conserved_iff {w w' : World Addr Sym} (hw : (system env).Reachable guard w)
    {signed : Addr → Bool} {op : Op Addr Sym} (h : exec env signed op w = .ok w') :
    ValueConserved (op.moves env signed w) w w' ↔
      ∀ id m, (id, m) ∈ op.moves env signed w → m.Conserving (w.account id) := by
  have hmv := exec_moves h
  constructor
  · intro hlaw id m hm
    obtain ⟨pool, paid, hc, hpo, hpd⟩ := hmv.moved id m hm
    have := hlaw.moved id m hm
    refine (hc.conserving (bonded_reachable hw id)).mp ?_
    omega
  · intro hall
    refine ⟨?_, ?_, hmv.pool⟩
    · intro id m hm
      obtain ⟨pool, paid, hc, hpo, hpd⟩ := hmv.moved id m hm
      have := (hc.conserving (bonded_reachable hw id)).mpr (hall id m hm)
      omega
    · intro id hid
      obtain ⟨hacc, hpd⟩ := hmv.others id hid
      exact ⟨by rw [hacc], hpd⟩

end Law

namespace Sample

/-- Agent `44` leaves, registers again with a larger bond, and the cooldown of the first ends. -/
def returned : List (Event Nat Nat) :=
  installed ++
    [ call 4 (.registration (.registerAgent (agent 44 4 100))),
      call 4 (.registration (.deregisterAgent 44)),
      call 4 (.registration (.registerAgent (agent 44 4 500))),
      .close 100000 17280 ]

theorem exists_returned : ∃ w w', (system deployment).Reachable ClockMonotone w ∧
    exec deployment (fun a => a == 4) (.registration (.deregisterAgent 44)) w = .ok w' ∧
      (w.account 44).held = 500 ∧ (w'.account 44).held = 0 ∧
      w'.bondRewardPool = w.bondRewardPool ∧
      paidOut 44 w'.payouts = paidOut 44 w.payouts + 100 ∧ (w'.account 44).record.isSome = true := by
  have hpl : ((system deployment).play ClockMonotone returned (World.init 0 0)).any (fun w =>
      (exec deployment (fun a => a == 4) (.registration (.deregisterAgent 44)) w).toOption.any
        fun w' => (w.account 44).held = 500 ∧ (w'.account 44).held = 0 ∧
          w'.bondRewardPool = w.bondRewardPool ∧
          paidOut 44 w'.payouts = paidOut 44 w.payouts + 100 ∧
          (w'.account 44).record.isSome = true) = true := by
    decide
  obtain ⟨w, hw, hend⟩ := (Option.any_eq_true _ _).mp hpl
  obtain ⟨w', hw', hend⟩ := (Option.any_eq_true _ _).mp hend
  exact ⟨w, w', reachable_of_play (start_init _ 0 0) hw, toOption_eq_some.mp hw',
    of_decide_eq_true hend⟩

end Sample

/-- The second deregistration of agent `44`: it conserves value if and only if its move does. -/
theorem value_conserved_iff_returned : ∃ w w' : World Nat Nat,
    ValueConserved ((Op.registration (.deregisterAgent 44)).moves Sample.deployment
        (fun a => a == 4) w) w w' ↔
      ∀ id m, (id, m) ∈ (Op.registration (.deregisterAgent 44)).moves Sample.deployment
        (fun a => a == 4) w → m.Conserving (w.account id) := by
  obtain ⟨w, w', hw, hec, -⟩ := Sample.exists_returned
  exact ⟨w, w', value_conserved_iff hw hec⟩

/-- A live bond written off: the agent stays registered, its 500 are gone, and 100 are paid out. -/
theorem live_bond_written_off : ∃ w w' : World Nat Nat,
    (system Sample.deployment).Reachable ClockMonotone w ∧
    exec Sample.deployment (fun a => a == 4) (.registration (.deregisterAgent 44)) w = .ok w' ∧
    ¬ ValueConserved ((Op.registration (.deregisterAgent 44)).moves Sample.deployment
        (fun a => a == 4) w) w w' := by
  obtain ⟨w, w', hw, hec, hhd, hhd', hpo, hpd, -⟩ := Sample.exists_returned
  refine ⟨w, w', hw, hec, ?_⟩
  intro hlaw
  have h : ((w'.account 44).held - (w.account 44).held) + (w'.bondRewardPool - w.bondRewardPool)
      + (paidOut 44 w'.payouts - paidOut 44 w.payouts) = 0 :=
    hlaw.moved 44 .deregister mem_cons_self
  omega

end AiNet.AgentRegistry
