import AiNet.Bidding.Lot
import AiNet.Core.Transition

/-!
# The contract as a transition system

The state-changing entry points as data, their dispatch, and the events of a run:
a ledger closes with a new timestamp, other parties use the token, or a call is
made. A call that fails is no step, since the host discards its writes. `upgrade` is
not an entry point here: after it the contract is a different program.
-/

namespace AiNet.Bidding

open Core List Option Function Storage

section

variable {Addr Sym τ : Type} [DecidableEq Addr] [DecidableEq Sym]

/-- The entry points and their arguments. -/
inductive Op (Addr Sym : Type) where
  | initializeContract (admin : Addr)
  | pause
  | unpause
  | setPauseAdmin (newPauseAdmin : Addr)
  | pauseByPauseAdmin
  | setPaymentAsset (asset : Addr) (decimals : Nat)
  | setPaused (admin : Addr) (paused : Bool)
  | setAgentRegistry (registry : Addr)
  | slashAgentBond (agentId : Addr) (percentage : Nat)
  | setAgentBond (agentId : Addr) (amount : Int)
  | createAuction (creator : Addr) (taskId : Sym) (config : AuctionConfig)
  | submitBid (taskId : Sym) (bidder : Addr) (commitment : BytesN 32) (bond : Int)
      (reputation : Nat)
  | revealBid (taskId : Sym) (bidder : Addr) (priceStroops : Int) (terms : List UInt8)
      (salt : BytesN 32)
  | revealBids (caller : Addr) (taskId : Sym)
  | claimBidRefund (taskId : Sym) (bidder : Addr)
  | awardContract (caller : Addr) (taskId : Sym)
  | abortAuction (caller : Addr) (taskId : Sym)
  | releaseEscrow (taskId : Sym)
  | refundEscrow (taskId : Sym)
  | claimRefund (taskId : Sym) (bidder : Addr)

/-- One call of an entry point. -/
def exec (env : Env Addr Sym τ) (call : Call Addr Sym) :
    Op Addr Sym → World Addr Sym τ → Outcome Error (World Addr Sym τ)
  | .initializeContract admin => initializeContract env call admin
  | .pause => pause env call
  | .unpause => unpause env call
  | .setPauseAdmin newPauseAdmin => setPauseAdmin env call newPauseAdmin
  | .pauseByPauseAdmin => pauseByPauseAdmin env call
  | .setPaymentAsset asset decimals => setPaymentAsset env call asset decimals
  | .setPaused admin paused => setPaused env call admin paused
  | .setAgentRegistry registry => setAgentRegistry env call registry
  | .slashAgentBond agentId percentage => slashAgentBond env call agentId percentage
  | .setAgentBond agentId amount => setAgentBond env call agentId amount
  | .createAuction creator taskId config => createAuction env call creator taskId config
  | .submitBid taskId bidder commitment bond reputation =>
    submitBid env call taskId bidder commitment bond reputation
  | .revealBid taskId bidder priceStroops terms salt =>
    revealBid env call taskId bidder priceStroops terms salt
  | .revealBids caller taskId => revealBids env call caller taskId
  | .claimBidRefund taskId bidder => claimBidRefund env call taskId bidder
  | .awardContract caller taskId => awardContract env call caller taskId
  | .abortAuction caller taskId => abortAuction env call caller taskId
  | .releaseEscrow taskId => releaseEscrow env call taskId
  | .refundEscrow taskId => refundEscrow env call taskId
  | .claimRefund taskId bidder => claimRefund env call taskId bidder

/-- The auction an entry point acts on, and how; none for the administrative ones. -/
def Op.action : Op Addr Sym → Option (Sym × Action Addr)
  | .createAuction _ t _ => some (t, .create)
  | .submitBid t b _ _ _ => some (t, .submit b)
  | .revealBid t b _ _ _ => some (t, .reveal b)
  | .revealBids _ t => some (t, .select)
  | .claimBidRefund t b => some (t, .claimBidRefund b)
  | .awardContract _ t => some (t, .award)
  | .abortAuction _ t => some (t, .abort)
  | .releaseEscrow t => some (t, .releaseEscrow)
  | .refundEscrow t => some (t, .refundEscrow)
  | .claimRefund t b => some (t, .claimRefund b)
  | _ => none

/-- What can happen in a run. -/
inductive Event (Addr Sym τ : Type) where
  /-- A ledger closes; calls from now on see this timestamp. -/
  | close (timestamp : Nat)
  /-- Anybody else uses the token contracts. -/
  | external (tokens : τ)
  /-- A call of the contract. -/
  | invoke (call : Call Addr Sym) (op : Op Addr Sym)

/-- The contract among its callers. It starts as deployed, at any time, with any token ledger. -/
def system (env : Env Addr Sym τ) :
    System (World Addr Sym τ) (Event Addr Sym τ) where
  start w := ∃ now tokens, w = World.init now tokens
  step w
    | .close timestamp => some { w with now := timestamp }
    | .external tokens => some { w with tokens := tokens }
    | .invoke call op => (exec env call op w).toOption

theorem start_init (env : Env Addr Sym τ) (now : Nat) (tokens : τ) :
    (system env).start (World.init now tokens) := ⟨now, tokens, rfl⟩

theorem step_invoke {env : Env Addr Sym τ} {w w' : World Addr Sym τ}
    {call : Call Addr Sym} {op : Op Addr Sym} :
    (system env).step w (.invoke call op) = some w' ↔ exec env call op w = .ok w' :=
  toOption_eq_some

/-- Ledger time never goes back. -/
def ClockMonotone (w : World Addr Sym τ) : Event Addr Sym τ → Prop
  | .close timestamp => w.now ≤ timestamp
  | _ => True

/-- A condition on what is done to the auction of task `t`, at the time and in the lot it is done. -/
def OnActions (t : Sym) (p : Nat → Lot Addr Sym → Action Addr → Prop)
    (w : World Addr Sym τ) : Event Addr Sym τ → Prop
  | .invoke _ op =>
    match op.action with
    | some (t', act) => t' = t → p w.now (w.lot t) act
    | none => True
  | _ => True

theorem OnActions.of_invoke {t : Sym} {p : Nat → Lot Addr Sym → Action Addr → Prop}
    {w : World Addr Sym τ} {call : Call Addr Sym} {op : Op Addr Sym}
    {act : Action Addr} (h : OnActions t p w (.invoke call op)) (hop : op.action = some (t, act)) :
    p w.now (w.lot t) act := by
  unfold OnActions at h
  dsimp only at h
  rw [hop] at h
  exact h rfl

theorem onActions_of_all {t : Sym} {p : Nat → Lot Addr Sym → Action Addr → Prop}
    {w : World Addr Sym τ} (h : ∀ act, p w.now (w.lot t) act) (e : Event Addr Sym τ) :
    OnActions t p w e := by
  unfold OnActions
  split
  · split
    · exact fun _ => h _
    · trivial
  · trivial

instance (w : World Addr Sym τ) (e : Event Addr Sym τ) : Decidable (ClockMonotone w e) :=
  match e with
  | .close timestamp => inferInstanceAs (Decidable (w.now ≤ timestamp))
  | .external _ => .isTrue trivial
  | .invoke _ _ => .isTrue trivial

instance (t : Sym) (p : Nat → Lot Addr Sym → Action Addr → Prop)
    [∀ now L act, Decidable (p now L act)] (w : World Addr Sym τ)
    (e : Event Addr Sym τ) : Decidable (OnActions t p w e) :=
  match e with
  | .close _ => .isTrue trivial
  | .external _ => .isTrue trivial
  | .invoke _ op => by
    unfold OnActions
    dsimp only
    cases op.action with
    | none => exact .isTrue trivial
    | some => exact inferInstanceAs (Decidable (_ → _))

/-! ## A deployment to run

Addresses and symbols are numbers, the contract is `0`, and the token is the plain ledger. The
hash keeps the first bytes of its input and the encodings are short, which is all that the runs
below need of them.
-/

namespace Sample

def digest (bytes : List UInt8) : BytesN 32 :=
  ⟨(bytes ++ List.replicate 32 0).take 32, by simp⟩

def env (decimals : Nat) : Env Nat Nat (Token.Ledger Nat) where
  self := 0
  sha256 := digest
  xdr :=
    { string := fun bytes => UInt8.ofNat bytes.length :: bytes
      address := fun a => [UInt8.ofNat a]
      symbol := fun t => [UInt8.ofNat t]
      i128 := fun x => [UInt8.ofNat x.toNat]
      bytes := fun bytes => bytes.take 1 }
  token := Token.ledger fun _ => decimals

/-- What comes with a call signed by one account; the registry is never asked. -/
def call (signer : Nat) : Call Nat Nat := ⟨fun a => a == signer, fun _ _ => .returned⟩

def signed (signer : Nat) (op : Op Nat Nat) : Event Nat Nat (Token.Ledger Nat) :=
  .invoke (call signer) op

/-- Everybody but the contract is rich, in every asset. -/
def wallets : Token.Ledger Nat := fun _ holder => if holder = 0 then 0 else 10 ^ 30

/-- The admin `1` sets up asset `9`; the creator `2` opens task `7`; `3` and `4` bid. -/
def opened (decimals : Nat) (reserve max bond : Int) : List (Event Nat Nat (Token.Ledger Nat)) :=
  [ signed 1 (.initializeContract 1), signed 1 (.setPaymentAsset 9 decimals),
    signed 2 (.createAuction 2 7 ⟨60, 60, reserve, max, bond⟩) ]

def salt : BytesN 32 := ⟨List.replicate 32 5, length_replicate⟩

/-- A bid of `bidder` at `price`, sealed the way the contract will check it. -/
def bid (bidder : Nat) (price bond : Int) : Event Nat Nat (Token.Ledger Nat) :=
  signed bidder (.submitBid 7 bidder (computeCommitment (env 7) 7 bidder price [] salt) bond 50)

def reveal (bidder : Nat) (price : Int) : Event Nat Nat (Token.Ledger Nat) :=
  signed bidder (.revealBid 7 bidder price [] salt)

/-- Two sealed bids, both revealed, and the winner selected. -/
def selected (decimals : Nat) : List (Event Nat Nat (Token.Ledger Nat)) :=
  opened decimals 10 100 5 ++
    [ bid 3 20 5, bid 4 30 5, .close 1400, reveal 3 20, reveal 4 30, signed 5 (.revealBids 5 7) ]

end Sample

end

/-!
## The entry points without loops, as changes of a lot

`Acted` says what a successful call on task `t` did: a `Lot.Change` of the lot of `t`,
every other lot untouched, and payments booked in the journal exactly as the change
names them. This module has the vocabulary and the seven entry points that do not
loop over the bidders; `AiNet.Bidding.Loops` has the other three.

Two functions find a record by a field of another record (`save_auction` by
`auction.task_id`, the scoring loop by `bid.bidder`), so the bridge needs that these
fields repeat the key they are stored under. That is `WellKeyed`.
-/

section OnTask

variable {Addr Sym : Type}

/-- All payments are made on the account of task `t`. -/
def OnTask (t : Sym) (ps : List (Payment Addr Sym)) : Prop :=
  ∀ p ∈ ps, p.purpose.task = t

theorem OnTask.nil (t : Sym) : OnTask t ([] : List (Payment Addr Sym)) := by
  intro p hp; cases hp

variable {ps : List (Payment Addr Sym)}

theorem onTask_of_paid {why : Purpose Addr Sym} {src dst : Addr} {amount : Int}
    (h : Paid ps why src dst amount) {t : Sym} (ht : why.task = t) : OnTask t ps := by
  rcases h with ⟨_, rfl⟩ | ⟨_, asset, units, rfl⟩
  · intro p hp; cases hp
  · intro p hp; rw [mem_singleton.mp hp]; exact ht

theorem OnTask.append {t : Sym} {ps qs : List (Payment Addr Sym)} (h : OnTask t ps)
    (h' : OnTask t qs) : OnTask t (ps ++ qs) := by
  intro p hp
  rcases mem_append.mp hp with hp | hp
  · exact h p hp
  · exact h' p hp

theorem OnTask.filter_self [DecidableEq Sym] {t : Sym}
    (h : OnTask t ps) : (ps.filter fun p => p.purpose.task = t) = ps := by
  rw [filter_eq_self]
  intro p hp
  exact decide_eq_true (h p hp)

theorem OnTask.filter_ne [DecidableEq Sym] {t t' : Sym} (h : OnTask t ps) (ht : t' ≠ t) :
    (ps.filter fun p => p.purpose.task = t') = [] := by
  rw [filter_eq_nil_iff]
  intro p hp
  rw [h p hp]
  exact fun hd => ht (of_decide_eq_true hd).symm

end OnTask

variable {Addr Sym τ : Type} [DecidableEq Addr] [DecidableEq Sym]

/-- Records name the key they are stored under. -/
structure World.WellKeyed (w : World Addr Sym τ) : Prop where
  auction : ∀ t a, w.auctions.get t = some a → a.taskId = t
  bid : ∀ t b bid, w.bids.get (t, b) = some bid → bid.bidder = b

/-- What a call on task `t` did: a change of its lot, paid for by `ps`, and no other lot touched. -/
structure Acted (env : Env Addr Sym τ) (t : Sym) (act : Action Addr)
    (w w' : World Addr Sym τ) (ps : List (Payment Addr Sym)) : Prop where
  change : Lot.Change env.self w.now t act (w.lot t) (w'.lot t) ps
  others : ∀ t', t' ≠ t → w'.lot t' = w.lot t'
  booked : Booked env w w' ps

/-! ## Lots under writes -/

variable {w w' : World Addr Sym τ}

theorem lot_congr {t : Sym}
    (ha : w'.auctions.get t = w.auctions.get t) (hb : ∀ b, w'.bids.get (t, b) = w.bids.get (t, b))
    (hl : w'.bidders.get t = w.bidders.get t) (hw : w'.winners.get t = w.winners.get t)
    (he : w'.escrows.get t = w.escrows.get t)
    (hp : (w'.journal.filter fun p => p.purpose.task = t)
      = w.journal.filter fun p => p.purpose.task = t) : w'.lot t = w.lot t := by
  unfold World.lot
  rw [ha, hl, hw, he, hp]
  simp only [hb]

theorem bids_set_lot (s : Storage (Sym × Addr) (SealedBid Addr)) (t : Sym) (b : Addr)
    (bid : SealedBid Addr) :
    (fun x => (s.set (t, b) bid).get (t, x)) = update (fun x => s.get (t, x)) b (some bid) := by
  funext x
  rw [get_set, update_apply]
  simp

theorem bids_set_other (s : Storage (Sym × Addr) (SealedBid Addr)) {t t' : Sym}
    (h : t' ≠ t) (b x : Addr) (bid : SealedBid Addr) :
    (s.set (t, b) bid).get (t', x) = s.get (t', x) :=
  get_set_ne _ _ (fun he => h (congrArg Prod.fst he))

/-! ## Assembling a change -/

/-- Records written at most under task `t`. -/
structure World.Within (t : Sym) (w w' : World Addr Sym τ) : Prop where
  auctions : ∀ t', t' ≠ t → w'.auctions.get t' = w.auctions.get t'
  bids : ∀ t', t' ≠ t → ∀ b, w'.bids.get (t', b) = w.bids.get (t', b)
  bidders : ∀ t', t' ≠ t → w'.bidders.get t' = w.bidders.get t'
  winners : ∀ t', t' ≠ t → w'.winners.get t' = w.winners.get t'
  escrows : ∀ t', t' ≠ t → w'.escrows.get t' = w.escrows.get t'

theorem World.Within.of_writes {t : Sym} (ha : Storage.WroteAt t w.auctions w'.auctions)
    (hb : ∀ t', t' ≠ t → ∀ b, w'.bids.get (t', b) = w.bids.get (t', b))
    (hl : Storage.WroteAt t w.bidders w'.bidders) (hw : Storage.WroteAt t w.winners w'.winners)
    (he : Storage.WroteAt t w.escrows w'.escrows) : w.Within t w' where
  auctions _ ht := ha.get_ne ht
  bids := hb
  bidders _ ht := hl.get_ne ht
  winners _ ht := hw.get_ne ht
  escrows _ ht := he.get_ne ht

theorem Acted.of_change {env : Env Addr Sym τ} {t : Sym} {act : Action Addr}
    {ps : List (Payment Addr Sym)}
    (hbo : Booked env w w' ps) (hon : OnTask t ps) (hin : w.Within t w')
    (hchg : Lot.Change env.self w.now t act (w.lot t)
      { auction := w'.auctions.get t
        bids := fun b => w'.bids.get (t, b)
        bidders := (w'.bidders.get t).getD []
        winner := w'.winners.get t
        escrow := w'.escrows.get t
        payments := (w.lot t).payments ++ ps } ps) : Acted env t act w w' ps := by
  refine ⟨?_, ?_, hbo⟩
  · have hpay : (w'.lot t).payments = (w.lot t).payments ++ ps := by
      show w'.journal.filter _ = w.journal.filter _ ++ ps
      rw [hbo.journal, filter_append, hon.filter_self]
    rw [← hpay] at hchg
    exact hchg
  · intro t' ht
    refine lot_congr (hin.auctions t' ht) (hin.bids t' ht) (hin.bidders t' ht)
      (hin.winners t' ht) (hin.escrows t' ht) ?_
    rw [hbo.journal, filter_append, hon.filter_ne ht, append_nil]

/-! ## The entry points without loops -/

variable {env : Env Addr Sym τ} {call : Call Addr Sym} {w w' : World Addr Sym τ}

theorem normaliseDuration_ok {secs default value : Nat}
    (h : normaliseDuration secs default = .ok value) :
    minPhaseDurationSecs ≤ value ∧ value ≤ maxPhaseDurationSecs := by
  simp only [normaliseDuration, bind_eq_ok, failIf_eq_ok, exists_and_left, exists_const,
    pure_eq_ok, not_not] at h
  obtain ⟨hr, rfl⟩ := h
  exact hr

theorem createAuction_acts {creator : Addr} {t : Sym} {config : AuctionConfig}
    (h : createAuction env call creator t config w = .ok w') :
    ∃ ps, Acted env t .create w w' ps := by
  simp only [createAuction, requireNotPaused, bind_eq_ok, failIf_eq_ok,
    requireAuth_eq_ok, exists_and_left, exists_const, pure_eq_ok, not_or, not_lt, not_le,
    Bool.not_eq_true] at h
  obtain ⟨-, ⟨hsf, -⟩, hno, hbo, ⟨hres, -⟩, ⟨hmin, hmax⟩, d, hd, r, hr, w₁, hpu, rfl⟩ := h
  obtain ⟨ps, hpd, hbk, ha, hb, hl, hw, he⟩ := moveFunds_ok hpu
  refine ⟨ps, Acted.of_change (hbk.before rfl rfl rfl rfl rfl)
    (onTask_of_paid hpd rfl) ?_ ?_⟩
  · exact .of_writes (.inr ⟨_, by rw [← ha]⟩) (by intro t' _ b; rw [← hb]) (.inr ⟨_, by rw [← hl]⟩)
      (.inl hw) (.inl he)
  · simp only [get_set_self, getD_some, hb, hw, he]
    refine .create (has_eq_false.mp hno) ?_ hpd
    exact ⟨rfl, hsf, ⟨hbo, hres, hmin, hmax, normaliseDuration_ok hd, normaliseDuration_ok hr⟩,
      rfl, rfl, rfl, rfl, rfl, rfl, rfl⟩

omit [DecidableEq Addr] [DecidableEq Sym] in
theorem antiSnipe_taskId (now : Nat) (a : Auction Addr Sym) :
    (antiSnipe now a).taskId = a.taskId := by
  unfold antiSnipe; split <;> rfl

theorem submitBid_acts {t : Sym} {b : Addr} {commitment : BytesN 32} {bond : Int}
    {reputation : Nat} (hkey : w.WellKeyed)
    (h : submitBid env call t b commitment bond reputation w = .ok w') :
    ∃ ps, Acted env t (.submit b) w w' ps := by
  simp only [submitBid, requireNotPaused, loadAuction, requireLive, bind_eq_ok, failIf_eq_ok,
    okOr_eq_ok, requireAuth_eq_ok, exists_and_left, exists_const, pure_eq_ok, ne_eq, not_not,
    not_lt, not_le, Bool.not_eq_true] at h
  obtain ⟨-, ⟨hsf, -⟩, _, -, a, ha, -, hph, hon, hbo, hrep, hfl, -, hno, -, w₁, hpu, -, rfl⟩ := h
  obtain ⟨ps, hpd, hbk, hra, hrb, hrl, hrw, hre⟩ := moveFunds_ok hpu
  have ht : a.taskId = t := hkey.auction t a ha
  subst ht
  refine ⟨ps, Acted.of_change (hbk.before rfl rfl rfl rfl rfl)
    (onTask_of_paid hpd rfl) ?_ ?_⟩
  · refine .of_writes (.inr ⟨antiSnipe w₁.now { a with bidCount := a.bidCount + 1 }, ?_⟩) ?_
      (.inr ⟨_, by rw [← hrl]; rfl⟩) (.inl hrw) (.inl hre)
    · simp only [saveAuction, antiSnipe_taskId, hra]
    intro t' ht' x
    show (w₁.bids.set (a.taskId, b) _).get (t', x) = _
    rw [bids_set_other _ ht', hrb]
  · subst bond
    simp only [saveAuction, antiSnipe_taskId, get_set_self, getD_some, bids_set_lot, hrb, hrl,
      hrw, hre, hbk.now]
    let bid : SealedBid Addr :=
      ⟨b, commitment, a.config.bond, reputation, false, false, false, 0, [], 0⟩
    have hfr : bid.Fresh env.self a := ⟨hsf, rfl, hrep, rfl, rfl, rfl⟩
    have hno : (w.lot a.taskId).bids bid.bidder = none := has_eq_false.mp hno
    have hchg := Lot.Change.submit ha hph hon hfl hno hfr hpd
    exact hchg

theorem revealBid_acts {t : Sym} {b : Addr} {price : Int} {terms : List UInt8}
    {salt : BytesN 32} (hkey : w.WellKeyed)
    (h : revealBid env call t b price terms salt w = .ok w') :
    ∃ ps, Acted env t (.reveal b) w w' ps := by
  simp only [revealBid, requireNotPaused, loadAuction, requireLive, bind_eq_ok, failIf_eq_ok,
    okOr_eq_ok, requireAuth_eq_ok, exists_and_left, exists_const, pure_eq_ok, ne_eq, not_not,
    not_lt, not_le, not_or, Bool.not_eq_true] at h
  obtain ⟨-, -, a, ha, -, hph, hdd, hon, bid, hbid, hrev, -, -, ⟨hmin, hmax⟩, rfl⟩ := h
  have ht : a.taskId = t := hkey.auction t a ha
  subst ht
  refine ⟨[], Acted.of_change (.silent rfl rfl rfl rfl rfl) (.nil _) ?_ ?_⟩
  · refine .of_writes (.inr ⟨_, rfl⟩) ?_ (.inl rfl) (.inl rfl) (.inl rfl)
    intro t' ht' x
    exact bids_set_other _ ht' _ _ _
  · simp only [saveAuction, get_set_self, bids_set_lot, append_nil]
    have hbid : (w.lot a.taskId).bids b = some bid := hbid
    exact .reveal ha hph hdd hon hbid hrev hmin hmax

theorem acted_of_refund {t : Sym} {b : Addr} {bid : SealedBid Addr} {act : Action Addr}
    (h : pushFunds env { w with bids := w.bids.set (t, b) { bid with refunded := true } }
      (.bond t b) b bid.bond = .ok w')
    (hchg : ∀ ps, Paid ps (.bond t b) env.self b bid.bond → Lot.Change env.self w.now t act (w.lot t)
        { w.lot t with
          bids := update (w.lot t).bids b (some { bid with refunded := true })
          payments := (w.lot t).payments ++ ps } ps) :
    ∃ ps, Acted env t act w w' ps := by
  obtain ⟨ps, hpd, hbo, hra, hrb, hrl, hrw, hre⟩ := moveFunds_ok h
  refine ⟨ps, Acted.of_change (hbo.after rfl rfl rfl rfl rfl)
    (onTask_of_paid hpd rfl) ?_ ?_⟩
  · refine .of_writes (.inl hra) ?_ (.inl hrl) (.inl hrw) (.inl hre)
    intro t' ht' x
    rw [hrb]
    exact bids_set_other _ ht' _ _ _
  · simp only [hra, hrb, hrl, hrw, hre, bids_set_lot]
    exact hchg ps hpd

theorem claimRefund_acts {t : Sym} {b : Addr} (h : claimRefund env call t b w = .ok w') :
    ∃ ps, Acted env t (.claimRefund b) w w' ps := by
  simp only [claimRefund, requireNotPaused, bind_eq_ok, failIf_eq_ok, okOr_eq_ok,
    requireAuth_eq_ok, exists_and_left, exists_const, not_lt, not_le, Bool.not_eq_true] at h
  obtain ⟨-, -, a, ha, hdd, hwin, bid, hbid, hunr, hpu⟩ := h
  exact acted_of_refund hpu fun ps hpd => .claimRefund ha hdd hwin hbid hunr hpd

theorem claimBidRefund_acts {t : Sym} {b : Addr}
    (h : claimBidRefund env call t b w = .ok w') :
    ∃ ps, Acted env t (.claimBidRefund b) w w' ps := by
  simp only [claimBidRefund, requireNotPaused, bind_eq_ok, failIf_eq_ok, okOr_eq_ok, ne_eq,
    not_not, requireAuth_eq_ok, exists_and_left, exists_const, Bool.not_eq_true] at h
  obtain ⟨-, -, a, ha, hph, winner, hwin, hne, bid, hbid, hunr, hpu⟩ := h
  exact acted_of_refund hpu fun ps hpd => .claimBidRefund ha hph hwin hne hbid hunr hpd

theorem acted_of_settle {t : Sym} {dst : Addr} {e e' : Escrow Addr Sym}
    {act : Action Addr}
    (h : pushFunds env { w with escrows := w.escrows.set t e' } (.escrow t) dst e.amount = .ok w')
    (hchg : ∀ ps, Paid ps (.escrow t) env.self dst e.amount → Lot.Change env.self w.now t act (w.lot t)
        { w.lot t with escrow := some e', payments := (w.lot t).payments ++ ps } ps) :
    ∃ ps, Acted env t act w w' ps := by
  obtain ⟨ps, hpd, hbo, hra, hrb, hrl, hrw, hre⟩ := moveFunds_ok h
  refine ⟨ps, Acted.of_change (hbo.after rfl rfl rfl rfl rfl)
    (onTask_of_paid hpd rfl) ?_ ?_⟩
  · exact .of_writes (.inl hra) (by intro t' _ x; rw [hrb]) (.inl hrl) (.inl hrw) (.inr ⟨_, hre⟩)
  · simp only [hra, hrb, hrl, hrw, hre, get_set_self]
    exact hchg ps hpd

theorem releaseEscrow_acts {t : Sym} (h : releaseEscrow env call t w = .ok w') :
    ∃ ps, Acted env t .releaseEscrow w w' ps := by
  simp only [releaseEscrow, requireNotPaused, bind_eq_ok, failIf_eq_ok, okOr_eq_ok, not_or,
    requireAuth_eq_ok, exists_and_left, exists_const, Bool.not_eq_true] at h
  obtain ⟨-, e, he, -, ⟨hrel, href⟩, hpu⟩ := h
  exact acted_of_settle hpu fun ps hpd => .releaseEscrow he hrel href hpd

theorem refundEscrow_acts {t : Sym} (h : refundEscrow env call t w = .ok w') :
    ∃ ps, Acted env t .refundEscrow w w' ps := by
  simp only [refundEscrow, requireNotPaused, bind_eq_ok, failIf_eq_ok, okOr_eq_ok, not_or,
    exists_and_left, exists_const, Bool.not_eq_true] at h
  obtain ⟨-, _, -, e, he, ⟨hrel, href⟩, hpu⟩ := h
  exact acted_of_settle hpu fun ps hpd => .refundEscrow he hrel href hpd

end AiNet.Bidding
