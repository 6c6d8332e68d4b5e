import AiNet.AgentRegistry.Discovery
import AiNet.AgentRegistry.Performance
import AiNet.Core.Transition

/-!
# The registry as a transition system

All entry points of `agent_registry` that write, group by group. The discovery cache is
temporary storage: an entry stays until its time to live lapses, which is an event of
its own.
-/

namespace AiNet.AgentRegistry

open Core List Option Storage

section

section

variable {Addr Sym : Type} [DecidableEq Addr] [DecidableEq Sym]
variable (env : Env Addr Sym)

/-- The entry points and their arguments. -/
inductive Op (Addr Sym : Type) where
  | control (op : ControlOp Addr Sym)
  | multisig (op : MultisigOp Addr Sym)
  | registration (op : RegistrationOp Addr Sym)
  | bond (op : BondOp Addr Sym)
  | metrics (op : MetricsOp Sym)
  | reputation (op : ReputationOp Addr Sym)
  | registerAgentVersion (record : AgentRecord Addr Sym) (versionStr : List UInt8)
  | discoverAgents (query : DiscoveryQuery Sym)

/-- One call of an entry point, signed by the given accounts. -/
def exec (signed : Addr → Bool) :
    Op Addr Sym → World Addr Sym → Outcome Error (World Addr Sym)
  | .control op => execControl env signed op
  | .multisig op => execMultisig env signed op
  | .registration op => execRegistration env signed op
  | .bond op => execBond env signed op
  | .metrics op => execMetrics env signed op
  | .reputation op => execReputation env signed op
  | .registerAgentVersion record versionStr => registerAgentVersion env signed record versionStr
  | .discoverAgents query => fun w => do
      let (_, w) ← discoverAgents env query w
      pure w

/-- What can happen in a run. -/
inductive Event (Addr Sym : Type) where
  /-- A ledger closes; calls from now on see its timestamp and sequence number. -/
  | close (timestamp sequence : Nat)
  /-- The cached answer to a query is dropped. -/
  | lapse (query : DiscoveryQuery Sym)
  /-- A call of the contract, with the accounts that signed it. -/
  | invoke (signed : Addr → Bool) (op : Op Addr Sym)

/-- The contract among its callers, deployed at any time. -/
def system : System (World Addr Sym) (Event Addr Sym) where
  start w := ∃ now sequence, w = World.init now sequence
  step w
    | .close timestamp seq => some { w with now := timestamp, sequence := seq }
    | .lapse query => some { w with discoveryCache := w.discoveryCache.remove query }
    | .invoke signed op => (exec env signed op w).toOption

theorem start_init (env : Env Addr Sym) (now sequence : Nat) :
    (system env).start (World.init now sequence) := ⟨now, sequence, rfl⟩

theorem step_invoke {env : Env Addr Sym} {w w' : World Addr Sym}
    {signed : Addr → Bool} {op : Op Addr Sym} :
    (system env).step w (.invoke signed op) = some w' ↔ exec env signed op w = .ok w' :=
  toOption_eq_some

/-- The runs whose ledgers follow each other. -/
def ClockMonotone (w : World Addr Sym) : Event Addr Sym → Prop
  | .close timestamp seq => w.now ≤ timestamp ∧ w.sequence ≤ seq
  | _ => True

instance (w : World Addr Sym) (e : Event Addr Sym) : Decidable (ClockMonotone w e) :=
  match e with
  | .close timestamp seq =>
    inferInstanceAs (Decidable (w.now ≤ timestamp ∧ w.sequence ≤ seq))
  | .lapse _ => .isTrue trivial
  | .invoke _ _ => .isTrue trivial

/-! ## A deployment to run examples on -/

namespace Sample

def deployment : Env Nat Nat where
  self := 0
  sha256 := fun _ => BytesN.zero 32
  xdr :=
    { string := id
      address := fun _ => []
      symbol := fun _ => []
      i128 := fun _ => []
      bytes := id }
  keys := ⟨101, 102, 103, 104, 105, 106⟩

def call (signer : Nat) (op : Op Nat Nat) : Event Nat Nat :=
  .invoke (fun a => a == signer) op

/-- An agent for the capability `7`, at a price of 50. -/
def agent (id owner : Nat) (bondAmount : Int) : AgentRecord Nat Nat :=
  ⟨id, 7, 50, [], owner, ∅, bondAmount⟩

/-- The administrator `1` asks for bonds of 100 at least. -/
def installed : List (Event Nat Nat) :=
  [ call 1 (.control (.initializeRegistry 1)), call 1 (.control (.setMinBond 100)) ]

end Sample

end

/-!
## One agent's bond on its own

An `Account` is what the registry stores about the bond of one id: the agent's record,
the bond record, the cooldown record, and the marks of a slashed and of a disputed bond.
`Account.Change` says what each move can do to an account, and what it takes from the
reward pool and pays out.

The balance is stored in two of the five parts, and a third holds what a deregistered
agent is owed. Which moves write which part is what the claims about bonds turn on.
-/

variable {Addr Sym : Type}

/-- What the registry stores about the bond of one agent. -/
structure Account (Addr Sym : Type) where
  record : Option (AgentRecord Addr Sym)
  bond : Option (BondRecord Addr)
  cooldown : Option (CooldownRecord Addr)
  slashed : Bool
  locked : Bool

/-- The account of an id nothing was done with. -/
def Account.vacant : Account Addr Sym := ⟨none, none, none, false, false⟩

/-- The balance held: what the bond record says. -/
def Account.held (A : Account Addr Sym) : Int := (A.bond.map BondRecord.amountStroops).getD 0

/-- A slashed account: the penalty is taken from the record, and the bond record follows. -/
def Account.slash (A : Account Addr Sym) (minBond : Int) (r : AgentRecord Addr Sym)
    (penalty : Int) : Account Addr Sym :=
  let remaining := remainingAfter r.bondAmount penalty
  { A with
    record := some { r with bondAmount := remaining }
    bond := A.bond.map fun b =>
      { b with
        amountStroops := remaining
        status := if remaining = 0 then .slashed else .active }
    slashed := A.slashed || decide (0 < r.bondAmount - remaining ∧ remaining < minBond) }

/-- What can be done to an account. -/
inductive Move (Addr Sym : Type) where
  | register (record : AgentRecord Addr Sym)
  | reprice (price : Int)
  | deregister
  | deposit (amount : Int)
  | restore (amount : Int)
  | initiateReturn
  | claim
  | reward (amount : Int)
  | slash
  | slashForDispute
  | lock
  | release
  /-- A report of the service, which met its terms or did not. -/
  | checkSla (compliant : Bool)

/-- The collateral a caller adds by a move. -/
def Move.added (A : Account Addr Sym) : Move Addr Sym → Int
  | .register record => record.bondAmount - A.held
  | .deposit amount => amount
  | .restore amount => amount
  | _ => 0

def ByResolver (signed : Addr → Bool) (w : World Addr Sym) : Prop :=
  ∃ resolver, w.disputeResolver = some resolver ∧ signed resolver = true

/--
What a move does. `Account.Change signed w m A A' pool paid` says that `m`, made in the world `w` by
a call that `signed` authorised, may take the account `A` to `A'`, adds `pool` to the reward pool and
announces that `paid` is paid out.
-/
inductive Account.Change (signed : Addr → Bool) (w : World Addr Sym) :
    Move Addr Sym → Account Addr Sym → Account Addr Sym → Int → Int → Prop where
  | register {A : Account Addr Sym} {record : AgentRecord Addr Sym} :
      A.record = none → minBond w ≤ record.bondAmount →
      Change signed w (.register record) A
        { A with
          record := some record
          bond := some ⟨record.owner, record.bondAmount, .active, none⟩
          slashed := false } 0 0
  | reprice {A : Account Addr Sym} {r : AgentRecord Addr Sym} {price : Int} :
      A.record = some r →
      Change signed w (.reprice price) A { A with record := some { r with priceStroops := price } } 0 0
  | leave {A : Account Addr Sym} {r : AgentRecord Addr Sym} {b : BondRecord Addr}
      {expiry : Nat} :
      A.locked = false → A.cooldown = none → A.record = some r → A.bond = some b →
      Change signed w .deregister A
        { A with
          record := none
          cooldown := some ⟨expiry, r.owner, r.bondAmount⟩
          bond := some { b with status := .cooldown, cooldownUntil := some expiry } } 0 0
  | complete {A : Account Addr Sym} {cr : CooldownRecord Addr} :
      A.locked = false → A.cooldown = some cr → cr.expiryLedger ≤ w.sequence →
      Change signed w .deregister A
        { A with
          cooldown := none
          bond := A.bond.map fun b =>
            { b with amountStroops := 0, status := .returned, cooldownUntil := none } }
        0 (max cr.bondAmount 0)
  | deposit {A : Account Addr Sym} {r : AgentRecord Addr Sym} {b : BondRecord Addr}
      {amount : Int} :
      A.locked = false → A.record = some r → A.bond = some b → b.status ≠ .cooldown →
      Change signed w (.deposit amount) A
        { A with
          record := some { r with bondAmount := b.amountStroops + amount }
          bond := some
            { b with
              amountStroops := b.amountStroops + amount
              status := .active
              cooldownUntil := none } } 0 0
  | restore {A : Account Addr Sym} {b : BondRecord Addr} {amount : Int} :
      0 < amount → A.slashed = true → A.locked = false → A.bond = some b → b.status ≠ .cooldown →
      Change signed w (.restore amount) A
        { A with
          record := A.record.map fun r => { r with bondAmount := b.amountStroops + amount }
          bond := some
            { b with
              amountStroops := b.amountStroops + amount
              status := if minBond w ≤ b.amountStroops + amount then .active else .slashed
              cooldownUntil := none } } 0 0
  | initiateReturn {A : Account Addr Sym} {b : BondRecord Addr} {expiry : Nat} :
      A.locked = false → A.bond = some b → b.status ≠ .cooldown → 0 < b.amountStroops →
      Change signed w .initiateReturn A
        { A with bond := some { b with status := .cooldown, cooldownUntil := some expiry } } 0 0
  | claim {A : Account Addr Sym} {b : BondRecord Addr} {expiry : Nat} :
      A.locked = false → A.bond = some b → b.status = .cooldown →
      b.cooldownUntil = some expiry → expiry ≤ w.sequence →
      Change signed w .claim A
        { A with
          record := A.record.map fun r => { r with bondAmount := 0 }
          bond := some { b with amountStroops := 0, status := .returned, cooldownUntil := none }
          cooldown := none } 0 b.amountStroops
  | reward {A : Account Addr Sym} {r : AgentRecord Addr Sym} {b : BondRecord Addr}
      {amount : Int} :
      A.locked = false → 0 < amount → A.record = some r → A.bond = some b → b.status ≠ .cooldown →
      amount ≤ w.bondRewardPool →
      Change signed w (.reward amount) A
        { A with
          record := some { r with bondAmount := b.amountStroops + amount }
          bond := some { b with amountStroops := b.amountStroops + amount, status := .active } }
        (-amount) 0
  | slash {A : Account Addr Sym} {r : AgentRecord Addr Sym} {penalty : Int} :
      A.record = some r → 0 ≤ penalty → (∀ b, A.bond = some b → b.status ≠ .cooldown) →
      Change signed w .slash A (A.slash (minBond w) r penalty)
        (r.bondAmount - remainingAfter r.bondAmount penalty) 0
  | slashForDispute {A : Account Addr Sym} {r : AgentRecord Addr Sym} {penalty : Int} :
      ByResolver signed w → A.locked = true → A.record = some r → 0 ≤ penalty →
      (∀ b, A.bond = some b → b.status ≠ .cooldown) →
      Change signed w .slashForDispute A { A.slash (minBond w) r penalty with locked := false }
        (r.bondAmount - remainingAfter r.bondAmount penalty) 0
  | lock {A : Account Addr Sym} {r : AgentRecord Addr Sym} {b : BondRecord Addr} :
      ByResolver signed w → A.locked = false → A.record = some r → A.cooldown = none →
      A.bond = some b → b.status = .active → 0 < b.amountStroops →
      Change signed w .lock A { A with locked := true } 0 0
  | release {A : Account Addr Sym} :
      ByResolver signed w → A.locked = true →
      Change signed w .release A { A with locked := false } 0 0
  | comply {A : Account Addr Sym} : Change signed w (.checkSla true) A A 0 0
  | spare {A : Account Addr Sym} {r : AgentRecord Addr Sym} :
      A.record = some r → (r.bondAmount * slaPenaltyPercent).tdiv 100 ≤ 0 →
      Change signed w (.checkSla false) A A 0 0
  | penalise {A : Account Addr Sym} {r : AgentRecord Addr Sym} {penalty : Int} :
      A.record = some r → penalty = (r.bondAmount * slaPenaltyPercent).tdiv 100 → 0 < penalty →
      Change signed w (.checkSla false) A
        { A with record := some { r with bondAmount := remainingAfter r.bondAmount penalty } } 0 0

variable [DecidableEq Addr] [DecidableEq Sym]

def World.account (id : Sym) (w : World Addr Sym) : Account Addr Sym where
  record := w.agents.get id
  bond := w.bonds.get id
  cooldown := w.bondCooldown.get id
  slashed := w.slashedBond.has id
  locked := w.disputeBondLock.has id

def paidOut (id : Sym) (payouts : List (Payout Addr Sym)) : Int :=
  ((payouts.filter fun p => p.agentId = id).map Payout.amountStroops).sum

/--
What a call does to the accounts: the listed moves, each on the account of its id, and nothing to
any other.
-/
structure Moved (signed : Addr → Bool) (moves : List (Sym × Move Addr Sym))
    (w w' : World Addr Sym) : Prop where
  moved : ∀ id m, (id, m) ∈ moves → ∃ pool paid,
    Account.Change signed w m (w.account id) (w'.account id) pool paid ∧
      w'.bondRewardPool = w.bondRewardPool + pool ∧
      paidOut id w'.payouts = paidOut id w.payouts + paid
  others : ∀ id, (∀ m, (id, m) ∉ moves) →
    w'.account id = w.account id ∧ paidOut id w'.payouts = paidOut id w.payouts
  pool : moves = [] → w'.bondRewardPool = w.bondRewardPool

/-- A record apart from its balance. -/
def AgentRecord.face (r : AgentRecord Addr Sym) : AgentRecord Addr Sym :=
  { r with bondAmount := 0 }

/-- The same agents are registered, and their records differ in the balance at most. -/
def SameFaces (s s' : Storage Sym (AgentRecord Addr Sym)) : Prop :=
  ∀ id, (s'.get id).map AgentRecord.face = (s.get id).map AgentRecord.face

/-- A call that writes balances and bond records at most. -/
structure BondsOnly (w w' : World Addr Sym) : Prop where
  frame : w' = { w with toAgents := w'.toAgents, toBonds := w'.toBonds }
  faces : SameFaces w.agents w'.agents

variable {signed : Addr → Bool} {w w' : World Addr Sym} {env : Env Addr Sym}

section

omit [DecidableEq Addr]

theorem SameFaces.refl (s : Storage Sym (AgentRecord Addr Sym)) : SameFaces s s :=
  fun _ => rfl

theorem SameFaces.set {s : Storage Sym (AgentRecord Addr Sym)} {id : Sym}
    {r r' : AgentRecord Addr Sym} (h : s.get id = some r) (hfa : r'.face = r.face) :
    SameFaces s (s.set id r') := by
  intro x
  rw [get_set]
  by_cases hx : x = id
  · subst hx
    rw [if_pos rfl, h, map_some, map_some, hfa]
  · rw [if_neg hx]

theorem SameFaces.adjust {s : Storage Sym (AgentRecord Addr Sym)} {id : Sym}
    {f : AgentRecord Addr Sym → AgentRecord Addr Sym}
    (hfa : ∀ r, (f r).face = r.face) : SameFaces s (s.adjust id f) := by
  intro x
  rw [get_adjust]
  by_cases hx : x = id
  · subst hx
    rw [if_pos rfl, Option.map_map]
    exact congrFun (congrArg Option.map (funext hfa)) _
  · rw [if_neg hx]

end

variable {m : Move Addr Sym}

section

omit [DecidableEq Addr]

theorem Account.Change.of_account {id : Sym} {A A' : Account Addr Sym} {pool paid : Int}
    (h : w'.account id = A') (hc : Account.Change signed w m A A' pool paid) :
    Account.Change signed w m A (w'.account id) pool paid :=
  h ▸ hc

theorem Moved.none (hags : w'.agents = w.agents) (hbds : w'.toBonds = w.toBonds) :
    Moved signed [] w w' := by
  have hacc : ∀ id, w'.account id = w.account id := by
    intro id
    unfold World.account
    rw [hags, hbds]
  refine ⟨?_, fun id _ => ⟨hacc id, ?_⟩, fun _ => ?_⟩
  · intro id m hm
    cases hm
  · rw [hbds]
  · rw [hbds]

theorem Moved.one {id : Sym} {pool : Int}
    (hc : Account.Change signed w m (w.account id) (w'.account id) pool 0)
    (hoth : ∀ x, x ≠ id → w'.account x = w.account x) (hpo : w'.bondRewardPool = w.bondRewardPool + pool)
    (hpd : w'.payouts = w.payouts) :
    Moved signed [(id, m)] w w' := by
  refine ⟨?_, ?_, nofun⟩
  · intro x m' hm
    obtain ⟨rfl, rfl⟩ := Prod.mk.inj (mem_singleton.mp hm)
    exact ⟨pool, 0, hc, hpo, by rw [hpd, Int.add_zero]⟩
  · intro x hx
    exact ⟨hoth x fun he => hx m (mem_singleton.mpr (he ▸ rfl)), by rw [hpd]⟩

theorem paidOut_append (id : Sym) (payouts : List (Payout Addr Sym))
    (p : Payout Addr Sym) :
    paidOut id (payouts ++ [p])
      = paidOut id payouts + if p.agentId = id then p.amountStroops else 0 := by
  unfold paidOut
  rw [filter_append, map_append, sum_append]
  by_cases h : p.agentId = id
  · simp [h]
  · simp [h]

theorem Moved.pay {id : Sym} {p : Payout Addr Sym} (hp : p.agentId = id)
    (hc : Account.Change signed w m (w.account id) (w'.account id) 0 p.amountStroops)
    (hoth : ∀ x, x ≠ id → w'.account x = w.account x) (hpo : w'.bondRewardPool = w.bondRewardPool)
    (hpd : w'.payouts = w.payouts ++ [p]) :
    Moved signed [(id, m)] w w' := by
  refine ⟨?_, ?_, nofun⟩
  · intro x m' hm
    obtain ⟨rfl, rfl⟩ := Prod.mk.inj (mem_singleton.mp hm)
    refine ⟨0, p.amountStroops, hc, by omega, ?_⟩
    rw [hpd, paidOut_append, if_pos hp]
  · intro x hx
    have hne : x ≠ id := fun he => hx m (mem_singleton.mpr (he ▸ rfl))
    refine ⟨hoth x hne, ?_⟩
    rw [hpd, paidOut_append, if_neg fun he => hne (he.symm.trans hp), Int.add_zero]

end

end

/-!
## What one registration does

`register_agent` succeeds exactly on an `Admissible` record, and then the registry is
`enrol`led with it. The batch path is compared with this, and so are the indexes.
-/

variable {Addr Sym : Type} [DecidableEq Addr] [DecidableEq Sym]

def AgentRecord.Valid (r : AgentRecord Addr Sym) : Prop :=
  0 < r.priceStroops ∧ r.metadata.entries.length ≤ maxMetadataEntries

/-- The bond of a record is enough, also to restore an identity that was slashed. -/
structure BondSuffices (w : World Addr Sym) (r : AgentRecord Addr Sym) : Prop where
  enough : minBond w ≤ r.bondAmount
  restored : w.slashedBond.has r.id = true → ∃ b, w.bonds.get r.id = some b ∧ b.status = .active ∧
    minBond w ≤ b.amountStroops ∧ b.owner = r.owner ∧ b.amountStroops ≤ r.bondAmount

/-- A record that can be registered. -/
structure Admissible (env : Env Addr Sym) (signed : Addr → Bool) (w : World Addr Sym)
    (r : AgentRecord Addr Sym) : Prop where
  unpaused : w.paused = false
  unfrozen : isAgentFrozen w r.id = false
  auth : r.owner ≠ env.self ∧ signed r.owner = true
  valid : r.Valid
  room : ¬ (0 < (getStorageConfig w).maxAgents ∧ (getStorageConfig w).maxAgents.toNat ≤ w.totalAgents)
  capRoom : ¬ (0 < (getStorageConfig w).maxPerCapability ∧
    (getStorageConfig w).maxPerCapability.toNat ≤ (getCapabilityIndex w r.capability).length)
  bond : BondSuffices w r
  new : w.agents.has r.id = false
  seqFits : w.registrationSequence + 1 ≤ u32Max
  totalFits : w.totalAgents + 1 ≤ u32Max

def enrol (w : World Addr Sym) (r : AgentRecord Addr Sym) : World Addr Sym :=
  { w with
    capabilityIndex :=
      w.capabilityIndex.set r.capability (getCapabilityIndex w r.capability ++ [r.id])
    agents := w.agents.set r.id r
    slashedBond := w.slashedBond.remove r.id
    bonds := w.bonds.set r.id ⟨r.owner, r.bondAmount, .active, none⟩
    agentByIndex := w.agentByIndex.set w.registrationSequence r.id
    registrationSequence := w.registrationSequence + 1
    totalAgents := w.totalAgents + 1 }

/-- The registry with one agent less; its slot stays. -/
def strikeOff (w : World Addr Sym) (id : Sym) (r : AgentRecord Addr Sym)
    (bonds : Bonds Addr Sym) : World Addr Sym :=
  { w with
    capabilityIndex := w.capabilityIndex.set r.capability
      ((getCapabilityIndex w r.capability).filter fun x => x ≠ id)
    agents := w.agents.remove id
    totalAgents := w.totalAgents - 1
    toBonds := bonds }

variable {env : Env Addr Sym} {signed : Addr → Bool} {w w' : World Addr Sym}
variable {r : AgentRecord Addr Sym}

omit [DecidableEq Addr] [DecidableEq Sym] in
@[simp] theorem validateRecord_eq_ok {u : Unit} : validateRecord r = .ok u ↔ r.Valid := by
  simp only [validateRecord, bind_eq_ok, failIf_eq_ok, exists_const, not_le, not_lt, AgentRecord.Valid]

@[simp] theorem validateRegistrationBond_eq_ok {u : Unit} :
    validateRegistrationBond w r = .ok u ↔ BondSuffices w r := by
  unfold validateRegistrationBond
  by_cases hsl : w.slashedBond.has r.id = true
  · simp only [hsl, if_true, bind_eq_ok, failIf_eq_ok, loadBond_eq_ok, exists_const, not_lt,
      not_or, not_not]
    constructor
    · rintro ⟨heno, b, hb, hst, hamt, hown, hle⟩
      exact ⟨heno, fun _ => ⟨b, hb, hst, hamt, hown, hle⟩⟩
    · intro h
      obtain ⟨b, hb, hst, hamt, hown, hle⟩ := h.restored hsl
      exact ⟨h.enough, b, hb, hst, hamt, hown, hle⟩
  · simp only [if_neg hsl, bind_eq_ok, failIf_eq_ok, pure_eq_ok, exists_const, not_lt, and_true]
    constructor
    · intro heno
      exact ⟨heno, fun hs => absurd hs hsl⟩
    · intro h
      exact h.enough

/-- **When a registration succeeds, and what it leaves.** -/
theorem registerAgent_eq_ok :
    registerAgent env signed r w = .ok w' ↔ Admissible env signed w r ∧ w' = enrol w r := by
  simp only [registerAgent, bind_eq_ok, requireNotPaused_eq_ok, requireNotFrozen_eq_ok,
    requireAuth_eq_ok, validateRecord_eq_ok, failIf_eq_ok, validateRegistrationBond_eq_ok,
    orTrap_eq_ok, checked32_eq_some, pure_eq_ok, exists_const, Bool.not_eq_true]
  constructor
  · rintro ⟨hpsd, hfrz, hau, hval, hro, hcap, hbo, hnew, seq, ⟨hseq, rfl⟩, total, ⟨htot, rfl⟩, rfl⟩
    exact ⟨⟨hpsd, hfrz, hau, hval, hro, hcap, hbo, hnew, hseq, htot⟩, rfl⟩
  · rintro ⟨h, rfl⟩
    exact ⟨h.unpaused, h.unfrozen, h.auth, h.valid, h.room, h.capRoom, h.bond, h.new, _,
      ⟨h.seqFits, rfl⟩, _, ⟨h.totalFits, rfl⟩, rfl⟩

omit [DecidableEq Addr] in
theorem strikeOff_capabilityIndex (id : Sym) (bonds : Bonds Addr Sym) (capability : Sym) :
    getCapabilityIndex (strikeOff w id r bonds) capability
      = if capability = r.capability then
          (getCapabilityIndex w capability).filter fun x => x ≠ id
        else getCapabilityIndex w capability := by
  show ((w.capabilityIndex.set r.capability
    ((getCapabilityIndex w r.capability).filter fun x => x ≠ id)).get capability).getD [] = _
  rw [get_set]
  by_cases h : capability = r.capability
  · rw [if_pos h, if_pos h, h]
    rfl
  · rw [if_neg h, if_neg h]
    rfl

/-! ## The accounts of an enrolled registry -/

section

omit [DecidableEq Addr]

theorem account_enrol_self :
    (enrol w r).account r.id
      = { w.account r.id with
          record := some r
          bond := some ⟨r.owner, r.bondAmount, .active, none⟩
          slashed := false } := by
  simp [World.account, enrol]

theorem account_enrol_ne {id : Sym} (h : id ≠ r.id) : (enrol w r).account id = w.account id := by
  simp [World.account, enrol, get_set_ne _ _ h, has_remove_ne _ h]

theorem Admissible.moves (h : Admissible env signed w r) :
    Moved signed [(r.id, .register r)] w (enrol w r) := by
  refine .one ?_ (fun x hx => account_enrol_ne hx) (Int.add_zero _).symm rfl
  rw [account_enrol_self]
  exact .register (has_eq_false.mp h.new) h.bond.enough

end

end AiNet.AgentRegistry
