import AiNet.AgentRegistry.Effects
import AiNet.DisputeResolution.Court

/-!
# The dispute contract and the registry together

`dispute_resolution` calls `agent_registry` to lock the bond of the agent a dispute is
about, and to slash or release it with the ruling. Here the interface it calls through is
the registry itself, next to everything else that is called on the registry. A contract
signs for itself only, so the dispute contract authorises no call but those it makes.
-/

namespace AiNet.DisputedBonds

open Core List Option

section

section

variable {Addr Sym : Type}

/-- The state of both contracts: the dispute contract's world, with the registry's in it. -/
abbrev World (Addr Sym : Type) :=
  DisputeResolution.World Addr Sym (AgentRegistry.World Addr Sym)

/-- The two contracts, deployed at two addresses. -/
structure Deployment (Addr Sym : Type) where
  /-- The host of `dispute_resolution`. -/
  disputes : Host Addr Sym
  registry : AgentRegistry.Env Addr Sym
  distinct : disputes.self ≠ registry.self

variable [DecidableEq Addr] [DecidableEq Sym]

/-- `AgentRegistryClient`: the registry, called by a contract that authorises its own calls. -/
def client (registry : AgentRegistry.Env Addr Sym) :
    DisputeResolution.Registry Addr Sym (AgentRegistry.World Addr Sym) where
  lockBondForDispute r address caller agentId :=
    if address = registry.self then
      (AgentRegistry.lockBondForDispute registry (fun a => a == caller) caller agentId r).toOption
    else none
  releaseBondAfterDispute r address caller agentId :=
    if address = registry.self then
      (AgentRegistry.releaseBondAfterDispute registry (fun a => a == caller) caller agentId
        r).toOption
    else none
  slashBondFromDispute r address caller agentId percentage reason :=
    if address = registry.self then
      (AgentRegistry.slashBondFromDispute registry (fun a => a == caller) caller agentId percentage
        reason r).toOption.map Prod.swap
    else none

def Deployment.env (d : Deployment Addr Sym) :
    DisputeResolution.Env Addr Sym (AgentRegistry.World Addr Sym) where
  toHost := d.disputes
  registry := client d.registry

/-- What can happen to the two. -/
inductive Event (Addr Sym : Type) where
  /-- A ledger closes. -/
  | close (timestamp sequence : Nat)
  /-- A cached answer of the registry is dropped. -/
  | lapse (query : AgentRegistry.DiscoveryQuery Sym)
  /-- A call of the registry by anybody but the dispute contract. -/
  | registry (signed : Addr → Bool) (op : AgentRegistry.Op Addr Sym)
  /-- A call of the dispute contract. -/
  | dispute (signed : Addr → Bool) (op : DisputeResolution.Op Addr Sym)

/-- The accounts that signed, without the dispute contract. -/
def Deployment.others (d : Deployment Addr Sym) (signed : Addr → Bool) (a : Addr) : Bool :=
  decide (a ≠ d.disputes.self) && signed a

/-- The two contracts among their callers. -/
def system (d : Deployment Addr Sym) : System (World Addr Sym) (Event Addr Sym) where
  start w := ∃ now sequence, w = DisputeResolution.World.init now (AgentRegistry.World.init now sequence)
  step w
    | .close timestamp seq => some { w with
        now := timestamp
        registry := { w.registry with now := timestamp, sequence := seq } }
    | .lapse query => some { w with
        registry := { w.registry with
          discoveryCache := w.registry.discoveryCache.remove query } }
    | .registry signed op =>
      (AgentRegistry.exec d.registry (d.others signed) op w.registry).toOption.map fun registry =>
        { w with registry := registry }
    | .dispute signed op => (DisputeResolution.exec d.env signed op w).toOption

/-- A call that makes one of the contracts name the other names it rightly. -/
def Deployment.links (d : Deployment Addr Sym) : Event Addr Sym → Bool
  | .registry _ (.control (.setDisputeResolver resolver)) => resolver == d.disputes.self
  | .dispute _ (.setAgentRegistry registry) => registry == d.registry.self
  | _ => true

/-- The registry the dispute contract calls and the resolver the registry answers to stay each other. -/
def Linked (d : Deployment Addr Sym) (_ : World Addr Sym) (e : Event Addr Sym) : Prop :=
  d.links e = true

instance (d : Deployment Addr Sym) (w : World Addr Sym) (e : Event Addr Sym) : Decidable (Linked d w e) :=
  inferInstanceAs (Decidable (_ = true))

variable {d : Deployment Addr Sym} {w w' : World Addr Sym}

theorem step_registry {signed : Addr → Bool} {op : AgentRegistry.Op Addr Sym} :
    (system d).step w (.registry signed op) = some w' ↔ ∃ registry,
      AgentRegistry.exec d.registry (d.others signed) op w.registry = .ok registry ∧
        w' = { w with registry := registry } := by
  show Option.map _ _ = _ ↔ _
  rw [map_eq_some_iff]
  constructor
  · rintro ⟨registry, hok, rfl⟩
    exact ⟨registry, toOption_eq_some.mp hok, rfl⟩
  · rintro ⟨registry, hok, rfl⟩
    exact ⟨registry, toOption_eq_some.mpr hok, rfl⟩

theorem step_dispute {signed : Addr → Bool} {op : DisputeResolution.Op Addr Sym} :
    (system d).step w (.dispute signed op) = some w' ↔ DisputeResolution.exec d.env signed op w = .ok w' :=
  toOption_eq_some

/-! ## Each contract on its own -/

/-- **The dispute contract's side** of a run is a run of that contract, next to a registry. -/
theorem reachable_disputes {guard : World Addr Sym → Event Addr Sym → Prop}
    (h : (system d).Reachable guard w) :
    (DisputeResolution.system d.env).Reachable (fun _ _ => True) w := by
  refine System.Reachable.invariant
    (I := fun w => (DisputeResolution.system d.env).Reachable (fun _ _ => True) w) ?_ ?_ h
  · rintro w₀ ⟨now, sequence, rfl⟩
    exact .init (DisputeResolution.start_init _ _ _)
  · intro w e w' _ _ hI hs
    cases e with
    | close timestamp sequence =>
      cases hs
      exact (hI.tail (e := .close timestamp) trivial rfl).tail
        (e := .external { w.registry with now := timestamp, sequence := sequence }) trivial rfl
    | lapse query =>
      cases hs
      exact hI.tail (e := .external { w.registry with
        discoveryCache := w.registry.discoveryCache.remove query }) trivial rfl
    | registry =>
      obtain ⟨registry, -, rfl⟩ := step_registry.mp hs
      exact hI.tail (e := .external registry) trivial rfl
    | dispute signed op =>
      exact hI.tail (e := .invoke signed op) trivial
        (DisputeResolution.step_invoke.mpr (step_dispute.mp hs))

variable {r r' : AgentRegistry.World Addr Sym} {address caller : Addr} {agentId : Sym}

theorem client_lock :
    (client d.registry).lockBondForDispute r address caller agentId = some r' ↔ address = d.registry.self ∧
        AgentRegistry.lockBondForDispute d.registry (fun a => a == caller) caller agentId r
          = .ok r' := by
  show (if address = d.registry.self then _ else none) = some r' ↔ _
  rw [ite_none_right_eq_some, toOption_eq_some]

theorem client_release :
    (client d.registry).releaseBondAfterDispute r address caller agentId = some r' ↔
      address = d.registry.self ∧
        AgentRegistry.releaseBondAfterDispute d.registry (fun a => a == caller) caller agentId r
          = .ok r' := by
  show (if address = d.registry.self then _ else none) = some r' ↔ _
  rw [ite_none_right_eq_some, toOption_eq_some]

theorem client_slash {percentage : Nat} {reason : String} {slashed : Int} :
    (client d.registry).slashBondFromDispute r address caller agentId percentage reason
        = some (r', slashed) ↔
      address = d.registry.self ∧
        AgentRegistry.slashBondFromDispute d.registry (fun a => a == caller) caller agentId
          percentage reason r = .ok (slashed, r') := by
  show (if address = d.registry.self then _ else none) = some (r', slashed) ↔ _
  rw [ite_none_right_eq_some, map_eq_some_iff]
  constructor
  · rintro ⟨hadr, ⟨slashed', r₁⟩, hok, he⟩
    cases he
    exact ⟨hadr, toOption_eq_some.mp hok⟩
  · rintro ⟨hadr, hok⟩
    exact ⟨hadr, (slashed, r'), toOption_eq_some.mpr hok, rfl⟩

end

/-!
## The lock and the dispute

The registry holds an agent's bond exactly as long as a dispute about the agent is open.
Only the dispute contract can move the lock, and it does so exactly when a dispute opens or
is ruled on (`Consulted`). What the registry does for anybody else leaves a locked bond
where it is: every call that would take it away asks for the lock first.
-/

open Core List
open AiNet.AgentRegistry (Account Move Moved ByResolver remainingAfter_nonneg)
open AiNet.DisputeResolution (Act Consulted slashPercentage slashReason)

variable {Addr Sym : Type}

/-! ## What the registry does to a locked bond -/

/-- A registered agent with a bond that can be slashed or released. -/
structure Held (A : Account Addr Sym) : Prop where
  registered : ∃ r, A.record = some r
  bond : ∃ b, A.bond = some b ∧ (b.status = .active ∨ b.status = .slashed) ∧ 0 ≤ b.amountStroops

theorem Held.slash {A : Account Addr Sym} (h : Held A) (minBond : Int)
    (r : AgentRegistry.AgentRecord Addr Sym) (penalty : Int) :
    Held (A.slash minBond r penalty) := by
  obtain ⟨b, hb, -, -⟩ := h.bond
  refine ⟨⟨_, rfl⟩, _, map_eq_some_iff.mpr ⟨b, hb, rfl⟩, ?_, remainingAfter_nonneg _ _⟩
  dsimp only
  split
  · exact .inr rfl
  · exact .inl rfl

theorem Held.standing {A : Account Addr Sym} (h : Held A) :
    ∃ b, A.bond = some b ∧ b.status ≠ .cooldown ∧ b.status ≠ .returned ∧ 0 ≤ b.amountStroops := by
  obtain ⟨b, hb, hst, hamt⟩ := h.bond
  refine ⟨b, hb, ?_, ?_, hamt⟩
  all_goals rcases hst with hs | hs <;> rw [hs] <;> exact AgentRegistry.BondStatus.noConfusion

variable {signed : Addr → Bool}

/-- **The step of an account**: nobody but the resolver moves the lock, and a locked bond stays. -/
theorem change_held {r : AgentRegistry.World Addr Sym} {m : Move Addr Sym}
    {A A' : Account Addr Sym} {pool paid : Int} (hc : Account.Change signed r m A A' pool paid)
    (hfo : ¬ ByResolver signed r) (h : A.locked = true → Held A) :
    A'.locked = A.locked ∧ (A'.locked = true → Held A') := by
  have hfr : ∀ {P : Prop}, A.locked = false → A.locked = true → P := by
    intro P hno hyes
    rw [hno] at hyes
    cases hyes
  cases hc with
  | register hne =>
    refine ⟨rfl, fun hlck => ?_⟩
    obtain ⟨r, hr⟩ := (h hlck).registered
    cases hne.symm.trans hr
  | reprice | penalise => exact ⟨rfl, fun hlck => ⟨⟨_, rfl⟩, (h hlck).bond⟩⟩
  | leave hno | complete hno | deposit hno | restore _ _ hno | initiateReturn hno | claim hno
  | reward hno => exact ⟨rfl, hfr hno⟩
  | slash => exact ⟨rfl, fun hlck => (h hlck).slash _ _ _⟩
  | slashForDispute hrsr | lock hrsr | release hrsr => exact absurd hrsr hfo
  | comply | spare => exact ⟨rfl, h⟩

variable [DecidableEq Addr] [DecidableEq Sym]
variable {d : Deployment Addr Sym} {w w' : World Addr Sym}
variable {r r' : AgentRegistry.World Addr Sym}

theorem exec_resolver {op : AgentRegistry.Op Addr Sym}
    (h : AgentRegistry.exec d.registry signed op r = .ok r') :
    r'.disputeResolver = r.disputeResolver ∨ ∃ resolver, op = .control (.setDisputeResolver resolver) ∧
        r'.disputeResolver = some resolver := by
  rcases AgentRegistry.exec_control h with ⟨c, rfl, rfl⟩ | ⟨-, hrsr⟩
  · cases c with
    | setDisputeResolver resolver => exact .inr ⟨resolver, rfl, rfl⟩
    | _ => exact .inl rfl
  · exact .inl hrsr

/-! ## The agreement -/

/-- The dispute about a task holds the bond of an agent of this registry. -/
def HeldBy (d : Deployment Addr Sym) (w : World Addr Sym) (agent t : Sym) : Prop :=
  (w.docket t).holds = some (d.registry.self, agent)

variable {agent : Sym}

theorem heldBy_congr {x : Sym} (h : (w'.docket x).holds = (w.docket x).holds) :
    HeldBy d w' agent x ↔ HeldBy d w agent x := by
  unfold HeldBy
  rw [h]

/-- **The invariant** of the two contracts. -/
structure Agreement (d : Deployment Addr Sym) (w : World Addr Sym) : Prop where
  resolver : ∀ resolver, w.registry.disputeResolver = some resolver → resolver = d.disputes.self
  address : ∀ t x, (w.docket t).holds = some x → x.1 = d.registry.self
  locked : ∀ agent, (w.registry.account agent).locked = true ↔ ∃ t, HeldBy d w agent t
  once : ∀ agent t t', HeldBy d w agent t → HeldBy d w agent t' → t = t'
  held : ∀ agent, (w.registry.account agent).locked = true →
    Held (w.registry.account agent) ∧ w.registry.disputeResolver = some d.disputes.self

theorem agreement_init (now sequence : Nat) : Agreement d
    (DisputeResolution.World.init now (AgentRegistry.World.init now sequence)) := by
  refine ⟨?_, ?_, ?_, ?_, ?_⟩
  · intro resolver h
    cases h
  · intro t x h
    cases h
  · intro agent
    refine ⟨nofun, ?_⟩
    rintro ⟨t, h⟩
    cases h
  · intro agent t t' h
    cases h
  · intro agent h
    cases h

theorem Agreement.registry (h : Agreement d w)
    (hdks : ∀ t, (w'.docket t).holds = (w.docket t).holds)
    (hrsr : w'.registry.disputeResolver = w.registry.disputeResolver ∨
      w'.registry.disputeResolver = some d.disputes.self)
    (hacc : ∀ agent, (w'.registry.account agent).locked = (w.registry.account agent).locked ∧
      ((w'.registry.account agent).locked = true → Held (w'.registry.account agent))) :
    Agreement d w' := by
  have hhd : ∀ agent t, HeldBy d w' agent t ↔ HeldBy d w agent t :=
    fun agent t => heldBy_congr (hdks t)
  refine ⟨?_, ?_, ?_, ?_, ?_⟩
  · intro resolver hset
    rcases hrsr with hsm | hsf
    · exact h.resolver resolver (hsm ▸ hset)
    · exact Option.some.inj (hset.symm.trans hsf)
  · intro t x hx
    rw [hdks] at hx
    exact h.address t x hx
  · intro agent
    rw [(hacc agent).1, h.locked]
    simp only [hhd]
  · intro agent t t' ht ht'
    exact h.once agent t t' ((hhd agent t).mp ht) ((hhd agent t').mp ht')
  · intro agent hlck
    refine ⟨(hacc agent).2 hlck, ?_⟩
    rcases hrsr with hsm | hsf
    · rw [hsm]
      exact (h.held agent ((hacc agent).1 ▸ hlck)).2
    · exact hsf

/-- **A call of the registry by others** keeps the agreement. -/
theorem Agreement.others (h : Agreement d w) {op : AgentRegistry.Op Addr Sym}
    (hop : ∀ resolver, op = .control (.setDisputeResolver resolver) → resolver = d.disputes.self)
    (hec : AgentRegistry.exec d.registry (d.others signed) op w.registry = .ok r') :
    Agreement d { w with registry := r' } := by
  have hfo : ¬ ByResolver (d.others signed) w.registry := by
    rintro ⟨resolver, hset, hsgn⟩
    rw [h.resolver resolver hset] at hsgn
    unfold Deployment.others at hsgn
    rw [decide_eq_false (not_not.mpr rfl)] at hsgn
    cases hsgn
  refine h.registry (fun _ => rfl) ?_ ?_
  · rcases exec_resolver hec with hsm | ⟨resolver, he, hset⟩
    · exact .inl hsm
    · exact .inr (hop resolver he ▸ hset)
  · intro agent
    have hmv := AgentRegistry.exec_moves hec
    by_cases hmo : ∃ m, (agent, m) ∈ op.moves d.registry (d.others signed) w.registry
    · obtain ⟨m, hm⟩ := hmo
      obtain ⟨pool, paid, hc, -, -⟩ := hmv.moved agent m hm
      exact change_held hc hfo fun hlck => (h.held agent hlck).1
    · have hsm := (hmv.others agent fun m hm => hmo ⟨m, hm⟩).1
      dsimp only
      rw [hsm]
      exact ⟨rfl, fun hlck => (h.held agent hlck).1⟩

/-! ## The calls of the dispute contract -/

variable {caller : Addr}

omit [DecidableEq Sym] in
theorem byResolver_self {r : AgentRegistry.World Addr Sym}
    (h : ByResolver (fun a => a == caller) r) : r.disputeResolver = some caller := by
  obtain ⟨resolver, hset, hsgn⟩ := h
  rw [hset, eq_of_beq hsgn]

/-- **Locking**: the account was free, and is held now. -/
theorem lock_ok
    (h : AgentRegistry.lockBondForDispute d.registry (fun a => a == caller) caller agent r = .ok r') :
    r'.disputeResolver = r.disputeResolver ∧ r.disputeResolver = some caller ∧
      (r.account agent).locked = false ∧ (r'.account agent).locked = true ∧
      Held (r'.account agent) ∧ ∀ x, x ≠ agent → r'.account x = r.account x := by
  have hec : AgentRegistry.execBond d.registry (fun a => a == caller)
      (.lockBondForDispute caller agent) r = .ok r' := h
  obtain ⟨hmv, hbds⟩ := AgentRegistry.execBond_moves hec
  obtain ⟨pool, paid, hc, -, -⟩ := hmv.moved agent .lock mem_cons_self
  refine ⟨by rw [hbds.frame], ?_⟩
  have hots : ∀ x, x ≠ agent → r'.account x = r.account x := by
    intro x hx
    refine (hmv.others x fun m hm => hx ?_).1
    exact congrArg Prod.fst (mem_singleton.mp hm)
  generalize r.account agent = A at hc
  generalize r'.account agent = A' at hc
  cases hc with
  | lock hrsr hfr hr _ hb hact hpos =>
    exact ⟨byResolver_self hrsr, hfr, rfl, ⟨⟨_, hr⟩, _, hb, .inl hact, le_of_lt hpos⟩, hots⟩

theorem unlock_ok {m : Move Addr Sym} (hm : m = .slashForDispute ∨ m = .release)
    (hmv : Moved (fun a => a == caller) [(agent, m)] r r') :
    (r.account agent).locked = true ∧ (r'.account agent).locked = false ∧
      ∀ x, x ≠ agent → r'.account x = r.account x := by
  obtain ⟨pool, paid, hc, -, -⟩ := hmv.moved agent m mem_cons_self
  have hots : ∀ x, x ≠ agent → r'.account x = r.account x := by
    intro x hx
    refine (hmv.others x fun m hm => hx ?_).1
    exact congrArg Prod.fst (mem_singleton.mp hm)
  generalize r.account agent = A at hc
  generalize r'.account agent = A' at hc
  rcases hm with rfl | rfl
  · cases hc with
    | slashForDispute _ hlck => exact ⟨hlck, rfl, hots⟩
  · cases hc with
    | release _ hlck => exact ⟨hlck, rfl, hots⟩

variable {t agent : Sym}

theorem Agreement.exchange (h : Agreement d w)
    (hdks : ∀ x, x ≠ t → (w'.docket x).holds = (w.docket x).holds)
    (hsm : w'.registry.disputeResolver = w.registry.disputeResolver)
    (hac : ∀ x, x ≠ agent → w'.registry.account x = w.registry.account x)
    (hadr : ∀ x, (w'.docket t).holds = some x → x.1 = d.registry.self)
    (hfo : ∀ a, a ≠ agent → (HeldBy d w' a t ↔ HeldBy d w a t))
    (hlck : (w'.registry.account agent).locked = true ↔ ∃ x, HeldBy d w' agent x)
    (hoc : ∀ x y, HeldBy d w' agent x → HeldBy d w' agent y → x = y)
    (hhd : (w'.registry.account agent).locked = true → Held (w'.registry.account agent) ∧
      w.registry.disputeResolver = some d.disputes.self) : Agreement d w' := by
  -- for the other agents nothing has changed
  have hots : ∀ a, a ≠ agent → ∀ x, HeldBy d w' a x ↔ HeldBy d w a x := by
    intro a ha x
    by_cases hx : x = t
    · rw [hx]
      exact hfo a ha
    · exact heldBy_congr (hdks x hx)
  refine ⟨fun resolver hset => h.resolver resolver (hsm ▸ hset), ?_, ?_, ?_, ?_⟩
  · intro x y hy
    by_cases hx : x = t
    · exact hadr y (hx ▸ hy)
    · rw [hdks x hx] at hy
      exact h.address x y hy
  · intro a
    by_cases ha : a = agent
    · exact ha ▸ hlck
    · rw [hac a ha, h.locked]
      simp only [hots a ha]
  · intro a x y hx hy
    by_cases ha : a = agent
    · subst ha
      exact hoc x y hx hy
    · exact h.once a x y ((hots a ha x).mp hx) ((hots a ha y).mp hy)
  · intro a hlk
    rw [hsm]
    by_cases ha : a = agent
    · subst ha
      exact hhd hlk
    · rw [hac a ha] at hlk ⊢
      exact h.held a hlk

theorem Agreement.opened (h : Agreement d w)
    (hbf : (w.docket t).holds = none)
    (haf : (w'.docket t).holds = some (d.registry.self, agent))
    (hdks : ∀ x, x ≠ t → (w'.docket x).holds = (w.docket x).holds)
    (hlk : AgentRegistry.lockBondForDispute d.registry (fun a => a == d.disputes.self)
      d.disputes.self agent w.registry = .ok w'.registry) : Agreement d w' := by
  obtain ⟨hsm, hrsr, hfr, hlck, hhd, hac⟩ := lock_ok hlk
  -- the bond was free, so no other dispute holds it
  have hon : ∀ x, HeldBy d w' agent x → x = t := by
    intro x hx
    by_contra hne
    have hold := (heldBy_congr (hdks x hne)).mp hx
    rw [(h.locked agent).mpr ⟨x, hold⟩] at hfr
    cases hfr
  refine h.exchange hdks hsm hac ?_ ?_ ?_ ?_ ?_
  · intro x hx
    rw [← Option.some.inj (haf.symm.trans hx)]
  · intro a ha
    unfold HeldBy
    rw [haf, hbf]
    simp [Ne.symm ha]
  · exact iff_of_true hlck ⟨t, haf⟩
  · intro x y hx hy
    rw [hon x hx, hon y hy]
  · exact fun _ => ⟨hhd, hrsr⟩

theorem Agreement.resolved (h : Agreement d w) (hbf : (w.docket t).holds = some (d.registry.self, agent))
    (haf : (w'.docket t).holds = none) (hdks : ∀ x, x ≠ t → (w'.docket x).holds = (w.docket x).holds)
    (hsm : w'.registry.disputeResolver = w.registry.disputeResolver)
    (hfr : (w'.registry.account agent).locked = false)
    (hac : ∀ x, x ≠ agent → w'.registry.account x = w.registry.account x) :
    Agreement d w' := by
  -- the bond was held by this dispute alone
  have hno : ∀ x, ¬ HeldBy d w' agent x := by
    intro x hx
    by_cases hxt : x = t
    · subst hxt
      cases haf.symm.trans hx
    · exact hxt (h.once agent x t ((heldBy_congr (hdks x hxt)).mp hx) hbf)
  have hnot : ¬ (w'.registry.account agent).locked = true := by
    rw [hfr]
    exact Bool.false_ne_true
  refine h.exchange hdks hsm hac ?_ ?_ ?_ ?_ ?_
  · intro x hx
    cases haf.symm.trans hx
  · intro a ha
    unfold HeldBy
    rw [haf, hbf]
    simp [Ne.symm ha]
  · refine iff_of_false hnot ?_
    rintro ⟨x, hx⟩
    exact hno x hx
  · exact fun x _ hx => absurd hx (hno x)
  · exact fun hlk => absurd hlk hnot

/-- **A call that acts on a dispute** keeps the agreement. -/
theorem Agreement.acted (h : Agreement d w) {t : Sym} {act : Act Addr}
    (ha : DisputeResolution.Acted d.env t act w w') : Agreement d w' := by
  have hots : ∀ x, x ≠ t → (w'.docket x).holds = (w.docket x).holds := by
    intro x hx
    rw [ha.others x hx]
  have hrgy := ha.registry
  generalize hbf : (w.docket t).holds = before at hrgy
  generalize haf : (w'.docket t).holds = after at hrgy
  generalize hr : w'.registry = r' at hrgy
  cases hrgy with
  | silent =>
    refine h.registry ?_ (.inl (by rw [hr])) ?_
    · intro x
      by_cases hx : x = t
      · rw [hx, hbf, haf]
      · exact hots x hx
    · intro agent
      rw [hr]
      exact ⟨rfl, fun hlck => (h.held agent hlck).1⟩
  | @lock address agent _ hlk =>
    obtain ⟨rfl, hok⟩ := client_lock.mp hlk
    subst hr
    exact h.opened hbf haf hots hok
  | @slash address agent _ slashed hsls =>
    obtain ⟨rfl, hok⟩ := client_slash.mp hsls
    subst hr
    have hec : AgentRegistry.execBond d.registry (fun a => a == d.env.self)
        (.slashBondFromDispute d.env.self agent slashPercentage slashReason) w.registry
          = .ok w'.registry := bind_eq_ok.mpr ⟨_, hok, rfl⟩
    obtain ⟨hmv, hbds⟩ := AgentRegistry.execBond_moves hec
    obtain ⟨-, hfr, hac⟩ := unlock_ok (.inl rfl) hmv
    exact h.resolved hbf haf hots (by rw [hbds.frame]) hfr hac
  | @release address agent _ hrls =>
    obtain ⟨rfl, hok⟩ := client_release.mp hrls
    subst hr
    have hec : AgentRegistry.execBond d.registry (fun a => a == d.env.self)
        (.releaseBondAfterDispute d.env.self agent) w.registry = .ok w'.registry := hok
    obtain ⟨hmv, hbds⟩ := AgentRegistry.execBond_moves hec
    obtain ⟨-, hfr, hac⟩ := unlock_ok (.inr rfl) hmv
    exact h.resolved hbf haf hots (by rw [hbds.frame]) hfr hac

/-- **The step**: every event keeps the agreement of two contracts that stay linked. -/
theorem agreement_step {e : Event Addr Sym} (hw : (system d).Reachable (Linked d) w)
    (hg : Linked d w e) (hI : Agreement d w) (hs : (system d).step w e = some w') :
    Agreement d w' := by
  cases e with
  | close | lapse =>
    cases hs
    exact hI.registry (fun _ => rfl) (.inl rfl) fun agent =>
      ⟨rfl, fun hlck => (hI.held agent hlck).1⟩
  | registry =>
    obtain ⟨r', hec, rfl⟩ := step_registry.mp hs
    refine hI.others ?_ hec
    rintro resolver rfl
    exact eq_of_beq hg
  | dispute signed op =>
    have hec := step_dispute.mp hs
    have hkey := DisputeResolution.wellKeyed_reachable (reachable_disputes hw)
    cases hact : DisputeResolution.Event.act (.invoke signed op :
        DisputeResolution.Event Addr Sym (AgentRegistry.World Addr Sym)) with
    | none =>
      obtain ⟨-, hrgy, hdks⟩ := DisputeResolution.exec_admin hact hec
      refine hI.registry (fun t => by rw [hdks]) (.inl (by rw [hrgy])) ?_
      intro agent
      rw [hrgy]
      exact ⟨rfl, fun hlck => (hI.held agent hlck).1⟩
    | some acted =>
      obtain ⟨t, act⟩ := acted
      exact hI.acted (DisputeResolution.exec_acts hkey hact hec)

/-- **The agreement holds in every reachable state** of two contracts that stay linked. -/
theorem agreement_reachable (h : (system d).Reachable (Linked d) w) : Agreement d w := by
  refine System.Reachable.invariant ?_ ?_ h
  · rintro w₀ ⟨now, sequence, rfl⟩
    exact agreement_init now sequence
  · intro w e w' hw hg hI hs
    exact agreement_step hw hg hI hs

end

/-!
## What a ruling finds in the registry

The final ruling of a dispute releases or slashes the bond that the dispute holds. By the
agreement the bond is there, locked, and the registry knows the dispute contract as its
resolver: a release cannot fail. A slash can, where the numbers do not fit. The registry
checks the penalty and the reward pool for overflow, and refuses the call.
-/

open Core Option
open AiNet.AgentRegistry (remainingAfter)
open AiNet.DisputeResolution (slashPercentage slashReason)

variable {Addr Sym : Type} [DecidableEq Addr] [DecidableEq Sym]
variable {d : Deployment Addr Sym} {w : World Addr Sym}
variable {r : AgentRegistry.World Addr Sym}

def OpenOn (w : World Addr Sym) (agent t : Sym) : Prop :=
  ∃ x, w.disputes.get t = some x ∧ x.registryAgentId = agent ∧ x.status ≠ .resolved

theorem Agreement.heldBy_iff (h : Agreement d w) {agent t : Sym} :
    HeldBy d w agent t ↔ OpenOn w agent t := by
  constructor
  · intro hhd
    obtain ⟨x, hx, hhds⟩ := bind_eq_some_iff.mp hhd
    unfold DisputeResolution.Dispute.holds at hhds
    split at hhds
    · cases hhds
    · rename_i hon
      exact ⟨x, hx, congrArg Prod.snd (Option.some.inj hhds), hon⟩
  · intro hon
    obtain ⟨x, hx, rfl, hst⟩ := hon
    have hhds : (w.docket t).holds = some (x.registryAddress, x.registryAgentId) := by
      rw [DisputeResolution.Docket.holds_of hx, DisputeResolution.Dispute.holds_open hst]
    have hadr : x.registryAddress = d.registry.self := h.address t _ hhds
    unfold HeldBy
    rw [hhds, hadr]

/--
The numbers of a slash fit: the product that the penalty is computed from, and the reward pool with the
penalty in it.
-/
def SlashFits (w : AgentRegistry.World Addr Sym) (agent : Sym) : Prop :=
  ∀ r b, w.agents.get agent = some r → w.bonds.get agent = some b →
    b.amountStroops * slashPercentage ≤ i128Max ∧
    i128Min ≤ w.bondRewardPool + (r.bondAmount
      - remainingAfter r.bondAmount ((b.amountStroops * slashPercentage).tdiv 100)) ∧
    w.bondRewardPool + (r.bondAmount
      - remainingAfter r.bondAmount ((b.amountStroops * slashPercentage).tdiv 100)) ≤ i128Max

/-- **A release cannot fail** while the bond is locked. -/
theorem release_succeeds {agent : Sym} (hlck : (r.account agent).locked = true)
    (hrsr : r.disputeResolver = some d.disputes.self) :
    ∃ r', (client d.registry).releaseBondAfterDispute r d.registry.self d.disputes.self agent
      = some r' := by
  have hlk : r.disputeBondLock.has agent = true := hlck
  refine ⟨{ r with disputeBondLock := r.disputeBondLock.remove agent }, client_release.mpr ⟨rfl, ?_⟩⟩
  simp only [AgentRegistry.releaseBondAfterDispute, bind_eq_ok, exists_const, failIf_eq_ok,
    AgentRegistry.requireDisputeResolver_eq_ok, pure_eq_ok, and_true]
  refine ⟨⟨⟨d.distinct, beq_self_eq_true _⟩, hrsr⟩, ?_⟩
  rw [hlk]
  exact Bool.noConfusion

/-- **When a slash succeeds** while the bond is locked: when its numbers fit. -/
theorem slash_succeeds_iff {agent : Sym} (hlck : (r.account agent).locked = true)
    (hhd : Held (r.account agent)) (hrsr : r.disputeResolver = some d.disputes.self) :
    (∃ r' slashed, (client d.registry).slashBondFromDispute r d.registry.self d.disputes.self agent
      slashPercentage slashReason = some (r', slashed)) ↔ SlashFits r agent := by
  have hlk : r.disputeBondLock.has agent = true := hlck
  obtain ⟨record, hrec⟩ := hhd.registered
  obtain ⟨b, hb, hno, -, hamt⟩ := hhd.standing
  change r.agents.get agent = some record at hrec
  change r.bonds.get agent = some b at hb
  have hpen : 0 ≤ (b.amountStroops * slashPercentage).tdiv 100 :=
    Int.tdiv_nonneg (Int.mul_nonneg hamt (Int.natCast_nonneg _)) (by omega)
  have hpo := AgentRegistry.exists_internalSlashBond hrec hb hno hpen
  simp only [client_slash, true_and, AgentRegistry.slashBondFromDispute, bind_eq_ok, failIf_eq_ok,
    AgentRegistry.requireDisputeResolver_eq_ok, pure_eq_ok, exists_const,
    AgentRegistry.percentageOf, okOr_eq_ok, checked128_eq_some, AgentRegistry.loadBond_eq_ok]
  constructor
  · intro h
    obtain ⟨r', slashed, -, -, -, b', hb', -, _, ⟨_, ⟨⟨-, hft⟩, rfl⟩, rfl⟩, out, hout, -⟩ := h
    cases hb.symm.trans hb'
    intro record' b' hrec' hb'
    cases hrec.symm.trans hrec'
    cases hb.symm.trans hb'
    exact ⟨hft, hpo.mp ⟨out, hout⟩⟩
  · intro hft
    obtain ⟨hpr, hpi⟩ := hft record b hrec hb
    obtain ⟨out, hout⟩ := hpo.mpr hpi
    have hmin : i128Min ≤ b.amountStroops * slashPercentage := by
      unfold i128Min slashPercentage
      omega
    refine ⟨_, out.1, ⟨⟨d.distinct, beq_self_eq_true _⟩, hrsr⟩, by decide, ?_, b, hb,
      hno, _, ⟨_, ⟨⟨hmin, hpr⟩, rfl⟩, rfl⟩, out, hout, rfl⟩
    rw [hlk]
    exact Bool.noConfusion

/--
**Lock and dispute agree.** A bond is locked if and only if exactly one dispute on its agent is not
resolved. Until then the agent stays registered, its bond is neither cooling down nor returned, a
release cannot fail, and a slash fails only where its numbers do not fit.
-/
theorem lock_agrees (h : (system d).Reachable (Linked d) w) :
    (∀ agent, w.registry.disputeBondLock.has agent = true ↔ ∃! t, OpenOn w agent t) ∧
    (∀ agent, w.registry.disputeBondLock.has agent = true →
      w.registry.agents.has agent = true ∧ ∃ b, w.registry.bonds.get agent = some b ∧
        b.status ≠ .cooldown ∧ b.status ≠ .returned) ∧
    ∀ t x, w.disputes.get t = some x → x.status ≠ .resolved →
      (∃ r, d.env.registry.releaseBondAfterDispute w.registry x.registryAddress d.env.self
        x.registryAgentId = some r) ∧
      ((∃ r slashed, d.env.registry.slashBondFromDispute w.registry x.registryAddress d.env.self
          x.registryAgentId slashPercentage slashReason = some (r, slashed)) ↔
        SlashFits w.registry x.registryAgentId) := by
  have hI := agreement_reachable h
  refine ⟨?_, ?_, ?_⟩
  · intro agent
    have hlck : w.registry.disputeBondLock.has agent = true ↔ ∃ t, HeldBy d w agent t :=
      hI.locked agent
    rw [hlck]
    constructor
    · intro hhd
      obtain ⟨t, ht⟩ := hhd
      refine ⟨t, hI.heldBy_iff.mp ht, ?_⟩
      intro t' ht'
      exact hI.once agent t' t (hI.heldBy_iff.mpr ht') ht
    · intro hon
      obtain ⟨t, ht, -⟩ := hon
      exact ⟨t, hI.heldBy_iff.mpr ht⟩
  · intro agent hlck
    obtain ⟨hhd, -⟩ := hI.held agent hlck
    obtain ⟨r, hr⟩ := hhd.registered
    obtain ⟨b, hb, hno, hne, -⟩ := hhd.standing
    exact ⟨Storage.has_eq_true.mpr ⟨r, hr⟩, b, hb, hno, hne⟩
  · intro t x hx hon
    have hhy : HeldBy d w x.registryAgentId t := hI.heldBy_iff.mpr ⟨x, hx, rfl, hon⟩
    have hlck := (hI.locked x.registryAgentId).mpr ⟨t, hhy⟩
    obtain ⟨hhd, hrsr⟩ := hI.held x.registryAgentId hlck
    have hhds : (w.docket t).holds = some (x.registryAddress, x.registryAgentId) := by
      rw [DisputeResolution.Docket.holds_of hx, DisputeResolution.Dispute.holds_open hon]
    have hadr : x.registryAddress = d.registry.self := hI.address t _ hhds
    rw [hadr]
    exact ⟨release_succeeds hlck hrsr, slash_succeeds_iff hlck hhd hrsr⟩

namespace Sample

/-- The registry at `9`, and the disputes at `10`. -/
def pair : Deployment Nat Nat where
  disputes := { DisputeResolution.Sample.chain.toHost with self := 10 }
  registry := { AgentRegistry.Sample.deployment with self := 9 }
  distinct := by decide

/--
Agent `44` of owner `4` has a bond; `3` files a dispute about task `7` against the agent, and the first
of the arbiters `5`, `6` and `8` rules for the filer.
-/
def disputed (bondAmount : Int) : List (Event Nat Nat) :=
  [ .registry (fun a => a == 1) (.control (.initializeRegistry 1)),
    .registry (fun a => a == 1) (.control (.setMinBond 100)),
    .registry (fun a => a == 1) (.control (.setDisputeResolver 10)),
    .registry (fun a => a == 4)
      (.registration (.registerAgent (AgentRegistry.Sample.agent 44 4 bondAmount))),
    .dispute (fun a => a == 1) (.initializeContract 1),
    .dispute (fun a => a == 1) (.setVoters [5, 6, 8]),
    .dispute (fun a => a == 1) (.setArbiterPool [5, 6, 8]),
    .dispute (fun a => a == 1) (.setAgentRegistry 9),
    .dispute (fun a => a == 1) (.setAgentRegistryId 4 44),
    .dispute (fun a => a == 3) (.fileDispute 7 3 4 [1]),
    .close (1000 + DisputeResolution.evidencePhase) 1,
    .dispute (fun a => a == 5) (.voteAsArbiter 7 5 .supportFiler) ]

/-- The second arbiter, whose vote decides for the filer. -/
def ruling (w : World Nat Nat) : Option (World Nat Nat) :=
  (system pair).step w (.dispute (fun a => a == 6) (.voteAsArbiter 7 6 .supportFiler))

/-- Where the two begin. -/
def start : World Nat Nat := DisputeResolution.World.init 1000 (AgentRegistry.World.init 1000 0)

theorem exists_unslashable : ∃ w, (system pair).Reachable (Linked pair) w ∧
    (∃ x, w.disputes.get 7 = some x ∧ x.status ≠ .resolved ∧ x.registryAgentId = 44 ∧
      x.registryAddress = 9) ∧
    w.registry.disputeBondLock.has 44 = true ∧
    pair.env.registry.slashBondFromDispute w.registry 9 10 44 slashPercentage slashReason = none ∧
    ruling w = none := by
  have hpl : ((system pair).play (Linked pair) (disputed i128Max) start).any (fun w =>
      ((w.disputes.get 7).any fun x =>
        x.status ≠ .resolved ∧ x.registryAgentId = 44 ∧ x.registryAddress = 9) ∧
      w.registry.disputeBondLock.has 44 = true ∧
      (pair.env.registry.slashBondFromDispute w.registry 9 10 44 slashPercentage
        slashReason).isNone = true ∧ (ruling w).isNone = true) = true := by
    decide
  obtain ⟨w, hw, hend⟩ := (Option.any_eq_true _ _).mp hpl
  obtain ⟨hdi, hlk, hsls, hru⟩ := of_decide_eq_true hend
  obtain ⟨x, hx, hfi⟩ := (Option.any_eq_true _ _).mp hdi
  exact ⟨w, System.reachable_of_play ⟨1000, 0, rfl⟩ hw, ⟨x, hx, of_decide_eq_true hfi⟩, hlk,
    isNone_iff_eq_none.mp hsls, isNone_iff_eq_none.mp hru⟩

end Sample

/-- The locked bond of the run: one open dispute on the agent, and a slash whose numbers do not fit. -/
theorem lock_agrees_disputed : ∃ w : World Nat Nat, (∃! t, OpenOn w 44 t) ∧ ¬ SlashFits w.registry 44 := by
  obtain ⟨w, hw, ⟨x, hx, hon, hagt, hadr⟩, hlk, hsls, -⟩ := Sample.exists_unslashable
  obtain ⟨hag, -, hcs⟩ := lock_agrees hw
  refine ⟨w, (hag 44).mp hlk, ?_⟩
  intro hft
  obtain ⟨-, hiff⟩ := hcs 7 x hx hon
  rw [hagt, hadr] at hiff
  obtain ⟨r, slashed, hok⟩ := hiff.mpr hft
  cases hsls.symm.trans hok

/-- A ruling that traps: the bond is locked by the open dispute, and slashing it fails. -/
theorem unslashable_bond : ∃ w : World Nat Nat, (system Sample.pair).Reachable (Linked Sample.pair) w ∧
    w.registry.disputeBondLock.has 44 = true ∧ OpenOn w 44 7 ∧
    Sample.pair.env.registry.slashBondFromDispute w.registry 9 10 44 slashPercentage slashReason
      = none ∧ Sample.ruling w = none := by
  obtain ⟨w, hw, ⟨x, hx, hon, hagt, -⟩, hlk, hsls, hru⟩ := Sample.exists_unslashable
  exact ⟨w, hw, hlk, ⟨x, hx, hagt, hon⟩, hsls, hru⟩

end AiNet.DisputedBonds
