import AiNet.AgentRegistry.Contract
import Mathlib.Data.List.Induction

/-!
# The batch against single registrations

`register_agents` checks every record against the storage as it was before the batch, with
counters that simulate the records already passed, and writes the capability indexes at
the end. `registerEach` registers the records one at a time.

The two are compared prefix by prefix. `Acceptable` is what the batch asks of a record
after a prefix; the same is what `register_agent` asks in the registry enrolled with that
prefix, and the two phases of the batch keep exactly the counters that say so.
-/

namespace AiNet.AgentRegistry

open Core List Storage

variable {Addr Sym : Type} [DecidableEq Addr] [DecidableEq Sym]

/-- Register the records one at a time, in list order. -/
def registerEach (env : Env Addr Sym) (signed : Addr → Bool)
    (agents : List (AgentRecord Addr Sym)) (w : World Addr Sym) :
    Outcome Error (World Addr Sym) :=
  agents.foldlM (fun w r => registerAgent env signed r w) w

/-- Every record of a batch was accepted, and there was one. -/
def Committed (results : List (BatchResult Sym)) : Prop :=
  results ≠ [] ∧ ∀ x ∈ results, ∃ id, x = .ok id

/--
The same storage: equal in every part, the capability index as a map. (It is the one part the batch
writes in another order.)
-/
structure World.Same (w w' : World Addr Sym) : Prop where
  rest : w' = { w with capabilityIndex := w'.capabilityIndex }
  index : ∀ capability, w'.capabilityIndex.get capability = w.capabilityIndex.get capability

/-- The registry enrolled with a list of records. -/
def enrolAll (w : World Addr Sym) (agents : List (AgentRecord Addr Sym)) :
    World Addr Sym :=
  agents.foldl enrol w

def idsOf (capability : Sym) (agents : List (AgentRecord Addr Sym)) : List Sym :=
  (agents.filter fun r => r.capability = capability).map AgentRecord.id

/-- What the batch asks of a record, after the records of `before`. -/
structure Acceptable (w : World Addr Sym) (before : List (AgentRecord Addr Sym))
    (r : AgentRecord Addr Sym) : Prop where
  valid : r.Valid
  bond : BondSuffices w r
  unfrozen : isAgentFrozen w r.id = false
  once : ∀ r' ∈ before, r'.id ≠ r.id
  new : w.agents.has r.id = false
  room : ¬ (0 < (getStorageConfig w).maxAgents ∧
    (getStorageConfig w).maxAgents.toNat ≤ w.totalAgents + before.length)
  capRoom : ¬ (0 < (getStorageConfig w).maxPerCapability ∧ (getStorageConfig w).maxPerCapability.toNat
      ≤ (getCapabilityIndex w r.capability).length + (idsOf r.capability before).length)
  totalFits : w.totalAgents + before.length + 1 ≤ u32Max

/-- Every record of a list is acceptable after those of `before` and of the list so far. -/
def AllAcceptable (w : World Addr Sym) :
    List (AgentRecord Addr Sym) → List (AgentRecord Addr Sym) → Prop
  | _, [] => True
  | before, r :: rest => Acceptable w before r ∧ AllAcceptable w (before ++ [r]) rest

variable {env : Env Addr Sym} {signed : Addr → Bool} {w w' : World Addr Sym}
variable {agents before rest : List (AgentRecord Addr Sym)}
variable {r : AgentRecord Addr Sym}

/-! ## The registry enrolled with a prefix -/

section

omit [DecidableEq Addr]

theorem enrolAll_snoc : enrolAll w (before ++ [r]) = enrol (enrolAll w before) r :=
  foldl_append

theorem idsOf_snoc (capability : Sym) :
    idsOf capability (before ++ [r])
      = idsOf capability before ++ if r.capability = capability then [r.id] else [] := by
  unfold idsOf
  rw [filter_append, map_append]
  by_cases h : r.capability = capability
  · simp [h]
  · simp [h]

theorem enrol_capabilityIndex (capability : Sym) :
    getCapabilityIndex (enrol w r) capability
      = getCapabilityIndex w capability ++ if r.capability = capability then [r.id] else [] := by
  show ((w.capabilityIndex.set r.capability
    (getCapabilityIndex w r.capability ++ [r.id])).get capability).getD [] = _
  rw [get_set]
  by_cases h : capability = r.capability
  · rw [if_pos h, if_pos h.symm, h]
    rfl
  · rw [if_neg h, if_neg (c := r.capability = capability) fun he => h he.symm, append_nil]
    rfl

theorem enrolAll_frame (before : List (AgentRecord Addr Sym)) :
    enrolAll w before
      = { w with
          toAgents := (enrolAll w before).toAgents
          toIndex := (enrolAll w before).toIndex
          toBonds := (enrolAll w before).toBonds } := by
  induction before using List.reverseRecOn with
  | nil => rfl
  | append_singleton before r ih =>
    rw [enrolAll_snoc]
    unfold enrol
    rw [ih]

theorem enrolAll_counts (before : List (AgentRecord Addr Sym)) :
    (enrolAll w before).totalAgents = w.totalAgents + before.length ∧
      (enrolAll w before).registrationSequence = w.registrationSequence + before.length := by
  induction before using List.reverseRecOn with
  | nil => exact ⟨rfl, rfl⟩
  | append_singleton =>
    rw [enrolAll_snoc, length_append]
    simp only [enrol, length_singleton]
    omega

theorem enrolAll_index (capability : Sym) :
    (enrolAll w before).capabilityIndex.get capability
      = if idsOf capability before = [] then w.capabilityIndex.get capability
        else some (getCapabilityIndex w capability ++ idsOf capability before) := by
  induction before using List.reverseRecOn with
  | nil => rfl
  | append_singleton before r ih =>
    rw [enrolAll_snoc, idsOf_snoc]
    show ((enrolAll w before).capabilityIndex.set r.capability _).get capability = _
    rw [get_set]
    by_cases h : capability = r.capability
    · rw [if_pos h, if_pos h.symm, if_neg (append_ne_nil_of_right_ne_nil _ (by simp)), ← append_assoc, ← h]
      congr 2
      unfold getCapabilityIndex at ih ⊢
      rw [ih]
      split
      · rename_i h0
        rw [h0, append_nil]
      · rfl
    · rw [if_neg h, if_neg (c := r.capability = capability) fun he => h he.symm, append_nil, ih]

theorem enrolAll_capabilityIndex (before : List (AgentRecord Addr Sym)) (capability : Sym) :
    getCapabilityIndex (enrolAll w before) capability
      = getCapabilityIndex w capability ++ idsOf capability before := by
  unfold getCapabilityIndex
  rw [enrolAll_index]
  split
  · rename_i h0
    rw [h0, append_nil]
  · rfl

theorem enrolAll_account {id : Sym} (h : ∀ r ∈ before, r.id ≠ id) :
    (enrolAll w before).account id = w.account id := by
  induction before using List.reverseRecOn with
  | nil => rfl
  | append_singleton before r ih =>
    rw [enrolAll_snoc, account_enrol_ne fun he => h r (mem_append_right _ mem_cons_self) he.symm]
    exact ih fun r' hr' => h r' (mem_append_left _ hr')

theorem enrolAll_has (before : List (AgentRecord Addr Sym)) (id : Sym) :
    (enrolAll w before).agents.has id = true ↔ (∃ r ∈ before, r.id = id) ∨ w.agents.has id = true := by
  induction before using List.reverseRecOn with
  | nil => simp [enrolAll]
  | append_singleton before r ih =>
    rw [enrolAll_snoc]
    show ((enrolAll w before).agents.set r.id r).has id = true ↔ _
    by_cases h : id = r.id
    · subst h
      rw [has_set_self]
      exact ⟨fun _ => .inl ⟨r, mem_append_right _ mem_cons_self, rfl⟩, fun _ => rfl⟩
    · rw [has_set_ne _ _ h, ih]
      constructor
      · rintro (⟨r', hr', rfl⟩ | hold)
        · exact .inl ⟨r', mem_append_left _ hr', rfl⟩
        · exact .inr hold
      · rintro (⟨r', hr', rfl⟩ | hold)
        · rcases mem_append.mp hr' with hb | hs
          · exact .inl ⟨r', hb, rfl⟩
          · exact absurd (congrArg AgentRecord.id (mem_singleton.mp hs)) h
        · exact .inr hold

end

/-! ## One at a time -/

omit [DecidableEq Addr] in
/-- **The single path asks what the batch asks**, and that the slot number fits. -/
theorem admissible_enrolAll (hpsd : w.paused = false)
    (hau : r.owner ≠ env.self ∧ signed r.owner = true) :
    Admissible env signed (enrolAll w before) r ↔
      Acceptable w before r ∧ w.registrationSequence + before.length + 1 ≤ u32Max := by
  obtain ⟨htot, hseq⟩ := enrolAll_counts (w := w) before
  have hidx := enrolAll_capabilityIndex (w := w) before r.capability
  have hhas := enrolAll_has (w := w) before r.id
  have hfrm := enrolAll_frame (w := w) before
  have hpsd' : (enrolAll w before).paused = w.paused := congrArg (fun w => w.paused) hfrm
  have hfrz : isAgentFrozen (enrolAll w before) r.id = isAgentFrozen w r.id := by
    unfold isAgentFrozen
    rw [congrArg (fun w => w.frozen) hfrm]
  have hcfg : getStorageConfig (enrolAll w before) = getStorageConfig w := by
    unfold getStorageConfig
    rw [congrArg (fun w => w.storageConfig) hfrm]
  have hmin : minBond (enrolAll w before) = minBond w := by
    unfold minBond
    rw [congrArg (fun w => w.minBondSetting) hfrm]
  -- the bond of an id that is new to the batch is as it was
  have hbo : (∀ r' ∈ before, r'.id ≠ r.id) → (BondSuffices (enrolAll w before) r ↔ BondSuffices w r) := by
    intro hoc
    have hacc := enrolAll_account (w := w) hoc
    have hsl : (enrolAll w before).slashedBond.has r.id = w.slashedBond.has r.id :=
      congrArg Account.slashed hacc
    have hbds : (enrolAll w before).bonds.get r.id = w.bonds.get r.id :=
      congrArg Account.bond hacc
    constructor
    · rintro ⟨heno, hrst⟩
      rw [hsl, hbds, hmin] at hrst
      exact ⟨hmin ▸ heno, hrst⟩
    · rintro ⟨heno, hrst⟩
      refine ⟨hmin.symm ▸ heno, ?_⟩
      rw [hsl, hbds, hmin]
      exact hrst
  constructor
  · intro h
    have hnew := h.new
    rw [← Bool.not_eq_true, hhas, not_or] at hnew
    have hoc : ∀ r' ∈ before, r'.id ≠ r.id := fun r' hr' he => hnew.1 ⟨r', hr', he⟩
    have hro := h.room
    have hcap := h.capRoom
    have hft := h.totalFits
    have hsi := h.seqFits
    rw [hcfg, htot] at hro
    rw [hcfg, hidx, length_append] at hcap
    rw [htot] at hft
    rw [hseq] at hsi
    exact ⟨⟨h.valid, (hbo hoc).mp h.bond, hfrz ▸ h.unfrozen, hoc,
      Bool.eq_false_iff.mpr hnew.2, hro, hcap, hft⟩, hsi⟩
  · rintro ⟨h, hsi⟩
    refine ⟨hpsd'.trans hpsd, hfrz.trans h.unfrozen, hau, h.valid, ?_, ?_,
      (hbo h.once).mpr h.bond, ?_, ?_, ?_⟩
    · rw [hcfg, htot]
      exact h.room
    · rw [hcfg, hidx, length_append]
      exact h.capRoom
    · rw [← Bool.not_eq_true, hhas, not_or]
      refine ⟨?_, Bool.eq_false_iff.mp h.new⟩
      rintro ⟨r', hr', he⟩
      exact h.once r' hr' he
    · rw [hseq]
      exact hsi
    · rw [htot]
      exact h.totalFits

/-- **When registering one at a time succeeds**, and what it leaves. -/
theorem registerEach_from (hpsd : w.paused = false)
    (hau : ∀ r ∈ rest, r.owner ≠ env.self ∧ signed r.owner = true) :
    registerEach env signed rest (enrolAll w before) = .ok w' ↔ (AllAcceptable w before rest ∧
        (rest ≠ [] → w.registrationSequence + before.length + rest.length ≤ u32Max)) ∧
      w' = enrolAll w (before ++ rest) := by
  induction rest generalizing before with
  | nil =>
    simp only [registerEach, foldlM_nil, pure_eq_ok, AllAcceptable, append_nil, ne_eq,
      not_true_eq_false, false_implies, and_self, true_and]
    exact eq_comm
  | cons r rest ih =>
    have hr := hau r mem_cons_self
    have hrst := fun x hx => hau x (mem_cons_of_mem r hx)
    have hst := @ih (before ++ [r]) hrst
    rw [append_assoc, length_append] at hst
    simp only [registerEach, foldlM_cons, bind_eq_ok, registerAgent_eq_ok,
      admissible_enrolAll hpsd hr] at hst ⊢
    constructor
    · rintro ⟨_, ⟨⟨hok, hseq⟩, rfl⟩, hgo⟩
      rw [← enrolAll_snoc] at hgo
      obtain ⟨⟨hall, hlen⟩, rfl⟩ := hst.mp hgo
      refine ⟨⟨⟨hok, hall⟩, fun _ => ?_⟩, rfl⟩
      cases rest with
      | nil => exact hseq
      | cons =>
        have := hlen (by simp)
        simp only [length_cons, length_nil] at this ⊢
        omega
    · rintro ⟨⟨⟨hok, hall⟩, hlen⟩, rfl⟩
      have hlen := hlen (by simp)
      simp only [length_cons] at hlen
      refine ⟨_, ⟨⟨hok, by omega⟩, rfl⟩, ?_⟩
      rw [← enrolAll_snoc]
      refine hst.mpr ⟨⟨hall, fun _ => ?_⟩, rfl⟩
      simp only [length_cons, length_nil]
      omega

end AiNet.AgentRegistry
