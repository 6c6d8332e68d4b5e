import AiNet.AgentRegistry.Batch

/-!
# The two phases of a batch

What the validation phase has counted after a prefix of the batch, what the commit phase
has written after it, and from the two what `register_agents` does as a whole: it commits
exactly when registering one at a time would succeed, with the same result.
-/

namespace AiNet.AgentRegistry

open Core List Option Storage

variable {Addr Sym : Type} [DecidableEq Addr] [DecidableEq Sym]
variable {env : Env Addr Sym} {signed : Addr → Bool} {w w' : World Addr Sym}
variable {agents before rest : List (AgentRecord Addr Sym)}
variable {r : AgentRecord Addr Sym}

/-! ## Validation -/

/-- What the validation phase has counted per capability, when all of `before` passed. -/
structure CapCounts (w : World Addr Sym) (before : List (AgentRecord Addr Sym))
    (s : BatchCounts Sym) : Prop where
  existing : ∀ capability count, s.existingCapCounts.get capability = some count →
    count = (getCapabilityIndex w capability).length
  batch : 0 < (getStorageConfig w).maxPerCapability →
    ∀ capability, (s.batchCapCounts.get capability).getD 0 = (idsOf capability before).length

/-- What it has noted then. -/
structure Validated (w : World Addr Sym) (before : List (AgentRecord Addr Sym))
    (s : BatchCounts Sym) : Prop where
  index : s.index = before.length
  results : s.results = before.map fun r => .ok r.id
  allOk : s.allOk = true
  simTotal : s.simTotal = w.totalAgents + before.length
  caps : CapCounts w before s

/-- Only the counts per capability differ. -/
def SameNotes (s s' : BatchCounts Sym) : Prop :=
  s' = { s with
    existingCapCounts := s'.existingCapCounts
    batchCapCounts := s'.batchCapCounts }

/-- A batch with an error cannot pass any more. -/
def BatchCounts.Broken (s : BatchCounts Sym) : Prop :=
  s.allOk = false ∧ ∃ error, BatchResult.err error ∈ s.results

omit [DecidableEq Addr] in
theorem isDuplicateInBatch_eq_false :
    isDuplicateInBatch (before ++ r :: rest) before.length r.id = false ↔ ∀ r' ∈ before, r'.id ≠ r.id := by
  have hta : (before ++ r :: rest).take (before.length + 1) = before ++ [r] := by
    rw [take_append, take_of_length_le (by omega), Nat.add_sub_cancel_left]
    rfl
  -- the record itself is counted once; it is the others that matter
  have hsf : ([r].filter fun agent => decide (agent.id = r.id)).length = 1 := by simp
  unfold isDuplicateInBatch
  rw [hta, filter_append, length_append, hsf, decide_eq_false_iff_not]
  constructor
  · intro h r' hr' he
    have hpos : 0 < (before.filter fun agent => decide (agent.id = r.id)).length :=
      length_pos_of_mem (mem_filter.mpr ⟨hr', decide_eq_true he⟩)
    omega
  · intro h
    have hno : (before.filter fun agent => decide (agent.id = r.id)) = [] := by
      rw [filter_eq_nil_iff]
      intro r' hr'
      rw [decide_eq_true_eq]
      exact h r' hr'
    rw [hno]
    exact Nat.lt_irrefl 1

variable {s : BatchCounts Sym}

omit [DecidableEq Addr] in
theorem countExisting_spec (capability : Sym) (hs : CapCounts w before s) :
    (countExisting w capability s).1 = (getCapabilityIndex w capability).length ∧
      CapCounts w before (countExisting w capability s).2 := by
  unfold countExisting
  cases hc : s.existingCapCounts.get capability with
  | some count => exact ⟨hs.existing capability count hc, hs⟩
  | none =>
    refine ⟨rfl, ?_, hs.batch⟩
    intro c n hn
    rw [get_set] at hn
    by_cases h : c = capability
    · rw [if_pos h] at hn
      rw [h]
      exact (some.inj hn).symm
    · rw [if_neg h] at hn
      exact hs.existing c n hn

variable {s s' : BatchCounts Sym}

omit [DecidableEq Addr] in
theorem countCapability_same {config : StorageConfig} {capability : Sym} {hasRoom : Bool}
    (h : countCapability w config capability s = .ok (hasRoom, s')) :
    SameNotes s s' := by
  have hsm : SameNotes s (countExisting w capability s).2 := by
    unfold countExisting
    cases s.existingCapCounts.get capability <;> rfl
  unfold countCapability at h
  split at h
  · simp only [bind_eq_ok] at h
    obtain ⟨both, -, h⟩ := h
    split at h
    · obtain ⟨-, rfl⟩ := Prod.mk.inj (pure_eq_ok.mp h)
      exact hsm
    · simp only [bind_eq_ok, pure_eq_ok, Prod.mk.injEq] at h
      obtain ⟨next, -, -, rfl⟩ := h
      unfold SameNotes at hsm ⊢
      rw [hsm]
  · obtain ⟨-, rfl⟩ := Prod.mk.inj (pure_eq_ok.mp h)
    rfl

/-- Is there room for one more record of a capability, after `before`? -/
def CapRoom (w : World Addr Sym) (before : List (AgentRecord Addr Sym))
    (capability : Sym) : Prop :=
  ¬ (0 < (getStorageConfig w).maxPerCapability ∧ (getStorageConfig w).maxPerCapability.toNat
      ≤ (getCapabilityIndex w capability).length + (idsOf capability before).length)

section

omit [DecidableEq Addr]

theorem CapCounts.snoc (hs : CapCounts w before s) (r : AgentRecord Addr Sym) :
    CapCounts w (before ++ [r]) { s with
      batchCapCounts := s.batchCapCounts.set r.capability
        ((s.batchCapCounts.get r.capability).getD 0 + 1) } := by
  refine ⟨hs.existing, ?_⟩
  intro hlim capability
  rw [idsOf_snoc, length_append]
  dsimp only
  rw [get_set]
  by_cases h : capability = r.capability
  · rw [if_pos h, if_pos h.symm, getD_some, hs.batch hlim, h]
    rfl
  · rw [if_neg h, if_neg (c := r.capability = capability) fun he => h he.symm, hs.batch hlim]
    rfl

/-- **The limit per capability**, as the batch checks it. -/
theorem countCapability_spec (hs : CapCounts w before s) :
    (CapRoom w before r.capability →
      ∃ s', countCapability w (getStorageConfig w) r.capability s = .ok (true, s')) ∧
    ∀ s', countCapability w (getStorageConfig w) r.capability s = .ok (true, s') →
      CapRoom w before r.capability ∧ CapCounts w (before ++ [r]) s' := by
  obtain ⟨hlen, hs₁⟩ := countExisting_spec r.capability hs
  unfold countCapability CapRoom
  by_cases hlim : 0 < (getStorageConfig w).maxPerCapability
  · have hbat := hs₁.batch hlim r.capability
    have hmax := UInt32.toNat_lt (getStorageConfig w).maxPerCapability
    rw [if_pos hlim]
    simp only [hlen, hbat, bind_eq_ok, orTrap_eq_ok, checked32_eq_some]
    constructor
    · intro hro
      have hlt : (getCapabilityIndex w r.capability).length + (idsOf r.capability before).length
          < (getStorageConfig w).maxPerCapability.toNat := by
        by_contra hge
        exact hro ⟨hlim, by omega⟩
      -- the limit is a `u32`, so below it nothing overflows
      refine ⟨{ (countExisting w r.capability s).2 with
        batchCapCounts := (countExisting w r.capability s).2.batchCapCounts.set r.capability
          ((idsOf r.capability before).length + 1) }, _, ⟨by unfold u32Max; omega, rfl⟩, ?_⟩
      rw [if_neg (by omega)]
      simp only [bind_eq_ok, orTrap_eq_ok, checked32_eq_some]
      exact ⟨_, ⟨by unfold u32Max; omega, rfl⟩, rfl⟩
    · rintro s' ⟨both, ⟨-, rfl⟩, h⟩
      by_cases hfl : (getStorageConfig w).maxPerCapability.toNat
          ≤ (getCapabilityIndex w r.capability).length + (idsOf r.capability before).length
      · rw [if_pos hfl, pure_eq_ok, Prod.mk.injEq] at h
        cases h.1
      · rw [if_neg hfl] at h
        simp only [bind_eq_ok, orTrap_eq_ok, checked32_eq_some, pure_eq_ok, Prod.mk.injEq, true_and] at h
        obtain ⟨next, ⟨-, rfl⟩, rfl⟩ := h
        refine ⟨fun hno => hfl hno.2, ?_⟩
        rw [← hbat]
        exact hs₁.snoc r
  · rw [if_neg hlim]
    refine ⟨fun _ => ⟨s, rfl⟩, ?_⟩
    intro s' h
    obtain ⟨-, rfl⟩ := Prod.mk.inj (pure_eq_ok.mp h)
    exact ⟨fun hno => hlim hno.1, hs.existing, fun hl => absurd hl hlim⟩

end

/-- A record that passes every check of the validation phase. -/
structure Passes (w : World Addr Sym) (agents : List (AgentRecord Addr Sym))
    (s : BatchCounts Sym) (r : AgentRecord Addr Sym) (s' : BatchCounts Sym) : Prop where
  valid : r.Valid
  bond : BondSuffices w r
  unfrozen : isAgentFrozen w r.id = false
  once : isDuplicateInBatch agents s.index r.id = false
  new : w.agents.has r.id = false
  room : ¬ (0 < (getStorageConfig w).maxAgents ∧ (getStorageConfig w).maxAgents.toNat ≤ s.simTotal)
  counted : countCapability w (getStorageConfig w) r.capability s = .ok (true, s')
  fits : s'.simTotal + 1 ≤ u32Max

theorem validateInBatch_of_passes (h : Passes w agents s r s') :
    validateInBatch w agents s r = .ok { s' with
      index := s'.index + 1
      results := s'.results ++ [.ok r.id]
      simTotal := s'.simTotal + 1 } := by
  unfold validateInBatch
  rw [validateRecord_eq_ok (u := ()).mpr h.valid, validateRegistrationBond_eq_ok (u := ()).mpr h.bond]
  dsimp only
  rw [if_neg (Bool.eq_false_iff.mp h.unfrozen), if_neg (Bool.eq_false_iff.mp h.once),
    if_neg (Bool.eq_false_iff.mp h.new), if_neg h.room]
  refine bind_eq_ok.mpr ⟨_, h.counted, ?_⟩
  dsimp only
  rw [if_neg (by decide)]
  exact bind_eq_ok.mpr ⟨_, orTrap_eq_ok.mpr (checked32_eq_some.mpr ⟨h.fits, rfl⟩), rfl⟩

theorem validateInBatch_cases (h : validateInBatch w agents s r = .ok s') :
    ∃ s₁, SameNotes s s₁ ∧ (Passes w agents s r s₁ ∨ ∃ error, s' = s₁.reject error) := by
  unfold validateInBatch at h
  split at h
  · exact ⟨s, rfl, .inr ⟨_, (pure_eq_ok.mp h).symm⟩⟩
  · cases h
  rename_i hval
  split at h
  · exact ⟨s, rfl, .inr ⟨_, (pure_eq_ok.mp h).symm⟩⟩
  · cases h
  rename_i hbo
  split at h
  · exact ⟨s, rfl, .inr ⟨_, (pure_eq_ok.mp h).symm⟩⟩
  rename_i hfrz
  split at h
  · exact ⟨s, rfl, .inr ⟨_, (pure_eq_ok.mp h).symm⟩⟩
  rename_i hoc
  split at h
  · exact ⟨s, rfl, .inr ⟨_, (pure_eq_ok.mp h).symm⟩⟩
  rename_i hnew
  dsimp only at h
  split at h
  · exact ⟨s, rfl, .inr ⟨_, (pure_eq_ok.mp h).symm⟩⟩
  rename_i hro
  obtain ⟨⟨hasRoom, s₁⟩, hcnt, h⟩ := bind_eq_ok.mp h
  refine ⟨s₁, countCapability_same hcnt, ?_⟩
  cases hasRoom with
  | false => exact .inr ⟨_, (pure_eq_ok.mp h).symm⟩
  | true =>
    obtain ⟨total, htot, -⟩ := bind_eq_ok.mp h
    exact .inl ⟨validateRecord_eq_ok.mp hval, validateRegistrationBond_eq_ok.mp hbo,
      Bool.eq_false_iff.mpr hfrz, Bool.eq_false_iff.mpr hoc, Bool.eq_false_iff.mpr hnew,
      hro, hcnt, (checked32_eq_some.mp (orTrap_eq_ok.mp htot)).1⟩

omit [DecidableEq Addr] in
theorem passes_iff (hs : Validated w before s) :
    (∃ s', Passes w (before ++ r :: rest) s r s') ↔ Acceptable w before r := by
  obtain ⟨hro, hctd⟩ := countCapability_spec (r := r) hs.caps
  constructor
  · rintro ⟨s', h⟩
    have hoc := h.once
    have hfr := h.room
    have hft := h.fits
    rw [hs.index, isDuplicateInBatch_eq_false] at hoc
    rw [hs.simTotal] at hfr
    rw [countCapability_same h.counted, hs.simTotal] at hft
    exact ⟨h.valid, h.bond, h.unfrozen, hoc, h.new, hfr, (hctd s' h.counted).1, hft⟩
  · intro h
    obtain ⟨s', hcnt⟩ := hro h.capRoom
    refine ⟨s', h.valid, h.bond, h.unfrozen, ?_, h.new, ?_, hcnt, ?_⟩
    · rw [hs.index, isDuplicateInBatch_eq_false]
      exact h.once
    · rw [hs.simTotal]
      exact h.room
    · rw [countCapability_same hcnt, hs.simTotal]
      exact h.totalFits

/-- **The step of the validation phase**, on an acceptable record. -/
theorem validateInBatch_of_acceptable (rest : List (AgentRecord Addr Sym)) (hs : Validated w before s)
    (h : Acceptable w before r) :
    ∃ s', validateInBatch w (before ++ r :: rest) s r = .ok s' ∧ Validated w (before ++ [r]) s' := by
  obtain ⟨s', hpss⟩ := (passes_iff hs).mpr h
  have hsm := countCapability_same hpss.counted
  refine ⟨_, validateInBatch_of_passes hpss, ?_, ?_, ?_, ?_, ?_⟩
  · rw [hsm, length_append, hs.index]
    rfl
  · rw [hsm, map_append, hs.results]
    rfl
  · rw [hsm, hs.allOk]
  · rw [hsm, length_append, hs.simTotal]
    rfl
  · obtain ⟨-, hexi, hbat⟩ := (countCapability_spec hs.caps).2 s' hpss.counted
    exact ⟨hexi, hbat⟩

theorem validateInBatch_of_not (hs : Validated w before s) (hno : ¬ Acceptable w before r)
    (h : validateInBatch w (before ++ r :: rest) s r = .ok s') : s'.Broken := by
  obtain ⟨s₁, -, hpss | ⟨error, rfl⟩⟩ := validateInBatch_cases h
  · exact absurd ((passes_iff hs).mp ⟨s₁, hpss⟩) hno
  · exact ⟨rfl, error, mem_append_right _ mem_cons_self⟩

theorem validateInBatch_broken (hs : s.Broken) (h : validateInBatch w agents s r = .ok s') : s'.Broken := by
  obtain ⟨hok, error, hmem⟩ := hs
  obtain ⟨s₁, hsm, hpss | ⟨error', rfl⟩⟩ := validateInBatch_cases h
  · rw [validateInBatch_of_passes hpss] at h
    cases h
    have hsm := countCapability_same hpss.counted
    refine ⟨?_, error, ?_⟩
    · rw [hsm, hok]
    · rw [hsm]
      exact mem_append_left _ hmem
  · refine ⟨rfl, error, ?_⟩
    rw [hsm]
    exact mem_append_left _ hmem

/-- **The validation phase**: it passes exactly the batches that are acceptable throughout. -/
theorem validate_ok (hs : Validated w before s)
    (h : rest.foldlM (validateInBatch w (before ++ rest)) s = .ok s') :
    (AllAcceptable w before rest ∧ Validated w (before ++ rest) s') ∨
      (¬ AllAcceptable w before rest ∧ s'.Broken) := by
  induction rest generalizing before s with
  | nil =>
    rw [foldlM_nil, pure_eq_ok] at h
    rw [← h, append_nil]
    exact .inl ⟨trivial, hs⟩
  | cons r rest ih =>
    rw [foldlM_cons, bind_eq_ok] at h
    obtain ⟨s₁, hst, h⟩ := h
    by_cases hr : Acceptable w before r
    · obtain ⟨s₂, hst', hs₂⟩ := validateInBatch_of_acceptable rest hs hr
      obtain rfl := Except.ok.inj (hst.symm.trans hst')
      have := ih hs₂ (by rwa [append_assoc])
      rw [append_assoc] at this
      rcases this with ⟨hall, hvld⟩ | ⟨hno, hbr⟩
      · exact .inl ⟨⟨hr, hall⟩, hvld⟩
      · exact .inr ⟨fun hall => hno hall.2, hbr⟩
    · refine .inr ⟨fun hall => hr hall.1, ?_⟩
      exact foldlM_preserves BatchCounts.Broken h (validateInBatch_of_not hs hr hst)
        fun _ _ _ _ hb hc => validateInBatch_broken hb hc

theorem validate_of_acceptable (hs : Validated w before s) (h : AllAcceptable w before rest) :
    ∃ s', rest.foldlM (validateInBatch w (before ++ rest)) s = .ok s' := by
  induction rest generalizing before s with
  | nil => exact ⟨s, rfl⟩
  | cons r rest ih =>
    obtain ⟨s₁, hst, hs₁⟩ := validateInBatch_of_acceptable rest hs h.1
    obtain ⟨s', hs'⟩ := ih hs₁ h.2
    rw [append_assoc] at hs'
    refine ⟨s', ?_⟩
    rw [foldlM_cons, bind_eq_ok]
    exact ⟨s₁, hst, hs'⟩

/-! ## Commitment -/

/-- What the commit phase has collected and written after `before`. -/
structure Written (w : World Addr Sym) (before : List (AgentRecord Addr Sym))
    (s : BatchWrites Addr Sym) : Prop where
  world : s.world = { enrolAll w before with
    capabilityIndex := w.capabilityIndex
    registrationSequence := w.registrationSequence
    totalAgents := w.totalAgents }
  seq : s.seq = w.registrationSequence + before.length
  collected : ∀ capability, s.updatedCapIndexes.get capability
    = if idsOf capability before = [] then none
      else some (getCapabilityIndex w capability ++ idsOf capability before)
  listed : ∀ capability, capability ∈ s.uniqueCapabilities ↔ idsOf capability before ≠ []

omit [DecidableEq Addr] in
theorem idsOf_snoc_ne_nil {capability : Sym} :
    idsOf capability (before ++ [r]) ≠ [] ↔ idsOf capability before ≠ [] ∨ r.capability = capability := by
  rw [idsOf_snoc]
  by_cases h : r.capability = capability
  · simp [h]
  · simp [h]

variable {s : BatchWrites Addr Sym}

section

omit [DecidableEq Addr]

/-- **The step of the commit phase.** -/
theorem commitInBatch_ok (hs : Written w before s) :
    (s.seq + 1 ≤ u32Max → ∃ s', commitInBatch s r = .ok s') ∧ ∀ s', commitInBatch s r = .ok s' →
        s.seq + 1 ≤ u32Max ∧ Written w (before ++ [r]) s' := by
  have hidx : getCapabilityIndex s.world r.capability = getCapabilityIndex w r.capability := by
    unfold getCapabilityIndex
    rw [hs.world]
  have hwor : ∀ b : BatchWrites Addr Sym, b.world = initializeBond r { s.world with
        agents := s.world.agents.set r.id r
        agentByIndex := s.world.agentByIndex.set s.seq r.id
        slashedBond := s.world.slashedBond.remove r.id } →
      b.world = { enrolAll w (before ++ [r]) with
        capabilityIndex := w.capabilityIndex
        registrationSequence := w.registrationSequence
        totalAgents := w.totalAgents } := by
    intro b hb
    rw [hb, enrolAll_snoc, hs.world, hs.seq, ← (enrolAll_counts _).2]
    rfl
  have hco : ∀ capability, (s.updatedCapIndexes.set r.capability
      (getCapabilityIndex w r.capability ++ idsOf r.capability before ++ [r.id])).get capability
      = if idsOf capability (before ++ [r]) = [] then none
        else some (getCapabilityIndex w capability ++ idsOf capability (before ++ [r])) := by
    intro capability
    rw [get_set, idsOf_snoc]
    by_cases h : capability = r.capability
    · rw [if_pos h, if_pos h.symm, if_neg (by simp), h, append_assoc]
    · rw [if_neg h, if_neg (c := r.capability = capability) fun he => h he.symm, append_nil, hs.collected]
  unfold commitInBatch
  -- the index of the capability comes from the cache of the batch, or from storage the first time
  cases hc : s.updatedCapIndexes.get r.capability with
  | some ids =>
    have hids : ids = getCapabilityIndex w r.capability ++ idsOf r.capability before ∧
        idsOf r.capability before ≠ [] := by
      have := hs.collected r.capability
      rw [hc] at this
      split at this
      · cases this
      · rename_i hne
        exact ⟨some.inj this, hne⟩
    simp only [bind_eq_ok, orTrap_eq_ok, checked32_eq_some, pure_eq_ok]
    refine ⟨fun hft => ⟨_, _, ⟨hft, rfl⟩, rfl⟩, ?_⟩
    rintro s' ⟨seq, ⟨hft, rfl⟩, rfl⟩
    refine ⟨hft, hwor _ rfl, ?_, ?_, ?_⟩
    · rw [length_append, hs.seq]
      rfl
    · rw [hids.1]
      exact hco
    · intro capability
      rw [idsOf_snoc_ne_nil, hs.listed]
      constructor
      · exact .inl
      · rintro (h | rfl)
        · exact h
        · exact hids.2
  | none =>
    have hids : idsOf r.capability before = [] := by
      have := hs.collected r.capability
      rw [hc] at this
      by_contra hne
      rw [if_neg hne] at this
      cases this
    simp only [bind_eq_ok, orTrap_eq_ok, checked32_eq_some, pure_eq_ok]
    refine ⟨fun hft => ⟨_, _, ⟨hft, rfl⟩, rfl⟩, ?_⟩
    rintro s' ⟨seq, ⟨hft, rfl⟩, rfl⟩
    refine ⟨hft, hwor _ rfl, ?_, ?_, ?_⟩
    · rw [length_append, hs.seq]
      rfl
    · rw [hidx]
      rw [hids, append_nil] at hco
      exact hco
    · intro capability
      rw [idsOf_snoc_ne_nil, mem_append, mem_singleton, hs.listed]
      exact or_congr_right eq_comm

/-- **The commit phase**: it needs a number for each record, and leaves what is `Written`. -/
theorem commit_ok (hs : Written w before s) :
    (s.seq + rest.length ≤ u32Max → ∃ s', rest.foldlM commitInBatch s = .ok s') ∧
      ∀ s', rest.foldlM commitInBatch s = .ok s' →
        (rest ≠ [] → s.seq + rest.length ≤ u32Max) ∧ Written w (before ++ rest) s' := by
  induction rest generalizing before s with
  | nil =>
    refine ⟨fun _ => ⟨s, rfl⟩, ?_⟩
    intro s' h
    rw [foldlM_nil, pure_eq_ok] at h
    rw [← h, append_nil]
    exact ⟨fun hne => absurd rfl hne, hs⟩
  | cons r rest ih =>
    obtain ⟨hgo, hok⟩ := commitInBatch_ok (r := r) hs
    have hseq : ∀ s₁, Written w (before ++ [r]) s₁ → s₁.seq = s.seq + 1 := by
      intro s₁ hs₁
      rw [hs₁.seq, hs.seq, length_append, length_singleton]
      omega
    simp only [foldlM_cons, bind_eq_ok, length_cons]
    constructor
    · intro hft
      obtain ⟨s₁, hst⟩ := hgo (by omega)
      obtain ⟨-, hs₁⟩ := hok s₁ hst
      obtain ⟨s', hrst⟩ := (ih hs₁).1 (by rw [hseq s₁ hs₁]; omega)
      exact ⟨s', s₁, hst, hrst⟩
    · rintro s' ⟨s₁, hst, hrst⟩
      obtain ⟨hft, hs₁⟩ := hok s₁ hst
      obtain ⟨hlen, hs'⟩ := (ih hs₁).2 s' hrst
      rw [append_assoc] at hs'
      refine ⟨fun _ => ?_, hs'⟩
      cases rest with
      | nil => exact hft
      | cons =>
        have := hlen (cons_ne_nil _ _)
        rw [hseq s₁ hs₁] at this
        omega

theorem writeOut {updated : Storage Sym (List Sym)} {capabilities : List Sym}
    (h : ∀ c ∈ capabilities, ∃ ids, updated.get c = some ids) :
    ∃ index, capabilities.foldlM
        (fun (w : World Addr Sym) capability => (do
          let ids ← orTrap (updated.get capability)
          pure { w with capabilityIndex := w.capabilityIndex.set capability ids } :
            Outcome Error (World Addr Sym))) w
          = .ok { w with capabilityIndex := index } ∧
      ∀ c, index.get c = if c ∈ capabilities then updated.get c else w.capabilityIndex.get c := by
  induction capabilities generalizing w with
  | nil => exact ⟨w.capabilityIndex, rfl, fun c => (if_neg not_mem_nil).symm⟩
  | cons c₀ capabilities ih =>
    obtain ⟨ids, hids⟩ := h c₀ mem_cons_self
    obtain ⟨index, hfo, hidx⟩ := ih
      (w := { w with capabilityIndex := w.capabilityIndex.set c₀ ids })
      fun c hc => h c (mem_cons_of_mem c₀ hc)
    refine ⟨index, ?_, ?_⟩
    · rw [foldlM_cons, bind_eq_ok]
      refine ⟨_, bind_eq_ok.mpr ⟨ids, orTrap_eq_ok.mpr hids, rfl⟩, hfo⟩
    · intro c
      rw [hidx, get_set]
      by_cases hmem : c ∈ capabilities
      · rw [if_pos hmem, if_pos (mem_cons_of_mem c₀ hmem)]
      · rw [if_neg hmem]
        by_cases hc : c = c₀
        · rw [if_pos hc, if_pos (hc ▸ mem_cons_self), hc, hids]
        · rw [if_neg hc, if_neg fun hm => (mem_cons.mp hm).elim hc hmem]

end

/-! ## The whole -/

section

omit [DecidableEq Sym]

theorem mem_uniqueOwners {owner : Addr} (h : owner ∈ uniqueOwners agents) :
    ∃ r ∈ agents, r.owner = owner := by
  induction agents using List.reverseRecOn with
  | nil => cases h
  | append_singleton agents r ih =>
    have hmem : owner ∈ uniqueOwners agents ∨ owner = r.owner := by
      unfold uniqueOwners at h ⊢
      rw [foldl_append] at h
      dsimp only [foldl_cons, foldl_nil] at h
      split at h
      · exact .inl h
      · rw [mem_append, mem_singleton] at h
        exact h
    rcases hmem with hold | rfl
    · obtain ⟨r', hr', he⟩ := ih hold
      exact ⟨r', mem_append_left _ hr', he⟩
    · exact ⟨r, mem_append_right _ mem_cons_self, rfl⟩

theorem owners_authorised (hau : ∀ r ∈ agents, r.owner ≠ env.self ∧ signed r.owner = true) :
    (uniqueOwners agents).forM (requireAuth (ε := Error) env.toHost signed) = .ok () := by
  have h : ∀ owner ∈ uniqueOwners agents, owner ≠ env.self ∧ signed owner = true := by
    intro owner hown
    obtain ⟨r, hr, rfl⟩ := mem_uniqueOwners hown
    exact hau r hr
  revert h
  generalize uniqueOwners agents = owners
  intro h
  induction owners with
  | nil => rfl
  | cons owner owners ih =>
    exact bind_eq_ok.mpr ⟨(), requireAuth_eq_ok.mpr (h owner mem_cons_self),
      ih fun x hx => h x (mem_cons_of_mem owner hx)⟩

end

section

omit [DecidableEq Addr]

theorem validated_init : Validated w [] ⟨0, [], true, w.totalAgents, ∅, ∅⟩ := by
  refine ⟨rfl, rfl, rfl, rfl, ?_, fun _ _ => rfl⟩
  intro capability count h
  cases h

theorem written_init : Written w [] ⟨w, w.registrationSequence, [], ∅⟩ := by
  refine ⟨rfl, rfl, fun _ => rfl, ?_⟩
  intro capability
  exact ⟨fun h => absurd h not_mem_nil, fun h => absurd rfl h⟩

end

/-- A batch of which every record is acceptable, and for which there are numbers left. -/
structure Batchable (w : World Addr Sym) (agents : List (AgentRecord Addr Sym)) : Prop
    where
  acceptable : AllAcceptable w [] agents
  numbers : agents ≠ [] → w.registrationSequence + agents.length ≤ u32Max

section

omit [DecidableEq Addr]

theorem AllAcceptable.totalFits (h : AllAcceptable w before rest) (hne : rest ≠ []) :
    w.totalAgents + before.length + rest.length ≤ u32Max := by
  induction rest generalizing before with
  | nil => exact absurd rfl hne
  | cons r rest ih =>
    cases rest with
    | nil => exact h.1.totalFits
    | cons =>
      have := ih h.2 (cons_ne_nil _ _)
      simp only [length_append, length_cons, length_nil] at this ⊢
      omega

theorem writeCapabilityIndexes_ok (hs : Written w agents s) :
    ∃ w', writeCapabilityIndexes s = .ok w' ∧ w'.totalAgents = w.totalAgents ∧
      World.Same (enrolAll w agents) { w' with
        registrationSequence := s.seq
        totalAgents := w.totalAgents + agents.length } := by
  have hco : ∀ c ∈ s.uniqueCapabilities, ∃ ids, s.updatedCapIndexes.get c = some ids := by
    intro c hc
    rw [hs.collected, if_neg ((hs.listed c).mp hc)]
    exact ⟨_, rfl⟩
  obtain ⟨index, hfo, hidx⟩ := writeOut (w := s.world) hco
  refine ⟨_, hfo, ?_, ?_, ?_⟩
  · rw [hs.world]
  · rw [hs.world, hs.seq, ← (enrolAll_counts _).2, ← (enrolAll_counts _).1]
  · intro c
    show index.get c = _
    rw [hidx, hs.collected, enrolAll_index, hs.world]
    by_cases h : idsOf c agents = []
    · rw [if_pos h, if_pos h, if_neg fun hc => (hs.listed c).mp hc h]
    · rw [if_neg h, if_neg h, if_pos ((hs.listed c).mpr h)]

end

/-- **What `register_agents` does** to an unpaused registry, if it returns. -/
theorem registerAgents_ok {results : List (BatchResult Sym)} (hpsd : w.paused = false)
    (h : registerAgents env signed agents w = .ok (results, w')) :
    (Committed results ∧ agents ≠ [] ∧ Batchable w agents ∧ World.Same (enrolAll w agents) w') ∨
      (¬ Committed results ∧ (agents = [] ∨ ¬ AllAcceptable w [] agents) ∧ w' = w) := by
  unfold registerAgents at h
  rw [if_neg (Bool.eq_false_iff.mp hpsd)] at h
  simp only [bind_eq_ok] at h
  obtain ⟨-, -, counts, hcts, h⟩ := h
  rcases validate_ok validated_init hcts with ⟨hall, hval⟩ | ⟨hno, hok, error, herr⟩
  · by_cases hne : agents = []
    · rw [if_pos (.inr hne)] at h
      obtain ⟨rfl, rfl⟩ := Prod.mk.inj (pure_eq_ok.mp h)
      refine .inr ⟨fun hc => hc.1 ?_, .inl hne, rfl⟩
      rw [hval.results, hne]
      rfl
    · rw [if_neg (not_or.mpr ⟨by rw [hval.allOk]; decide, hne⟩)] at h
      simp only [bind_eq_ok, orTrap_eq_ok, checked32_eq_some, pure_eq_ok, Prod.mk.injEq] at h
      obtain ⟨writes, hwrs, w₁, hout, total, ⟨-, rfl⟩, rfl, rfl⟩ := h
      obtain ⟨hnu, hwrt⟩ := (commit_ok written_init).2 writes hwrs
      obtain ⟨w₂, hout', htot, hsm⟩ := writeCapabilityIndexes_ok hwrt
      obtain rfl := Except.ok.inj (hout.symm.trans hout')
      refine .inl ⟨⟨?_, ?_⟩, hne, ⟨hall, hnu⟩, ?_⟩
      · rw [hval.results]
        exact fun he => hne (map_eq_nil_iff.mp he)
      · intro x hx
        rw [hval.results] at hx
        obtain ⟨r, -, rfl⟩ := List.mem_map.mp hx
        exact ⟨r.id, rfl⟩
      · rw [htot]
        exact hsm
  · rw [if_pos (.inl hok)] at h
    obtain ⟨rfl, rfl⟩ := Prod.mk.inj (pure_eq_ok.mp h)
    refine .inr ⟨?_, .inr hno, rfl⟩
    intro hc
    obtain ⟨id, hid⟩ := hc.2 _ herr
    cases hid

/-- **When it does return** and commits. -/
theorem registerAgents_of_batchable (hpsd : w.paused = false)
    (hau : ∀ r ∈ agents, r.owner ≠ env.self ∧ signed r.owner = true) (hne : agents ≠ [])
    (h : Batchable w agents) :
    ∃ results w', registerAgents env signed agents w = .ok (results, w') := by
  obtain ⟨counts, hcts⟩ := validate_of_acceptable validated_init h.acceptable
  have hval : Validated w agents counts := by
    rcases validate_ok validated_init hcts with ⟨-, hval⟩ | ⟨hno, -⟩
    · exact hval
    · exact absurd h.acceptable hno
  obtain ⟨writes, hwrs⟩ := (commit_ok written_init).1 (h.numbers hne)
  obtain ⟨-, hwrt⟩ := (commit_ok written_init).2 writes hwrs
  obtain ⟨w₁, hout, htot, -⟩ := writeCapabilityIndexes_ok hwrt
  have hft : w₁.totalAgents + agents.length ≤ u32Max := by
    have := h.acceptable.totalFits hne
    rw [htot]
    simpa using this
  unfold registerAgents
  rw [if_neg (Bool.eq_false_iff.mp hpsd)]
  simp only [bind_eq_ok]
  refine ⟨counts.results,
    { w₁ with registrationSequence := writes.seq, totalAgents := w₁.totalAgents + agents.length },
    (), owners_authorised hau, counts, hcts, ?_⟩
  rw [if_neg (not_or.mpr ⟨by rw [hval.allOk]; decide, hne⟩)]
  simp only [bind_eq_ok, orTrap_eq_ok, checked32_eq_some]
  exact ⟨writes, hwrs, w₁, hout, _, ⟨hft, rfl⟩, rfl⟩

theorem registerEach_eq_ok (hpsd : w.paused = false)
    (hau : ∀ r ∈ agents, r.owner ≠ env.self ∧ signed r.owner = true) :
    registerEach env signed agents w = .ok w' ↔ Batchable w agents ∧ w' = enrolAll w agents := by
  have h : registerEach env signed agents (enrolAll w []) = .ok w' ↔ _ :=
    registerEach_from hpsd hau
  rw [nil_append] at h
  refine h.trans (and_congr_left fun _ => ?_)
  exact ⟨fun hb => ⟨hb.1, hb.2⟩, fun hb => ⟨hb.acceptable, hb.numbers⟩⟩

/--
**A batch is its registrations, one at a time.** On an unpaused registry, with the owners
authorised, `register_agents` commits if and only if there is a record and `register_agent` would
accept them all in list order. Then it leaves the same storage; else it leaves what there was.
-/
theorem batch_refines_each (env : Env Addr Sym) (signed : Addr → Bool)
    (w : World Addr Sym) (agents : List (AgentRecord Addr Sym))
    (hpaused : w.paused = false)
    (hauth : ∀ r ∈ agents, r.owner ≠ env.self ∧ signed r.owner = true) :
    ((∃ results w', registerAgents env signed agents w = .ok (results, w') ∧ Committed results) ↔
      agents ≠ [] ∧ ∃ w', registerEach env signed agents w = .ok w') ∧
    ∀ results w', registerAgents env signed agents w = .ok (results, w') →
      (Committed results → ∃ w'', registerEach env signed agents w = .ok w'' ∧ w''.Same w') ∧
      (¬ Committed results → w' = w) := by
  constructor
  · constructor
    · rintro ⟨results, w', h, hco⟩
      rcases registerAgents_ok hpaused h with ⟨-, hne, hbat, -⟩ | ⟨hno, -, -⟩
      · exact ⟨hne, _, (registerEach_eq_ok hpaused hauth).mpr ⟨hbat, rfl⟩⟩
      · exact absurd hco hno
    · rintro ⟨hne, w', hw'⟩
      obtain ⟨hbat, -⟩ := (registerEach_eq_ok hpaused hauth).mp hw'
      obtain ⟨results, w'', h⟩ := registerAgents_of_batchable hpaused hauth hne hbat
      refine ⟨results, w'', h, ?_⟩
      rcases registerAgents_ok hpaused h with ⟨hc, -, -, -⟩ | ⟨-, hbad, -⟩
      · exact hc
      · rcases hbad with hnil | hno
        · exact absurd hnil hne
        · exact absurd hbat.acceptable hno
  · intro results w' h
    rcases registerAgents_ok hpaused h with ⟨hc, -, hbat, hsm⟩ | ⟨hno, -, rfl⟩
    · exact ⟨fun _ => ⟨_, (registerEach_eq_ok hpaused hauth).mpr ⟨hbat, rfl⟩, hsm⟩,
        fun hno => absurd hc hno⟩
    · exact ⟨fun hc => absurd hc hno, fun _ => rfl⟩

/-- Two agents of one capability, registered in one batch. -/
theorem batch_refines_each_two :
    ∃ results w', registerAgents Sample.deployment (fun _ => true)
      [Sample.agent 44 4 100, Sample.agent 55 5 200]
      { (World.init 0 0 : World Nat Nat) with minBondSetting := some 100 } = .ok (results, w') ∧
      Committed results := by
  refine (batch_refines_each Sample.deployment (fun _ => true) _ _ rfl ?_).1.mpr ⟨by decide, ?_⟩
  · decide
  · have h : (registerEach Sample.deployment (fun _ => true)
        [Sample.agent 44 4 100, Sample.agent 55 5 200]
        { (World.init 0 0 : World Nat Nat) with minBondSetting := some 100 }).toOption.isSome = true := by
      decide
    obtain ⟨w', hw'⟩ := isSome_iff_exists.mp h
    exact ⟨w', toOption_eq_some.mp hw'⟩

end AiNet.AgentRegistry
