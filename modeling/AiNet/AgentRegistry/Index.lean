import AiNet.AgentRegistry.Effects

/-!
# The indexes beside the records

The counter of agents, the index of each capability, and the sequence slots that the
listing walks along. `Indexed` is what every call preserves. One thing is missing from it:
a slot is never cleared, so an agent that leaves and registers again holds two slots, and
the walk returns it twice. `SingleSlot` is the rest of what the listing needs.
-/

namespace AiNet.AgentRegistry

open Core List Option Storage

variable {Addr Sym : Type} [DecidableEq Addr] [DecidableEq Sym]
variable {env : Env Addr Sym} {w w' : World Addr Sym}

/-! ## The invariant -/

/-- The indexes describe the records. -/
structure Indexed (w : World Addr Sym) : Prop where
  ids : ∀ id r, w.agents.get id = some r → r.id = id
  total : w.totalAgents = w.agents.size
  nodup : ∀ capability, (getCapabilityIndex w capability).Nodup
  listed : ∀ capability id, id ∈ getCapabilityIndex w capability ↔
    ∃ r, w.agents.get id = some r ∧ r.capability = capability
  unused : ∀ i, w.registrationSequence ≤ i → w.agentByIndex.get i = none
  slot : ∀ id r, w.agents.get id = some r → ∃ i, w.agentByIndex.get i = some id

/-- No two slots hold one id. -/
def SingleSlot (w : World Addr Sym) : Prop :=
  ∀ i j id, w.agentByIndex.get i = some id → w.agentByIndex.get j = some id → i = j

section

omit [DecidableEq Addr]

theorem Indexed.slot_lt (h : Indexed w) {i : Nat} {id : Sym}
    (hi : w.agentByIndex.get i = some id) : i < w.registrationSequence := by
  by_contra hge
  rw [h.unused i (by omega)] at hi
  cases hi

theorem indexed_init (now sequence : Nat) :
    Indexed (World.init now sequence : World Addr Sym) := by
  refine ⟨?_, rfl, fun _ => nodup_nil, ?_, fun _ _ => rfl, ?_⟩
  · intro id r hr
    cases hr
  · intro capability id
    refine ⟨fun h => absurd h not_mem_nil, ?_⟩
    rintro ⟨r, hr, -⟩
    cases hr
  · intro id r hr
    cases hr

theorem Indexed.of_same (h : Indexed w) (hidx : w'.toIndex = w.toIndex)
    (hags : ∀ id, (w'.agents.get id).map (fun r => (r.id, r.capability))
      = (w.agents.get id).map fun r => (r.id, r.capability)) : Indexed w' := by
  have hbk : ∀ id r', w'.agents.get id = some r' →
      ∃ r, w.agents.get id = some r ∧ r'.id = r.id ∧ r'.capability = r.capability := by
    intro id r' hr'
    have hid := hags id
    rw [hr', map_some, eq_comm, map_eq_some_iff] at hid
    obtain ⟨r, hr, he⟩ := hid
    exact ⟨r, hr, (congrArg Prod.fst he).symm, (congrArg Prod.snd he).symm⟩
  have hfor : ∀ id r, w.agents.get id = some r →
      ∃ r', w'.agents.get id = some r' ∧ r'.capability = r.capability := by
    intro id r hr
    have hid := hags id
    rw [hr, map_some, map_eq_some_iff] at hid
    obtain ⟨r', hr', he⟩ := hid
    exact ⟨r', hr', congrArg Prod.snd he⟩
  have hcap : ∀ capability, getCapabilityIndex w' capability = getCapabilityIndex w capability := by
    intro capability
    unfold getCapabilityIndex
    rw [hidx]
  refine ⟨?_, ?_, ?_, ?_, ?_, ?_⟩
  · intro id r' hr'
    obtain ⟨r, hr, hid, -⟩ := hbk id r' hr'
    rw [hid]
    exact h.ids id r hr
  · rw [hidx, h.total]
    refine (size_congr fun id => ?_).symm
    have hid := congrArg Option.isSome (hags id)
    rwa [isSome_map, isSome_map] at hid
  · intro capability
    rw [hcap]
    exact h.nodup capability
  · intro capability id
    rw [hcap, h.listed]
    constructor
    · rintro ⟨r, hr, rfl⟩
      exact hfor id r hr
    · rintro ⟨r', hr', rfl⟩
      obtain ⟨r, hr, -, hc⟩ := hbk id r' hr'
      exact ⟨r, hr, hc.symm⟩
  · rw [hidx]
    exact h.unused
  · intro id r' hr'
    obtain ⟨r, hr, -, -⟩ := hbk id r' hr'
    rw [hidx]
    exact h.slot id r hr

theorem Indexed.of_same_map (h : Indexed w) (hsm : World.Same w w') : Indexed w' := by
  have hcap : ∀ capability, getCapabilityIndex w' capability = getCapabilityIndex w capability := by
    intro capability
    unfold getCapabilityIndex
    rw [hsm.index]
  have hrst := hsm.rest
  refine ⟨?_, ?_, ?_, ?_, ?_, ?_⟩
  · rw [hrst]
    exact h.ids
  · rw [hrst]
    exact h.total
  · intro capability
    rw [hcap]
    exact h.nodup capability
  · intro capability id
    rw [hcap, h.listed, hrst]
  · rw [hrst]
    exact h.unused
  · rw [hrst]
    exact h.slot

end

variable {r : AgentRecord Addr Sym}

section

omit [DecidableEq Addr]

/-- **One agent more**: its id goes to the end of its capability's index, and into the next slot. -/
theorem Indexed.enrol (h : Indexed w) (hnew : w.agents.get r.id = none) : Indexed (enrol w r) := by
  refine ⟨?_, ?_, ?_, ?_, ?_, ?_⟩
  · intro id r' hr'
    change (w.agents.set r.id r).get id = some r' at hr'
    rw [get_set] at hr'
    by_cases hid : id = r.id
    · rw [if_pos hid] at hr'
      rw [hid, some.inj hr']
    · rw [if_neg hid] at hr'
      exact h.ids id r' hr'
  · show w.totalAgents + 1 = (w.agents.set r.id r).size
    rw [size_set_of_none hnew, h.total]
  · intro capability
    rw [enrol_capabilityIndex]
    by_cases hc : r.capability = capability
    · rw [if_pos hc]
      refine List.Nodup.append (h.nodup capability) (nodup_singleton _) ?_
      intro x hx hx'
      obtain rfl := mem_singleton.mp hx'
      obtain ⟨r', hr', -⟩ := (h.listed capability r.id).mp hx
      rw [hnew] at hr'
      cases hr'
    · rw [if_neg hc, append_nil]
      exact h.nodup capability
  · intro capability id
    rw [enrol_capabilityIndex, mem_append, h.listed]
    show _ ↔ ∃ r', (w.agents.set r.id r).get id = some r' ∧ r'.capability = capability
    rw [get_set]
    by_cases hid : id = r.id
    · rw [if_pos hid, hid, hnew]
      by_cases hc : r.capability = capability
      · simp [hc]
      · simp [hc]
    · rw [if_neg hid]
      by_cases hc : r.capability = capability
      · simp [hc, hid]
      · simp [hc]
  · intro i hi
    change w.registrationSequence + 1 ≤ i at hi
    show (w.agentByIndex.set w.registrationSequence r.id).get i = none
    rw [get_set_ne _ _ (by omega)]
    exact h.unused i (by omega)
  · intro id r' hr'
    change (w.agents.set r.id r).get id = some r' at hr'
    show ∃ i, (w.agentByIndex.set w.registrationSequence r.id).get i = some id
    rw [get_set] at hr'
    by_cases hid : id = r.id
    · exact ⟨w.registrationSequence, by rw [get_set_self, hid]⟩
    · rw [if_neg hid] at hr'
      obtain ⟨i, hi⟩ := h.slot id r' hr'
      refine ⟨i, ?_⟩
      rw [get_set_ne _ _ (Nat.ne_of_lt (h.slot_lt hi))]
      exact hi

/-- **One agent less**: it goes from its capability's index, and its slot stays. -/
theorem Indexed.leave (h : Indexed w) {id : Sym} (hr : w.agents.get id = some r)
    (bonds : Bonds Addr Sym) :
    Indexed (strikeOff w id r bonds) := by
  refine ⟨?_, ?_, ?_, ?_, h.unused, ?_⟩
  · intro x r' hr'
    exact h.ids x r' (get_of_remove (s := w.agents) (k := id) hr')
  · have := size_remove_of_some hr
    have := h.total
    show w.totalAgents - 1 = (w.agents.remove id).size
    omega
  · intro capability
    rw [strikeOff_capabilityIndex]
    split
    · exact (h.nodup capability).filter _
    · exact h.nodup capability
  · intro capability x
    rw [strikeOff_capabilityIndex]
    show _ ↔ ∃ r', (w.agents.remove id).get x = some r' ∧ r'.capability = capability
    rw [get_remove]
    by_cases hx : x = id
    · rw [if_pos hx, hx]
      -- the agent that left was listed under its own capability only
      refine iff_of_false ?_ (by rintro ⟨r', hr', -⟩; cases hr')
      split
      · intro hmem
        have := (mem_filter.mp hmem).2
        simp at this
      · rename_i hc
        intro hmem
        obtain ⟨r', hr', hc'⟩ := (h.listed capability id).mp hmem
        cases hr.symm.trans hr'
        exact hc hc'.symm
    · rw [if_neg hx]
      split
      · rw [mem_filter, h.listed]
        simp [hx]
      · exact h.listed capability x
  · intro x r' hr'
    -- an agent that stayed still has the slot it had: a slot is never taken back
    exact h.slot x r' (get_of_remove (s := w.agents) (k := id) hr')

end

/-! ## Runs -/

section

omit [DecidableEq Addr]

theorem Acceptable.new_after {before : List (AgentRecord Addr Sym)} (h : Acceptable w before r) :
    (enrolAll w before).agents.get r.id = none := by
  rw [← has_eq_false, ← Bool.not_eq_true, enrolAll_has]
  rintro (⟨r', hr', he⟩ | hold)
  · exact h.once r' hr' he
  · rw [h.new] at hold
    cases hold

theorem AllAcceptable.preserves {I : World Addr Sym → Prop}
    {before rest : List (AgentRecord Addr Sym)} (h : AllAcceptable w before rest)
    (hst : ∀ w r, w.agents.get r.id = none → I w → I (enrol w r)) (h0 : I (enrolAll w before)) :
    I (enrolAll w (before ++ rest)) := by
  induction rest generalizing before with
  | nil => rwa [append_nil]
  | cons r rest ih =>
    have hnx := ih h.2
    rw [append_assoc] at hnx
    refine hnx ?_
    rw [enrolAll_snoc]
    exact hst _ r h.1.new_after h0

theorem SameFaces.idsAndCapabilities {s s' : Storage Sym (AgentRecord Addr Sym)}
    (h : SameFaces s s') (id : Sym) : (s'.get id).map (fun r => (r.id, r.capability))
      = (s.get id).map fun r => (r.id, r.capability) := by
  have hid := congrArg (Option.map fun r => (r.id, r.capability)) (h id)
  rwa [Option.map_map, Option.map_map] at hid

theorem RosterStep.indexed {moves : List (Sym × Move Addr Sym)}
    (hs : RosterStep moves w w') (h : Indexed w) : Indexed w' := by
  cases hs with
  | kept hidx hfac => exact h.of_same hidx hfac.idsAndCapabilities
  | enrolled agents _ hall hsm =>
    have hfr : Indexed (enrolAll w ([] ++ agents)) :=
      hall.preserves (fun _ _ hnew hI => hI.enrol hnew) h
    exact hfr.of_same_map hsm
  | left hr _ hw =>
    rw [hw]
    exact h.leave hr _
  | @repriced id r price hr _ _ hw =>
    refine h.of_same (by rw [hw]) ?_
    intro x
    rw [hw]
    dsimp only
    rw [get_set]
    by_cases hx : x = id
    · rw [if_pos hx, hx, hr]
      rfl
    · rw [if_neg hx]

end

theorem indexed_reachable {guard : World Addr Sym → Event Addr Sym → Prop}
    (h : (system env).Reachable guard w) : Indexed w := by
  refine System.Reachable.invariant (I := Indexed) ?_ ?_ h
  · rintro w₀ ⟨now, sequence, rfl⟩
    exact indexed_init now sequence
  · intro w e w' _ _ hI hs
    exact (step_roster hs).indexed hI

end AiNet.AgentRegistry
