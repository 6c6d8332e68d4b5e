import AiNet.AgentRegistry.Index

/-!
# Walking the pages

`get_agents` returns a page and the cursor of the next. Followed to the end, whatever the
limit, the pages are the occupied sequence slots in order. So an agent is returned as
often as it holds slots: once, unless it registered again under an id it had before.
-/

namespace AiNet.AgentRegistry

open Core List Option Storage

variable {Addr Sym : Type} [DecidableEq Addr] [DecidableEq Sym]
variable {env : Env Addr Sym} {w w' : World Addr Sym}

/-! ## The walk -/

/-- The agent whose id a slot holds, if it is registered. -/
def agentAt (w : World Addr Sym) (i : Nat) : Option (AgentRecord Addr Sym) :=
  (w.agentByIndex.get i).bind fun agentId => w.agents.get agentId

/-- The agents of the slots from `start` on. -/
def slotsFrom (w : World Addr Sym) (start : Nat) : List (AgentRecord Addr Sym) :=
  (List.range' start (w.registrationSequence - start)).filterMap (agentAt w)

/-- What following the cursors returns, from a cursor to the last page. -/
inductive Pages (w : World Addr Sym) (limit : Option Nat) :
    Option Nat → List (AgentRecord Addr Sym) → Prop where
  | last {cursor : Option Nat} : (getAgents w cursor limit).nextCursor = none →
      Pages w limit cursor (getAgents w cursor limit).agents
  | next {cursor : Option Nat} {i : Nat} {records : List (AgentRecord Addr Sym)} :
      (getAgents w cursor limit).nextCursor = some i → Pages w limit (some i) records →
      Pages w limit cursor ((getAgents w cursor limit).agents ++ records)

section

omit [DecidableEq Addr]

theorem Pages.unique {limit cursor : Option Nat} {l l' : List (AgentRecord Addr Sym)}
    (h : Pages w limit cursor l) (h' : Pages w limit cursor l') : l = l' := by
  induction h generalizing l' with
  | last hno =>
    cases h' with
    | last => rfl
    | next hso => cases hno.symm.trans hso
  | next hso _ ih =>
    cases h' with
    | last hno => cases hno.symm.trans hso
    | next hso' hrst =>
      cases hso.symm.trans hso'
      rw [ih hrst]

theorem collectAgents_spec (w : World Addr Sym) (limit : Nat) :
    ∀ (fuel i : Nat) (agents : List (AgentRecord Addr Sym)), ∃ n, n ≤ fuel ∧
      collectAgents w limit fuel i agents
        = (agents ++ (List.range' i n).filterMap (agentAt w), i + n) ∧
      (agents.length < limit → 0 < fuel → 0 < n) := by
  intro fuel
  induction fuel with
  | zero =>
    intro i agents
    refine ⟨0, le_refl 0, ?_, fun _ h => h⟩
    rw [range'_zero, filterMap_nil, append_nil]
    rfl
  | succ fuel ih =>
    intro i agents
    unfold collectAgents
    by_cases hro : agents.length < limit
    · obtain ⟨n, hn, heq, -⟩ := ih (i + 1) (agents ++ (agentAt w i).toList)
      refine ⟨n + 1, by omega, ?_, fun _ _ => Nat.succ_pos n⟩
      have hhe : (agentAt w i).toList ++ (List.range' (i + 1) n).filterMap (agentAt w)
          = (List.range' i (n + 1)).filterMap (agentAt w) := by
        rw [range'_succ, filterMap_cons]
        cases agentAt w i <;> rfl
      rw [if_pos hro]
      dsimp only
      rw [← hhe, ← append_assoc, show i + (n + 1) = i + 1 + n by omega]
      exact heq
    · refine ⟨0, Nat.zero_le _, ?_, fun h => absurd h hro⟩
      rw [if_neg hro, range'_zero, filterMap_nil, append_nil]
      rfl

end

theorem effectiveLimit_pos (limit : Option Nat) : 0 < effectiveLimit limit := by
  unfold effectiveLimit defaultPageSize maxPageSize
  dsimp only
  split
  · omega
  · split
    · omega
    · omega

section

omit [DecidableEq Addr]

/-- **A page**: some slots from the cursor on, and the cursor behind them if slots are left. -/
theorem getAgents_spec (w : World Addr Sym) (cursor limit : Option Nat) :
    ∃ n, n ≤ w.registrationSequence - cursor.getD 0 ∧
      (getAgents w cursor limit).agents = (List.range' (cursor.getD 0) n).filterMap (agentAt w) ∧
      (getAgents w cursor limit).nextCursor
        = (if cursor.getD 0 + n < w.registrationSequence then some (cursor.getD 0 + n) else none) ∧
      (0 < w.registrationSequence - cursor.getD 0 → 0 < n) := by
  obtain ⟨n, hn, heq, hpos⟩ := collectAgents_spec w (effectiveLimit limit)
    (w.registrationSequence - cursor.getD 0) (cursor.getD 0) []
  unfold getAgents
  dsimp only
  rw [heq]
  exact ⟨n, hn, rfl, rfl, hpos (effectiveLimit_pos limit)⟩

/-- **The walk ends**, and returns the agents of the slots in order, whatever the limit. -/
theorem pages_from (w : World Addr Sym) (limit : Option Nat) :
    ∀ (m : Nat) (cursor : Option Nat), w.registrationSequence - cursor.getD 0 = m →
      Pages w limit cursor (slotsFrom w (cursor.getD 0)) := by
  intro m
  induction m using Nat.strongRecOn with
  | ind m ih =>
    intro cursor hm
    obtain ⟨n, hn, hags, hnx, hpos⟩ := getAgents_spec w cursor limit
    by_cases hmo : cursor.getD 0 + n < w.registrationSequence
    · rw [if_pos hmo] at hnx
      have hspl : slotsFrom w (cursor.getD 0)
          = (getAgents w cursor limit).agents ++ slotsFrom w (cursor.getD 0 + n) := by
        unfold slotsFrom
        rw [hags, ← filterMap_append, range'_append_1]
        congr 2
        omega
      rw [hspl]
      refine .next hnx ?_
      exact ih (w.registrationSequence - (cursor.getD 0 + n)) (by omega) (some (cursor.getD 0 + n)) rfl
    · rw [if_neg hmo] at hnx
      have hall : slotsFrom w (cursor.getD 0) = (getAgents w cursor limit).agents := by
        unfold slotsFrom
        rw [hags, show w.registrationSequence - cursor.getD 0 = n by omega]
      rw [hall]
      exact .last hnx

end

/-! ## Once -/

/-- The walk returns every registered agent, and none twice. -/
def ListedOnce (w : World Addr Sym) (limit : Option Nat) : Prop :=
  ∃ records, Pages w limit none records ∧ (records.map AgentRecord.id).Nodup ∧
    ∀ r, r ∈ records ↔ w.agents.get r.id = some r

/-- The indexes of the registry are in order. -/
structure IndexIntegrity (w : World Addr Sym) : Prop where
  total : w.totalAgents = w.agents.size
  capability : ∀ capability, (getCapabilityIndex w capability).Nodup ∧
    ∀ id, id ∈ getCapabilityIndex w capability ↔ ∃ r, w.agents.get id = some r ∧ r.capability = capability
  pages : ∀ limit, ListedOnce w limit

variable {r : AgentRecord Addr Sym}

section

omit [DecidableEq Addr]

theorem agentAt_eq_some {i : Nat} :
    agentAt w i = some r ↔ ∃ id, w.agentByIndex.get i = some id ∧ w.agents.get id = some r :=
  bind_eq_some_iff

theorem mem_slotsFrom {start : Nat} :
    r ∈ slotsFrom w start ↔ ∃ i, start ≤ i ∧ i < w.registrationSequence ∧ agentAt w i = some r := by
  unfold slotsFrom
  rw [mem_filterMap]
  constructor
  · rintro ⟨i, hi, hr⟩
    rw [mem_range'_1] at hi
    exact ⟨i, hi.1, by omega, hr⟩
  · rintro ⟨i, hlo, hhi, hr⟩
    exact ⟨i, mem_range'_1.mpr ⟨hlo, by omega⟩, hr⟩

theorem Indexed.integrity (h : Indexed w) (hsi : SingleSlot w) : IndexIntegrity w := by
  refine ⟨h.total, fun c => ⟨h.nodup c, h.listed c⟩, ?_⟩
  intro limit
  refine ⟨slotsFrom w 0, pages_from w limit _ none rfl, ?_, ?_⟩
  · unfold slotsFrom
    rw [map_filterMap]
    refine List.Nodup.filterMap ?_ nodup_range'
    intro i j id hi hj
    obtain ⟨r, hr, rfl⟩ := map_eq_some_iff.mp hi
    obtain ⟨r', hr', he⟩ := map_eq_some_iff.mp hj
    obtain ⟨x, hx, hxr⟩ := agentAt_eq_some.mp hr
    obtain ⟨y, hy, hyr⟩ := agentAt_eq_some.mp hr'
    refine hsi i j x hx ?_
    rw [hy, ← h.ids y r' hyr, he, h.ids x r hxr]
  · intro r
    rw [mem_slotsFrom]
    constructor
    · rintro ⟨i, -, -, hr⟩
      obtain ⟨id, -, hid⟩ := agentAt_eq_some.mp hr
      rw [h.ids id r hid]
      exact hid
    · intro hr
      obtain ⟨i, hi⟩ := h.slot r.id r hr
      exact ⟨i, Nat.zero_le i, h.slot_lt hi, agentAt_eq_some.mpr ⟨r.id, hi, hr⟩⟩

theorem Indexed.not_listedOnce (h : Indexed w) {i j : Nat} {id : Sym} (hr : w.agents.get id = some r)
    (hi : w.agentByIndex.get i = some id) (hj : w.agentByIndex.get j = some id) (hlt : i < j)
    (limit : Option Nat) : ¬ ListedOnce w limit := by
  rintro ⟨records, hpag, hnd, -⟩
  obtain rfl := hpag.unique (pages_from w limit _ none rfl)
  have hri : agentAt w i = some r := agentAt_eq_some.mpr ⟨id, hi, hr⟩
  have hrj : agentAt w j = some r := agentAt_eq_some.mpr ⟨id, hj, hr⟩
  have hseq := h.slot_lt hj
  -- the slots up to the second one, and the rest
  have hran := @range'_append_1 0 j (w.registrationSequence - j)
  rw [Nat.zero_add, Nat.add_sub_cancel' (le_of_lt hseq)] at hran
  have hspl : slotsFrom w ((none : Option Nat).getD 0)
      = (List.range' 0 j).filterMap (agentAt w)
        ++ (List.range' j (w.registrationSequence - j)).filterMap (agentAt w) := by
    rw [← filterMap_append, hran]
    rfl
  rw [hspl, map_append, nodup_append] at hnd
  have hfst : r.id ∈ ((List.range' 0 j).filterMap (agentAt w)).map AgentRecord.id :=
    List.mem_map_of_mem (mem_filterMap.mpr ⟨i, mem_range'_1.mpr ⟨by omega, by omega⟩, hri⟩)
  have hsec : r.id ∈ ((List.range' j (w.registrationSequence - j)).filterMap
      (agentAt w)).map AgentRecord.id :=
    List.mem_map_of_mem (mem_filterMap.mpr ⟨j, mem_range'_1.mpr ⟨by omega, by omega⟩, hrj⟩)
  exact hnd.2.2 r.id hfst r.id hsec rfl

end

/-! ## Runs -/

/-- No agent is registered under an id that holds a slot already. -/
def FreshIds (env : Env Addr Sym) (w : World Addr Sym) (e : Event Addr Sym) : Prop :=
  ∀ id record, (id, .register record) ∈ e.moves env w → ∀ i, w.agentByIndex.get i ≠ some id

section

omit [DecidableEq Addr]

theorem SingleSlot.enrol (h : SingleSlot w)
    (hfr : ∀ i, w.agentByIndex.get i ≠ some r.id) : SingleSlot (enrol w r) := by
  intro i j id hi hj
  change (w.agentByIndex.set w.registrationSequence r.id).get i = some id at hi
  change (w.agentByIndex.set w.registrationSequence r.id).get j = some id at hj
  rw [get_set] at hi hj
  by_cases hin : i = w.registrationSequence
  · by_cases hjn : j = w.registrationSequence
    · omega
    · rw [if_pos hin] at hi
      rw [if_neg hjn] at hj
      exact absurd (hj.trans hi.symm) (hfr j)
  · rw [if_neg hin] at hi
    by_cases hjn : j = w.registrationSequence
    · rw [if_pos hjn] at hj
      exact absurd (hi.trans hj.symm) (hfr i)
    · rw [if_neg hjn] at hj
      exact h i j id hi hj

theorem AllAcceptable.singleSlot {before rest : List (AgentRecord Addr Sym)}
    (h : AllAcceptable w before rest) (hs : SingleSlot (enrolAll w before))
    (hfr : ∀ r ∈ rest, ∀ i, (enrolAll w before).agentByIndex.get i ≠ some r.id) :
    SingleSlot (enrolAll w (before ++ rest)) := by
  induction rest generalizing before with
  | nil => rwa [append_nil]
  | cons r rest ih =>
    have hnx := ih h.2
    rw [append_assoc, enrolAll_snoc] at hnx
    refine hnx (hs.enrol (hfr r mem_cons_self)) ?_
    intro r' hr' i
    show ((enrolAll w before).agentByIndex.set _ r.id).get i ≠ some r'.id
    rw [get_set]
    split
    · intro he
      exact h.2.once (mem_append_right _ mem_cons_self) hr' (some.inj he)
    · exact hfr r' (mem_cons_of_mem r hr') i

theorem RosterStep.singleSlot {moves : List (Sym × Move Addr Sym)}
    (hs : RosterStep moves w w')
    (hfr : ∀ id record, (id, .register record) ∈ moves → ∀ i, w.agentByIndex.get i ≠ some id)
    (h : SingleSlot w) : SingleSlot w' := by
  cases hs with
  | kept hidx =>
    unfold SingleSlot
    rw [hidx]
    exact h
  | enrolled agents hmvs hall hsm =>
    have hsi : SingleSlot (enrolAll w ([] ++ agents)) := by
      refine hall.singleSlot h fun r hr => ?_
      exact hfr r.id r (hmvs ▸ List.mem_map.mpr ⟨r, hr, rfl⟩)
    unfold SingleSlot
    rw [hsm.rest]
    exact hsi
  | left _ _ hw | repriced _ _ _ hw =>
    rw [hw]
    exact h

theorem enrolAll_slots (agents : List (AgentRecord Addr Sym)) :
    (∀ i, i < w.registrationSequence → (enrolAll w agents).agentByIndex.get i = w.agentByIndex.get i) ∧
    ∀ r ∈ agents, ∃ j, w.registrationSequence ≤ j ∧ j < w.registrationSequence + agents.length ∧
      (enrolAll w agents).agentByIndex.get j = some r.id := by
  induction agents using List.reverseRecOn with
  | nil => exact ⟨fun _ _ => rfl, fun r hr => absurd hr not_mem_nil⟩
  | append_singleton agents r₀ ih =>
    obtain ⟨hold, hnew⟩ := ih
    have hseq := (enrolAll_counts (w := w) agents).2
    rw [enrolAll_snoc, length_append, length_singleton]
    constructor
    · intro i hi
      show ((enrolAll w agents).agentByIndex.set _ r₀.id).get i = _
      rw [get_set_ne _ _ (by omega)]
      exact hold i hi
    · intro r hr
      rcases mem_append.mp hr with hmem | hla
      · obtain ⟨j, hlo, hhi, hsl⟩ := hnew r hmem
        refine ⟨j, hlo, by omega, ?_⟩
        show ((enrolAll w agents).agentByIndex.set _ r₀.id).get j = _
        rw [get_set_ne _ _ (by omega)]
        exact hsl
      · obtain rfl := mem_singleton.mp hla
        exact ⟨(enrolAll w agents).registrationSequence, by omega, by omega, get_set_self _ _ _⟩

theorem ListedOnce.of_same_map {limit : Option Nat} (h : ListedOnce w' limit)
    (hsm : World.Same w w') : ListedOnce w limit := by
  rw [hsm.rest] at h
  obtain ⟨records, hpag, hnd, hmem⟩ := h
  obtain rfl := hpag.unique (pages_from _ limit _ none rfl)
  exact ⟨_, pages_from w limit _ none rfl, hnd, hmem⟩

/-- **The step back**: after a registration under an old id, somebody is listed twice. -/
theorem RosterStep.fresh {moves : List (Sym × Move Addr Sym)} (hs : RosterStep moves w w')
    (h : Indexed w) {limit : Option Nat} (hoc : ListedOnce w' limit) :
    ∀ id record, (id, .register record) ∈ moves → ∀ i, w.agentByIndex.get i ≠ some id := by
  cases hs with
  | kept _ _ hno => exact fun id record hm => absurd hm (hno id record)
  | enrolled agents hmvs hall hsm =>
    intro id record hm i hi
    rw [hmvs] at hm
    obtain ⟨r, hr, he⟩ := List.mem_map.mp hm
    obtain ⟨rfl, -⟩ := Prod.mk.inj he
    obtain ⟨hold, hnew⟩ := enrolAll_slots (w := w) agents
    obtain ⟨j, hlo, -, hj⟩ := hnew r hr
    have hlt := h.slot_lt hi
    have hreg : (enrolAll w agents).agents.get r.id = some r :=
      congrArg Account.record (hall.enrolled hr).2.2.2
    have hixd : Indexed (enrolAll w ([] ++ agents)) :=
      hall.preserves (fun _ _ hnew hI => hI.enrol hnew) h
    exact hixd.not_listedOnce hreg ((hold i hlt).trans hi) hj (by omega) limit
      (hoc.of_same_map hsm)
  | left _ hmvs | repriced _ hmvs =>
    intro id record hm
    rw [hmvs] at hm
    cases mem_singleton.mp hm

end

/--
**When the indexes are in order.** In a run, the counter, the capability indexes and the listing are in
order in every state passed if and only if no call of the run registers an agent under an id that holds
a sequence slot already.
-/
theorem index_integrity_iff {guard : World Addr Sym → Event Addr Sym → Prop}
    {log : List (World Addr Sym × Event Addr Sym)}
    (h : (system env).Logged guard w log) :
    (∀ s ∈ log.map Prod.fst ++ [w], IndexIntegrity s) ↔ ∀ entry ∈ log, FreshIds env entry.1 entry.2 := by
  -- as long as the ids are fresh the slots are single, which the next step needs
  refine h.forall_passed_iff_with (J := SingleSlot) ?_ ?_
  · rintro w₀ ⟨now, sequence, rfl⟩
    have hsi : SingleSlot (World.init now sequence : World Addr Sym) :=
      fun _ _ _ hi _ => by cases hi
    exact ⟨(indexed_init now sequence).integrity hsi, hsi⟩
  · intro w e w' hw hg hs hin
    have hixd := indexed_reachable hw
    have hros := step_roster hs
    refine ⟨fun haf => hros.fresh hixd (haf.pages none), ?_⟩
    intro hsi hfr
    have hnx := hros.singleSlot hfr hsi
    exact ⟨(hros.indexed hixd).integrity hnx, hnx⟩

namespace Sample

/-- Agent `44` leaves, its bond is returned, and it registers again. -/
def rejoined : List (Event Nat Nat) :=
  installed ++
    [ call 4 (.registration (.registerAgent (agent 44 4 100))),
      call 4 (.registration (.deregisterAgent 44)),
      .close 100000 17280,
      call 4 (.registration (.deregisterAgent 44)),
      call 4 (.registration (.registerAgent (agent 44 4 100))) ]

theorem exists_rejoined : ∃ w, (system deployment).Logged ClockMonotone w
      ((system deployment).record rejoined (World.init 0 0)) ∧
    (w.agents.get 44).isSome = true ∧ w.agentByIndex.get 0 = some 44 ∧ w.agentByIndex.get 1 = some 44 := by
  have hpl : ((system deployment).play ClockMonotone rejoined (World.init 0 0)).any (fun w =>
      (w.agents.get 44).isSome = true ∧ w.agentByIndex.get 0 = some 44 ∧
        w.agentByIndex.get 1 = some 44) = true := by
    decide
  exact System.exists_logged (start_init _ 0 0) hpl

end Sample

/-- The run of the agent that came back: in order throughout if and only if its ids were fresh. -/
theorem index_integrity_iff_rejoined : ∃ (w : World Nat Nat)
    (log : List (World Nat Nat × Event Nat Nat)),
    (system Sample.deployment).Logged ClockMonotone w log ∧
      ((∀ s ∈ log.map Prod.fst ++ [w], IndexIntegrity s) ↔
        ∀ entry ∈ log, FreshIds Sample.deployment entry.1 entry.2) := by
  obtain ⟨w, hlog, -⟩ := Sample.exists_rejoined
  exact ⟨w, _, hlog, index_integrity_iff hlog⟩

/-- An agent listed twice: the slot of its first registration was never cleared. -/
theorem listed_twice : ∃ w : World Nat Nat, (system Sample.deployment).Reachable ClockMonotone w ∧
    ¬ IndexIntegrity w := by
  obtain ⟨w, hlog, hreg, hfst, hsec⟩ := Sample.exists_rejoined
  obtain ⟨r, hr⟩ := isSome_iff_exists.mp hreg
  refine ⟨w, hlog.reachable, ?_⟩
  intro h
  exact (indexed_reachable hlog.reachable).not_listedOnce hr hfst hsec Nat.zero_lt_one none
    (h.pages none)

end AiNet.AgentRegistry
