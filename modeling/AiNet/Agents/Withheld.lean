import AiNet.Agents.Dispatch

/-!
# Nothing keeps an agent withheld

An agent that is offline is returned by no call of `agentsFor` (`returned_iff`), so freezing and disabling
work by taking it offline. What brings it back is any writer that puts it online: `online_iff` lists, for
each event, the agents it puts online. None of them looks at what was frozen or disabled.
-/

namespace AiNet.Agents.Dispatch

open Core AiNet.Sync List Option Function System UniqueTable

/-! ## Who is online -/

def Online (db : AgentDb) (a : Text) : Prop := ∃ row, db.find a = some row ∧ row.status = .online

def Capable (db : AgentDb) : Prop := ∀ a row, db.find a = some row → row.capabilities ≠ []

section Online

variable {db db' : AgentDb} {a id : Text}

theorem online_iff_standing : Online db a ↔ ∃ k, (db.find a).map standing = some (k, .online) := by
  constructor
  · intro ⟨row, hrow, honl⟩
    exact ⟨row.capabilities, by rw [hrow, map_some, standing, honl]⟩
  · intro ⟨k, hk⟩
    obtain ⟨row, hrow, hstn⟩ := map_eq_some_iff.mp hk
    exact ⟨row, hrow, congrArg Prod.snd hstn⟩

theorem online_congr (h : (db'.find a).map standing = (db.find a).map standing) :
    Online db' a ↔ Online db a := by
  rw [online_iff_standing, online_iff_standing, h]

theorem online_of_find (h : db'.find a = db.find a) : Online db' a ↔ Online db a :=
  online_congr (congrArg (Option.map standing) h)

theorem online_upsert (agent : AgentRecord) : Online (upsert db agent) a ↔
    if agent.id = a then agent.status = .online else Online db a := by
  by_cases ha : agent.id = a
  · rw [if_pos ha]
    unfold Online
    rw [find_upsert, if_pos ha]
    cases hrow : db.find a with
    | none => simp [AgentRecord.newRow]
    | some => simp [AgentRecord.onto, AgentRecord.newRow]
  · rw [if_neg ha]
    exact online_of_find (by rw [find_upsert, if_neg ha])

theorem online_amend {f : AgentRecord → AgentRecord} (hf : ∀ agent, (f agent).id = agent.id) :
    Online (amend db id f) a ↔
      if id = a then ∃ row, db.find a = some row ∧ (f row.toRecord).status = .online else Online db a := by
  by_cases ha : id = a
  · rw [if_pos ha]
    unfold Online
    rw [find_amend hf, if_pos ha]
    cases hrow : db.find a with
    | none => simp
    | some => simp [AgentRecord.onto, AgentRecord.newRow]
  · rw [if_neg ha]
    exact online_of_find (by rw [find_amend hf, if_neg ha])

theorem online_delete : Online (delete db id) a ↔ id ≠ a ∧ Online db a := by
  by_cases ha : id = a
  · simp [Online, find_delete, ha]
  · simp [Online, find_delete, ha]

theorem online_updateWhere {f : AgentRow → AgentRow} {hf : ∀ row, (f row).id = row.id} :
    Online (updateWhere db id f hf) a ↔
      if id = a then ∃ row, db.find a = some row ∧ (f row).status = .online else Online db a := by
  by_cases ha : id = a
  · rw [if_pos ha]
    unfold Online
    rw [find_updateWhere, if_pos ha]
    cases hrow : db.find a with
    | none | some => simp
  · rw [if_neg ha]
    exact online_of_find (by rw [find_updateWhere, if_neg ha])

end Online

/-! ## What `agentsFor` returns -/

theorem returns_iff {agentType a : Text} {found : List AgentRegistration} :
    Returns agentType found a ↔ ∃ agent ∈ found, agent.id = a ∧ agent.status = .online := by
  unfold Returns agentsFor sortByCost
  constructor
  · intro ⟨agents, hok, agent, hagt, ha⟩
    dsimp only at hok
    split at hok
    · cases hok
    · rw [← Except.ok.inj hok] at hagt
      obtain ⟨hmem, honl⟩ := mem_filter.mp hagt
      exact ⟨agent, (mem_insertionSort _).mp hmem, ha, of_decide_eq_true honl⟩
  · intro ⟨agent, hagt, ha, honl⟩
    have hmem : agent ∈ (found.insertionSort fun a b => a.cost ≤ b.cost).filter fun agent =>
        decide (agent.status = .online) :=
      mem_filter.mpr ⟨(mem_insertionSort _).mpr hagt, decide_eq_true honl⟩
    refine ⟨_, if_neg fun hnil => ?_, agent, hmem, ha⟩
    rw [hnil] at hmem
    cases hmem

variable {reg : AgentRegistry} {o : Options} {s s' : State} {a : Text}

/-- **An agent is returned for one of its types exactly when it is online.** -/
theorem returned_iff (hreg : reg.Lawful) (hca : Capable s.dog.db) :
    (∃ agentType, Returns agentType (reg.getAgents s.dog.db (some agentType)) a) ↔ Online s.dog.db a := by
  constructor
  · intro ⟨agentType, hre⟩
    obtain ⟨agent, hagt, rfl, honl⟩ := returns_iff.mp hre
    obtain ⟨row, hrow, hst⟩ := hreg.lists _ _ agent hagt
    exact ⟨row, hrow, hst.trans honl⟩
  · intro ⟨row, hrow, honl⟩
    obtain ⟨hmem, hid⟩ := find_eq_some.mp hrow
    obtain ⟨agentType, hty⟩ := exists_mem_of_ne_nil _ (hca a row hrow)
    obtain ⟨agent, hagt, hagId⟩ := hreg.listed s.dog.db agentType row hmem hty
    obtain ⟨row', hrow', hst⟩ := hreg.lists _ _ agent hagt
    rw [hagId, hid, hrow] at hrow'
    rw [← some.inj hrow', honl] at hst
    exact ⟨agentType, returns_iff.mpr ⟨agent, hagt, hagId.trans hid, hst.symm⟩⟩

/-! ## The watchdog -/

/-- The agents that phase 2 recovers before it has to wait. -/
def recovered (o : WatchdogOptions) (nowMs : Nat) : List AgentRow → AgentDb → List Text
  | [], _ => []
  | agent :: rest, db =>
    match Watchdog.verdict o nowMs db agent with
    | .clearedConcurrently => recovered o nowMs rest db
    | .recovered => agent.id :: recovered o nowMs rest (clearStale db agent.id)
    | .insideGrace => recovered o nowMs rest db
    | .evict => if o.onEvict then [] else recovered o nowMs rest (delete db agent.id)

section Watchdog

variable {w : WatchdogOptions} {t : Nat}

theorem online_settle {agents : List AgentRow} {db : AgentDb} (hoff : ¬Online db a) :
    Online (Watchdog.settle w t agents db).1 a ↔ a ∈ recovered w t agents db := by
  induction agents generalizing db with
  | nil => exact ⟨fun h => absurd h hoff, fun h => absurd h not_mem_nil⟩
  | cons agent agents ih =>
    unfold Watchdog.settle recovered
    have hvdt := Watchdog.of_verdict w t db agent
    cases hv : Watchdog.verdict w t db agent with
    | clearedConcurrently | insideGrace => exact ih hoff
    | recovered =>
      rw [hv] at hvdt
      obtain ⟨⟨m, hm⟩, _⟩ := hvdt
      by_cases ha : agent.id = a
      · obtain ⟨row, hrow, _⟩ := Watchdog.find_of_getStaleSince hm
        have hchd := Watchdog.settle_changed w t a agents (clearStale db agent.id)
        rw [Watchdog.find_clearStale, if_pos ha, ← ha, hrow, map_some] at hchd
        -- the mark is gone, so that the rest of the list does not touch the row
        have hkpt := hchd.of_cleared
        rw [ha] at hkpt
        dsimp only
        rw [ha]
        exact iff_of_true ⟨_, hkpt, rfl⟩ (mem_cons_self ..)
      · have hoff' : ¬Online (clearStale db agent.id) a := by
          rw [clearStale, online_updateWhere, if_neg ha]
          exact hoff
        rw [mem_cons, or_iff_right fun heq => ha heq.symm]
        exact ih hoff'
    | evict =>
      dsimp only
      split
      · exact ⟨fun h => absurd h hoff, fun h => absurd h not_mem_nil⟩
      · have hoff' : ¬Online (delete db agent.id) a := by
          rw [online_delete]
          exact fun h => hoff h.2
        exact ih hoff'

theorem online_detect {db : AgentDb} (hoff : ¬Online db a) : ¬Online (Watchdog.detect w t db) a := by
  intro ⟨row, hrow, honl⟩
  rw [Watchdog.find_detect] at hrow
  obtain ⟨row₀, hrow₀, rfl⟩ := map_eq_some_iff.mp hrow
  refine hoff ⟨row₀, hrow₀, ?_⟩
  unfold Watchdog.marked at honl
  split at honl
  · cases honl
  · exact honl

end Watchdog

/-! ## What an event puts online -/

/-- The agents that a tick of the watchdog, or what follows an eviction, recovers. -/
def tickRecovers (w : WatchdogOptions) (s : Watchdog.State) : Watchdog.Event → List Text
  | .tick =>
    let db := Watchdog.detect w s.clock s.db
    recovered w s.clock (listStaleAgents db) db
  | .settled i _ =>
    match s.ticks[i]? with
    | some (.awaiting nowMs agent rest) => recovered w nowMs rest (delete s.db agent.id)
    | some .done => []
    | none => []
  | .heartbeat _ | .updateLastSeen _ | .register _ | .pass _ => []

/-- Does an event put an agent online? An agent that is not there is only put online by a registration. -/
def Raises (reg : AgentRegistry) (o : Options) (s : State) (a : Text) : Event → Prop
  | .watchdog (.heartbeat id) => id = a ∧ (s.dog.db.find a).isSome
  | .watchdog (.updateLastSeen id) => id = a ∧ (s.dog.db.find a).isSome
  | .watchdog (.register data) => data.agentId = a
  | .watchdog .tick => a ∈ tickRecovers o.watchdog s.dog .tick
  | .watchdog (.settled i failed) => a ∈ tickRecovers o.watchdog s.dog (.settled i failed)
  | .watchdog (.pass _) => False
  | .synced (.agentReg agentId _ _ _) => agentId = a
  | .synced (.unfreeze agentId) => agentId = a ∧ (s.dog.db.find a).isSome
  | .synced (.agentDrg _) | .synced (.freeze _) | .synced (.priceUpd _ _) | .synced .other => False
  | .setAgentEnabled agentId enabled => agentId = a ∧ enabled = true ∧ (s.dog.db.find a).isSome
  | .pinged i isHealthy => ∃ agent rest, s.rounds[i]? = some (agent :: rest) ∧ agent.id = a ∧
      isHealthy = true ∧ agent.status = .offline ∧
      if reg.markOnline.isSome then (s.dog.db.find a).isSome = true else reg.registerAgent.isSome = true
  | .checkAllAgents | .lookup _ | .answered _ => False

theorem online_watchdog {e : Watchdog.Event} {dog : Watchdog.State} (hoff : ¬Online s.dog.db a)
    (h : Watchdog.State.step o.watchdog s.dog e = some dog) :
    Online dog.db a ↔ Raises reg o s a (.watchdog e) := by
  cases e with
  | tick =>
    cases h
    exact online_settle (online_detect hoff)
  | settled i failed =>
    simp only [Watchdog.State.step] at h
    split at h
    · rename_i nowMs agent rest hi
      cases h
      have hoff' : ¬Online (delete s.dog.db agent.id) a := by
        rw [online_delete]
        exact fun h => hoff h.2
      have hre : tickRecovers o.watchdog s.dog (.settled i failed) =
          recovered o.watchdog nowMs rest (delete s.dog.db agent.id) := by
        rw [tickRecovers, hi]
      refine (online_settle hoff').trans ?_
      rw [← hre]
      rfl
    · cases h
    · cases h
  | heartbeat id =>
    cases h
    have hame : Watchdog.heartbeat s.dog.db s.dog.clock id = amend s.dog.db id fun agent =>
        { agent with lastSeenAt := s.dog.clock, status := .online } := rfl
    rw [hame]
    refine Iff.trans (online_amend fun _ => rfl) ?_
    rw [Raises]
    split
    · simp [isSome_iff_exists, *]
    · simp [*]
  | updateLastSeen =>
    cases h
    rw [updateLastSeen, online_updateWhere, Raises]
    split
    · simp [isSome_iff_exists, *]
    · simp [*]
  | register data =>
    cases h
    rw [online_upsert, Raises]
    split
    · rename_i ha
      exact iff_of_true rfl ha
    · rename_i ha
      exact iff_of_false hoff ha
  | pass =>
    obtain ⟨_, h⟩ := ite_none_right_eq_some.mp h
    cases h
    exact iff_of_false hoff id

theorem online_handleEvent {e : RegistryEvent} (hoff : ¬Online s.dog.db a) :
    Online (handleEvent o.toXLM s.dog.clock s.dog.db e) a ↔ Raises reg o s a (.synced e) := by
  cases e with
  | agentReg agentId owner capability price =>
    rw [handleEvent, online_upsert, Raises]
    split
    · rename_i ha
      exact iff_of_true rfl ha
    · rename_i ha
      exact iff_of_false hoff ha
  | agentDrg =>
    rw [handleEvent, online_delete]
    exact iff_of_false (fun h => hoff h.2) id
  | freeze =>
    refine Iff.trans (online_amend fun _ => rfl) ?_
    rw [Raises]
    split
    · simp
    · simp [hoff]
  | unfreeze =>
    refine Iff.trans (online_amend fun _ => rfl) ?_
    rw [Raises]
    split
    · simp [isSome_iff_exists, *]
    · simp [*]
  | priceUpd =>
    refine Iff.trans (online_amend fun _ => rfl) ?_
    rw [Raises]
    split
    · exact iff_of_false (by rintro ⟨row, hrow, honl⟩; exact hoff ⟨row, hrow, honl⟩) id
    · exact iff_of_false hoff id
  | other => exact iff_of_false hoff id

theorem online_setAgentEnabled {agentId : Text} {enabled : Bool} (hoff : ¬Online s.dog.db a) :
    Online (setAgentEnabled s.dog.clock s.dog.db agentId enabled) a ↔
      Raises reg o s a (.setAgentEnabled agentId enabled) := by
  refine Iff.trans (online_amend fun _ => rfl) ?_
  rw [Raises]
  cases enabled with
  | true =>
    split
    · simp [isSome_iff_exists, *]
    · simp [*]
  | false =>
    split
    · simp
    · simp [hoff]

section Checks

variable {db : AgentDb} {agent : AgentRegistration}

theorem online_recover (hreg : reg.Lawful) (hoff : ¬Online db a) : Online (recover reg db agent) a ↔
    agent.id = a ∧
      if reg.markOnline.isSome then (db.find a).isSome = true else reg.registerAgent.isSome = true := by
  unfold recover
  cases hmk : reg.markOnline with
  | some markOnline =>
    have hlaw := hreg.markOnline markOnline hmk db agent.id a
    by_cases ha : agent.id = a
    · rw [if_pos ha] at hlaw
      rw [online_iff_standing, hlaw]
      simp [ha, isSome_iff_exists]
    · rw [if_neg ha] at hlaw
      exact iff_of_false (fun h => hoff ((online_congr hlaw).mp h)) fun h => ha h.1
  | none =>
    cases hre : reg.registerAgent with
    | none => exact iff_of_false hoff (by simp)
    | some registerAgent =>
      obtain ⟨⟨row, hrow, hst, _⟩, hots⟩ :=
        hreg.registerAgent registerAgent hre db { agent with status := .online }
      by_cases ha : agent.id = a
      · rw [← ha]
        exact iff_of_true ⟨row, hrow, hst⟩ (by simp)
      · have hsm := online_congr (hots a ha)
        exact iff_of_false (fun h => hoff (hsm.mp h)) fun h => ha h.1

theorem online_fail (hreg : reg.Lawful) (hoff : ¬Online db a) : ¬Online (fail reg db agent) a := by
  unfold fail
  cases hmk : reg.markOffline with
  | some markOffline =>
    have hlaw := hreg.markOffline markOffline hmk db agent.id a
    intro h
    by_cases ha : agent.id = a
    · rw [if_pos ha] at hlaw
      obtain ⟨k, hk⟩ := online_iff_standing.mp h
      rw [hlaw] at hk
      obtain ⟨row, _, hstn⟩ := map_eq_some_iff.mp hk
      cases congrArg Prod.snd hstn
    · rw [if_neg ha] at hlaw
      exact hoff ((online_congr hlaw).mp h)
  | none =>
    cases hre : reg.registerAgent with
    | none => exact hoff
    | some registerAgent =>
      obtain ⟨⟨row, hrow, hst, _⟩, hots⟩ :=
        hreg.registerAgent registerAgent hre db { agent with status := .offline }
      intro ⟨row', hrow', honl⟩
      by_cases ha : agent.id = a
      · rw [← ha] at hrow'
        cases hrow.symm.trans hrow'
        rw [honl] at hst
        cases hst
      · exact hoff ((online_congr (hots a ha)).mp ⟨row', hrow', honl⟩)

theorem online_check (hreg : reg.Lawful) (hoff : ¬Online db a) {failureCounts : Text → Nat}
    {isHealthy : Bool} : Online (checkAgentHealth reg o.failureThreshold db failureCounts agent isHealthy).1 a ↔
      agent.id = a ∧ isHealthy = true ∧ agent.status = .offline ∧
        if reg.markOnline.isSome then (db.find a).isSome = true else reg.registerAgent.isSome = true := by
  unfold checkAgentHealth
  cases isHealthy with
  | true =>
    rw [if_pos rfl]
    by_cases hst : agent.status = .offline
    · dsimp only
      rw [if_pos hst, online_recover hreg hoff]
      simp only [hst, true_and]
    · dsimp only
      rw [if_neg hst]
      exact iff_of_false hoff fun h => hst h.2.2.1
  | false =>
    rw [if_neg Bool.false_ne_true]
    refine iff_of_false ?_ fun h => absurd h.2.1 Bool.false_ne_true
    dsimp only
    split
    · exact online_fail hreg hoff
    · exact hoff

end Checks

variable {e : Event}

/-- **What an event puts online.** -/
theorem online_iff (hreg : reg.Lawful) (h : (system reg o).step s e = some s')
    (hoff : ¬Online s.dog.db a) : Online s'.dog.db a ↔ Raises reg o s a e := by
  obtain ⟨s₁, hact, rfl⟩ := map_eq_some_iff.mp h
  cases e with
  | watchdog =>
    obtain ⟨dog, hdog, rfl⟩ := map_eq_some_iff.mp hact
    exact online_watchdog hoff hdog
  | synced =>
    cases hact
    exact online_handleEvent hoff
  | setAgentEnabled =>
    cases hact
    exact online_setAgentEnabled hoff
  | checkAllAgents | lookup =>
    cases hact
    exact iff_of_false hoff id
  | pinged i isHealthy =>
    simp only [State.act] at hact
    split at hact
    · rename_i agent rest hi
      cases hact
      refine (online_check hreg hoff).trans ?_
      simp only [Raises, hi]
      constructor
      · rintro ⟨ha, hrst⟩
        exact ⟨agent, rest, rfl, ha, hrst⟩
      · rintro ⟨agent', rest', heq, ha, hrst⟩
        obtain ⟨rfl, rfl⟩ := List.cons.inj (some.inj heq)
        exact ⟨ha, hrst⟩
    · cases hact
    · cases hact
  | answered =>
    obtain ⟨_, _, rfl⟩ := map_eq_some_iff.mp hact
    exact iff_of_false hoff id

/-! ## Every agent has a capability -/

section Capable

variable {db : AgentDb} {id : Text}

theorem capable_upsert {agent : AgentRecord} (hdb : Capable db) (hagt : agent.capabilities ≠ []) :
    Capable (upsert db agent) := by
  intro a row hrow
  rw [find_upsert] at hrow
  split at hrow
  · cases hfi : db.find a with
    | none | some =>
      rw [hfi] at hrow
      rw [← some.inj hrow]
      exact hagt
  · exact hdb a row hrow

theorem capable_of_map {db' : AgentDb} (hdb : Capable db)
    (h : ∀ a row', db'.find a = some row' → ∃ row, db.find a = some row ∧
      row'.capabilities = row.capabilities) : Capable db' := by
  intro a row' hrow'
  obtain ⟨row, hrow, hsm⟩ := h a row' hrow'
  rw [hsm]
  exact hdb a row hrow

theorem capable_amend {f : AgentRecord → AgentRecord} (hdb : Capable db)
    (hf : ∀ agent, (f agent).id = agent.id ∧ (f agent).capabilities = agent.capabilities) :
    Capable (amend db id f) := by
  refine capable_of_map hdb fun a row' hrow' => ?_
  rw [find_amend fun agent => (hf agent).1] at hrow'
  split at hrow'
  · obtain ⟨row, hrow, rfl⟩ := map_eq_some_iff.mp hrow'
    exact ⟨row, hrow, (hf row.toRecord).2⟩
  · exact ⟨row', hrow', rfl⟩

theorem capable_delete (hdb : Capable db) : Capable (delete db id) := by
  refine capable_of_map hdb fun a row' hrow' => ?_
  rw [find_delete] at hrow'
  split at hrow'
  · cases hrow'
  · exact ⟨row', hrow', rfl⟩

theorem capable_updateLastSeen (hdb : Capable db) (now : Nat) : Capable (updateLastSeen db now id) := by
  refine capable_of_map hdb fun a row' hrow' => ?_
  rw [updateLastSeen, find_updateWhere] at hrow'
  split at hrow'
  · obtain ⟨row, hrow, rfl⟩ := map_eq_some_iff.mp hrow'
    exact ⟨row, hrow, rfl⟩
  · exact ⟨row', hrow', rfl⟩

theorem capable_settle {w : WatchdogOptions} {t : Nat} {agents : List AgentRow} (hdb : Capable db) :
    Capable (Watchdog.settle w t agents db).1 := by
  refine capable_of_map hdb fun a row' hrow' => ?_
  have hchd := Watchdog.settle_changed w t a agents db
  rw [hrow'] at hchd
  generalize hfnd : db.find a = found at hchd
  cases hchd with
  | same => exact ⟨row', rfl, rfl⟩
  | @cleared row => exact ⟨row, rfl, rfl⟩

theorem capable_detect {w : WatchdogOptions} {t : Nat} (hdb : Capable db) :
    Capable (Watchdog.detect w t db) := by
  refine capable_of_map hdb fun a row' hrow' => ?_
  rw [Watchdog.find_detect] at hrow'
  obtain ⟨row, hrow, rfl⟩ := map_eq_some_iff.mp hrow'
  refine ⟨row, hrow, ?_⟩
  unfold Watchdog.marked
  split
  · rfl
  · rfl

theorem capable_of_standing {db' : AgentDb} {a : Text} (hdb : Capable db) {row' : AgentRow}
    (hrow' : db'.find a = some row') (hsm : (db'.find a).map standing = (db.find a).map standing) :
    row'.capabilities ≠ [] := by
  rw [hrow', map_some] at hsm
  obtain ⟨row, hrow, hstn⟩ := map_eq_some_iff.mp hsm.symm
  rw [show row'.capabilities = row.capabilities from (congrArg Prod.fst hstn).symm]
  exact hdb a row hrow

theorem capable_mark {mark : AgentDb → Text → AgentDb} {status : Status} (hdb : Capable db)
    (hmk : ∀ db agentId id, ((mark db agentId).find id).map standing =
      if agentId = id then (db.find id).map fun row => (row.capabilities, status)
      else (db.find id).map standing) : Capable (mark db id) := by
  intro a row' hrow'
  have hlaw := hmk db id a
  by_cases ha : id = a
  · rw [if_pos ha, hrow', map_some] at hlaw
    obtain ⟨row, hrow, hstn⟩ := map_eq_some_iff.mp hlaw.symm
    rw [show row'.capabilities = row.capabilities from (congrArg Prod.fst hstn).symm]
    exact hdb a row hrow
  · rw [if_neg ha] at hlaw
    exact capable_of_standing hdb hrow' hlaw

theorem capable_registerAgent (hreg : reg.Lawful) {registerAgent : AgentDb → AgentRegistration → AgentDb}
    (hre : registerAgent ∈ reg.registerAgent) (hdb : Capable db) (agent : AgentRegistration) :
    Capable (registerAgent db agent) := by
  intro a row' hrow'
  obtain ⟨⟨row, hrow, _, hty⟩, hots⟩ := hreg.registerAgent registerAgent hre db agent
  by_cases ha : agent.id = a
  · rw [← ha] at hrow'
    cases hrow.symm.trans hrow'
    exact ne_nil_of_mem hty
  · exact capable_of_standing hdb hrow' (hots a ha)

theorem capable_check (hreg : reg.Lawful) (hdb : Capable db) {failureCounts : Text → Nat}
    {agent : AgentRegistration} {isHealthy : Bool} :
    Capable (checkAgentHealth reg o.failureThreshold db failureCounts agent isHealthy).1 := by
  have hre : Capable (recover reg db agent) := by
    unfold recover
    split
    · rename_i markOnline hmk
      exact capable_mark hdb (hreg.markOnline markOnline hmk)
    · split
      · rename_i registerAgent hri
        exact capable_registerAgent hreg hri hdb _
      · exact hdb
  have hfa : Capable (fail reg db agent) := by
    unfold fail
    split
    · rename_i markOffline hmk
      exact capable_mark hdb (hreg.markOffline markOffline hmk)
    · split
      · rename_i registerAgent hri
        exact capable_registerAgent hreg hri hdb _
      · exact hdb
  unfold checkAgentHealth
  split
  · dsimp only
    split
    · exact hre
    · exact hdb
  · dsimp only
    split
    · exact hfa
    · exact hdb

theorem capable_handleEvent {now : Nat} {e : RegistryEvent} (hdb : Capable db) :
    Capable (handleEvent o.toXLM now db e) := by
  cases e with
  | agentReg => exact capable_upsert hdb (cons_ne_nil _ _)
  | agentDrg => exact capable_delete hdb
  | freeze | unfreeze | priceUpd => exact capable_amend hdb fun _ => ⟨rfl, rfl⟩
  | other => exact hdb

theorem capable_watchdog {e : Watchdog.Event} {dog dog' : Watchdog.State} (hdb : Capable dog.db)
    (hsc : ∀ data, e = .register data → data.capabilities ≠ [])
    (h : Watchdog.State.step o.watchdog dog e = some dog') : Capable dog'.db := by
  cases e with
  | tick =>
    cases h
    exact capable_settle (capable_detect hdb)
  | settled =>
    simp only [Watchdog.State.step] at h
    split at h
    · cases h
      exact capable_settle (capable_delete hdb)
    · cases h
    · cases h
  | heartbeat id =>
    cases h
    have hame : Watchdog.heartbeat dog.db dog.clock id = amend dog.db id fun agent =>
        { agent with lastSeenAt := dog.clock, status := .online } := rfl
    dsimp only
    rw [hame]
    exact capable_amend hdb fun _ => ⟨rfl, rfl⟩
  | updateLastSeen =>
    cases h
    exact capable_updateLastSeen hdb _
  | register data =>
    cases h
    exact capable_upsert hdb (hsc data rfl)
  | pass =>
    obtain ⟨_, h⟩ := ite_none_right_eq_some.mp h
    cases h
    exact hdb

end Capable

theorem capable (hreg : reg.Lawful) (h : (system reg o).Reachable Schema s) : Capable s.dog.db := by
  refine System.Reachable.invariant (I := fun s => Capable s.dog.db) ?_ ?_ h
  · intro s hsta a row hrow
    rw [hsta.1.1] at hrow
    cases hrow
  · intro s e s' _ hsc hdb hst
    obtain ⟨s₁, hact, rfl⟩ := map_eq_some_iff.mp hst
    cases e with
    | watchdog =>
      obtain ⟨dog, hdog, rfl⟩ := map_eq_some_iff.mp hact
      refine capable_watchdog hdb ?_ hdog
      intro data heq
      rw [heq] at hsc
      exact hsc
    | synced =>
      cases hact
      exact capable_handleEvent hdb
    | setAgentEnabled =>
      cases hact
      exact capable_amend hdb fun _ => ⟨rfl, rfl⟩
    | checkAllAgents | lookup =>
      cases hact
      exact hdb
    | pinged =>
      simp only [State.act] at hact
      split at hact
      · cases hact
        exact capable_check hreg hdb
      · cases hact
      · cases hact
    | answered =>
      obtain ⟨_, _, rfl⟩ := map_eq_some_iff.mp hact
      exact hdb

/-! ## Withheld agents -/

/-- Is an agent withheld after an event? -/
def Event.withholds (s : State) (e : Event) (a : Text) : Bool := e.frozen s.frozen a || e.disabled s a

/--
An event puts no agent online that is withheld after it, and no call of `agentsFor` is under way that has
found one of them online.
-/
def Spares (reg : AgentRegistry) (o : Options) (s : State) (e : Event) : Prop :=
  ∀ a, e.withholds s a = true → ¬Raises reg o s a e ∧
    ∀ k agentType found, s.lookups.get k = some (agentType, found) → ¬Returns agentType found a

theorem withheld_iff (hreg : reg.Lawful) (hca : Capable s.dog.db) : Withheld reg s ↔
    ∀ a, s.withheld a = true → ¬Online s.dog.db a ∧
      ∀ k agentType found, s.lookups.get k = some (agentType, found) → ¬Returns agentType found a := by
  refine forall₂_congr fun a _ => and_congr_left fun _ => ?_
  rw [← returned_iff hreg hca, not_exists]

theorem withheld_step (h : (system reg o).step s e = some s') :
    s'.withheld a = e.withholds s a := by
  obtain ⟨s₁, _, rfl⟩ := map_eq_some_iff.mp h
  rfl

theorem of_lookups (h : (system reg o).step s e = some s') {k : Nat} {agentType : Text}
    {found : List AgentRegistration} (hk : s'.lookups.get k = some (agentType, found)) :
    s.lookups.get k = some (agentType, found) ∨
      s'.dog.db = s.dog.db ∧ found = reg.getAgents s'.dog.db (some agentType) := by
  obtain ⟨s₁, hact, rfl⟩ := map_eq_some_iff.mp h
  cases e with
  | watchdog =>
    obtain ⟨dog, hdog, rfl⟩ := map_eq_some_iff.mp hact
    exact .inl hk
  | synced | setAgentEnabled | checkAllAgents =>
    cases hact
    exact .inl hk
  | pinged =>
    simp only [State.act] at hact
    split at hact
    · cases hact
      exact .inl hk
    · cases hact
    · cases hact
  | lookup =>
    cases hact
    rcases Register.of_get_add hk with ⟨_, heq⟩ | hold
    · cases heq
      exact .inr ⟨rfl, rfl⟩
    · exact .inl hold
  | answered =>
    obtain ⟨_, _, rfl⟩ := map_eq_some_iff.mp hact
    exact .inl (Register.of_get_drop hk).1

theorem offline_amend {db : AgentDb} {f : AgentRecord → AgentRecord}
    (hf : ∀ agent, (f agent).id = agent.id ∧ (f agent).status = .offline) : ¬Online (amend db a f) a := by
  rw [online_amend fun agent => (hf agent).1, if_pos rfl]
  intro ⟨row, _, honl⟩
  rw [(hf row.toRecord).2] at honl
  cases honl

theorem offline_freeze (toXLM : Int → Rat) (now : Nat) (db : AgentDb) :
    ¬Online (handleEvent toXLM now db (.freeze a)) a := offline_amend fun _ => ⟨rfl, rfl⟩

theorem offline_disable (now : Nat) (db : AgentDb) : ¬Online (setAgentEnabled now db a false) a :=
  offline_amend fun _ => ⟨rfl, rfl⟩

theorem newly_withheld (h : (system reg o).step s e = some s') (hbf : s.withheld a = false)
    (haf : e.withholds s a = true) :
    ¬Online s'.dog.db a ∧ s'.lookups = s.lookups ∧ ¬Raises reg o s a e := by
  obtain ⟨hfrz, hdi⟩ := Bool.or_eq_false_iff.mp hbf
  obtain ⟨s₁, hact, rfl⟩ := map_eq_some_iff.mp h
  have hsm : e.frozen s.frozen a = s.frozen a → e.disabled s a = s.disabled a → False := by
    intro hf hd
    rw [Event.withholds, hf, hd, hfrz, hdi] at haf
    cases haf
  cases e with
  | watchdog | checkAllAgents | pinged | lookup | answered => exact (hsm rfl rfl).elim
  | synced e =>
    cases hact
    cases e with
    | agentReg | agentDrg | priceUpd | other => exact (hsm rfl rfl).elim
    | unfreeze =>
      refine (hsm ?_ rfl).elim
      rw [Event.frozen, update_apply, hfrz, ite_self]
    | freeze agentId =>
      by_cases ha : a = agentId
      · rw [ha]
        exact ⟨offline_freeze o.toXLM s.dog.clock s.dog.db, rfl, id⟩
      · refine (hsm ?_ rfl).elim
        rw [Event.frozen, update_of_ne ha]
  | setAgentEnabled agentId enabled =>
    cases hact
    by_cases ha : a = agentId ∧ enabled = false
    · obtain ⟨rfl, rfl⟩ := ha
      exact ⟨offline_disable s.dog.clock s.dog.db, rfl, fun hra => absurd hra.2.1 Bool.false_ne_true⟩
    · refine (hsm rfl ?_).elim
      rw [Event.disabled]
      split
      · by_cases hid : a = agentId
        · have henb : enabled = true := by
            cases enabled with
            | true => rfl
            | false => exact absurd ⟨hid, rfl⟩ ha
          rw [hid, update_self, henb, ← hid, hdi]
          rfl
        · rw [update_of_ne hid]
      · rfl

/-- **One step keeps the agents withheld exactly when it spares them.** -/
theorem withheld_step_iff (hreg : reg.Lawful) (hr : (system reg o).Reachable Schema s) (hsc : Schema s e)
    (h : (system reg o).step s e = some s') (hI : Withheld reg s) :
    Withheld reg s' ↔ Spares reg o s e := by
  have hbf := (withheld_iff hreg (capable hreg hr)).mp hI
  rw [withheld_iff hreg (capable hreg (hr.tail hsc h))]
  refine forall_congr' fun a => ?_
  rw [withheld_step h]
  refine forall_congr' fun haf => ?_
  cases hold : s.withheld a with
  | true =>
    obtain ⟨hoff, hlo⟩ := hbf a hold
    rw [online_iff hreg h hoff]
    refine and_congr_right fun hra => ⟨fun _ => hlo, fun _ => ?_⟩
    intro k agentType found hk
    rcases of_lookups h hk with hk | ⟨_, rfl⟩
    · exact hlo k agentType found hk
    · intro hre
      have hca := capable hreg (hr.tail hsc h)
      have honl := (returned_iff hreg hca).mp ⟨agentType, hre⟩
      exact hra ((online_iff hreg h hoff).mp honl)
  | false =>
    obtain ⟨hoff, hsm, hra⟩ := newly_withheld h hold haf
    rw [hsm]
    exact and_congr_left fun _ => iff_of_true hoff hra

/--
**A withheld agent is returned by no call of `agentsFor`, exactly as long as nothing puts it online.**
-/
theorem withheld_not_dispatched (hreg : reg.Lawful) {s : State} {log : List (State × Event)}
    (h : (system reg o).Logged Schema s log) :
    (∀ p ∈ log.map Prod.fst ++ [s], Withheld reg p) ↔ ∀ entry ∈ log, Spares reg o entry.1 entry.2 := by
  refine h.forall_passed_iff ?_ ?_
  · intro s hsta a ha
    rw [State.withheld, hsta.2.2.2.1, hsta.2.2.2.2] at ha
    cases ha
  · intro s e s' hr hsc hst hI
    exact withheld_step_iff hreg hr hsc hst hI

/-! ## A freeze, and a heartbeat after it -/

section Sample

local instance : LawfulBEq Text := inferInstance

/-- A row as the registry lists it, for the type it is asked for. -/
def registration (type : Option Text) (row : AgentRow) : AgentRegistration where
  id := row.id
  type := type.getD []
  endpoint := row.endpoint
  cost := row.pricingXLM
  status := row.status
  reputation := some row.reputationScore

/-- A registry that reads the table and can mark agents. -/
def tableRegistry : AgentRegistry where
  getAgents db type := (db.rows.filter fun row => type.all fun t => decide (t ∈ row.capabilities)).map
    (registration type)
  registerAgent := none
  markOffline := some fun db id => updateWhere db id (fun row => { row with status := .offline }) fun _ => rfl
  markOnline := some fun db id => updateWhere db id (fun row => { row with status := .online }) fun _ => rfl

theorem tableRegistry_lawful : tableRegistry.Lawful := by
  refine ⟨?_, ?_, ?_, ?_, ?_⟩
  · intro db type agent hagt
    obtain ⟨row, hrow, rfl⟩ := List.mem_map.mp hagt
    exact ⟨row, find_eq_some.mpr ⟨(mem_filter.mp hrow).1, rfl⟩, rfl⟩
  · intro db type row hrow hty
    refine ⟨registration (some type) row, List.mem_map_of_mem (mem_filter.mpr ⟨hrow, ?_⟩), rfl⟩
    exact decide_eq_true hty
  · intro f hf
    cases hf
  · intro f hf db agentId id
    rw [← some.inj hf, find_updateWhere]
    split
    · rw [Option.map_map]
      rfl
    · rfl
  · intro f hf db agentId id
    rw [← some.inj hf, find_updateWhere]
    split
    · rw [Option.map_map]
      rfl
    · rfl

def sampleOptions : Options where
  watchdog := Watchdog.byDefault
  failureThreshold := 3
  toXLM := fun stroops => (stroops : Rat) / 10000000

def emptyState : State := ⟨⟨0, .empty _, []⟩, [], fun _ => 0, .empty, fun _ => false, fun _ => false⟩

theorem start_emptyState : (system tableRegistry sampleOptions).start emptyState :=
  ⟨⟨rfl, rfl⟩, rfl, rfl, rfl, rfl⟩

instance (s : State) (e : Event) : Decidable (Schema s e) := by
  unfold Schema
  split
  · infer_instance
  · infer_instance

def agentA : Watchdog.Registration where
  agentId := ['a']
  capabilities := [['x']]
  pricingXLM := 1
  endpoint := "https://a.example".toList
  stellarPublicKey := ['G']

theorem withheld_not_dispatched_freeze : ∃ (s : State) (log : List (State × Event)),
    s.withheld ['a'] = true ∧ (s.dog.db.find ['a']).isSome ∧
      ((∀ p ∈ log.map Prod.fst ++ [s], Withheld tableRegistry p) ↔
        ∀ entry ∈ log, Spares tableRegistry sampleOptions entry.1 entry.2) := by
  have hpl : ((system tableRegistry sampleOptions).play Schema
      [.watchdog (.register agentA), .synced (.freeze ['a']), .lookup ['x'], .answered 0] emptyState).any
      (fun s => s.withheld ['a'] && (s.dog.db.find ['a']).isSome) = true := by
    decide
  obtain ⟨s, hs, hfcs⟩ := (Option.any_eq_true _ _).mp hpl
  obtain ⟨hwi, hfnd⟩ := Bool.and_eq_true_iff.mp hfcs
  exact ⟨s, _, hwi, hfnd,
    withheld_not_dispatched tableRegistry_lawful (logged_of_play start_emptyState hs)⟩

/-- **A heartbeat of a frozen agent.** The route puts the agent online again, and it is dispatched to. -/
theorem frozen_dispatched : ∃ (s : State) (log : List (State × Event)),
    (system tableRegistry sampleOptions).Logged Schema s log ∧
      ¬∀ p ∈ log.map Prod.fst ++ [s], Withheld tableRegistry p := by
  have hpl : ((system tableRegistry sampleOptions).play Schema
      [.watchdog (.register agentA), .synced (.freeze ['a']), .watchdog (.heartbeat ['a'])] emptyState).any
      (fun s => s.withheld ['a'] && (tableRegistry.getAgents s.dog.db (some ['x'])).any fun agent =>
        decide (agent.id = ['a'] ∧ agent.status = .online)) = true := by
    decide
  obtain ⟨s, hs, hfcs⟩ := (Option.any_eq_true _ _).mp hpl
  obtain ⟨hwi, hfnd⟩ := Bool.and_eq_true_iff.mp hfcs
  obtain ⟨agent, hagt, honl⟩ := List.any_eq_true.mp hfnd
  refine ⟨s, _, logged_of_play start_emptyState hs, fun hall => ?_⟩
  have hla := hall s (mem_append_right _ (mem_singleton_self _))
  exact (hla ['a'] hwi).1 ['x'] (returns_iff.mpr ⟨agent, hagt, of_decide_eq_true honl⟩)

end Sample

end AiNet.Agents.Dispatch
