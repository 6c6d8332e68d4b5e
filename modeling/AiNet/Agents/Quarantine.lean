import AiNet.Agents.Watchdog
import AiNet.Core.Trace

/-!
# Who is withdrawn, and who is deleted

A mark that stands on an offline row was set by a tick, and since that tick the agent has been offline
and was not heard: `quiet`. A heartbeat of a marked agent brings it online again and leaves the mark, so
a deletion or a tick that comes upon such a row goes wrong. `correct_iff`: a step deletes only agents
that were withdrawn for the whole grace period, and a tick withdraws all that are silent, exactly when
the step is `Noticed`.
-/

namespace AiNet.Agents.Watchdog

open Core List Option UniqueTable

variable {o : WatchdogOptions} {s s' : State} {e : Event} {a : Text} {row row' : AgentRow} {m : Nat}
  {log : List (State × Event)}

/-! ## Steps -/

theorem of_step (h : (watchdog o).step s e = some s') :
    match e with
    | .tick => s' = { s with
        db := (settle o s.clock (listStaleAgents (detect o s.clock s.db)) (detect o s.clock s.db)).1
        ticks := s.ticks ++
          [(settle o s.clock (listStaleAgents (detect o s.clock s.db)) (detect o s.clock s.db)).2] }
    | .settled i _ => ∃ nowMs agent rest, s.ticks[i]? = some (.awaiting nowMs agent rest) ∧ s' = { s with
          db := (settle o nowMs rest (delete s.db agent.id)).1
          ticks := s.ticks.set i (settle o nowMs rest (delete s.db agent.id)).2 }
    | .heartbeat id => s' = { s with db := heartbeat s.db s.clock id }
    | .updateLastSeen id => s' = { s with db := Agents.updateLastSeen s.db s.clock id }
    | .register data => s' = { s with db := upsert s.db (data.record s.clock) }
    | .pass clock => s.clock ≤ clock ∧ s' = { s with clock := clock } := by
  cases e with
  | tick | heartbeat | updateLastSeen | register => exact (some.inj h).symm
  | settled i failed =>
    simp only [watchdog, State.step] at h
    split at h
    · rename_i nowMs agent rest hrun
      exact ⟨nowMs, agent, rest, hrun, (some.inj h).symm⟩
    · cases h
    · cases h
  | pass =>
    obtain ⟨hle, h⟩ := ite_none_right_eq_some.mp h
    exact ⟨hle, (some.inj h).symm⟩

/-- A heartbeat or a registration brings an agent online and leaves its mark. -/
structure Heard (clock : Nat) (found found' : Option AgentRow) : Prop where
  row : ∀ row', found' = some row' → row'.status = .online ∧ row'.lastSeenAt = clock ∧
    row'.staleSince = found.bind AgentRow.staleSince
  stays : found.isSome → found'.isSome

theorem heard_of_step {id : Text} (hhrs : e.hears = some id) (h : (watchdog o).step s e = some s')
    (a : Text) :
    s'.clock = s.clock ∧ s'.ticks = s.ticks ∧ (id ≠ a → s'.db.find a = s.db.find a) ∧
      (id = a → Heard s.clock (s.db.find a) (s'.db.find a)) := by
  cases e with
  | heartbeat id' =>
    obtain rfl := some.inj hhrs
    have heq : s' = { s with db := heartbeat s.db s.clock id' } := of_step h
    rw [heq]
    refine ⟨rfl, rfl, ?_, ?_⟩
    · intro hne
      simp only [heartbeat, findById]
      cases hfi : s.db.find id' with
      | none => rfl
      | some =>
        obtain ⟨_, rfl⟩ := find_eq_some.mp hfi
        exact (find_upsert _ a).trans (if_neg hne)
    · rintro rfl
      simp only [heartbeat, findById]
      cases hfi : s.db.find id' with
      | none =>
        simp only [map_none, hfi]
        exact ⟨fun row' hrow' => (by cases hrow'), fun hso => hso⟩
      | some row =>
        obtain ⟨_, rfl⟩ := find_eq_some.mp hfi
        simp only [map_some, find_upsert, hfi]
        rw [if_pos (show row.toRecord.id = row.id from rfl)]
        refine ⟨fun row' hrow' => ?_, fun _ => rfl⟩
        rw [← some.inj hrow']
        exact ⟨rfl, rfl, rfl⟩
  | updateLastSeen id' =>
    obtain rfl := some.inj hhrs
    have heq : s' = { s with db := Agents.updateLastSeen s.db s.clock id' } := of_step h
    rw [heq]
    refine ⟨rfl, rfl, ?_, ?_⟩
    · intro hne
      simp only [Agents.updateLastSeen, find_updateWhere, if_neg hne]
    rintro rfl
    simp only [Agents.updateLastSeen, find_updateWhere, if_true]
    cases hfi : s.db.find id' with
    | none => exact ⟨fun row' hrow' => (by cases hrow'), fun hso => hso⟩
    | some =>
      refine ⟨fun row' hrow' => ?_, fun _ => rfl⟩
      rw [← some.inj hrow']
      exact ⟨rfl, rfl, rfl⟩
  | register data =>
    obtain rfl := some.inj hhrs
    have heq : s' = { s with db := upsert s.db (data.record s.clock) } := of_step h
    rw [heq]
    refine ⟨rfl, rfl, fun hne => (find_upsert _ a).trans (if_neg hne), ?_⟩
    rintro rfl
    simp only [find_upsert]
    rw [if_pos (show (data.record s.clock).id = data.agentId from rfl)]
    refine ⟨fun row' hrow' => ?_, fun _ => rfl⟩
    rw [← some.inj hrow']
    cases hfi : s.db.find data.agentId with
    | none | some => exact ⟨rfl, rfl, rfl⟩
  | tick | settled | pass => cases hhrs

theorem row_tick (h : (watchdog o).step s .tick = some s') (a : Text) :
    Changed o s.clock (listStaleAgents (detect o s.clock s.db)) a
      ((s.db.find a).map (marked o s.clock)) (s'.db.find a) := by
  have heq := of_step h
  simp only at heq
  rw [heq, ← find_detect]
  exact settle_changed o s.clock a _ _

variable {agent : AgentRow}

theorem row_settled {i t : Nat} {failed : Bool} {rest : List AgentRow}
    (hrun : s.ticks[i]? = some (.awaiting t agent rest))
    (h : (watchdog o).step s (.settled i failed) = some s') (a : Text) :
    Changed o t rest a (if agent.id = a then none else s.db.find a) (s'.db.find a) := by
  obtain ⟨t', agent', rest', hrun', rfl⟩ := of_step h
  obtain ⟨rfl, rfl, rfl⟩ := TickRun.awaiting.inj (some.inj (hrun.symm.trans hrun'))
  rw [← find_delete]
  exact settle_changed o t a rest _

theorem snapshot_eq (hmem : agent ∈ listStaleAgents (detect o s.clock s.db))
    (hfi : s.db.find agent.id = some row) :
    agent = marked o s.clock row := by
  have hrow : (detect o s.clock s.db).find agent.id = some agent :=
    find_eq_some.mpr ⟨(mem_listStaleAgents.mp hmem).1, rfl⟩
  rw [find_detect, hfi] at hrow
  exact (some.inj hrow).symm

theorem marked_lastSeenAt (o : WatchdogOptions) (t : Nat) (row : AgentRow) :
    (marked o t row).lastSeenAt = row.lastSeenAt := by
  unfold marked
  split
  · rfl
  · rfl

/-! ## Marks and ticks -/

/-- A row that is not marked is online; an offline one was silent for an interval when it was marked. -/
structure RowSound (o : WatchdogOptions) (clock : Nat) (row : AgentRow) : Prop where
  seen : row.lastSeenAt ≤ clock
  online : row.staleSince = none → row.status = .online
  mark : ∀ m, row.staleSince = some m → m ≤ clock ∧
    (row.status = .offline → row.lastSeenAt + o.intervalMs ≤ m)

structure Sound (o : WatchdogOptions) (s : State) : Prop where
  rows : ∀ a row, s.db.find a = some row → RowSound o s.clock row
  ticks : ∀ t agent rest, .awaiting t agent rest ∈ s.ticks → o.onEvict = true

theorem RowSound.marked (h : RowSound o s.clock row) : RowSound o s.clock (marked o s.clock row) := by
  unfold Watchdog.marked
  split
  · rename_i hms
    refine ⟨h.seen, nofun, fun m hm => ?_⟩
    cases hm
    refine ⟨Nat.le_refl _, fun _ => ?_⟩
    have hsil := hms.2.1
    have hpos := o.intervalPos
    simp only
    omega
  · exact h

theorem RowSound.changed {agents : List AgentRow} {t clock : Nat} {found : Option AgentRow}
    (h : ∀ row, found = some row → RowSound o clock row)
    (hchd : Changed o t agents a found (some row')) : RowSound o clock row' := by
  cases hchd with
  | same => exact h row' rfl
  | @cleared row agent =>
    exact ⟨(h row rfl).seen, fun _ => rfl, fun m hm => (by cases hm)⟩

theorem Sound.awaiting {agents : List AgentRow} {db : AgentDb} {t t' : Nat} {rest : List AgentRow}
    (h : .awaiting t' agent rest = (settle o t agents db).2) :
    o.onEvict = true := by
  have hpa : settle o t agents db = (_, .awaiting t' agent rest) := Prod.ext rfl h.symm
  exact (settle_awaiting hpa).2.1

theorem Sound.step (hS : Sound o s) (h : (watchdog o).step s e = some s') : Sound o s' := by
  cases hhrs : e.hears with
  | some id =>
    obtain ⟨hclk, htic, _⟩ := heard_of_step hhrs h []
    refine ⟨fun a row' hrow' => ?_, ?_⟩
    · obtain ⟨_, _, hoth, hsf⟩ := heard_of_step hhrs h a
      rw [hclk]
      by_cases hid : id = a
      · obtain ⟨honl, hsn, hsle⟩ := (hsf hid).row row' hrow'
        refine ⟨Nat.le_of_eq hsn, fun _ => honl, fun m hm => ?_⟩
        rw [hsle] at hm
        obtain ⟨row, hrow, hm⟩ := bind_eq_some_iff.mp hm
        refine ⟨((hS.rows a row hrow).mark m hm).1, fun hoff => ?_⟩
        rw [honl] at hoff
        cases hoff
      · rw [hoth hid] at hrow'
        exact hS.rows a row' hrow'
    · rw [htic]
      exact hS.ticks
  | none =>
    cases e with
    | tick =>
      have hrw := row_tick h
      have heq := of_step h
      simp only at heq
      refine ⟨fun a row' hrow' => ?_, fun t agent rest hmem => ?_⟩
      · have hchd := hrw a
        rw [hrow'] at hchd
        have hclk : s'.clock = s.clock := by rw [heq]
        rw [hclk]
        refine RowSound.changed (fun row hrow => ?_) hchd
        obtain ⟨row₀, hrow₀, rfl⟩ := map_eq_some_iff.mp hrow
        exact (hS.rows a row₀ hrow₀).marked
      · rw [heq] at hmem
        rcases mem_append.mp hmem with hmem | hmem
        · exact hS.ticks t agent rest hmem
        · exact Sound.awaiting (mem_singleton.mp hmem)
    | settled =>
      obtain ⟨t, agent, rest, hrun, heq⟩ := of_step h
      have hrw := row_settled hrun h
      refine ⟨fun a row' hrow' => ?_, fun t' agent' rest' hmem => ?_⟩
      · have hchd := hrw a
        rw [hrow'] at hchd
        have hclk : s'.clock = s.clock := by rw [heq]
        rw [hclk]
        refine RowSound.changed (fun row hrow => ?_) hchd
        split at hrow
        · cases hrow
        · exact hS.rows a row hrow
      · rw [heq] at hmem
        rcases mem_or_eq_of_mem_set hmem with hmem | hmem
        · exact hS.ticks t' agent' rest' hmem
        · exact Sound.awaiting hmem
    | pass =>
      obtain ⟨hle, rfl⟩ := of_step h
      refine ⟨fun a row hrow => ?_, hS.ticks⟩
      have hsnd := hS.rows a row hrow
      exact ⟨Nat.le_trans hsnd.seen hle, hsnd.online, fun m hm =>
        ⟨Nat.le_trans (hsnd.mark m hm).1 hle, (hsnd.mark m hm).2⟩⟩
    | heartbeat | updateLastSeen | register => cases hhrs

theorem sound {p : State → Event → Prop} (h : (watchdog o).Reachable p s) : Sound o s := by
  refine System.Reachable.invariant ?_ (fun s e s' _ _ hS hst => hS.step hst) h
  intro s hsta
  obtain ⟨hdb, htic⟩ := hsta
  refine ⟨fun a row hrow => ?_, ?_⟩
  · rw [hdb] at hrow
    cases hrow
  · rw [htic]
    exact fun _ _ _ h => absurd h not_mem_nil

/-! ## Since the mark -/

def Withdrawn (a : Text) (s : State) : Prop := ∃ row, s.db.find a = some row ∧ row.status = .offline

/-- A tick marked the agent at `m`; since then it has been offline and was not heard. -/
def Quiet (a : Text) (m : Nat) (log : List (State × Event)) : Prop :=
  ∃ before p since, log = before ++ (p, .tick) :: since ∧ p.clock = m ∧
    ∀ entry ∈ since, Withdrawn a entry.1 ∧ entry.2.hears ≠ some a

theorem Quiet.snoc (h : Quiet a m log) (hs : Withdrawn a s) (he : e.hears ≠ some a) :
    Quiet a m (log ++ [(s, e)]) := by
  obtain ⟨before, p, since, rfl, hp, hsin⟩ := h
  refine ⟨before, p, since ++ [(s, e)], ?_, hp, ?_⟩
  · rw [append_assoc, cons_append]
  · intro entry hent
    rcases mem_append.mp hent with hent | hent
    · exact hsin entry hent
    · rw [mem_singleton.mp hent]
      exact ⟨hs, he⟩

theorem offline_of_step (h : (watchdog o).step s e = some s') (hrow' : s'.db.find a = some row')
    (hoff : row'.status = .offline) :
    (s.db.find a = some row' ∧ e.hears ≠ some a) ∨ (e = .tick ∧ row'.staleSince = some s.clock) := by
  cases hhrs : e.hears with
  | some id =>
    obtain ⟨_, _, hoth, hsf⟩ := heard_of_step hhrs h a
    by_cases hid : id = a
    · have honl := ((hsf hid).row row' hrow').1
      rw [hoff] at honl
      cases honl
    · rw [hoth hid] at hrow'
      exact .inl ⟨hrow', fun heq => hid (some.inj heq)⟩
  | none =>
    have hqt : (none : Option Text) ≠ some a := nofun
    cases e with
    | tick =>
      have hchd := row_tick h a
      rw [hrow'] at hchd
      generalize hfnd : (s.db.find a).map (marked o s.clock) = found at hchd
      cases hchd with
      | same =>
        obtain ⟨row, hrow, hmkd⟩ := map_eq_some_iff.mp hfnd
        unfold marked at hmkd
        split at hmkd
        · rw [← hmkd]
          exact .inr ⟨rfl, rfl⟩
        · rw [← hmkd]
          exact .inl ⟨hrow, hqt⟩
      | cleared => cases hoff
    | settled =>
      obtain ⟨t, agent, rest, hrun, _⟩ := of_step h
      have hchd := row_settled hrun h a
      rw [hrow'] at hchd
      generalize hfnd : (if agent.id = a then none else s.db.find a) = found at hchd
      cases hchd with
      | same =>
        split at hfnd
        · cases hfnd
        · exact .inl ⟨hfnd, hqt⟩
      | cleared => cases hoff
    | pass =>
      obtain ⟨_, rfl⟩ := of_step h
      exact .inl ⟨hrow', hqt⟩
    | heartbeat | updateLastSeen | register => cases hhrs

/-- **Since its mark was set, an offline agent has been offline and was not heard.** -/
theorem quiet (h : (watchdog o).Logged (fun _ _ => True) s log) (hrow : s.db.find a = some row)
    (hmk : row.staleSince = some m) (hoff : row.status = .offline) : Quiet a m log := by
  induction h generalizing row m with
  | start hsta =>
    rw [hsta.1] at hrow
    cases hrow
  | @step s s' e log _ _ hst ih =>
    rcases offline_of_step hst hrow hoff with ⟨hbf, hhrs⟩ | ⟨rfl, hnew⟩
    · exact (ih hbf hmk hoff).snoc ⟨row, hbf, hoff⟩ hhrs
    · refine ⟨log, s, [], rfl, ?_, fun _ h => absurd h not_mem_nil⟩
      exact some.inj (hnew.symm.trans hmk)

/-! ## When a step is right -/

/-- For a grace period, an agent has been offline and was not heard, nor for an interval before that. -/
def WasSilent (o : WatchdogOptions) (log : List (State × Event)) (s : State) (a : Text) : Prop :=
  ∃ row m, s.db.find a = some row ∧ row.status = .offline ∧ row.staleSince = some m ∧
    m + o.graceMs ≤ s.clock ∧ row.lastSeenAt + o.intervalMs ≤ m ∧ Quiet a m log

/-- Only silent agents are deleted, and a tick takes all of them offline. -/
structure Correct (o : WatchdogOptions) (log : List (State × Event)) (s : State) (e : Event)
    (s' : State) : Prop where
  deleted : ∀ a, (s.db.find a).isSome → s'.db.find a = none → WasSilent o log s a
  quarantined : e = .tick → ∀ a row row', s.db.find a = some row →
    row.lastSeenAt + o.intervalMs < s.clock → s'.db.find a = some row' →
      row'.status = .offline ∧ row'.staleSince.isSome

/--
A tick finds no marked agent that came back more than an interval ago; and an agent that a tick has
awaited `onEvict` for is offline, under a mark of the grace period's age.
-/
def Noticed (o : WatchdogOptions) (s : State) : Event → Prop
  | .tick => ∀ row ∈ s.db.rows, row.status = .online → row.staleSince.isSome →
      s.clock ≤ row.lastSeenAt + o.intervalMs
  | .settled i _ => ∀ t agent rest, s.ticks[i]? = some (.awaiting t agent rest) →
      ∀ row, s.db.find agent.id = some row →
        row.status = .offline ∧ ∃ m, row.staleSince = some m ∧ m + o.graceMs ≤ s.clock
  | .heartbeat _ => True
  | .updateLastSeen _ => True
  | .register _ => True
  | .pass _ => True

theorem marked_of_offline {t : Nat} (h : row.status = .offline) : marked o t row = row := by
  unfold marked
  rw [if_neg]
  rintro ⟨honl, _⟩
  rw [h] at honl
  cases honl

theorem marked_of_marked {t : Nat} (h : row.staleSince.isSome) : marked o t row = row := by
  unfold marked
  rw [if_neg]
  rintro ⟨_, _, hno⟩
  rw [hno] at h
  cases h

theorem Correct.tick_noticed (h : (watchdog o).step s .tick = some s')
    (hco : Correct o log s .tick s') : Noticed o s .tick := by
  intro row hrow honl hmkd
  have hfi : s.db.find row.id = some row := find_eq_some.mpr ⟨hrow, rfl⟩
  have hchd := row_tick h row.id
  rw [hfi, map_some, marked_of_marked hmkd] at hchd
  by_contra hsil
  cases hfi' : s'.db.find row.id with
  | none =>
    -- it was deleted while it was online
    have hgn : (s.db.find row.id).isSome := by
      rw [hfi]
      rfl
    obtain ⟨row₀, _, hrow₀, hoff, _⟩ := hco.deleted row.id hgn hfi'
    cases hfi.symm.trans hrow₀
    rw [honl] at hoff
    cases hoff
  | some row' =>
    -- or it is still online
    have hoff := (hco.quarantined rfl row.id row row' hfi (by omega) hfi').1
    rw [hfi'] at hchd
    cases hchd with
    | same =>
      rw [honl] at hoff
      cases hoff
    | cleared => cases hoff

theorem Noticed.tick_correct (hlog : (watchdog o).Logged (fun _ _ => True) s log)
    (h : (watchdog o).step s .tick = some s') (hni : Noticed o s .tick) :
    Correct o log s .tick s' := by
  have hS := sound hlog.reachable
  have hpos := o.gracePos
  constructor
  · intro a hso hne
    obtain ⟨row, hrow⟩ := isSome_iff_exists.mp hso
    obtain ⟨hmem, rfl⟩ := find_eq_some.mp hrow
    have hchd := row_tick h row.id
    rw [hrow, hne, map_some] at hchd
    generalize hmkRo : marked o s.clock row = row₁ at hchd
    generalize hgn : (none : Option AgentRow) = found at hchd
    cases hchd with
    | same | cleared => cases hgn
    | @deleted _ agent m hagt hkey hsil hmk hgrc hevi =>
      -- a mark of this tick is not due yet
      have hold : row₁ = row := by
        rw [← hmkRo]
        unfold marked at hmkRo ⊢
        split at hmkRo
        · rw [← hmkRo] at hmk
          cases hmk
          have hgrMs : 0 < o.graceMs := Nat.mul_pos hpos (by decide)
          omega
        · rename_i hno
          rw [if_neg hno]
      rw [hold] at hmk
      have hagRo : agent = marked o s.clock row := by
        refine snapshot_eq hagt ?_
        rw [hkey]
        exact hrow
      rw [hagRo, marked_lastSeenAt] at hsil
      have hoff : row.status = .offline := by
        cases hst : row.status with
        | offline => rfl
        | online =>
          have hfr := hni row hmem hst (by rw [hmk]; rfl)
          omega
      have hsnd := hS.rows _ row hrow
      have hle := (hsnd.mark m hmk).1
      exact ⟨row, m, hrow, hoff, hmk, by omega, (hsnd.mark m hmk).2 hoff, quiet hlog hrow hmk hoff⟩
  · intro _ a row row' hrow hsil hrow'
    obtain ⟨hmem, rfl⟩ := find_eq_some.mp hrow
    have hchd := row_tick h row.id
    rw [hrow, hrow', map_some] at hchd
    have hsnd := hS.rows _ row hrow
    generalize hmkRo : marked o s.clock row = row₁ at hchd
    cases hchd with
    | same =>
      cases hst : row.status with
      | offline =>
        rw [← hmkRo, marked_of_offline hst]
        refine ⟨hst, ?_⟩
        rw [isSome_iff_ne_none]
        intro hne
        have honl := hsnd.online hne
        rw [hst] at honl
        cases honl
      | online =>
        cases hsle : row.staleSince with
        | some =>
          have hfr := hni row hmem hst (by rw [hsle]; rfl)
          omega
        | none =>
          rw [← hmkRo, marked, if_pos ⟨hst, by omega, hsle⟩]
          exact ⟨rfl, rfl⟩
    | @cleared _ agent hagt hkey hfr =>
      have hagRo : agent = marked o s.clock row := by
        refine snapshot_eq hagt ?_
        rw [hkey]
        exact hrow
      rw [hagRo, marked_lastSeenAt] at hfr
      omega

/-- **A step is right exactly when it is noticed in time who came back.** -/
theorem correct_iff (hlog : (watchdog o).Logged (fun _ _ => True) s log)
    (h : (watchdog o).step s e = some s') : Correct o log s e s' ↔ Noticed o s e := by
  have hS := sound hlog.reachable
  cases hhrs : e.hears with
  | some id =>
    have hno : Noticed o s e := by
      cases e with
      | tick | settled => cases hhrs
      | heartbeat | updateLastSeen | register | pass => trivial
    refine ⟨fun _ => hno, fun _ => ⟨fun a hso hne => ?_, fun hti => ?_⟩⟩
    · obtain ⟨_, _, hoth, hsf⟩ := heard_of_step hhrs h a
      by_cases hid : id = a
      · have hsty := (hsf hid).stays hso
        rw [hne] at hsty
        cases hsty
      · rw [← hoth hid, hne] at hso
        cases hso
    · rw [hti] at hhrs
      cases hhrs
  | none =>
    cases e with
    | tick => exact ⟨fun hco => hco.tick_noticed h, fun hno => hno.tick_correct hlog h⟩
    | settled i failed =>
      constructor
      · intro hco t agent rest hrun row hrow
        have hchd := row_settled hrun h agent.id
        rw [if_pos rfl] at hchd
        have hso : (s.db.find agent.id).isSome := by
          rw [hrow]
          rfl
        obtain ⟨row₀, m, hrow₀, hoff, hmk, hgrc, _⟩ :=
          hco.deleted agent.id hso hchd.of_deleted
        cases hrow.symm.trans hrow₀
        exact ⟨hoff, m, hmk, hgrc⟩
      · intro hno
        refine ⟨fun a hso hne => ?_, by rintro ⟨⟩⟩
        obtain ⟨row, hrow⟩ := isSome_iff_exists.mp hso
        obtain ⟨t, agent, rest, hrun, _⟩ := of_step h
        have hchd := row_settled hrun h a
        split at hchd
        · rename_i hkey
          rw [← hkey] at hrow ⊢
          obtain ⟨hoff, m, hmk, hgrc⟩ := hno t agent rest hrun row hrow
          exact ⟨row, m, hrow, hoff, hmk, hgrc,
            ((hS.rows _ row hrow).mark m hmk).2 hoff, quiet hlog hrow hmk hoff⟩
        · -- no other agent goes without an await
          rw [hrow, hne] at hchd
          generalize hgn : (none : Option AgentRow) = found at hchd
          cases hchd with
          | same | cleared => cases hgn
          | deleted _ _ _ _ _ hevi =>
            rw [hS.ticks t agent rest (mem_of_getElem? hrun)] at hevi
            cases hevi
    | pass =>
      obtain ⟨_, rfl⟩ := of_step h
      refine ⟨fun _ => trivial, fun _ => ⟨fun a hso hne => ?_, by rintro ⟨⟩⟩⟩
      rw [hne] at hso
      cases hso
    | heartbeat | updateLastSeen | register => cases hhrs

end AiNet.Agents.Watchdog
