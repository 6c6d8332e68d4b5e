import AiNet.Idempotency.Store

/-!
# Fencing

A row that has not expired stays as it is, whatever the callers do, but for the promotion or the
release that names its reservation id. While it stays, every reservation of its slot that looks at
the table finds it: it is answered by a conflict while the row is pending, and by the stored response
from its promotion on. The one reservation that does not look again is the one that had already found
an expired row in the last of its three attempts; it gives up with a conflict.
-/

namespace AiNet.Idempotency

open Core List Option System UniqueTable Nat

variable {ω κ ρ β : Type} [DecidableEq ω] [DecidableEq κ] [DecidableEq ρ]

/-! ## What each statement leaves alone -/

section Rows

variable {table : Table ω κ ρ β} {row : Row ω κ ρ β} {slot : ω × κ} {reservationId : ρ}

theorem Row.heldBy_iff : row.heldBy slot reservationId = true ↔
    row.slot = slot ∧ row.status = .pending ∧ row.reservationId = reservationId := by
  unfold Row.heldBy
  simp [and_assoc]

section

omit [DecidableEq ρ]

theorem mem_reserveStmt {table' : Table ω κ ρ β} {new : Row ω κ ρ β}
    (h : reserveStmt table new = some table') (hrow : row ∈ table.rows) : row ∈ table'.rows := by
  rw [(insert_eq_some h).1]
  exact mem_append_left _ hrow

theorem mem_deleteExpiredStmt {now : Nat} (hrow : row ∈ table.rows) (hlv : now < row.expiresAt) :
    row ∈ (deleteExpiredStmt table slot now).rows := by
  unfold deleteExpiredStmt
  rw [mem_keep]
  refine ⟨hrow, ?_⟩
  simp [hlv]

end

omit [DecidableEq ω] [DecidableEq κ] [DecidableEq ρ] in
theorem mem_cleanupStmt {now : Nat} (hrow : row ∈ table.rows) (hlv : now < row.expiresAt) :
    row ∈ (cleanupStmt table now).rows := by
  unfold cleanupStmt
  rw [mem_keep]
  refine ⟨hrow, ?_⟩
  simp [hlv]

theorem mem_releaseStmt (hrow : row ∈ table.rows) (hoth : row.heldBy slot reservationId = false) :
    row ∈ (releaseStmt table slot reservationId).rows := by
  unfold releaseStmt
  rw [mem_keep, hoth]
  exact ⟨hrow, rfl⟩

variable {statusCode expiresAt : Nat} {body : Option β}

theorem mem_completeStmt (hrow : row ∈ table.rows) (hoth : row.heldBy slot reservationId = false) :
    row ∈ (completeStmt table slot reservationId statusCode body expiresAt).rows := by
  refine List.mem_map.mpr ⟨row, hrow, ?_⟩
  rw [hoth]
  rfl

theorem completed_mem_completeStmt (hrow : row ∈ table.rows) (hhd : row.heldBy slot reservationId = true) :
    row.completedWith statusCode body expiresAt ∈
      (completeStmt table slot reservationId statusCode body expiresAt).rows := by
  refine List.mem_map.mpr ⟨row, hrow, ?_⟩
  rw [if_pos hhd]

/-- **A promotion that finds no row of its reservation changes nothing.** -/
theorem completeStmt_of_not_held (h : ∀ row ∈ table.rows, row.heldBy slot reservationId = false) :
    completeStmt table slot reservationId statusCode body expiresAt = table := by
  have hrw : (completeStmt table slot reservationId statusCode body expiresAt).rows = table.rows := by
    unfold completeStmt update
    refine (map_congr_left fun row hrow => ?_).trans (List.map_id _)
    rw [h row hrow]
    rfl
  cases table
  simpa [completeStmt, update] using hrw

theorem releaseStmt_of_not_held (h : ∀ row ∈ table.rows, row.heldBy slot reservationId = false) :
    releaseStmt table slot reservationId = table := by
  have hrw : (releaseStmt table slot reservationId).rows = table.rows := by
    unfold releaseStmt keep
    refine filter_eq_self.mpr fun row hrow => ?_
    rw [h row hrow]
    rfl
  cases table
  simpa [releaseStmt, keep] using hrw

end Rows

/-! ## One step -/

section Steps

variable {options : Options} {s s' t : State ω κ ρ β} {e : Event ω κ ρ β}

theorem of_step (h : (store options).step s e = some s') :
    match e with
    | .reserve slot reservationId =>
      s' = { s with calls := s.calls ++ [⟨slot, reservationId, .attempt 0⟩] }
    | .run i => ∃ call table stage, s.calls[i]? = some call ∧
        runStage options s.clock s.table call = some (table, stage) ∧
        s' = { s with table := table, calls := s.calls.set i { call with stage := stage } }
    | .complete slot reservationId statusCode body now => now ≤ s.clock ∧ s' = { s with
          table := completeStmt s.table slot reservationId statusCode body (now + options.ttlMs) }
    | .release slot reservationId =>
      s' = { s with table := releaseStmt s.table slot reservationId }
    | .cleanup now => now ≤ s.clock ∧ s' = { s with table := cleanupStmt s.table now }
    | .tick clock => s.clock ≤ clock ∧ s' = { s with clock := clock } := by
  cases e with
  | reserve | release => exact (some.inj h).symm
  | run =>
    obtain ⟨call, hcl, h⟩ := bind_eq_some_iff.mp h
    obtain ⟨⟨table, stage⟩, hrun, h⟩ := bind_eq_some_iff.mp h
    exact ⟨call, table, stage, hcl, hrun, (some.inj h).symm⟩
  | complete | cleanup | tick =>
    obtain ⟨hnow, h⟩ := ite_none_right_eq_some.mp h
    exact ⟨hnow, (some.inj h).symm⟩

omit [DecidableEq ρ] in
theorem of_runStage {clock : Nat} {table table' : Table ω κ ρ β} {call : Call ω κ ρ β}
    {stage : Stage ω κ ρ β} (h : runStage options clock table call = some (table', stage)) :
    match call.stage with
    | .attempt n => table' = table ∧ stage = .insert n clock
    | .insert n now =>
      reserveStmt table
          (pendingRow call.slot call.reservationId now (now + options.pendingTtlMs)) =
        some table' ∧ stage = .returned (.reserved call.reservationId) ∨
      reserveStmt table
          (pendingRow call.slot call.reservationId now (now + options.pendingTtlMs)) = none ∧
        table' = table ∧ stage = .select n now
    | .select n now => table' = table ∧ stage = .selected n now (selectStmt table call.slot)
    | .deleteExpired n now =>
      table' = deleteExpiredStmt table call.slot now ∧ stage = .continued n
    | .returned _ => False := by
  unfold runStage at h
  cases hstg : call.stage with
  | attempt | select | deleteExpired =>
    rw [hstg] at h
    obtain ⟨rfl, rfl⟩ := Prod.mk.inj (some.inj h)
    exact ⟨rfl, rfl⟩
  | insert n now =>
    simp only [hstg] at h
    split at h
    · rename_i table₁ hins
      obtain ⟨rfl, rfl⟩ := Prod.mk.inj (some.inj h)
      exact .inl ⟨hins, rfl⟩
    · rename_i hins
      obtain ⟨rfl, rfl⟩ := Prod.mk.inj (some.inj h)
      exact .inr ⟨hins, rfl, rfl⟩
  | returned =>
    rw [hstg] at h
    cases h

theorem clock_le (h : (store options).step s e = some s') : s.clock ≤ s'.clock := by
  cases e with
  | reserve | release => exact le_of_eq (congrArg State.clock (of_step h)).symm
  | run =>
    obtain ⟨_, _, _, _, _, rfl⟩ := of_step h
    exact le_refl _
  | complete | cleanup =>
    obtain ⟨_, rfl⟩ := of_step h
    exact le_refl _
  | tick =>
    obtain ⟨hle, rfl⟩ := of_step h
    exact hle

end Steps

/-! ## The times a call has read -/

/-- The time that an attempt goes by. -/
def Stage.now : Stage ω κ ρ β → Option Nat
  | .insert _ now => some now
  | .select _ now => some now
  | .deleteExpired _ now => some now
  | .attempt _ => none
  | .returned _ => none

/-- No call goes by a time that is still to come. -/
def Timely (s : State ω κ ρ β) : Prop :=
  ∀ call ∈ s.calls, ∀ now, call.stage.now = some now → now ≤ s.clock

section Timely

variable {options : Options} {s s' t : State ω κ ρ β} {e : Event ω κ ρ β}

section

omit [DecidableEq ω] [DecidableEq κ] [DecidableEq ρ]

theorem continued_now (n : Nat) : (Stage.continued n : Stage ω κ ρ β).now = none := by
  unfold Stage.continued
  split
  · rfl
  · rfl

theorem selected_now {n now at' : Nat} {found : Option (Row ω κ ρ β)}
    (h : (Stage.selected n now found).now = some at') : at' = now := by
  unfold Stage.selected at h
  split at h
  · rw [continued_now] at h
    cases h
  · split at h
    · exact (some.inj h).symm
    · split at h
      · cases h
      · cases h

end

omit [DecidableEq ρ] in
theorem runStage_now {clock now : Nat} {table table' : Table ω κ ρ β} {call : Call ω κ ρ β}
    {stage : Stage ω κ ρ β} (h : runStage options clock table call = some (table', stage))
    (hnow : stage.now = some now) : now = clock ∨ call.stage.now = some now := by
  have hrun := of_runStage h
  cases hstg : call.stage with
  | attempt =>
    rw [hstg] at hrun
    obtain ⟨_, rfl⟩ := hrun
    exact .inl (some.inj hnow).symm
  | insert =>
    rw [hstg] at hrun
    rcases hrun with ⟨_, rfl⟩ | ⟨_, _, rfl⟩
    · cases hnow
    · exact .inr hnow
  | select =>
    rw [hstg] at hrun
    obtain ⟨_, rfl⟩ := hrun
    rw [selected_now hnow]
    exact .inr rfl
  | deleteExpired =>
    rw [hstg] at hrun
    obtain ⟨_, rfl⟩ := hrun
    rw [continued_now] at hnow
    cases hnow
  | returned =>
    rw [hstg] at hrun
    exact hrun.elim

theorem Timely.step (hI : Timely s) (h : (store options).step s e = some s') : Timely s' := by
  have hle := clock_le h
  have hkpt : ∀ call ∈ s.calls, ∀ now, call.stage.now = some now → now ≤ s'.clock := by
    intro call hcl now hnow
    exact le_trans (hI call hcl now hnow) hle
  cases e with
  | reserve =>
    intro call hcl now hnow
    rw [of_step h] at hcl
    rcases mem_append.mp hcl with hold | hnew
    · exact hkpt call hold now hnow
    · rw [mem_singleton.mp hnew] at hnow
      cases hnow
  | run =>
    obtain ⟨call₀, table, stage, hcl₀, hrun, rfl⟩ := of_step h
    intro call hcl now hnow
    rcases mem_or_eq_of_mem_set hcl with hold | rfl
    · exact hkpt call hold now hnow
    · rcases runStage_now hrun hnow with rfl | hbf
      · exact le_refl _
      · exact hkpt call₀ (mem_of_getElem? hcl₀) now hbf
  | complete | cleanup | tick =>
    obtain ⟨_, rfl⟩ := of_step h
    exact hkpt
  | release =>
    rw [of_step h] at hkpt ⊢
    exact hkpt

theorem timely {guard : State ω κ ρ β → Event ω κ ρ β → Prop}
    (h : (store options).Reachable guard s) : Timely s := by
  refine h.invariant ?_ ?_
  · intro s hsta call hcl
    rw [hsta] at hcl
    cases hcl
  · intro s e s' _ _ hI hs
    exact hI.step hs

end Timely

/-! ## A row that has not expired -/

/-- The event promotes or releases the reservation that a row stands for. -/
def Finalises (row : Row ω κ ρ β) : Event ω κ ρ β → Prop
  | .complete slot reservationId _ _ _ => row.heldBy slot reservationId = true
  | .release slot reservationId => row.heldBy slot reservationId = true
  | .reserve _ _ => False
  | .run _ => False
  | .cleanup _ => False
  | .tick _ => False

section Rows

variable {options : Options} {s s' t : State ω κ ρ β} {e : Event ω κ ρ β} {row : Row ω κ ρ β}

omit [DecidableEq ρ] in
theorem mem_runStage {clock : Nat} {table table' : Table ω κ ρ β} {call : Call ω κ ρ β}
    {stage : Stage ω κ ρ β} (h : runStage options clock table call = some (table', stage))
    (hrow : row ∈ table.rows) (hlv : ∀ now, call.stage.now = some now → now < row.expiresAt) :
    row ∈ table'.rows := by
  have hrun := of_runStage h
  cases hstg : call.stage with
  | attempt | select =>
    rw [hstg] at hrun
    obtain ⟨rfl, _⟩ := hrun
    exact hrow
  | insert =>
    rw [hstg] at hrun
    rcases hrun with ⟨hins, _⟩ | ⟨_, rfl, _⟩
    · exact mem_reserveStmt hins hrow
    · exact hrow
  | deleteExpired n now =>
    rw [hstg] at hrun hlv
    obtain ⟨rfl, _⟩ := hrun
    exact mem_deleteExpiredStmt hrow (hlv now rfl)
  | returned =>
    rw [hstg] at hrun
    exact hrun.elim

/-- **A row that has not expired stays, but for its own promotion or release.** -/
theorem kept_step (hI : Timely s) (hrow : row ∈ s.table.rows) (hlv : s.clock < row.expiresAt)
    (hfnl : ¬Finalises row e) (h : (store options).step s e = some s') : row ∈ s'.table.rows := by
  cases e with
  | reserve =>
    rw [of_step h]
    exact hrow
  | run =>
    obtain ⟨call, table, stage, hcl, hrun, rfl⟩ := of_step h
    refine mem_runStage hrun hrow fun now hnow => ?_
    exact lt_of_le_of_lt (hI call (mem_of_getElem? hcl) now hnow) hlv
  | complete =>
    obtain ⟨_, rfl⟩ := of_step h
    exact mem_completeStmt hrow (Bool.eq_false_iff.mpr hfnl)
  | release =>
    rw [of_step h]
    exact mem_releaseStmt hrow (Bool.eq_false_iff.mpr hfnl)
  | cleanup =>
    obtain ⟨hnow, rfl⟩ := of_step h
    exact mem_cleanupStmt hrow (lt_of_le_of_lt hnow hlv)
  | tick =>
    obtain ⟨_, rfl⟩ := of_step h
    exact hrow

/-- How a reservation that finds the row is answered. -/
def Row.answer (row : Row ω κ ρ β) : Reservation ω κ ρ β :=
  match row.status with
  | .completed => .replay (toEntry row)
  | .pending => .conflict

omit [DecidableEq ρ] in
/--
**What becomes of a reservation while a row of its slot has not expired.** It is answered by the row,
or goes on; only where it stood before the delete statement of an attempt does it not look at the row.
-/
theorem runStage_of_live {clock : Nat} {table table' : Table ω κ ρ β} {call : Call ω κ ρ β}
    {stage : Stage ω κ ρ β} (h : runStage options clock table call = some (table', stage))
    (hrow : row ∈ table.rows) (hsl : row.slot = call.slot)
    (hlv : ∀ now, call.stage.now = some now → now < row.expiresAt) :
    (∀ n now, stage ≠ .deleteExpired n now) ∧
      ((∃ n now, call.stage = .deleteExpired n now ∧ stage = .continued n) ∨
        (∀ result, stage = .returned result → result = row.answer)) := by
  have hrun := of_runStage h
  cases hstg : call.stage with
  | attempt n =>
    rw [hstg] at hrun
    obtain ⟨_, rfl⟩ := hrun
    refine ⟨by rintro _ _ ⟨⟩, .inr fun result hret => ?_⟩
    cases hret
  | insert n now =>
    rw [hstg] at hrun
    rcases hrun with ⟨hins, _⟩ | ⟨_, _, rfl⟩
    · -- the key is taken, so the insert is ignored
      exact absurd hsl ((insert_eq_some hins).2 row hrow)
    · refine ⟨by rintro _ _ ⟨⟩, .inr fun result hret => ?_⟩
      cases hret
  | select n now =>
    rw [hstg] at hrun hlv
    obtain ⟨_, rfl⟩ := hrun
    have hfnd : selectStmt table call.slot = some row := find_eq_some.mpr ⟨hrow, hsl⟩
    have hfr : ¬row.expiresAt ≤ now := not_le.mpr (hlv now rfl)
    have hans : Stage.selected n now (selectStmt table call.slot) = .returned row.answer := by
      rw [hfnd]
      simp only [Stage.selected, if_neg hfr, Row.answer]
      cases row.status with
      | pending | completed => rfl
    rw [hans]
    refine ⟨by rintro _ _ ⟨⟩, .inr fun result hret => ?_⟩
    exact (Stage.returned.inj hret).symm
  | deleteExpired n now =>
    rw [hstg] at hrun
    obtain ⟨_, rfl⟩ := hrun
    refine ⟨fun n' now' hstg' => ?_, .inl ⟨n, now, rfl, rfl⟩⟩
    have hnow : (Stage.continued n : Stage ω κ ρ β).now = none := continued_now n
    rw [hstg'] at hnow
    cases hnow
  | returned =>
    rw [hstg] at hrun
    exact hrun.elim

end Rows

/-! ## Runs -/

/-- The next statement of a call is its last one: it returns, and leaves this state. -/
def Returns (options : Options) (s : State ω κ ρ β) (i : Nat) (slot : ω × κ)
    (result : Reservation ω κ ρ β) (s' : State ω κ ρ β) : Prop :=
  (store options).step s (.run i) = some s' ∧
    ∃ call, s'.calls[i]? = some call ∧ call.slot = slot ∧ call.stage = .returned result

section Runs

variable {options : Options} {s t t' : State ω κ ρ β} {row : Row ω κ ρ β}
  {guard : State ω κ ρ β → Event ω κ ρ β → Prop}

theorem of_returns {i : Nat} {slot : ω × κ} {result : Reservation ω κ ρ β}
    (h : Returns options t i slot result t') :
    ∃ call table, t.calls[i]? = some call ∧ call.slot = slot ∧
      runStage options t.clock t.table call = some (table, .returned result) ∧
      t' = { t with table := table, calls := t.calls.set i { call with stage := .returned result } } := by
  obtain ⟨hst, call', hcl', hsl, hstg⟩ := h
  obtain ⟨call, table, stage, hcl, hrun, rfl⟩ := of_step hst
  have hlt : i < t.calls.length := (List.getElem?_eq_some_iff.mp hcl).1
  have hset : (t.calls.set i { call with stage := stage })[i]? = some { call with stage := stage } :=
    List.getElem?_set_self hlt
  cases hset.symm.trans hcl'
  obtain rfl : stage = .returned result := hstg
  exact ⟨call, table, hcl, hsl, hrun, rfl⟩

/-- **A row that has not expired stays through a run that neither promotes nor releases it.** -/
theorem kept (hr : (store options).Reachable (fun _ _ => True) s) (hrow : row ∈ s.table.rows)
    (hrun : (store options).Run (fun _ e => ¬Finalises row e) s t) (hlv : t.clock < row.expiresAt) :
    row ∈ t.table.rows := by
  suffices h : t.clock < row.expiresAt → row ∈ t.table.rows from h hlv
  refine System.Run.invariant (I := fun t => t.clock < row.expiresAt → row ∈ t.table.rows) hrun
    (fun _ => hrow) ?_
  intro s₁ e s₂ hbf hgrd hI hs hlv
  have hlv₁ : s₁.clock < row.expiresAt := lt_of_le_of_lt (clock_le hs) hlv
  have hr₁ : (store options).Reachable (fun _ _ => True) s₁ :=
    hr.run (System.Run.weaken (fun _ _ _ => trivial) hbf)
  exact kept_step (timely hr₁) (hI hlv₁) hlv₁ hgrd hs

variable {call : Call ω κ ρ β}

theorem stood_before (hr : (store options).Reachable (fun _ _ => True) s) (hrow : row ∈ s.table.rows)
    (hrun : (store options).Run (fun _ e => ¬Finalises row e) s t) (hlv : t.clock < row.expiresAt)
    {j n now : Nat} (hcl : t.calls[j]? = some call) (hsl : row.slot = call.slot)
    (hstg : call.stage = .deleteExpired n now) :
    s.calls[j]? = some call := by
  induction hrun with
  | refl => exact hcl
  | @tail s₁ s₂ hbf hnx ih =>
    obtain ⟨e, hgrd, hs⟩ := hnx
    have hlv₁ : s₁.clock < row.expiresAt := lt_of_le_of_lt (clock_le hs) hlv
    have hrow₁ := kept hr hrow hbf hlv₁
    have htm := timely (hr.run (System.Run.weaken (fun _ _ _ => trivial) hbf))
    refine ih hlv₁ ?_
    cases e with
    | reserve =>
      rw [of_step hs] at hcl
      rw [List.getElem?_append] at hcl
      split at hcl
      · exact hcl
      · obtain rfl := mem_singleton.mp (mem_of_getElem? hcl)
        cases hstg
    | run i =>
      obtain ⟨call₀, table, stage, hcl₀, hrun, rfl⟩ := of_step hs
      rcases eq_or_ne i j with rfl | hne
      · have hlt : i < s₁.calls.length := (List.getElem?_eq_some_iff.mp hcl₀).1
        rw [List.getElem?_set_self hlt] at hcl
        cases hcl
        have hnow : ∀ now, call₀.stage.now = some now → now < row.expiresAt := by
          intro now hnow
          exact lt_of_le_of_lt (htm call₀ (mem_of_getElem? hcl₀) now hnow) hlv₁
        exact absurd hstg ((runStage_of_live hrun hrow₁ hsl hnow).1 n now)
      · rwa [List.getElem?_set_ne hne] at hcl
    | complete | cleanup | tick =>
      obtain ⟨_, rfl⟩ := of_step hs
      exact hcl
    | release =>
      rw [of_step hs] at hcl
      exact hcl

/-- **What a reservation returns while a row of its slot stays.** -/
theorem returns_of_live (hr : (store options).Reachable (fun _ _ => True) s)
    (hrow : row ∈ s.table.rows) (hrun : (store options).Run (fun _ e => ¬Finalises row e) s t)
    (hlv : t.clock < row.expiresAt) {j : Nat} {result : Reservation ω κ ρ β}
    (hret : Returns options t j row.slot result t') :
    result = row.answer ∨ result = .conflict ∧
      ∃ call n now, s.calls[j]? = some call ∧ call.slot = row.slot ∧
        call.stage = .deleteExpired n now ∧ 3 ≤ n + 1 := by
  obtain ⟨call, table, hcl, hsl, hstg, _⟩ := of_returns hret
  have hrow₁ := kept hr hrow hrun hlv
  have htm := timely (hr.run (hrun.weaken fun _ _ _ => trivial))
  have hnow : ∀ now, call.stage.now = some now → now < row.expiresAt := by
    intro now hnow
    exact lt_of_le_of_lt (htm call (mem_of_getElem? hcl) now hnow) hlv
  rcases (runStage_of_live hstg hrow₁ hsl.symm hnow).2 with ⟨n, now, hde, hco⟩ | hans
  · have hsto := stood_before hr hrow hrun hlv hcl hsl.symm hde
    unfold Stage.continued at hco
    split at hco
    · cases hco
    · rename_i hla
      exact .inr ⟨Stage.returned.inj hco, call, n, now, hsto, hsl, hde, by omega⟩
  · exact .inl (hans result rfl)

/-- How many statements a reservation has still to run, at most. -/
def Stage.left : Stage ω κ ρ β → Nat
  | .attempt n => 4 * (2 - n) + 4
  | .insert n _ => 4 * (2 - n) + 3
  | .select n _ => 4 * (2 - n) + 2
  | .deleteExpired n _ => 4 * (2 - n) + 1
  | .returned _ => 0

section

omit [DecidableEq ω] [DecidableEq κ] [DecidableEq ρ]

theorem left_continued (n : Nat) :
    (Stage.continued n : Stage ω κ ρ β).left ≤ 4 * (2 - n) := by
  unfold Stage.continued
  split
  · simp only [Stage.left]
    omega
  · exact zero_le _

theorem left_selected (n now : Nat) (found : Option (Row ω κ ρ β)) :
    (Stage.selected n now found).left ≤ 4 * (2 - n) + 1 := by
  unfold Stage.selected
  split
  · exact le_succ_of_le (left_continued n)
  · split
    · exact le_refl _
    · split
      · exact zero_le _
      · exact zero_le _

end

omit [DecidableEq ρ] in
/-- **A reservation that has not returned can run its next statement, and gets nearer to its end.** -/
theorem runStage_of_open {clock : Nat} {table : Table ω κ ρ β}
    (hon : ∀ result, call.stage ≠ .returned result) :
    ∃ table' stage, runStage options clock table call = some (table', stage) ∧
      stage.left < call.stage.left := by
  unfold runStage
  cases hstg : call.stage with
  | attempt n => exact ⟨table, .insert n clock, rfl, lt_succ_self _⟩
  | insert n now =>
    cases hins : reserveStmt table
      (pendingRow call.slot call.reservationId now (now + options.pendingTtlMs)) with
    | some table' =>
      refine ⟨table', .returned (.reserved call.reservationId), by simp only [hins], ?_⟩
      exact succ_pos _
    | none => exact ⟨table, .select n now, by simp only [hins], lt_succ_self _⟩
  | select n now => exact ⟨table, _, rfl, lt_succ_of_le (left_selected n now _)⟩
  | deleteExpired n => exact ⟨_, _, rfl, lt_succ_of_le (left_continued n)⟩
  | returned result => exact absurd hstg (hon result)

omit [DecidableEq ω] [DecidableEq κ] [DecidableEq ρ] in
theorem continued_ne_reserved (n : Nat) (reservationId : ρ) :
    (Stage.continued n : Stage ω κ ρ β) ≠ .returned (.reserved reservationId) := by
  unfold Stage.continued
  split
  · nofun
  · nofun

omit [DecidableEq ρ] in
/-- **A reservation is granted by its insert.** -/
theorem of_granted {clock : Nat} {table table' : Table ω κ ρ β} {reservationId : ρ}
    (h : runStage options clock table call = some (table', .returned (.reserved reservationId))) :
    ∃ n now, call.stage = .insert n now ∧ call.reservationId = reservationId ∧
      reserveStmt table (pendingRow call.slot reservationId now (now + options.pendingTtlMs)) =
        some table' := by
  have hrun := of_runStage h
  cases hstg : call.stage with
  | attempt =>
    rw [hstg] at hrun
    obtain ⟨_, hrun⟩ := hrun
    cases hrun
  | insert n now =>
    rw [hstg] at hrun
    rcases hrun with ⟨hins, hid⟩ | ⟨_, _, hid⟩
    · obtain rfl := Reservation.reserved.inj (Stage.returned.inj hid)
      exact ⟨n, now, rfl, rfl, hins⟩
    · cases hid
  | select n =>
    rw [hstg] at hrun
    obtain ⟨_, hid⟩ := hrun
    unfold Stage.selected at hid
    split at hid
    · exact absurd hid.symm (continued_ne_reserved n reservationId)
    · split at hid
      · cases hid
      · split at hid
        · cases hid
        · cases hid
  | deleteExpired n =>
    rw [hstg] at hrun
    exact absurd hrun.2.symm (continued_ne_reserved n reservationId)
  | returned =>
    rw [hstg] at hrun
    exact hrun.elim

theorem granted {i : Nat} {slot : ω × κ} {reservationId : ρ}
    (h : Returns options s i slot (.reserved reservationId) t) :
    ∃ row ∈ t.table.rows, row.heldBy slot reservationId = true ∧
      ∃ call n now, s.calls[i]? = some call ∧ call.stage = .insert n now ∧
        row.expiresAt = now + options.pendingTtlMs := by
  obtain ⟨call, table, hcl, rfl, hrun, rfl⟩ := of_returns h
  obtain ⟨n, now, hstg, rfl, hins⟩ := of_granted hrun
  refine ⟨pendingRow call.slot call.reservationId now (now + options.pendingTtlMs), ?_, ?_, call, n, now,
    hcl, hstg, rfl⟩
  · rw [(insert_eq_some hins).1]
    exact mem_append_right _ mem_cons_self
  · exact Row.heldBy_iff.mpr ⟨rfl, rfl, rfl⟩

theorem not_finalises_of_completed (h : row.status = .completed)
    (e : Event ω κ ρ β) : ¬Finalises row e := by
  have hnot : ∀ slot reservationId, row.heldBy slot reservationId ≠ true := by
    intro slot reservationId hhd
    rw [Row.heldBy_iff, h] at hhd
    exact nomatch hhd.2.1
  cases e with
  | complete slot reservationId | release slot reservationId => exact hnot slot reservationId
  | reserve | run | cleanup | tick => exact id

end Runs

/-! ## The claim -/

section Fenced

variable {options : Options} {s : State ω κ ρ β}

/--
**Slots are fenced.** While a reservation stands no other of its slot is granted or replayed; from
its promotion on every reservation is answered by the stored response, but for one that was already
about to give up; only the token of the pending row finalises it; and every reservation returns.
-/
theorem fenced (hr : (store options).Reachable (fun _ _ => True) s) :
    (∀ i slot reservationId s₁, Returns options s i slot (.reserved reservationId) s₁ →
      ∃ row ∈ s₁.table.rows, row.heldBy slot reservationId = true ∧
        (∃ call n now, s.calls[i]? = some call ∧ call.stage = .insert n now ∧
          row.expiresAt = now + options.pendingTtlMs) ∧
        ∀ t, (store options).Run (fun _ e => ¬Finalises row e) s₁ t → t.clock < row.expiresAt →
          row ∈ t.table.rows ∧ ∀ j result t', Returns options t j slot result t' → result = .conflict) ∧
    (∀ row ∈ s.table.rows, ∀ slot reservationId, row.heldBy slot reservationId = true →
      ∀ statusCode body now s₁,
        (store options).step s (.complete slot reservationId statusCode body now) = some s₁ →
        ∀ t, (store options).Run (fun _ _ => True) s₁ t → t.clock < now + options.ttlMs →
          row.completedWith statusCode body (now + options.ttlMs) ∈ t.table.rows ∧
            ∀ j result t', Returns options t j slot result t' →
              result = .replay (toEntry (row.completedWith statusCode body (now + options.ttlMs))) ∨
                result = .conflict ∧ ∃ call n now, s₁.calls[j]? = some call ∧ call.slot = slot ∧
                  call.stage = .deleteExpired n now ∧ 3 ≤ n + 1) ∧
    (∀ slot reservationId, (∀ row ∈ s.table.rows, row.heldBy slot reservationId = false) →
      (∀ statusCode body now s₁,
        (store options).step s (.complete slot reservationId statusCode body now) = some s₁ → s₁ = s) ∧
      (store options).step s (.release slot reservationId) = some s) ∧
    ∀ j call, s.calls[j]? = some call → (∀ result, call.stage ≠ .returned result) →
      ∃ s₁ call', (store options).step s (.run j) = some s₁ ∧ s₁.calls[j]? = some call' ∧
        call'.stage.left < call.stage.left := by
  refine ⟨?_, ?_, ?_, ?_⟩
  · intro i slot reservationId s₁ hret
    obtain ⟨row, hrow, hhd, hei⟩ := granted hret
    obtain ⟨rfl, hpnd, _⟩ := Row.heldBy_iff.mp hhd
    have hr₁ : (store options).Reachable (fun _ _ => True) s₁ := hr.tail trivial hret.1
    refine ⟨row, hrow, hhd, hei, fun t hrun hlv => ⟨kept hr₁ hrow hrun hlv, ?_⟩⟩
    intro j result t' hret'
    rcases returns_of_live hr₁ hrow hrun hlv hret' with hans | ⟨hco, _⟩
    · rw [hans]
      unfold Row.answer
      rw [hpnd]
    · exact hco
  · intro row hrow slot reservationId hhd statusCode body now s₁ hs t hrun hlv
    have hr₁ : (store options).Reachable (fun _ _ => True) s₁ := hr.tail trivial hs
    have hdn : row.completedWith statusCode body (now + options.ttlMs) ∈ s₁.table.rows := by
      obtain ⟨_, rfl⟩ := of_step hs
      exact completed_mem_completeStmt hrow hhd
    -- nothing finalises a completed row, so every run keeps it
    have hrun' : (store options).Run (fun _ e =>
        ¬Finalises (row.completedWith statusCode body (now + options.ttlMs)) e) s₁ t :=
      System.Run.weaken (fun _ e _ => not_finalises_of_completed rfl e) hrun
    refine ⟨kept hr₁ hdn hrun' hlv, fun j result t' hret => ?_⟩
    obtain ⟨rfl, _, _⟩ := Row.heldBy_iff.mp hhd
    exact returns_of_live hr₁ hdn hrun' hlv hret
  · intro slot reservationId hoth
    refine ⟨fun statusCode body now s₁ hs => ?_, ?_⟩
    · obtain ⟨_, rfl⟩ := of_step hs
      rw [completeStmt_of_not_held hoth]
    · exact congrArg some (congrArg (fun table => { s with table := table })
        (releaseStmt_of_not_held hoth))
  · intro j call hcl hon
    obtain ⟨table, stage, hrun, hlf⟩ : ∃ table stage,
        runStage options s.clock s.table call = some (table, stage) ∧ stage.left < call.stage.left :=
      runStage_of_open hon
    have hlt : j < s.calls.length := (List.getElem?_eq_some_iff.mp hcl).1
    refine ⟨{ s with table := table, calls := s.calls.set j { call with stage := stage } },
      { call with stage := stage }, ?_, List.getElem?_set_self hlt, hlf⟩
    simp [store, step, hcl, hrun]

/--
Two reservations are given up while caller 1 tries, and it reads the third when that has just expired.
Before it deletes, caller 4 reclaims the slot under id 5.
-/
def reclaimed : List (Event Nat Nat Nat Nat) :=
  [.reserve (0, 0) 1, .run 0, .run 0, .reserve (0, 0) 2, .run 1, .run 1, .release (0, 0) 1, .run 1,
    .reserve (0, 0) 3, .run 2, .run 2, .run 1, .run 1, .release (0, 0) 3, .run 1,
    .reserve (0, 0) 4, .run 3, .run 3, .tick 10, .run 1, .run 1, .run 1,
    .reserve (0, 0) 5, .run 4, .run 4, .run 4, .run 4, .run 4, .run 4]

theorem fenced_reclaimed : ∃ s : State Nat Nat Nat Nat, ∃ row ∈ s.table.rows, row.heldBy (0, 0) 5 = true ∧
      ∀ statusCode body now s₁,
        (store ⟨100, 10⟩).step s (.complete (0, 0) 5 statusCode body now) = some s₁ →
        ∀ t, (store ⟨100, 10⟩).Run (fun _ _ => True) s₁ t → t.clock < now + 100 →
          row.completedWith statusCode body (now + 100) ∈ t.table.rows := by
  have hpl : ((store ⟨100, 10⟩).play (fun _ _ => True) reclaimed
      (⟨0, empty _, []⟩ : State Nat Nat Nat Nat)).any
        (fun s => s.table.rows.any fun row => row.heldBy (0, 0) 5) = true := by decide
  obtain ⟨s, hr, hs⟩ := exists_reachable_of_play rfl hpl
  obtain ⟨row, hrow, hhd⟩ := List.any_eq_true.mp hs
  refine ⟨s, row, hrow, hhd, fun statusCode body now s₁ hs₁ t hrun hlv => ?_⟩
  exact ((fenced hr).2.1 row hrow (0, 0) 5 hhd statusCode body now s₁ hs₁ t hrun hlv).1

/-- **A reservation that gives up returns a conflict although the stored response is there.** -/
theorem conflict_after_complete : ∃ s s₁ t : State Nat Nat Nat Nat,
    (store ⟨100, 10⟩).Reachable (fun _ _ => True) s ∧ (∃ row ∈ s.table.rows, row.heldBy (0, 0) 5 = true) ∧
      (store ⟨100, 10⟩).step s (.complete (0, 0) 5 201 (some 7) 10) = some s₁ ∧
      s₁.clock < 10 + 100 ∧ Returns ⟨100, 10⟩ s₁ 1 (0, 0) .conflict t := by
  have hpl : ((store ⟨100, 10⟩).play (fun _ _ => True) reclaimed
      (⟨0, empty _, []⟩ : State Nat Nat Nat Nat)).any
        (fun s => s.table.rows.any (fun row => row.heldBy (0, 0) 5) &&
          ((store ⟨100, 10⟩).step s (.complete (0, 0) 5 201 (some 7) 10)).any fun s₁ =>
            decide (s₁.clock < 10 + 100) && ((store ⟨100, 10⟩).step s₁ (.run 1)).any fun t =>
              t.calls[1]?.any fun call =>
                decide (call.slot = (0, 0)) && decide (call.stage = .returned .conflict)) = true := by
    decide
  obtain ⟨s, hr, hs⟩ := exists_reachable_of_play rfl hpl
  obtain ⟨hhd, hs⟩ := Bool.and_eq_true_iff.mp hs
  obtain ⟨row, hrow, hhd⟩ := List.any_eq_true.mp hhd
  obtain ⟨s₁, hs₁, hs⟩ := (Option.any_eq_true _ _).mp hs
  obtain ⟨hclk, hs⟩ := Bool.and_eq_true_iff.mp hs
  obtain ⟨t, ht, hs⟩ := (Option.any_eq_true _ _).mp hs
  obtain ⟨call, hcl, hs⟩ := (Option.any_eq_true _ _).mp hs
  obtain ⟨hsl, hstg⟩ := Bool.and_eq_true_iff.mp hs
  exact ⟨s, s₁, t, hr, ⟨row, hrow, hhd⟩, hs₁, of_decide_eq_true hclk, ht, call, hcl,
    of_decide_eq_true hsl, of_decide_eq_true hstg⟩

end Fenced

end AiNet.Idempotency
