import AiNet.Auth.Consistency

/-!
# Rotation and reuse

A rotation reads the row of its refresh token and that of its session, and consumes the token in a later
statement that looks at neither. Where both still stand as they were read, a token is rotated once, and
the revocation that answers a reuse is the end of its family. Where another process has come in between,
the token is rotated twice.
-/

namespace AiNet.Auth

open Core List System UniqueTable

variable {ι : Type} [DecidableEq ι]

/-! ## Which runs -/

/-- What a call is about to revoke, or has begun to. -/
def Call.target : Call ι → Option (Target ι)
  | .revokeSessions _ target _ => some target
  | .revokeTokens _ target _ => some target
  | .register target _ => some target
  | .expireSession _ sessionId => some (.session sessionId)
  | .findToken _ _ _ => none
  | .findSession _ _ _ => none
  | .markConsumed _ _ _ _ => none
  | .insertToken _ _ _ _ _ => none
  | .updateActivity _ _ _ _ _ => none
  | .issue _ _ _ => none

/-- The ids of a new session are new: no row, registry or revocation names them. -/
def Fresh (s : State ι) : Event ι → Prop
  | .createSession _ _ _ sessionId familyId _ =>
    (∀ session ∈ s.db.sessions.rows, session.familyId ≠ familyId) ∧
      ∀ process ∈ s.processes, process.registry.revokedSessions sessionId = none ∧
        process.registry.revokedFamilies familyId = none ∧
        ∀ call ∈ process.call,
          call.target ≠ some (.session sessionId) ∧ call.target ≠ some (.family familyId)
  | .rotateRefreshToken _ _ _ => True
  | .revoke _ _ => True
  | .verify _ _ => True
  | .run _ => True
  | .restart _ => True
  | .tick _ => True

/-- A rotation that is about to consume its token: the token is unconsumed and the session unrevoked. -/
def Current (db : AuthDb ι) : Call ι → Bool
  | .markConsumed _ record session _ =>
    (db.findRefreshTokenByHash record.tokenHash).all (fun row => !row.isConsumed) &&
      (db.findSessionById session.id).all fun row => !row.isRevoked
  | .findToken _ _ _ => true
  | .findSession _ _ _ => true
  | .expireSession _ _ => true
  | .insertToken _ _ _ _ _ => true
  | .updateActivity _ _ _ _ _ => true
  | .issue _ _ _ => true
  | .revokeSessions _ _ _ => true
  | .revokeTokens _ _ _ => true
  | .register _ _ => true

/-- What the rotation has read is still true when it consumes its token. -/
def Undisturbed (s : State ι) (e : Event ι) : Prop :=
  Fresh s e ∧ ∀ call ∈ s.running e, Current s.db call = true

instance (s : State ι) (e : Event ι) : Decidable (Fresh s e) :=
  match e with
  | .createSession _ _ _ sessionId familyId _ =>
    inferInstanceAs (Decidable ((∀ session ∈ s.db.sessions.rows, session.familyId ≠ familyId) ∧
      ∀ process ∈ s.processes, process.registry.revokedSessions sessionId = none ∧
        process.registry.revokedFamilies familyId = none ∧
        ∀ call ∈ process.call,
          call.target ≠ some (.session sessionId) ∧ call.target ≠ some (.family familyId)))
  | .rotateRefreshToken _ _ _ => isTrue trivial
  | .revoke _ _ => isTrue trivial
  | .verify _ _ => isTrue trivial
  | .run _ => isTrue trivial
  | .restart _ => isTrue trivial
  | .tick _ => isTrue trivial

instance (s : State ι) (e : Event ι) : Decidable (Undisturbed s e) :=
  inferInstanceAs (Decidable (Fresh s e ∧ ∀ call ∈ s.running e, Current s.db call = true))

/-! ## Each token is rotated once -/

/-- The refresh token that a call has consumed for its answer. -/
def Call.presents : Call ι → Option ι
  | .insertToken _ _ presented _ _ => presented
  | .updateActivity _ _ presented _ _ => presented
  | .issue _ presented _ => presented
  | .findToken _ _ _ => none
  | .findSession _ _ _ => none
  | .expireSession _ _ => none
  | .markConsumed _ _ _ _ => none
  | .revokeSessions _ _ _ => none
  | .revokeTokens _ _ _ => none
  | .register _ _ => none

/-- The process rotates a refresh token that it has consumed. -/
def Process.rotates (tokenHash : ι) (process : Process ι) : Bool :=
  decide (process.call.bind Call.presents = some tokenHash)

def Response.rotates (tokenHash : ι) (response : Response ι) : Bool :=
  decide (response.presented = some tokenHash)

/-- How often a refresh token was rotated, or is being rotated. -/
def State.rotations (s : State ι) (tokenHash : ι) : Nat :=
  s.responses.countP (Response.rotates tokenHash) + s.processes.countP (Process.rotates tokenHash)

def Consumed (db : AuthDb ι) (tokenHash : ι) : Prop :=
  ∃ row ∈ db.tokens.rows, row.tokenHash = tokenHash ∧ row.isConsumed = true

/-- The refresh token that a call has consumed for its answer, after a statement. -/
def Next.presents : Next ι → Option ι
  | .call after => after.presents
  | .done (.tokens response) => response.presented
  | .done .revoked => none
  | .done (.error _) => none

def Next.rotates (tokenHash : ι) (next : Next ι) : Bool := decide (next.presents = some tokenHash)

section Once

variable {options : Options} {s s' : State ι} {e : Event ι} {db db' : AuthDb ι}

section

omit [DecidableEq ι]

theorem presents_ofToken {clock now : Nat} {registry : RevocationRegistry ι} {newToken : ι}
    (found : Option (AuthRefreshToken ι)) :
    (Next.ofToken clock now registry newToken found).presents = none := by
  cases found with
  | none => rfl
  | some =>
    unfold Next.ofToken
    dsimp only
    split
    · rfl
    · split
      · rfl
      · split
        · rfl
        · rfl

theorem presents_ofSession {now : Nat} {record : AuthRefreshToken ι} {newToken : ι}
    (found : Option (AuthSession ι)) :
    (Next.ofSession options now record newToken found).presents = none := by
  cases found with
  | none => rfl
  | some =>
    unfold Next.ofSession
    dsimp only
    split
    · rfl
    · split
      · rfl
      · rfl

end

/-- **A call presents the token that it consumes, until it ends.** -/
theorem presents_next {clock : Nat} {registry registry' : RevocationRegistry ι} {call : Call ι}
    {next : Next ι} (h : runCall options clock db registry call = (db', registry', next))
    {tokenHash : ι} (hpr : next.presents = some tokenHash) :
    call.presents = some tokenHash ∨ call.consumes tokenHash = true := by
  have hres : (runCall options clock db registry call).2.2.presents = some tokenHash := by
    rw [h]
    exact hpr
  cases call with
  | findToken => cases (presents_ofToken _).symm.trans hres
  | findSession => cases (presents_ofSession _).symm.trans hres
  | expireSession | revokeSessions | revokeTokens => cases hres
  | markConsumed =>
    refine .inr (decide_eq_true ?_)
    exact (Option.some.inj hres).symm
  | insertToken =>
    simp only [runCall] at hres
    split at hres
    · cases hres
    · split at hres
      · exact .inl hres
      · exact .inl hres
  | updateActivity | issue => exact .inl hres
  | register target failure =>
    cases failure with
    | none | some => cases hres

theorem rotations_after (registry : RevocationRegistry ι) (next : Next ι) (tokenHash : ι) :
    next.responses.countP (Response.rotates tokenHash) +
        (if (Process.after registry next).rotates tokenHash then 1 else 0) =
      if next.rotates tokenHash then 1 else 0 := by
  cases next with
  | call => exact Nat.zero_add _
  | done answer =>
    cases answer with
    | tokens => exact countP_singleton
    | revoked | error => rfl

/-- **A step adds to the rotations of a token only if it consumes it.** -/
theorem rotations_step (h : (auth options).step s e = some s') (tokenHash : ι) :
    s'.rotations tokenHash ≤ s.rotations tokenHash + if s.consumes e tokenHash then 1 else 0 := by
  have hil : ∀ p (process new : Process ι), s.processes[p]? = some process →
      (new.rotates tokenHash = true → process.rotates tokenHash = true) →
      (s.processes.set p new).countP (Process.rotates tokenHash) ≤
        s.processes.countP (Process.rotates tokenHash) := by
    intro p process new hprc himp
    have hmv := countP_moved (p := Process.rotates tokenHash) (a := new) hprc
    split at hmv
    · split at hmv
      · omega
      · omega
    · rename_i hnot
      rw [if_neg fun hnew => hnot (himp hnew)] at hmv
      omega
  cases e with
  | createSession p wallet device sessionId familyId newToken =>
    obtain ⟨db, process, _, hprc, _, rfl⟩ := of_step h
    have hle := hil p process (Process.mk process.registry (some (.insertToken s.clock
      (newSession options s.clock wallet device sessionId familyId) none newToken
      (s.clock + options.refreshTtlSeconds * 1000))) none) hprc (by rintro ⟨⟩)
    unfold State.rotations
    exact Nat.le_add_right_of_le (Nat.add_le_add_left hle _)
  | rotateRefreshToken p presented newToken =>
    obtain ⟨process, hprc, _, rfl⟩ := of_step h
    have hle := hil p process (Process.mk process.registry
      (some (.findToken s.clock presented newToken)) none) hprc (by rintro ⟨⟩)
    unfold State.rotations
    exact Nat.le_add_right_of_le (Nat.add_le_add_left hle _)
  | revoke p target =>
    obtain ⟨process, hprc, _, rfl⟩ := of_step h
    have hle := hil p process (Process.mk process.registry
      (some (.revokeSessions s.clock target none)) none) hprc (by rintro ⟨⟩)
    unfold State.rotations
    exact Nat.le_add_right_of_le (Nat.add_le_add_left hle _)
  | verify p payload =>
    obtain ⟨process, hprc, _, _, rfl⟩ := of_step h
    have hle := hil p process
      { process with registry := registryAfter s.clock s.db process.registry payload } hprc id
    unfold State.rotations
    exact Nat.le_add_right_of_le (Nat.add_le_add_left hle _)
  | run p =>
    obtain ⟨process, call, db, registry, next, hprc, hcl, hrun, rfl⟩ := of_step h
    have hmv := countP_moved (p := Process.rotates tokenHash) (a := Process.after registry next)
      hprc
    have haf := rotations_after registry next tokenHash
    have hcns : s.consumes (.run p) tokenHash = call.consumes tokenHash := by
      rw [State.consumes, running_run hprc hcl]
      rfl
    have hbf : process.rotates tokenHash = decide (call.presents = some tokenHash) := by
      rw [Process.rotates, hcl]
      rfl
    simp only [State.rotations, countP_append]
    rw [hbf] at hmv
    rw [hcns]
    by_cases hro : next.rotates tokenHash = true
    · rw [if_pos hro] at haf
      rcases presents_next hrun (of_decide_eq_true hro) with hbf | hco
      · simp only [hbf, decide_true, if_true] at hmv
        omega
      · simp only [hco, if_true]
        omega
    · rw [if_neg hro] at haf
      omega
  | restart p =>
    obtain ⟨process, hprc, rfl⟩ := of_step h
    have hle := hil p process .fresh hprc (by rintro ⟨⟩)
    unfold State.rotations
    exact Nat.le_add_right_of_le (Nat.add_le_add_left hle _)
  | tick =>
    obtain ⟨_, rfl⟩ := of_step h
    exact Nat.le_add_right _ _

theorem Consistent.of_consumes (hI : Consistent s) (hgrd : Undisturbed s e) {tokenHash : ι}
    (h : s.consumes e tokenHash = true) :
    ∃ row ∈ s.db.tokens.rows, row.tokenHash = tokenHash ∧ row.isConsumed = false ∧
      ∃ session ∈ s.db.sessions.rows, session.id = row.sessionId ∧ session.isRevoked = false := by
  obtain ⟨call, hrng, hcns⟩ := (Option.any_eq_true _ _).mp h
  have hrd := hI.running hrng
  have hcur := hgrd.2 call hrng
  cases call with
  | markConsumed now record session =>
    obtain rfl := of_decide_eq_true hcns
    obtain ⟨⟨row, hrow, hsm⟩, hses, login, hlgn, hso⟩ := hrd
    have hfnd : s.db.findRefreshTokenByHash record.tokenHash = some row :=
      find_eq_some.mpr ⟨hrow, hsm.1⟩
    have hfnSe : s.db.findSessionById session.id = some login :=
      find_eq_some.mpr ⟨hlgn, hso.1⟩
    unfold Current at hcur
    simp [hfnd, hfnSe] at hcur
    refine ⟨row, hrow, hsm.1, hcur.1, login, hlgn, ?_, hcur.2⟩
    exact hso.1.trans (hses.symm.trans hsm.2.1.symm)
  | findToken | findSession | expireSession | insertToken | updateActivity | issue | revokeSessions
  | revokeTokens | register => cases hcns

/-- A token that was rotated, or is being rotated, is consumed, and this happens once. -/
def RotatedOnce (s : State ι) : Prop :=
  ∀ tokenHash, s.rotations tokenHash ≤ 1 ∧ (s.rotations tokenHash ≠ 0 → Consumed s.db tokenHash)

theorem RotatedOnce.step (hI : RotatedOnce s) (hcst : Consistent s)
    (hgrd : Undisturbed s e) (h : (auth options).step s e = some s') : RotatedOnce s' := by
  intro tokenHash
  have hle := rotations_step h tokenHash
  have hgrw := grows_step h
  cases hcns : s.consumes e tokenHash with
  | false =>
    simp only [hcns, Bool.false_eq_true, if_false, Nat.add_zero] at hle
    refine ⟨Nat.le_trans hle (hI tokenHash).1, fun hne => ?_⟩
    obtain ⟨row, hrow, hsh, hco⟩ := (hI tokenHash).2 (by omega)
    obtain ⟨after, haf, hsm, hsty⟩ := hgrw.tokens row hrow
    exact ⟨after, haf, hsm.1.trans hsh, hsty hco⟩
  | true =>
    obtain ⟨row, hrow, rfl, hun, _⟩ := hcst.of_consumes hgrd hcns
    -- the row is unconsumed, so the token has not been rotated yet
    have hno : s.rotations row.tokenHash = 0 := by
      by_contra hne
      obtain ⟨other, hoth, hsh, hco⟩ := (hI row.tokenHash).2 hne
      rw [unique hoth hrow hsh, hun] at hco
      cases hco
    simp only [hcns, if_true, hno, Nat.zero_add] at hle
    refine ⟨hle, fun _ => ?_⟩
    obtain ⟨f, new, hrw, _, hf⟩ := tokens_step h
    refine ⟨f row, ?_, (hf row).1.1, ?_⟩
    · rw [hrw]
      exact mem_append_left _ (List.mem_map_of_mem hrow)
    · rw [(hf row).2, hcns, Bool.or_true]

theorem rotatedOnce (h : (auth options).Reachable Undisturbed s) : RotatedOnce s := by
  refine h.invariant ?_ ?_
  · intro s hsta tokenHash
    obtain ⟨_, _, hre, hpr⟩ := hsta
    have hz : s.rotations tokenHash = 0 := by
      unfold State.rotations
      rw [hre, Nat.add_eq_zero_iff]
      refine ⟨rfl, countP_eq_zero.mpr fun process hprc => ?_⟩
      rw [hpr process hprc]
      simp [Process.rotates, Process.fresh]
    exact ⟨by omega, fun hne => absurd hz hne⟩
  · intro s e s' hr hgrd hI hs
    exact hI.step (consistent hr) hgrd hs

end Once

/-! ## The end of a family -/

def Ended (db : AuthDb ι) (familyId : ι) : Prop :=
  (∃ session ∈ db.sessions.rows, session.familyId = familyId) ∧
    ∀ session ∈ db.sessions.rows, session.familyId = familyId → session.isRevoked = true

section Ended

variable {options : Options} {s s' t : State ι} {e : Event ι} {familyId : ι}

/-- **A family that has ended does not begin again**: a new session is of a new family. -/
theorem Ended.step (hedd : Ended s.db familyId) (hfr : Fresh s e)
    (h : (auth options).step s e = some s') : Ended s'.db familyId := by
  obtain ⟨⟨session, hses, hfam⟩, hall⟩ := hedd
  obtain ⟨f, new, hrw, hnew, hf⟩ := sessions_step h
  refine ⟨⟨f session, ?_, (hf session).1.2.1.trans hfam⟩, fun after haf haa => ?_⟩
  · rw [hrw]
    exact mem_append_left _ (List.mem_map_of_mem hses)
  · rw [hrw] at haf
    rcases mem_append.mp haf with hold | had
    · obtain ⟨before, hbf, rfl⟩ := List.mem_map.mp hold
      have hrvk := hall before hbf ((hf before).1.2.1.symm.trans haa)
      rw [(hf before).2, hrvk, Bool.true_or]
    · obtain ⟨p, wallet, device, sessionId, newFamily, newToken, rfl, rfl⟩ := hnew after had
      exact absurd (hfam.trans haa.symm) (hfr.1 session hses)

theorem Ended.run {guard : State ι → Event ι → Prop} (hgrd : ∀ s e, guard s e → Fresh s e)
    (hedd : Ended s.db familyId) (hrun : (auth options).Run guard s t) : Ended t.db familyId :=
  System.Run.preserves (I := fun s => Ended s.db familyId) hrun
    (fun s e _ hg hI hs => hI.step (hgrd s e hg) hs) hedd

theorem Consistent.ended_of_reuse (hI : Consistent s) {p now : Nat}
    (hcl : s.running (.run p) = some (.revokeSessions now (.family familyId) (some .tokenReuse)))
    (h : (auth options).step s (.run p) = some s') : Ended s'.db familyId := by
  obtain ⟨f, new, hrw, hnew, hf⟩ := sessions_step h
  obtain ⟨familyId', htgt, session, hses, hfam⟩ := hI.running hcl rfl
  cases htgt
  refine ⟨⟨f session, ?_, (hf session).1.2.1.trans hfam⟩, fun after haf haa => ?_⟩
  · rw [hrw]
    exact mem_append_left _ (List.mem_map_of_mem hses)
  · rw [hrw] at haf
    rcases mem_append.mp haf with hold | had
    · obtain ⟨before, hbf, rfl⟩ := List.mem_map.mp hold
      have hcov : s.revokes (.run p) before = true := by
        rw [State.revokes, hcl]
        exact decide_eq_true ((hf before).1.2.1.symm.trans haa)
      rw [(hf before).2, hcov, Bool.or_true]
    · obtain ⟨_, _, _, _, _, _, heq, _⟩ := hnew after had
      cases heq

theorem rejected_of_revoked {clock : Nat} {db : AuthDb ι} {registry : RevocationRegistry ι}
    {payload : AccessTokenPayload ι} {session : AuthSession ι} (hses : session ∈ db.sessions.rows)
    (hid : session.id = payload.sessionId) (hrvk : session.isRevoked = true) :
    ∃ error, verifyAccessToken clock db registry payload = .error error := by
  have hfnd : db.findSessionById payload.sessionId = some session :=
    find_eq_some.mpr ⟨hses, hid⟩
  unfold verifyAccessToken
  rw [hfnd]
  split
  · exact ⟨_, rfl⟩
  · split
    · exact ⟨_, rfl⟩
    · split
      · exact ⟨_, rfl⟩
      · split
        · exact ⟨_, rfl⟩
        · exact ⟨.sessionInvalid, if_pos hrvk⟩

theorem reuse_of_consumed {p now : Nat} {tokenHash newToken : ι}
    (hcl : s.running (.run p) = some (.findToken now tokenHash newToken))
    (hco : Consumed s.db tokenHash) (h : (auth options).step s (.run p) = some s') :
    ∃ token ∈ s.db.tokens.rows, token.tokenHash = tokenHash ∧ s'.running (.run p) =
        some (.revokeSessions now (.family token.familyId) (some .tokenReuse)) := by
  obtain ⟨token, htok, hsh, hco⟩ := hco
  obtain ⟨process, call, db, registry, next, hprc, hpnd, hrun, rfl⟩ := of_step h
  cases (running_run hprc hpnd).symm.trans hcl
  have hfnd : s.db.findRefreshTokenByHash tokenHash = some token :=
    find_eq_some.mpr ⟨htok, hsh⟩
  have hnx : Next.ofToken s.clock now process.registry newToken (some token) = next := by
    rw [← hfnd]
    exact (Prod.mk.inj (Prod.mk.inj hrun).2).2
  refine ⟨token, htok, hsh, ?_⟩
  rw [← hnx]
  refine running_run (getElem?_set_of_some hprc) ?_
  simp only [Next.ofToken, hco, if_true, Process.after]

end Ended

/-! ## The claim -/

section Claim

variable {options : Options} {s : State ι}

/--
**Reuse of a refresh token is always caught**, where no rotation is disturbed between what it reads and
what it consumes. A token is rotated once. Presenting a consumed one begins the revocation of its family,
and from the first statement of that on no token of the family is rotated and no access token accepted.
-/
theorem reuse_caught (hr : (auth options).Reachable Undisturbed s) :
    (∀ tokenHash, (s.responses.filter (Response.rotates tokenHash)).length ≤ 1) ∧
    (∀ p now tokenHash newToken s', s.running (.run p) = some (.findToken now tokenHash newToken) →
      Consumed s.db tokenHash → (auth options).step s (.run p) = some s' →
        ∃ token ∈ s.db.tokens.rows, token.tokenHash = tokenHash ∧ s'.running (.run p) =
          some (.revokeSessions now (.family token.familyId) (some .tokenReuse))) ∧
    ∀ p now familyId s₁,
      s.running (.run p) = some (.revokeSessions now (.family familyId) (some .tokenReuse)) →
      (auth options).step s (.run p) = some s₁ → ∀ t, (auth options).Run Undisturbed s₁ t →
        (∀ e, Undisturbed t e → ∀ token ∈ t.db.tokens.rows, token.familyId = familyId →
          t.consumes e token.tokenHash = false) ∧
        ∀ process ∈ t.processes, ∀ response ∈ t.responses, response.accessToken.familyId = familyId →
            ∃ error, verifyAccessToken t.clock t.db process.registry response.accessToken =
              .error error := by
  refine ⟨fun tokenHash => ?_, fun p now tokenHash newToken s' => reuse_of_consumed, ?_⟩
  · have hle := (rotatedOnce hr tokenHash).1
    rw [← countP_eq_length_filter]
    unfold State.rotations at hle
    omega
  · intro p now familyId s₁ hcl hs t hrun
    have hgrd : ∀ s e, Undisturbed s e → Fresh (ι := ι) s e := fun _ _ hg => hg.1
    have hedd := ((consistent hr).ended_of_reuse hcl hs).run hgrd hrun
    have hs₁ : (auth options).Reachable (fun _ _ => True) s₁ :=
      (hr.weaken fun _ _ _ => trivial).tail trivial hs
    have hcst := consistent (hs₁.run (hrun.weaken fun _ _ _ => trivial))
    refine ⟨fun e hun token htok hfam => ?_, fun process _ response hrsp hfam => ?_⟩
    · rw [Bool.eq_false_iff]
      intro hcns
      obtain ⟨row, hrow, hsh, _, session, hses, hid, hue⟩ :=
        hcst.of_consumes hun hcns
      obtain rfl := unique hrow htok hsh
      obtain ⟨login, hlgn, hlgId, hlgFa⟩ := hcst.tokens row hrow
      obtain rfl := unique hlgn hses (hlgId.trans hid.symm)
      have hrvk := hedd.2 login hlgn (hlgFa.trans hfam)
      rw [hue] at hrvk
      cases hrvk
    · obtain ⟨row, hrow, hid, hra, _⟩ := hcst.responses response hrsp
      exact rejected_of_revoked hrow hid (hedd.2 row hrow (hra.trans hfam))

/-- Two processes, and nobody logged in. -/
def twoProcesses : State Nat := ⟨0, ⟨empty _, empty _⟩, [.fresh, .fresh], []⟩

theorem start_twoProcesses : (auth options).start twoProcesses := by
  refine ⟨rfl, rfl, rfl, fun process hprc => ?_⟩
  simpa [twoProcesses] using hprc

theorem reuse_caught_rotated : ∃ s : State Nat, s.responses.any (Response.rotates 5) = true ∧
      (s.responses.filter (Response.rotates 5)).length ≤ 1 := by
  have hpl : ((auth ⟨900, 86400, 2592000⟩).play Undisturbed
      [.createSession 0 1 2 3 4 5, .run 0, .run 0, .rotateRefreshToken 1 5 6, .run 1, .run 1, .run 1,
        .run 1, .run 1, .run 1] twoProcesses).any
        (fun s => s.responses.any (Response.rotates 5)) = true := by decide
  obtain ⟨s, hr, hs⟩ := exists_reachable_of_play start_twoProcesses hpl
  exact ⟨s, hs, (reuse_caught hr).1 5⟩

/-- **Two processes that read one token before either consumes it both rotate it.** -/
theorem rotated_twice : ∃ s : State Nat, (auth ⟨900, 86400, 2592000⟩).Reachable Fresh s ∧
    (s.responses.filter (Response.rotates 5)).length = 2 := by
  have hpl : ((auth ⟨900, 86400, 2592000⟩).play Fresh
      [.createSession 0 1 2 3 4 5, .run 0, .run 0, .rotateRefreshToken 0 5 6, .rotateRefreshToken 1 5 7,
        .run 0, .run 1, .run 0, .run 1, .run 0, .run 1, .run 0, .run 0, .run 0, .run 1, .run 1, .run 1]
      twoProcesses).any
        (fun s => decide ((s.responses.filter (Response.rotates 5)).length = 2)) = true := by
    decide
  exact exists_reachable start_twoProcesses hpl

end Claim

end AiNet.Auth
