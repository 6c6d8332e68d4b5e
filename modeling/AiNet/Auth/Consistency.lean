import AiNet.Auth.AuthService

/-!
# What a step does to the sessions and tokens

Sessions and tokens are never deleted, a revoked session stays revoked and a consumed token consumed.
`sessions_after` and `tokens_after` say of every row after a statement which row it was before, and
which statement revokes or consumes it.
-/

namespace AiNet.Auth

open Core List Option UniqueTable

variable {ι : Type} [DecidableEq ι]

/-! ## Inversion -/

section Steps

variable {options : Options} {s s' : State ι}

omit [DecidableEq ι] in
theorem of_begin {p : Nat} {call : Call ι} (h : s.begin p call = some s') :
    ∃ process, s.processes[p]? = some process ∧ process.call = none ∧
      s' = { s with processes := s.processes.set p ⟨process.registry, some call, none⟩ } := by
  obtain ⟨process, hprc, h⟩ := bind_eq_some_iff.mp h
  split at h
  · rename_i hil
    exact ⟨process, hprc, hil, (some.inj h).symm⟩
  · cases h

theorem of_step {e : Event ι} (h : (auth options).step s e = some s') :
    match e with
    | .createSession p walletPublicKey deviceId sessionId familyId newToken =>
      ∃ db process, s.db.createSession
          (newSession options s.clock walletPublicKey deviceId sessionId familyId) = some db ∧
        s.processes[p]? = some process ∧ process.call = none ∧
        s' = { s with
          db := db
          processes := s.processes.set p (Process.mk process.registry
            (some (.insertToken s.clock
              (newSession options s.clock walletPublicKey deviceId sessionId familyId) none newToken
              (s.clock + options.refreshTtlSeconds * 1000))) none) }
    | .rotateRefreshToken p tokenHash newToken => ∃ process, s.processes[p]? = some process ∧
        process.call = none ∧
        s' = { s with
          processes := s.processes.set p
            (Process.mk process.registry (some (.findToken s.clock tokenHash newToken)) none) }
    | .revoke p target => ∃ process, s.processes[p]? = some process ∧ process.call = none ∧ s' = { s with
          processes := s.processes.set p
            (Process.mk process.registry (some (.revokeSessions s.clock target none)) none) }
    | .verify p payload => ∃ process, s.processes[p]? = some process ∧ process.call = none ∧
        payload ∈ s.responses.map Response.accessToken ∧
        s' = { s with
          processes := s.processes.set p
            { process with registry := registryAfter s.clock s.db process.registry payload } }
    | .run p => ∃ process call db registry next, s.processes[p]? = some process ∧ process.call = some call ∧
        runCall options s.clock s.db process.registry call = (db, registry, next) ∧
        s' = { s with
          db := db
          processes := s.processes.set p (.after registry next)
          responses := s.responses ++ next.responses }
    | .restart p => ∃ process, s.processes[p]? = some process ∧
        s' = { s with processes := s.processes.set p .fresh }
    | .tick clock => s.clock ≤ clock ∧ s' = { s with clock := clock } := by
  cases e with
  | createSession =>
    obtain ⟨db, hdb, h⟩ := bind_eq_some_iff.mp h
    obtain ⟨s₁, hbeg, h⟩ := bind_eq_some_iff.mp h
    obtain ⟨process, hprc, hil, rfl⟩ := of_begin hbeg
    exact ⟨db, process, hdb, hprc, hil, (some.inj h).symm⟩
  | rotateRefreshToken | revoke => exact of_begin h
  | verify =>
    obtain ⟨process, hprc, h⟩ := bind_eq_some_iff.mp h
    obtain ⟨⟨hil, hpa⟩, h⟩ := ite_none_right_eq_some.mp h
    exact ⟨process, hprc, isNone_iff_eq_none.mp hil, hpa, (some.inj h).symm⟩
  | run =>
    obtain ⟨process, hprc, h⟩ := bind_eq_some_iff.mp h
    obtain ⟨call, hcl, h⟩ := bind_eq_some_iff.mp h
    generalize hrun : runCall options s.clock s.db process.registry call = result at h
    obtain ⟨db, registry, next⟩ := result
    exact ⟨process, call, db, registry, next, hprc, hcl, hrun, (some.inj h).symm⟩
  | restart =>
    obtain ⟨process, hprc, h⟩ := bind_eq_some_iff.mp h
    exact ⟨process, hprc, (some.inj h).symm⟩
  | tick =>
    obtain ⟨hle, h⟩ := ite_none_right_eq_some.mp h
    exact ⟨hle, (some.inj h).symm⟩

end Steps

/-! ## Sessions -/

/-- The statement that a call stands before revokes a session. -/
def Call.revokes (session : AuthSession ι) : Call ι → Bool
  | .revokeSessions _ target _ => target.covers session
  | .expireSession _ sessionId => (Target.session sessionId).covers session
  | .findToken _ _ _ => false
  | .findSession _ _ _ => false
  | .markConsumed _ _ _ _ => false
  | .insertToken _ _ _ _ _ => false
  | .updateActivity _ _ _ _ _ => false
  | .issue _ _ _ => false
  | .revokeTokens _ _ _ => false
  | .register _ _ => false

section Sessions

variable {options : Options} {clock : Nat} {db db' : AuthDb ι} {registry registry' : RevocationRegistry ι}
  {call : Call ι} {next : Next ι}

theorem sessions_eq (h : runCall options clock db registry call = (db', registry', next)) :
    ∃ f : AuthSession ι → AuthSession ι, db'.sessions.rows = db.sessions.rows.map f ∧
      ∀ session, (f session).SameLogin session ∧
        (f session).isRevoked = (session.isRevoked || call.revokes session) := by
  have hsm : ∃ f : AuthSession ι → AuthSession ι, db.sessions.rows = db.sessions.rows.map f ∧
      ∀ session, (f session).SameLogin session ∧ (f session).isRevoked = (session.isRevoked || false) :=
    ⟨id, (List.map_id _).symm, fun session => ⟨.refl session, (Bool.or_false _).symm⟩⟩
  cases call with
  | findToken | findSession | markConsumed | issue | revokeTokens =>
    cases h; exact hsm
  | expireSession now | revokeSessions now =>
    cases h
    exact ⟨_, rfl, fun session => ⟨session.sameLogin_afterRevocation _ now,
      session.isRevoked_afterRevocation _ now⟩⟩
  | insertToken now session presented newToken expiresAt =>
    simp only [runCall] at h
    split at h
    · cases h
      exact hsm
    · rename_i db₁ hdb₁
      cases h
      obtain ⟨tokens, _, rfl⟩ := map_eq_some_iff.mp hdb₁
      exact hsm
  | updateActivity now session presented newToken expiresAt =>
    cases h
    refine ⟨_, rfl, fun other => ⟨other.sameLogin_afterActivity _ now expiresAt, ?_⟩⟩
    exact (other.isRevoked_afterActivity _ now expiresAt).trans (Bool.or_false _).symm
  | register target failure =>
    cases failure with
    | none | some => cases h; exact hsm

end Sessions

/-! ## Refresh tokens -/

/-- The statement that a call stands before consumes the refresh token with this hash. -/
def Call.consumes (tokenHash : ι) : Call ι → Bool
  | .markConsumed _ record _ _ => decide (tokenHash = record.tokenHash)
  | .findToken _ _ _ => false
  | .findSession _ _ _ => false
  | .expireSession _ _ => false
  | .insertToken _ _ _ _ _ => false
  | .updateActivity _ _ _ _ _ => false
  | .issue _ _ _ => false
  | .revokeSessions _ _ _ => false
  | .revokeTokens _ _ _ => false
  | .register _ _ => false

def Call.inserts : Call ι → Option (AuthRefreshToken ι)
  | .insertToken now session _ newToken expiresAt =>
    some (newTokenRecord now session newToken expiresAt)
  | .findToken _ _ _ => none
  | .findSession _ _ _ => none
  | .expireSession _ _ => none
  | .markConsumed _ _ _ _ => none
  | .updateActivity _ _ _ _ _ => none
  | .issue _ _ _ => none
  | .revokeSessions _ _ _ => none
  | .revokeTokens _ _ _ => none
  | .register _ _ => none

section Tokens

variable {options : Options} {clock : Nat} {db db' : AuthDb ι} {registry registry' : RevocationRegistry ι}
  {call : Call ι} {next : Next ι}

/-- **What a statement makes of the refresh tokens**: it changes them in place, and adds one at most. -/
theorem tokens_eq (h : runCall options clock db registry call = (db', registry', next)) :
    ∃ (f : AuthRefreshToken ι → AuthRefreshToken ι) (new : List (AuthRefreshToken ι)),
      db'.tokens.rows = db.tokens.rows.map f ++ new ∧
      (∀ token ∈ new, call.inserts = some token) ∧
      ∀ token, (f token).SameToken token ∧
        (f token).isConsumed = (token.isConsumed || call.consumes token.tokenHash) := by
  have hsm : ∃ (f : AuthRefreshToken ι → AuthRefreshToken ι) (new : List (AuthRefreshToken ι)),
      db.tokens.rows = db.tokens.rows.map f ++ new ∧
      (∀ token ∈ new, call.inserts = some token) ∧
      ∀ token, (f token).SameToken token ∧ (f token).isConsumed = (token.isConsumed || false) := by
    refine ⟨id, [], by simp, nofun, fun token => ?_⟩
    exact ⟨⟨rfl, rfl, rfl⟩, (Bool.or_false _).symm⟩
  cases call with
  | findToken | findSession | expireSession | issue | revokeSessions =>
    cases h; exact hsm
  | markConsumed now record session newToken =>
    cases h
    refine ⟨_, [], (append_nil _).symm, nofun, fun token => ?_⟩
    exact ⟨token.sameToken_afterConsumption now _ newToken,
      token.isConsumed_afterConsumption now _ newToken⟩
  | insertToken now session presented newToken expiresAt =>
    simp only [runCall] at h
    split at h
    · cases h
      exact hsm
    · rename_i db₁ hdb₁
      cases h
      obtain ⟨tokens, htks, rfl⟩ := map_eq_some_iff.mp hdb₁
      refine ⟨id, [newTokenRecord now session newToken expiresAt], ?_, fun token htok => ?_,
        fun token => ⟨⟨rfl, rfl, rfl⟩, (Bool.or_false _).symm⟩⟩
      · rw [List.map_id]
        exact (insert_eq_some htks).1
      · rw [mem_singleton.mp htok]
        rfl
  | updateActivity =>
    cases h
    exact hsm
  | revokeTokens now =>
    cases h
    refine ⟨_, [], (append_nil _).symm, nofun, fun token => ?_⟩
    exact ⟨token.sameToken_afterRevocation _ now,
      (token.isConsumed_afterRevocation _ now).trans (Bool.or_false _).symm⟩
  | register target failure =>
    cases failure with
    | none | some => cases h; exact hsm

end Tokens

/-!
## What rows, calls and responses say of each other

Every refresh token and every access token has its session, and what a call has read of a row is still
true of it but for its revocation and consumption. Rows only come in by `createSession` and by the
insert of a refresh token.
-/

/-! ## Steps -/

def State.running (s : State ι) : Event ι → Option (Call ι)
  | .run p => s.processes[p]?.bind Process.call
  | .createSession _ _ _ _ _ _ => none
  | .rotateRefreshToken _ _ _ => none
  | .revoke _ _ => none
  | .verify _ _ => none
  | .restart _ => none
  | .tick _ => none

def State.revokes (s : State ι) (e : Event ι) (session : AuthSession ι) : Bool :=
  (s.running e).any fun call => call.revokes session

def State.consumes (s : State ι) (e : Event ι) (tokenHash : ι) : Bool :=
  (s.running e).any fun call => call.consumes tokenHash

section Steps

variable {options : Options} {s s' : State ι} {e : Event ι}

omit [DecidableEq ι] in
theorem running_run {p : Nat} {process : Process ι} {call : Call ι}
    (hprc : s.processes[p]? = some process) (hcl : process.call = some call) :
    s.running (.run p) = some call := by
  simp only [State.running, hprc, bind_some, hcl]

/-- **The sessions after a step**: those before it, and a new one if this is a login. -/
theorem sessions_step (h : (auth options).step s e = some s') :
    ∃ (f : AuthSession ι → AuthSession ι) (new : List (AuthSession ι)),
      s'.db.sessions.rows = s.db.sessions.rows.map f ++ new ∧
      (∀ session ∈ new, ∃ p wallet device sessionId familyId newToken,
        e = .createSession p wallet device sessionId familyId newToken ∧
        session = newSession options s.clock wallet device sessionId familyId) ∧
      ∀ session, (f session).SameLogin session ∧
        (f session).isRevoked = (session.isRevoked || s.revokes e session) := by
  have hsm : s'.db = s.db → s.running e = none →
      ∃ (f : AuthSession ι → AuthSession ι) (new : List (AuthSession ι)),
        s'.db.sessions.rows = s.db.sessions.rows.map f ++ new ∧
        (∀ session ∈ new, ∃ p wallet device sessionId familyId newToken,
          e = .createSession p wallet device sessionId familyId newToken ∧
          session = newSession options s.clock wallet device sessionId familyId) ∧
        ∀ session, (f session).SameLogin session ∧
          (f session).isRevoked = (session.isRevoked || s.revokes e session) := by
    intro hdb hno
    refine ⟨id, [], by simp [hdb], nofun, fun session => ⟨.refl session, ?_⟩⟩
    simp [State.revokes, hno]
  cases e with
  | createSession p wallet device sessionId familyId newToken =>
    obtain ⟨db, process, hdb, _, _, rfl⟩ := of_step h
    obtain ⟨sessions, hse, rfl⟩ := map_eq_some_iff.mp hdb
    refine ⟨id, [newSession options s.clock wallet device sessionId familyId], ?_, ?_, ?_⟩
    · rw [List.map_id]
      exact (insert_eq_some hse).1
    · intro session hses
      exact ⟨p, wallet, device, sessionId, familyId, newToken, rfl, mem_singleton.mp hses⟩
    · intro session
      exact ⟨.refl session, (Bool.or_false _).symm⟩
  | rotateRefreshToken | revoke =>
    obtain ⟨process, _, _, rfl⟩ := of_step h
    exact hsm rfl rfl
  | verify =>
    obtain ⟨process, _, _, _, rfl⟩ := of_step h
    exact hsm rfl rfl
  | run =>
    obtain ⟨process, call, db, registry, next, hprc, hcl, hrun, rfl⟩ := of_step h
    obtain ⟨f, hrw, hf⟩ := sessions_eq hrun
    refine ⟨f, [], by simpa using hrw, nofun, fun session => ⟨(hf session).1, ?_⟩⟩
    rw [(hf session).2, State.revokes, running_run hprc hcl]
    rfl
  | restart =>
    obtain ⟨process, _, rfl⟩ := of_step h
    exact hsm rfl rfl
  | tick =>
    obtain ⟨_, rfl⟩ := of_step h
    exact hsm rfl rfl

/-- **The refresh tokens after a step.** -/
theorem tokens_step (h : (auth options).step s e = some s') :
    ∃ (f : AuthRefreshToken ι → AuthRefreshToken ι) (new : List (AuthRefreshToken ι)),
      s'.db.tokens.rows = s.db.tokens.rows.map f ++ new ∧
      (∀ token ∈ new, ∃ call, s.running e = some call ∧ call.inserts = some token) ∧
      ∀ token, (f token).SameToken token ∧
        (f token).isConsumed = (token.isConsumed || s.consumes e token.tokenHash) := by
  have hsm : s'.db.tokens = s.db.tokens → s.running e = none →
      ∃ (f : AuthRefreshToken ι → AuthRefreshToken ι) (new : List (AuthRefreshToken ι)),
        s'.db.tokens.rows = s.db.tokens.rows.map f ++ new ∧
        (∀ token ∈ new, ∃ call, s.running e = some call ∧ call.inserts = some token) ∧
        ∀ token, (f token).SameToken token ∧
          (f token).isConsumed = (token.isConsumed || s.consumes e token.tokenHash) := by
    intro htks hno
    refine ⟨id, [], by simp [htks], nofun, fun token => ⟨⟨rfl, rfl, rfl⟩, ?_⟩⟩
    simp [State.consumes, hno]
  cases e with
  | createSession =>
    obtain ⟨db, process, hdb, _, _, rfl⟩ := of_step h
    obtain ⟨sessions, _, rfl⟩ := map_eq_some_iff.mp hdb
    exact hsm rfl rfl
  | rotateRefreshToken | revoke =>
    obtain ⟨process, _, _, rfl⟩ := of_step h
    exact hsm rfl rfl
  | verify =>
    obtain ⟨process, _, _, _, rfl⟩ := of_step h
    exact hsm rfl rfl
  | run =>
    obtain ⟨process, call, db, registry, next, hprc, hcl, hrun, rfl⟩ := of_step h
    obtain ⟨f, new, hrw, hnew, hf⟩ := tokens_eq hrun
    have hrng := running_run hprc hcl
    refine ⟨f, new, hrw, fun token htok => ⟨call, hrng, hnew token htok⟩, fun token => ?_⟩
    refine ⟨(hf token).1, ?_⟩
    rw [(hf token).2, State.consumes, hrng]
    rfl
  | restart =>
    obtain ⟨process, _, rfl⟩ := of_step h
    exact hsm rfl rfl
  | tick =>
    obtain ⟨_, rfl⟩ := of_step h
    exact hsm rfl rfl

/-! ## Rows stay -/

/-- The rows of a database are still there in another. -/
structure Grows (db db' : AuthDb ι) : Prop where
  sessions : ∀ session ∈ db.sessions.rows, ∃ after ∈ db'.sessions.rows, after.SameLogin session ∧
    (session.isRevoked = true → after.isRevoked = true)
  tokens : ∀ token ∈ db.tokens.rows, ∃ after ∈ db'.tokens.rows, after.SameToken token ∧
    (token.isConsumed = true → after.isConsumed = true)

theorem grows_step (h : (auth options).step s e = some s') : Grows s.db s'.db := by
  refine ⟨fun session hses => ?_, fun token htok => ?_⟩
  · obtain ⟨f, new, hrw, _, hf⟩ := sessions_step h
    refine ⟨f session, ?_, (hf session).1, fun hrvk => ?_⟩
    · rw [hrw]
      exact mem_append_left _ (List.mem_map_of_mem hses)
    · rw [(hf session).2, hrvk, Bool.true_or]
  · obtain ⟨f, new, hrw, _, hf⟩ := tokens_step h
    refine ⟨f token, ?_, (hf token).1, fun hco => ?_⟩
    · rw [hrw]
      exact mem_append_left _ (List.mem_map_of_mem htok)
    · rw [(hf token).2, hco, Bool.true_or]

end Steps

/-! ## Consistency -/

def KnownSession (db : AuthDb ι) (session : AuthSession ι) : Prop :=
  ∃ row ∈ db.sessions.rows, row.SameLogin session

def KnownToken (db : AuthDb ι) (token : AuthRefreshToken ι) : Prop :=
  ∃ row ∈ db.tokens.rows, row.SameToken token

def CallConsistent (db : AuthDb ι) : Call ι → Prop
  | .findSession _ record _ => KnownToken db record
  | .markConsumed _ record session _ =>
    KnownToken db record ∧ record.sessionId = session.id ∧ KnownSession db session
  | .insertToken _ session _ _ _ => KnownSession db session
  | .updateActivity _ session _ _ _ => KnownSession db session
  | .issue session _ _ => KnownSession db session
  | .revokeSessions _ target failure => failure = some .tokenReuse →
      ∃ familyId, target = .family familyId ∧ ∃ row ∈ db.sessions.rows, row.familyId = familyId
  | .findToken _ _ _ => True
  | .expireSession _ _ => True
  | .revokeTokens _ _ _ => True
  | .register _ _ => True

def KnownPayload (db : AuthDb ι) (payload : AccessTokenPayload ι) : Prop :=
  ∃ row ∈ db.sessions.rows, row.id = payload.sessionId ∧ row.familyId = payload.familyId ∧
    row.walletPublicKey = payload.sub

structure Consistent (s : State ι) : Prop where
  tokens : ∀ token ∈ s.db.tokens.rows, ∃ row ∈ s.db.sessions.rows,
    row.id = token.sessionId ∧ row.familyId = token.familyId
  calls : ∀ process ∈ s.processes, ∀ call ∈ process.call, CallConsistent s.db call
  responses : ∀ response ∈ s.responses, KnownPayload s.db response.accessToken

section Consistency

variable {options : Options} {s s' : State ι} {e : Event ι} {db db' : AuthDb ι}

section

omit [DecidableEq ι]

theorem KnownSession.grows {session : AuthSession ι} (h : KnownSession db session)
    (hgrw : Grows db db') : KnownSession db' session := by
  obtain ⟨row, hrow, hsm⟩ := h
  obtain ⟨after, haf, hlgn, _⟩ := hgrw.sessions row hrow
  exact ⟨after, haf, hlgn.trans hsm⟩

theorem KnownToken.grows {token : AuthRefreshToken ι} (h : KnownToken db token)
    (hgrw : Grows db db') : KnownToken db' token := by
  obtain ⟨row, hrow, hsm⟩ := h
  obtain ⟨after, haf, htok, _⟩ := hgrw.tokens row hrow
  exact ⟨after, haf, htok.1.trans hsm.1, htok.2.1.trans hsm.2.1, htok.2.2.trans hsm.2.2⟩

theorem KnownPayload.grows {payload : AccessTokenPayload ι} (h : KnownPayload db payload)
    (hgrw : Grows db db') : KnownPayload db' payload := by
  obtain ⟨row, hrow, hid, hfam, hwal⟩ := h
  obtain ⟨after, haf, hlgn, _⟩ := hgrw.sessions row hrow
  exact ⟨after, haf, hlgn.1.trans hid, hlgn.2.1.trans hfam, hlgn.2.2.1.trans hwal⟩

end

variable {call : Call ι}

omit [DecidableEq ι] in
theorem CallConsistent.grows (h : CallConsistent db call) (hgrw : Grows db db') :
    CallConsistent db' call := by
  cases call with
  | findSession => exact KnownToken.grows h hgrw
  | markConsumed => exact ⟨h.1.grows hgrw, h.2.1, h.2.2.grows hgrw⟩
  | insertToken | updateActivity | issue => exact KnownSession.grows h hgrw
  | revokeSessions =>
    intro hreu
    obtain ⟨familyId, htgt, row, hrow, hfam⟩ := h hreu
    obtain ⟨after, haf, hlgn, _⟩ := hgrw.sessions row hrow
    exact ⟨familyId, htgt, after, haf, hlgn.2.1.trans hfam⟩
  | findToken | expireSession | revokeTokens | register => trivial

/-- **What a call reads is consistent with the rows it is read from.** -/
theorem next_consistent {clock : Nat} {registry registry' : RevocationRegistry ι} {next : Next ι}
    (hdb : ∀ token ∈ db.tokens.rows, ∃ row ∈ db.sessions.rows, row.id = token.sessionId ∧ row.familyId = token.familyId)
    (hcl : CallConsistent db call) (h : runCall options clock db registry call = (db', registry', next)) :
    (∀ call', next = .call call' → CallConsistent db call') ∧
      ∀ response ∈ next.responses, KnownPayload db response.accessToken := by
  cases call with
  | findToken now tokenHash =>
    cases h
    cases hfnd : db.findRefreshTokenByHash tokenHash with
    | none => exact ⟨nofun, nofun⟩
    | some record =>
      have hrec := (find_eq_some.mp hfnd).1
      unfold Next.ofToken
      dsimp only
      split
      · refine ⟨fun call' hnx => ?_, nofun⟩
        cases hnx
        intro _
        obtain ⟨row, hrow, _, hfam⟩ := hdb record hrec
        exact ⟨record.familyId, rfl, row, hrow, hfam⟩
      · split
        · exact ⟨nofun, nofun⟩
        · split
          · exact ⟨nofun, nofun⟩
          · refine ⟨fun call' hnx => ?_, nofun⟩
            cases hnx
            exact ⟨record, hrec, rfl, rfl, rfl⟩
  | findSession now record =>
    cases h
    cases hfnd : db.findSessionById record.sessionId with
    | none => exact ⟨nofun, nofun⟩
    | some session =>
      obtain ⟨hses, hid⟩ := find_eq_some.mp hfnd
      unfold Next.ofSession
      dsimp only
      split
      · exact ⟨nofun, nofun⟩
      · split
        · refine ⟨fun call' hnx => ?_, nofun⟩
          cases hnx
          trivial
        · refine ⟨fun call' hnx => ?_, nofun⟩
          cases hnx
          exact ⟨hcl, hid.symm, session, hses, .refl session⟩
  | expireSession | revokeSessions | revokeTokens =>
    cases h
    refine ⟨fun call' hnx => ?_, nofun⟩
    cases hnx
    trivial
  | markConsumed =>
    cases h
    refine ⟨fun call' hnx => ?_, nofun⟩
    cases hnx
    exact hcl.2.2
  | insertToken =>
    simp only [runCall] at h
    split at h
    · cases h
      exact ⟨nofun, nofun⟩
    · cases h
      split
      · refine ⟨fun call' hnx => ?_, nofun⟩
        cases hnx
        exact hcl
      · refine ⟨fun call' hnx => ?_, nofun⟩
        cases hnx
        exact hcl
  | updateActivity =>
    cases h
    refine ⟨fun call' hnx => ?_, nofun⟩
    cases hnx
    exact hcl
  | issue =>
    cases h
    refine ⟨nofun, fun response hrsp => ?_⟩
    obtain rfl := mem_singleton.mp hrsp
    obtain ⟨row, hrow, hid, hfam, hwal, _⟩ := hcl
    exact ⟨row, hrow, hid, hfam, hwal⟩
  | register target failure =>
    cases failure with
    | none | some =>
      cases h
      exact ⟨nofun, nofun⟩

/-! ## The invariant -/

theorem inserted_session {token : AuthRefreshToken ι} (hcl : CallConsistent db call)
    (h : call.inserts = some token) : ∃ row ∈ db.sessions.rows,
      row.id = token.sessionId ∧ row.familyId = token.familyId := by
  cases call with
  | insertToken =>
    cases h
    obtain ⟨row, hrow, hid, hfam, _⟩ := hcl
    exact ⟨row, hrow, hid, hfam⟩
  | findToken | findSession | expireSession | markConsumed | updateActivity | issue | revokeSessions
  | revokeTokens | register => cases h

theorem Consistent.running (hI : Consistent s) (h : s.running e = some call) :
    CallConsistent s.db call := by
  cases e with
  | run =>
    obtain ⟨process, hprc, hcl⟩ := bind_eq_some_iff.mp h
    exact hI.calls process (mem_of_getElem? hprc) call hcl
  | createSession | rotateRefreshToken | revoke | verify | restart | tick => cases h

theorem Consistent.step (hI : Consistent s) (h : (auth options).step s e = some s') :
    Consistent s' := by
  have hgrw := grows_step h
  have htks : ∀ token ∈ s'.db.tokens.rows, ∃ row ∈ s'.db.sessions.rows,
      row.id = token.sessionId ∧ row.familyId = token.familyId := by
    intro token htok
    obtain ⟨f, new, hrw, hnew, hf⟩ := tokens_step h
    obtain ⟨row, hrow, hid, hfam⟩ : ∃ row ∈ s.db.sessions.rows,
        row.id = token.sessionId ∧ row.familyId = token.familyId := by
      rw [hrw] at htok
      rcases mem_append.mp htok with hold | had
      · obtain ⟨before, hbf, rfl⟩ := List.mem_map.mp hold
        obtain ⟨row, hrow, hid, hfam⟩ := hI.tokens before hbf
        obtain ⟨_, hses, hsm⟩ := (hf before).1
        exact ⟨row, hrow, hid.trans hses.symm, hfam.trans hsm.symm⟩
      · obtain ⟨call, hrng, hin⟩ := hnew token had
        exact inserted_session (hI.running hrng) hin
    obtain ⟨after, haf, hlgn, _⟩ := hgrw.sessions row hrow
    exact ⟨after, haf, hlgn.1.trans hid, hlgn.2.1.trans hfam⟩
  have hcs : ∀ process ∈ s.processes, ∀ call ∈ process.call, CallConsistent s'.db call := by
    intro process hprc call hcl
    exact (hI.calls process hprc call hcl).grows hgrw
  have hre : ∀ response ∈ s.responses, KnownPayload s'.db response.accessToken := by
    intro response hrsp
    exact (hI.responses response hrsp).grows hgrw
  -- one process has moved, the others are where they were
  have hmv : ∀ p (process : Process ι), (∀ call ∈ process.call, CallConsistent s'.db call) →
      ∀ other ∈ s.processes.set p process, ∀ call ∈ other.call, CallConsistent s'.db call := by
    intro p process hnew
    refine forall_mem_set hnew fun j other _ hoth => ?_
    exact hcs other (mem_of_getElem? hoth)
  cases e with
  | createSession p =>
    obtain ⟨db, process, hdb, _, _, rfl⟩ := of_step h
    refine ⟨htks, hmv p _ fun call hcl => ?_, hre⟩
    obtain rfl := mem_some_iff.mp hcl
    obtain ⟨sessions, hse, rfl⟩ := map_eq_some_iff.mp hdb
    refine ⟨_, ?_, .refl _⟩
    rw [(insert_eq_some hse).1]
    exact mem_append_right _ mem_cons_self
  | rotateRefreshToken p =>
    obtain ⟨process, _, _, rfl⟩ := of_step h
    refine ⟨htks, hmv p _ fun call hcl => ?_, hre⟩
    obtain rfl := mem_some_iff.mp hcl
    trivial
  | revoke p =>
    obtain ⟨process, _, _, rfl⟩ := of_step h
    refine ⟨htks, hmv p _ fun call hcl => ?_, hre⟩
    obtain rfl := mem_some_iff.mp hcl
    exact nofun
  | verify p =>
    obtain ⟨process, hprc, _, _, rfl⟩ := of_step h
    exact ⟨htks, hmv p _ (hcs process (mem_of_getElem? hprc)), hre⟩
  | run p =>
    obtain ⟨process, call, db, registry, next, hprc, hcl, hrun, rfl⟩ := of_step h
    have hrd := hI.calls process (mem_of_getElem? hprc) call hcl
    obtain ⟨hnx, hiss⟩ := next_consistent hI.tokens hrd hrun
    refine ⟨htks, hmv p _ fun call' hcl' => ?_, fun response hrsp => ?_⟩
    · cases next with
      | call after =>
        obtain rfl := mem_some_iff.mp hcl'
        exact (hnx after rfl).grows hgrw
      | done => cases hcl'
    · rcases mem_append.mp hrsp with hold | hnew
      · exact hre response hold
      · exact (hiss response hnew).grows hgrw
  | restart p =>
    obtain ⟨process, _, rfl⟩ := of_step h
    exact ⟨htks, hmv p _ nofun, hre⟩
  | tick =>
    obtain ⟨_, rfl⟩ := of_step h
    exact ⟨htks, hcs, hre⟩

theorem consistent {guard : State ι → Event ι → Prop} (h : (auth options).Reachable guard s) :
    Consistent s := by
  refine h.invariant ?_ ?_
  · intro s hsta
    obtain ⟨hse, htks, hre, hpr⟩ := hsta
    refine ⟨?_, ?_, ?_⟩
    · intro token htok
      rw [htks] at htok
      cases htok
    · intro process hprc call hcl
      rw [hpr process hprc] at hcl
      cases hcl
    · intro response hrsp
      rw [hre] at hrsp
      cases hrsp
  · intro s e s' _ _ hI hs
    exact hI.step hs

end Consistency

end AiNet.Auth
