import AiNet.Auth.Rotation

/-!
# Revocation

The database decides: a session that it has revoked stays revoked, whatever the processes remember. What
they remember is `Backed` by the database, so nobody else is locked out by it. The exception are the
wallets: the registry compares the second in which a token was issued with the millisecond of the
revocation, so a login right after the revocation of its wallet is taken for one before it.
-/

namespace AiNet.Auth

open Core List Option Function System UniqueTable

variable {ι : Type} [DecidableEq ι]

/-! ## Which runs -/

/--
The times of the wallets tell logins from revocations: no access token is issued in the second of a
revocation of its wallet or before that, and when a revocation is written down no login of its wallet
has come in after the statement that revoked the sessions.
-/
def Distinguishable (s : State ι) : Call ι → Prop
  | .issue session _ _ => ∀ process ∈ s.processes,
      ∀ revokedAt ∈ process.registry.revokedWallets session.walletPublicKey,
        revokedAt < s.clock / 1000 * 1000
  | .register (.wallet walletPublicKey) _ => ∀ response ∈ s.responses,
      response.accessToken.sub = walletPublicKey →
        ∀ session ∈ s.db.sessions.rows, session.id = response.accessToken.sessionId →
          session.isRevoked = true
  | .register (.session _) _ => True
  | .register (.family _) _ => True
  | .findToken _ _ _ => True
  | .findSession _ _ _ => True
  | .expireSession _ _ => True
  | .markConsumed _ _ _ _ => True
  | .insertToken _ _ _ _ _ => True
  | .updateActivity _ _ _ _ _ => True
  | .revokeSessions _ _ _ => True
  | .revokeTokens _ _ _ => True

/-- Moreover no rotation is disturbed. -/
def Orderly (s : State ι) (e : Event ι) : Prop :=
  Undisturbed s e ∧ ∀ call ∈ s.running e, Distinguishable s call

instance (s : State ι) (call : Call ι) : Decidable (Distinguishable s call) :=
  match call with
  | .issue session _ _ => inferInstanceAs (Decidable (∀ process ∈ s.processes,
      ∀ revokedAt ∈ process.registry.revokedWallets session.walletPublicKey,
        revokedAt < s.clock / 1000 * 1000))
  | .register (.wallet walletPublicKey) _ => inferInstanceAs (Decidable (∀ response ∈ s.responses,
      response.accessToken.sub = walletPublicKey →
        ∀ session ∈ s.db.sessions.rows, session.id = response.accessToken.sessionId →
          session.isRevoked = true))
  | .register (.session _) _ => isTrue trivial
  | .register (.family _) _ => isTrue trivial
  | .findToken _ _ _ => isTrue trivial
  | .findSession _ _ _ => isTrue trivial
  | .expireSession _ _ => isTrue trivial
  | .markConsumed _ _ _ _ => isTrue trivial
  | .insertToken _ _ _ _ _ => isTrue trivial
  | .updateActivity _ _ _ _ _ => isTrue trivial
  | .revokeSessions _ _ _ => isTrue trivial
  | .revokeTokens _ _ _ => isTrue trivial

instance (s : State ι) (e : Event ι) : Decidable (Orderly s e) :=
  inferInstanceAs (Decidable (Undisturbed s e ∧ ∀ call ∈ s.running e, Distinguishable s call))

/-! ## What the processes remember -/

/-- The database has revoked all sessions that a revocation covers. -/
def Backed (db : AuthDb ι) (target : Target ι) : Prop :=
  ∀ session ∈ db.sessions.rows, target.covers session = true → session.isRevoked = true

/-- The revocation of a call whose sessions the database has revoked. -/
def Call.begun : Call ι → Option (Target ι)
  | .revokeTokens _ target _ => some target
  | .register target _ => some target
  | .revokeSessions _ _ _ => none
  | .expireSession _ _ => none
  | .findToken _ _ _ => none
  | .findSession _ _ _ => none
  | .markConsumed _ _ _ _ => none
  | .insertToken _ _ _ _ _ => none
  | .updateActivity _ _ _ _ _ => none
  | .issue _ _ _ => none

/-- Later logins of a wallet are not covered. -/
def Target.lasting : Target ι → Bool
  | .session _ => true
  | .family _ => true
  | .wallet _ => false

structure Remembered (db : AuthDb ι) (responses : List (Response ι)) (process : Process ι) : Prop where
  sessions : ∀ sessionId, process.registry.revokedSessions sessionId ≠ none → Backed db (.session sessionId)
  families : ∀ familyId, process.registry.revokedFamilies familyId ≠ none → Backed db (.family familyId)
  wallets : ∀ response ∈ responses, ∀ revokedAt ∈ process.registry.revokedWallets response.accessToken.sub,
      Backed db (.session response.accessToken.sessionId) ∨ revokedAt < response.accessToken.iat * 1000
  call : ∀ call ∈ process.call, ∀ target, call.begun = some target → target.lasting = true →
    Backed db target

section Remembered

variable {options : Options} {s s' t : State ι} {e : Event ι} {target : Target ι}

/-- **What is revoked stays revoked**, and no new session is covered. -/
theorem Backed.step (hbkd : Backed s.db target)
    (hnew : ∀ p wallet device sessionId familyId newToken,
      e = .createSession p wallet device sessionId familyId newToken →
      target.covers (newSession options s.clock wallet device sessionId familyId) = false)
    (h : (auth options).step s e = some s') : Backed s'.db target := by
  obtain ⟨f, new, hrw, had, hf⟩ := sessions_step h
  intro session hses hcov
  rw [hrw] at hses
  rcases mem_append.mp hses with hold | hadd
  · obtain ⟨before, hbf, rfl⟩ := List.mem_map.mp hold
    rw [(hf before).1.covers] at hcov
    rw [(hf before).2, hbkd before hbf hcov, Bool.true_or]
  · obtain ⟨p, wallet, device, sessionId, familyId, newToken, he, rfl⟩ := had session hadd
    rw [hnew p wallet device sessionId familyId newToken he] at hcov
    cases hcov

theorem backed_of_revokes (h : (auth options).step s e = some s')
    (hcov : ∀ session, target.covers session = true → s.revokes e session = true)
    (hrun : ∀ p wallet device sessionId familyId newToken,
      e ≠ .createSession p wallet device sessionId familyId newToken) : Backed s'.db target := by
  obtain ⟨f, new, hrw, had, hf⟩ := sessions_step h
  intro session hses hcvd
  rw [hrw] at hses
  rcases mem_append.mp hses with hold | hadd
  · obtain ⟨before, hbf, rfl⟩ := List.mem_map.mp hold
    rw [(hf before).1.covers] at hcvd
    rw [(hf before).2, hcov before hcvd, Bool.or_true]
  · obtain ⟨p, wallet, device, sessionId, familyId, newToken, he, _⟩ := had session hadd
    exact absurd he (hrun p wallet device sessionId familyId newToken)

theorem payload_not_new (hI : Consistent s) {response : Response ι} (hrsp : response ∈ s.responses)
    {p : Nat} {wallet device sessionId familyId newToken : ι}
    (h : (auth options).step s (.createSession p wallet device sessionId familyId newToken) = some s') :
    (Target.session response.accessToken.sessionId).covers
      (newSession options s.clock wallet device sessionId familyId) = false := by
  obtain ⟨db, process, hdb, _⟩ := of_step h
  obtain ⟨sessions, hse, _⟩ := map_eq_some_iff.mp hdb
  obtain ⟨row, hrow, hid, _⟩ := hI.responses response hrsp
  refine decide_eq_false fun heq => ?_
  exact (insert_eq_some hse).2 row hrow (hid.trans heq.symm)

variable {process : Process ι}

/-- **What a process remembers stays backed through the steps of the others.** -/
theorem Remembered.step (hprc : process ∈ s.processes)
    (hre : Remembered s.db s.responses process) (hI : Consistent s) (hfr : Fresh s e)
    (h : (auth options).step s e = some s') : Remembered s'.db s.responses process where
  sessions := by
    intro sessionId hent
    refine (hre.sessions sessionId hent).step ?_ h
    rintro p wallet device newId familyId newToken rfl
    refine decide_eq_false fun heq => hent ?_
    obtain rfl : newId = sessionId := heq
    exact (hfr.2 process hprc).1
  families := by
    intro familyId hent
    refine (hre.families familyId hent).step ?_ h
    rintro p wallet device newId newFamily newToken rfl
    refine decide_eq_false fun heq => hent ?_
    obtain rfl : newFamily = familyId := heq
    exact (hfr.2 process hprc).2.1
  wallets := by
    intro response hrsp revokedAt hent
    rcases hre.wallets response hrsp revokedAt hent with hbkd | hbf
    · refine .inl (hbkd.step ?_ h)
      rintro p wallet device sessionId familyId newToken rfl
      exact payload_not_new hI hrsp h
    · exact .inr hbf
  call := by
    intro call hcl target hbeg hla
    refine (hre.call call hcl target hbeg hla).step ?_ h
    rintro p wallet device sessionId familyId newToken rfl
    obtain ⟨hses, hfam⟩ := (hfr.2 process hprc).2.2 call hcl
    have htgt : call.target = some target := by
      cases call with
      | revokeTokens | register => exact hbeg
      | revokeSessions | expireSession | findToken | findSession | markConsumed | insertToken
      | updateActivity | issue => cases hbeg
    cases target with
    | session id =>
      refine decide_eq_false fun heq => hses ?_
      obtain rfl : sessionId = id := heq
      exact htgt
    | family id =>
      refine decide_eq_false fun heq => hfam ?_
      obtain rfl : familyId = id := heq
      exact htgt
    | wallet => cases hla

/-! ### The process that moves -/

variable {clock : Nat} {db db' : AuthDb ι} {registry registry' : RevocationRegistry ι} {call : Call ι} {next : Next ι}

theorem registry_next (h : runCall options clock db registry call = (db', registry', next)) :
    registry' = registry ∨
      ∃ target failure, call = .register target failure ∧ registry' = registry.revoke clock target := by
  cases call with
  | findToken | findSession | expireSession | markConsumed | issue | revokeSessions | revokeTokens
  | updateActivity =>
    exact .inl (Prod.mk.inj (Prod.mk.inj h).2).1.symm
  | insertToken =>
    simp only [runCall] at h
    split at h
    · exact .inl (Prod.mk.inj (Prod.mk.inj h).2).1.symm
    · exact .inl (Prod.mk.inj (Prod.mk.inj h).2).1.symm
  | register target failure =>
    cases failure with
    | none => exact .inr ⟨target, none, rfl, (Prod.mk.inj (Prod.mk.inj h).2).1.symm⟩
    | some error => exact .inr ⟨target, some error, rfl, (Prod.mk.inj (Prod.mk.inj h).2).1.symm⟩

section

omit [DecidableEq ι]

theorem begun_ofToken {clock now : Nat} {registry : RevocationRegistry ι} {newToken : ι}
    {found : Option (AuthRefreshToken ι)}
    (h : Next.ofToken clock now registry newToken found = .call call) : call.begun = none := by
  cases found with
  | none => cases h
  | some =>
    unfold Next.ofToken at h
    dsimp only at h
    split at h
    · rw [← Next.call.inj h]
      rfl
    · split at h
      · cases h
      · split at h
        · cases h
        · rw [← Next.call.inj h]
          rfl

theorem begun_ofSession {now : Nat} {record : AuthRefreshToken ι} {newToken : ι}
    {found : Option (AuthSession ι)}
    (h : Next.ofSession options now record newToken found = .call call) : call.begun = none := by
  cases found with
  | none => cases h
  | some =>
    unfold Next.ofSession at h
    dsimp only at h
    split at h
    · cases h
    · split at h
      · rw [← Next.call.inj h]
        rfl
      · rw [← Next.call.inj h]
        rfl

end

theorem begun_next {call after : Call ι}
    (h : runCall options clock db registry call = (db', registry', .call after))
    (hbeg : after.begun = some target) :
    call.begun = some target ∨
      ∀ session : AuthSession ι, target.covers session = true → call.revokes session = true := by
  have hnx := (Prod.mk.inj (Prod.mk.inj h).2).2
  cases call with
  | findToken => rw [begun_ofToken hnx] at hbeg; cases hbeg
  | findSession => rw [begun_ofSession hnx] at hbeg; cases hbeg
  | expireSession | revokeSessions =>
    rw [← Next.call.inj hnx] at hbeg
    cases hbeg
    exact .inr fun session hcov => hcov
  | markConsumed | updateActivity =>
    rw [← Next.call.inj hnx] at hbeg
    cases hbeg
  | insertToken =>
    simp only [runCall] at h
    split at h
    · cases (Prod.mk.inj (Prod.mk.inj h).2).2
    · have hnx := (Prod.mk.inj (Prod.mk.inj h).2).2
      split at hnx
      · rw [← Next.call.inj hnx] at hbeg
        cases hbeg
      · rw [← Next.call.inj hnx] at hbeg
        cases hbeg
  | issue => cases hnx
  | revokeTokens =>
    rw [← Next.call.inj hnx] at hbeg
    exact .inl hbeg
  | register target' failure =>
    cases failure with
    | none | some => cases hnx

theorem issued_next (h : runCall options clock db registry call = (db', registry', next))
    {response : Response ι} (hrsp : response ∈ next.responses) :
    ∃ session presented newToken, call = .issue session presented newToken ∧
      response.accessToken = generateAccessToken options clock session := by
  have hres : response ∈ (runCall options clock db registry call).2.2.responses := by
    rw [h]
    exact hrsp
  cases call with
  | issue session presented newToken =>
    rw [mem_singleton.mp hres]
    exact ⟨session, presented, newToken, rfl, rfl⟩
  | findToken now tokenHash =>
    exfalso
    cases hfnd : db.findRefreshTokenByHash tokenHash with
    | none => simp [runCall, hfnd, Next.ofToken, Next.responses] at hres
    | some =>
      simp only [runCall, hfnd, Next.ofToken] at hres
      split at hres
      · cases hres
      · split at hres
        · cases hres
        · split at hres
          · cases hres
          · cases hres
  | findSession now record =>
    exfalso
    cases hfnd : db.findSessionById record.sessionId with
    | none => simp [runCall, hfnd, Next.ofSession, Next.responses] at hres
    | some =>
      simp only [runCall, hfnd, Next.ofSession] at hres
      split at hres
      · cases hres
      · split at hres
        · cases hres
        · cases hres
  | expireSession | markConsumed | updateActivity | revokeSessions | revokeTokens => cases hres
  | insertToken =>
    exfalso
    simp only [runCall] at hres
    split at hres
    · cases hres
    · split at hres
      · cases hres
      · cases hres
  | register target' failure =>
    cases failure with
    | none | some => cases hres

variable {db : AuthDb ι}

theorem Remembered.takes {responses : List (Response ι)} (h : Remembered db responses process)
    (hcl : call.begun = none) : Remembered db responses ⟨process.registry, some call, none⟩ where
  sessions := h.sessions
  families := h.families
  wallets := h.wallets
  call := by
    intro call' hcl' target hbeg
    obtain rfl := mem_some_iff.mp hcl'
    rw [hcl] at hbeg
    cases hbeg

theorem remembered_fresh (db : AuthDb ι) (responses : List (Response ι)) :
    Remembered db responses .fresh where
  sessions := fun _ hent => absurd rfl hent
  families := fun _ hent => absurd rfl hent
  wallets := nofun
  call := nofun

theorem Remembered.verified {responses : List (Response ι)} (h : Remembered db responses process)
    (clock : Nat) (payload : AccessTokenPayload ι) :
    Remembered db responses
      { process with registry := registryAfter clock db process.registry payload } := by
  unfold registryAfter
  split
  · rename_i hin
    refine ⟨fun sessionId hent => ?_, h.families, h.wallets, h.call⟩
    rcases eq_or_ne sessionId payload.sessionId with rfl | hne
    · -- the verification has found the session revoked, or not at all
      intro session hses hcov
      have hfnd : db.findSessionById payload.sessionId = some session :=
        find_eq_some.mpr ⟨hses, of_decide_eq_true hcov⟩
      unfold verifyAccessToken at hin
      rw [hfnd] at hin
      by_contra hun
      simp only [if_neg hun] at hin
      split at hin
      · cases hin
      · split at hin
        · cases hin
        · split at hin
          · cases hin
          · split at hin
            · cases hin
            · cases hin
    · refine h.sessions sessionId ?_
      simpa [RevocationRegistry.revoke, update_of_ne hne] using hent
  · exact h

theorem Remembered.registered {failure : Option AuthError} (h : Remembered s.db s.responses process)
    (hcl : process.call = some (.register target failure))
    (hgrd : Distinguishable s (.register target failure)) :
    Remembered s.db s.responses ⟨process.registry.revoke s.clock target, none, none⟩ := by
  have hbkd : target.lasting = true → Backed s.db target :=
    h.call (.register target failure) (mem_def.mpr hcl) target rfl
  cases target with
  | session id =>
    refine ⟨fun sessionId hent => ?_, h.families, h.wallets, nofun⟩
    rcases eq_or_ne sessionId id with rfl | hne
    · exact hbkd rfl
    · refine h.sessions sessionId ?_
      simpa [RevocationRegistry.revoke, update_of_ne hne] using hent
  | family id =>
    refine ⟨h.sessions, fun familyId hent => ?_, h.wallets, nofun⟩
    rcases eq_or_ne familyId id with rfl | hne
    · exact hbkd rfl
    · refine h.families familyId ?_
      simpa [RevocationRegistry.revoke, update_of_ne hne] using hent
  | wallet wallet =>
    refine ⟨h.sessions, h.families, fun response hrsp revokedAt hent => ?_, nofun⟩
    rcases eq_or_ne response.accessToken.sub wallet with heq | hne
    · refine .inl fun session hses hcov => ?_
      exact hgrd response hrsp heq session hses (of_decide_eq_true hcov)
    · refine h.wallets response hrsp revokedAt ?_
      simpa [RevocationRegistry.revoke, update_of_ne hne] using hent

/--
**The process that runs a statement.** `h` is what it remembers as the database is after the statement,
`hbefore` as it was before.
-/
theorem Remembered.ran {registry : RevocationRegistry ι} (h : Remembered db s.responses process)
    (hbf : Remembered s.db s.responses process) (hcl : process.call = some call)
    (hgrd : Distinguishable s call)
    (hrun : runCall options s.clock s.db process.registry call = (db, registry, next))
    (hre : ∀ target : Target ι, (∀ session, target.covers session = true → call.revokes session = true) → Backed db target) :
    Remembered db s.responses (.after registry next) := by
  have hrgy : Remembered db s.responses ⟨registry, none, none⟩ := by
    rcases registry_next hrun with rfl | ⟨target, failure, rfl, rfl⟩
    · exact ⟨h.sessions, h.families, h.wallets, nofun⟩
    · have hdb : s.db = db := by
        cases failure with
        | none | some => exact (Prod.mk.inj hrun).1
      exact hdb ▸ hbf.registered hcl hgrd
  refine ⟨?_, ?_, ?_, ?_⟩
  · cases next with
    | call | done => exact hrgy.sessions
  · cases next with
    | call | done => exact hrgy.families
  · cases next with
    | call | done => exact hrgy.wallets
  · cases next with
    | done => exact nofun
    | call =>
      intro call' hcl' target hbeg hla
      obtain rfl := mem_some_iff.mp hcl'
      rcases begun_next hrun hbeg with hbeg | hcov
      · exact h.call call (mem_def.mpr hcl) target hbeg hla
      · exact hre target hcov

theorem Remembered.issued {responses new : List (Response ι)}
    (h : Remembered db responses process)
    (hnew : ∀ response ∈ new, ∀ revokedAt ∈ process.registry.revokedWallets response.accessToken.sub,
      revokedAt < response.accessToken.iat * 1000) : Remembered db (responses ++ new) process where
  sessions := h.sessions
  families := h.families
  call := h.call
  wallets := by
    intro response hrsp revokedAt hent
    rcases mem_append.mp hrsp with hold | had
    · exact h.wallets response hold revokedAt hent
    · exact .inr (hnew response had revokedAt hent)

theorem remembered_step (hI : Consistent s) (hgrd : Orderly s e)
    (hall : ∀ process ∈ s.processes, Remembered s.db s.responses process)
    (h : (auth options).step s e = some s') :
    ∀ process ∈ s'.processes, Remembered s'.db s'.responses process := by
  have hkpt : ∀ process ∈ s.processes, Remembered s'.db s.responses process := by
    intro process hprc
    exact (hall process hprc).step hprc hI hgrd.1.1 h
  have hots : ∀ p (new : Process ι), Remembered s'.db s.responses new →
      ∀ process ∈ s.processes.set p new, Remembered s'.db s.responses process := by
    intro p new hnew
    exact forall_mem_set hnew fun j other _ hoth => hkpt other (mem_of_getElem? hoth)
  cases e with
  | createSession p =>
    obtain ⟨db, process, _, hprc, _, rfl⟩ := of_step h
    exact hots p _ ((hkpt process (mem_of_getElem? hprc)).takes rfl)
  | rotateRefreshToken p | revoke p =>
    obtain ⟨process, hprc, _, rfl⟩ := of_step h
    exact hots p _ ((hkpt process (mem_of_getElem? hprc)).takes rfl)
  | verify p payload =>
    obtain ⟨process, hprc, _, _, rfl⟩ := of_step h
    exact hots p _ ((hkpt process (mem_of_getElem? hprc)).verified s.clock payload)
  | restart p =>
    obtain ⟨process, _, rfl⟩ := of_step h
    exact hots p _ (remembered_fresh _ _)
  | tick =>
    obtain ⟨_, rfl⟩ := of_step h
    exact hkpt
  | run p =>
    have hre : ∀ target : Target ι, (∀ session, target.covers session = true →
        s.revokes (.run p) session = true) → Backed s'.db target :=
      fun target hcov => backed_of_revokes h hcov nofun
    obtain ⟨process, call, db, registry, next, hprc, hcl, hrun, rfl⟩ := of_step h
    have hmem := mem_of_getElem? hprc
    have hrng := running_run hprc hcl
    have htim := hgrd.2 call hrng
    have hmv := (hkpt process hmem).ran (hall process hmem) hcl htim hrun
      fun target hcov => hre target fun session hcvd => by
        rw [State.revokes, hrng]
        exact hcov session hcvd
    have hiss : ∀ other ∈ s.processes, ∀ response ∈ next.responses,
        ∀ revokedAt ∈ other.registry.revokedWallets response.accessToken.sub,
          revokedAt < response.accessToken.iat * 1000 := by
      intro other hoth response hrsp revokedAt hent
      obtain ⟨session, presented, newToken, rfl, htok⟩ := issued_next hrun hrsp
      rw [htok] at hent ⊢
      exact htim other hoth revokedAt hent
    refine forall_mem_set (hmv.issued fun response hrsp => ?_) fun j other _ hoth => ?_
    · -- whoever issues a token has not changed its registry
      obtain ⟨session, presented, newToken, rfl, _⟩ := issued_next hrun hrsp
      have hsm : (Process.after registry next).registry = process.registry := by
        rw [← (Prod.mk.inj (Prod.mk.inj hrun).2).1, ← (Prod.mk.inj (Prod.mk.inj hrun).2).2]
        rfl
      rw [hsm]
      exact hiss process hmem response hrsp
    · have hmt := mem_of_getElem? hoth
      exact (hkpt other hmt).issued (hiss other hmt)

theorem remembered (h : (auth options).Reachable Orderly s) :
    ∀ process ∈ s.processes, Remembered s.db s.responses process := by
  refine h.invariant (I := fun s => ∀ process ∈ s.processes, Remembered s.db s.responses process) ?_ ?_
  · intro s hsta process hprc
    rw [hsta.2.2.2 process hprc]
    exact remembered_fresh _ _
  · intro s e s' hr hgrd hI hs
    exact remembered_step (consistent hr) hgrd hI hs

end Remembered

/-! ## The claim -/

/-- Some statement in the record of a run revoked the session. -/
def Covered (log : List (State ι × Event ι)) (sessionId : ι) : Prop :=
  ∃ entry ∈ log, ∃ session ∈ entry.1.db.sessions.rows, session.id = sessionId ∧
    entry.1.revokes entry.2 session = true

section Claim

variable {options : Options} {s t : State ι} {e : Event ι} {log : List (State ι × Event ι)}
  {guard : State ι → Event ι → Prop}

variable {session : AuthSession ι}

/-- **A session is revoked only by a revocation that covers it.** -/
theorem covered_of_revoked (h : (auth options).Logged guard s log) (hses : session ∈ s.db.sessions.rows)
    (hrvk : session.isRevoked = true) :
    Covered log session.id := by
  induction h generalizing session with
  | start hsta =>
    rw [hsta.1] at hses
    cases hses
  | @step s s' e log _ _ hs ih =>
    obtain ⟨f, new, hrw, hnew, hf⟩ := sessions_step hs
    rw [hrw] at hses
    rcases mem_append.mp hses with hold | had
    · obtain ⟨before, hbf, rfl⟩ := List.mem_map.mp hold
      rw [(hf before).2, Bool.or_eq_true] at hrvk
      rw [(hf before).1.1]
      rcases hrvk with hrvk | hre
      · obtain ⟨entry, hent, hcvd⟩ := ih hbf hrvk
        exact ⟨entry, mem_append_left _ hent, hcvd⟩
      · refine ⟨(s, e), mem_append_right _ mem_cons_self, before, hbf, rfl, hre⟩
    · obtain ⟨_, _, _, _, _, _, _, rfl⟩ := hnew session had
      cases hrvk

theorem revoked_run (hses : session ∈ s.db.sessions.rows) (hrvk : session.isRevoked = true)
    (hrun : (auth options).Run guard s t) :
    ∃ after ∈ t.db.sessions.rows, after.id = session.id ∧ after.isRevoked = true := by
  refine System.Run.preserves (I := fun t =>
    ∃ after ∈ t.db.sessions.rows, after.id = session.id ∧ after.isRevoked = true) hrun ?_
    ⟨session, hses, rfl, hrvk⟩
  rintro s e s' _ ⟨before, hbf, hid, hrvk⟩ hs
  obtain ⟨after, haf, hlgn, hsty⟩ := (grows_step hs).sessions before hbf
  exact ⟨after, haf, hlgn.1.trans hid, hsty hrvk⟩

theorem accepted_of_unrevoked {process : Process ι} {response : Response ι}
    (hre : Remembered s.db s.responses process) (hrsp : response ∈ s.responses)
    (hlv : s.clock / 1000 ≤ response.accessToken.exp) (hses : session ∈ s.db.sessions.rows)
    (hid : session.id = response.accessToken.sessionId)
    (hfam : session.familyId = response.accessToken.familyId) (hun : session.isRevoked = false) :
    verifyAccessToken s.clock s.db process.registry response.accessToken = .ok response.accessToken := by
  have hnot : ∀ target : Target ι, target.covers session = true → ¬Backed s.db target := by
    intro target hcov hbkd
    rw [hbkd session hses hcov] at hun
    cases hun
  have hseEn : process.registry.revokedSessions response.accessToken.sessionId = none := by
    by_contra hent
    exact hnot (.session _) (decide_eq_true hid) (hre.sessions _ hent)
  have hfaEn : process.registry.revokedFamilies response.accessToken.familyId = none := by
    by_contra hent
    exact hnot (.family _) (decide_eq_true hfam) (hre.families _ hent)
  have hwal : process.registry.isWalletRevoked s.clock response.accessToken.sub
      response.accessToken.iat = false := by
    rw [Bool.eq_false_iff]
    intro hent
    obtain ⟨revokedAt, hfnd, hbf⟩ := (Option.any_eq_true _ _).mp hent
    obtain ⟨hfnd, _⟩ := filter_eq_some_iff.mp hfnd
    rcases hre.wallets response hrsp revokedAt (mem_def.mpr hfnd) with
      hbkd | hltr
    · exact hnot (.session _) (decide_eq_true hid) hbkd
    · have hle := of_decide_eq_true hbf
      omega
  have hfnd : s.db.findSessionById response.accessToken.sessionId = some session :=
    find_eq_some.mpr ⟨hses, hid⟩
  unfold verifyAccessToken
  rw [if_neg (by omega), hwal, hfnd]
  simp [RevocationRegistry.isSessionRevoked, RevocationRegistry.isFamilyRevoked,
    RevocationRegistry.live, hseEn, hfaEn, hun]

/--
**Revocation is final and exact**, where no rotation is disturbed and the times of the wallets tell
logins from revocations. From the statement of a revocation on, every process rejects the access tokens
of the sessions it covers and rotates none of their refresh tokens; an unexpired access token of a session
that no revocation covered is accepted by every process.
-/
theorem final_and_exact (hlog : (auth options).Logged Orderly s log) :
    (∀ e s₁, Orderly s e → (auth options).step s e = some s₁ →
      ∀ session ∈ s.db.sessions.rows, s.revokes e session = true → ∀ t, (auth options).Run Orderly s₁ t →
          (∀ process ∈ t.processes, ∀ response ∈ t.responses, response.accessToken.sessionId = session.id →
              ∃ error, verifyAccessToken t.clock t.db process.registry response.accessToken =
                .error error) ∧
          ∀ e, Orderly t e → ∀ token ∈ t.db.tokens.rows, token.sessionId = session.id →
            t.consumes e token.tokenHash = false) ∧
    ∀ process ∈ s.processes, ∀ response ∈ s.responses,
      s.clock / 1000 ≤ response.accessToken.exp → ¬Covered log response.accessToken.sessionId →
        verifyAccessToken s.clock s.db process.registry response.accessToken =
          .ok response.accessToken := by
  have hr := hlog.reachable
  refine ⟨fun e s₁ hgrd hs session hses hre t hrun => ?_, fun process hprc response hrsp hlv hun => ?_⟩
  · obtain ⟨f, new, hrw, _, hf⟩ := sessions_step hs
    have hmem : f session ∈ s₁.db.sessions.rows := by
      rw [hrw]
      exact mem_append_left _ (List.mem_map_of_mem hses)
    have hrvk : (f session).isRevoked = true := by
      rw [(hf session).2, hre, Bool.or_true]
    obtain ⟨after, haf, hid, hstl⟩ := revoked_run hmem hrvk hrun
    have hafI : after.id = session.id := hid.trans (hf session).1.1
    have hcst := consistent ((hr.tail hgrd hs).run hrun)
    refine ⟨fun process _ response _ hsm => ?_, fun e hgrd' token htok hsm => ?_⟩
    · exact rejected_of_revoked haf (hafI.trans hsm.symm) hstl
    · rw [Bool.eq_false_iff]
      intro hcns
      obtain ⟨row, hrow, hsh, _, login, hlgn, hlgId, hue⟩ :=
        hcst.of_consumes hgrd'.1 hcns
      obtain rfl := unique hrow htok hsh
      obtain rfl := unique hlgn haf (hlgId.trans (hsm.trans hafI.symm))
      rw [hue] at hstl
      cases hstl
  · obtain ⟨session, hses, hid, hfam, _⟩ := (consistent hr).responses response hrsp
    have hue : session.isRevoked = false := by
      rw [Bool.eq_false_iff]
      intro hrvk
      exact hun (hid ▸ covered_of_revoked hlog hses hrvk)
    exact accepted_of_unrevoked (remembered hr process hprc) hrsp hlv hses hid hfam
      hue

instance (log : List (State ι × Event ι)) (sessionId : ι) : Decidable (Covered log sessionId) :=
  inferInstanceAs (Decidable (∃ entry ∈ log, ∃ session ∈ entry.1.db.sessions.rows,
    session.id = sessionId ∧ entry.1.revokes entry.2 session = true))

/-- All sessions of wallet 1 are revoked at 1500, and the wallet logs in again. -/
def loginAfterRevocation (login : Nat) : List (Event Nat) :=
  [.tick 1500, .revoke 0 (.wallet 1), .run 0, .run 0, .run 0, .tick login, .createSession 0 1 2 3 4 5,
    .run 0, .run 0]

/-- A login in the next second. -/
theorem final_and_exact_login : ∃ s : State Nat, ∃ process ∈ s.processes, ∃ response ∈ s.responses,
    verifyAccessToken s.clock s.db process.registry response.accessToken = .ok response.accessToken := by
  have hpl : ((auth ⟨900, 86400, 2592000⟩).play Orderly (loginAfterRevocation 2100)
      twoProcesses).any (fun s => decide (s.clock = 2100 ∧ (s.processes[0]?.isSome = true) ∧
        (∃ response ∈ s.responses, response.accessToken.exp = 902 ∧
          response.accessToken.sessionId = 3))) = true := by
    decide
  have hun : ¬Covered ((auth ⟨900, 86400, 2592000⟩).record (loginAfterRevocation 2100)
      twoProcesses) 3 := by decide
  obtain ⟨s, hs, hclk, hprc, response, hrsp, hexp, hses⟩ := exists_logged start_twoProcesses hpl
  obtain ⟨process, hprc⟩ := isSome_iff_exists.mp hprc
  have hmem := mem_of_getElem? hprc
  refine ⟨s, process, hmem, response, hrsp, ?_⟩
  refine (final_and_exact hs).2 process hmem response hrsp
    ?_ (hses ▸ hun)
  rw [hclk, hexp]
  decide

/--
**A login in the second of the revocation is locked out.** The token is issued at 1600 and bears the
second 1; the revocation at 1500 is not before that second begins.
-/
theorem login_locked_out : ∃ (s : State Nat) (log : List (State Nat × Event Nat)),
    (auth ⟨900, 86400, 2592000⟩).Logged Undisturbed s log ∧
      ∃ process ∈ s.processes, ∃ response ∈ s.responses,
        s.clock / 1000 ≤ response.accessToken.exp ∧ ¬Covered log response.accessToken.sessionId ∧
          verifyAccessToken s.clock s.db process.registry response.accessToken = .error .walletRevoked := by
  have hpl : ((auth ⟨900, 86400, 2592000⟩).play Undisturbed (loginAfterRevocation 1600)
      twoProcesses).any (fun s => s.processes.any fun process => s.responses.any fun response =>
        decide (s.clock / 1000 ≤ response.accessToken.exp ∧ response.accessToken.sessionId = 3) &&
          match verifyAccessToken s.clock s.db process.registry response.accessToken with
          | .error error => decide (error = .walletRevoked)
          | .ok _ => false) = true := by
    decide
  have hun : ¬Covered ((auth ⟨900, 86400, 2592000⟩).record (loginAfterRevocation 1600)
      twoProcesses) 3 := by decide
  obtain ⟨s, hs, hp⟩ := (Option.any_eq_true _ _).mp hpl
  obtain ⟨process, hprc, hp⟩ := List.any_eq_true.mp hp
  obtain ⟨response, hrsp, hp⟩ := List.any_eq_true.mp hp
  obtain ⟨hlv, hp⟩ := Bool.and_eq_true_iff.mp hp
  obtain ⟨hlv, hses⟩ := of_decide_eq_true hlv
  refine ⟨s, _, logged_of_play start_twoProcesses hs, process, hprc, response, hrsp,
    hlv, hses ▸ hun, ?_⟩
  split at hp
  · rename_i error hve
    rw [hve, of_decide_eq_true hp]
  · cases hp

end Claim

end AiNet.Auth
