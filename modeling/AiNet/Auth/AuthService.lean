import AiNet.Core.UniqueTable
import AiNet.Core.Processes
import AiNet.Core.Transition

/-!
# The auth database

The tables `auth_sessions` and `auth_refresh_tokens`, and the statements that the sessions and tokens
go through, each of which the database executes atomically. No row is ever deleted.

`ι` stands for the texts: ids, wallets, devices and the hashes of refresh tokens. SHA-256 has no
collisions here, so a refresh token is its hash. Times are milliseconds. What only the audit log
reads of a row (addresses, user agents, reasons, the ids of tokens) is left out with the log.
-/

namespace AiNet.Auth

open Core Function

structure AuthSession (ι : Type) where
  id : ι
  familyId : ι
  walletPublicKey : ι
  deviceId : ι
  createdAt : Nat
  lastActiveAt : Nat
  expiresAt : Nat
  isRevoked : Bool
  revokedAt : Option Nat
  deriving DecidableEq

structure AuthRefreshToken (ι : Type) where
  tokenHash : ι
  sessionId : ι
  familyId : ι
  walletPublicKey : ι
  createdAt : Nat
  expiresAt : Nat
  isConsumed : Bool
  consumedAt : Option Nat
  isRevoked : Bool
  revokedAt : Option Nat
  replacedByTokenHash : Option ι
  deriving DecidableEq

/-- The two tables. -/
structure AuthDb (ι : Type) where
  sessions : UniqueTable (AuthSession.id : AuthSession ι → ι)
  tokens : UniqueTable (AuthRefreshToken.tokenHash : AuthRefreshToken ι → ι)

/-- What a revocation is about. -/
inductive Target (ι : Type) where
  | session (sessionId : ι)
  | family (familyId : ι)
  | wallet (walletPublicKey : ι)
  deriving DecidableEq

section Statements

variable {ι : Type} [DecidableEq ι]

/-- The `WHERE` of the revocations, on sessions. -/
def Target.covers (session : AuthSession ι) : Target ι → Bool
  | .session sessionId => decide (session.id = sessionId)
  | .family familyId => decide (session.familyId = familyId)
  | .wallet walletPublicKey => decide (session.walletPublicKey = walletPublicKey)

def Target.coversToken (token : AuthRefreshToken ι) : Target ι → Bool
  | .session sessionId => decide (token.sessionId = sessionId)
  | .family familyId => decide (token.familyId = familyId)
  | .wallet walletPublicKey => decide (token.walletPublicKey = walletPublicKey)

/-- `AND isRevoked = 0`, which only the statement for one session goes without. -/
def Target.rewrites (session : AuthSession ι) : Target ι → Bool
  | .session _ => true
  | .family _ => !session.isRevoked
  | .wallet _ => !session.isRevoked

def AuthSession.revoke (session : AuthSession ι) (revokedAt : Nat) : AuthSession ι :=
  { session with
    isRevoked := true
    revokedAt := some revokedAt }

def AuthRefreshToken.revoke (token : AuthRefreshToken ι) (revokedAt : Nat) : AuthRefreshToken ι :=
  { token with
    isRevoked := true
    revokedAt := some revokedAt }

def AuthRefreshToken.consume (token : AuthRefreshToken ι) (consumedAt : Nat)
    (replacedByTokenHash : ι) : AuthRefreshToken ι :=
  { token with
    isConsumed := true
    consumedAt := some consumedAt
    replacedByTokenHash := some replacedByTokenHash }

def AuthSession.afterRevocation (target : Target ι) (revokedAt : Nat) (session : AuthSession ι) :
    AuthSession ι :=
  if target.covers session && target.rewrites session then session.revoke revokedAt else session

/-- `WHERE id = ? AND isRevoked = 0`. -/
def AuthSession.afterActivity (sessionId : ι) (lastActiveAt expiresAt : Nat) (session : AuthSession ι) :
    AuthSession ι :=
  if session.id = sessionId ∧ session.isRevoked = false then
    { session with
      lastActiveAt := lastActiveAt
      expiresAt := expiresAt }
  else session

def AuthRefreshToken.afterRevocation (target : Target ι) (revokedAt : Nat)
    (token : AuthRefreshToken ι) : AuthRefreshToken ι :=
  if target.coversToken token && !token.isRevoked then token.revoke revokedAt else token

/-- `WHERE tokenHash = ?`: the row is found by its hash alone. -/
def AuthRefreshToken.afterConsumption (tokenHash : ι) (consumedAt : Nat) (replacedByTokenHash : ι)
    (token : AuthRefreshToken ι) : AuthRefreshToken ι :=
  if token.tokenHash = tokenHash then token.consume consumedAt replacedByTokenHash else token

/-- Two sessions are of the same login: nothing but the activity and the revocation differs. -/
def AuthSession.SameLogin (session other : AuthSession ι) : Prop :=
  session.id = other.id ∧ session.familyId = other.familyId ∧
    session.walletPublicKey = other.walletPublicKey ∧ session.createdAt = other.createdAt

/-- Two refresh tokens are the same but for their consumption and revocation. -/
def AuthRefreshToken.SameToken (token other : AuthRefreshToken ι) : Prop :=
  token.tokenHash = other.tokenHash ∧ token.sessionId = other.sessionId ∧ token.familyId = other.familyId

section

omit [DecidableEq ι]

theorem AuthSession.SameLogin.refl (session : AuthSession ι) : session.SameLogin session :=
  ⟨rfl, rfl, rfl, rfl⟩

theorem AuthSession.SameLogin.trans {session other third : AuthSession ι}
    (h : session.SameLogin other) (h' : other.SameLogin third) : session.SameLogin third :=
  ⟨h.1.trans h'.1, h.2.1.trans h'.2.1, h.2.2.1.trans h'.2.2.1, h.2.2.2.trans h'.2.2.2⟩

end

theorem AuthSession.SameLogin.covers {session other : AuthSession ι} (h : session.SameLogin other)
    (target : Target ι) : target.covers session = target.covers other := by
  obtain ⟨hid, hfam, hwal, _⟩ := h
  cases target with
  | session => simp only [Target.covers, hid]
  | family => simp only [Target.covers, hfam]
  | wallet => simp only [Target.covers, hwal]

section Rows

variable (target : Target ι) (session : AuthSession ι) (token : AuthRefreshToken ι) (sessionId : ι)
  (time expiresAt : Nat)

theorem AuthSession.sameLogin_afterRevocation :
    (session.afterRevocation target time).SameLogin session := by
  unfold AuthSession.afterRevocation
  split
  · exact ⟨rfl, rfl, rfl, rfl⟩
  · exact .refl session

/-- **A session is revoked if it was, or if the revocation covers it.** -/
theorem AuthSession.isRevoked_afterRevocation : (session.afterRevocation target time).isRevoked =
    (session.isRevoked || target.covers session) := by
  unfold AuthSession.afterRevocation
  cases hcov : target.covers session with
  | false => simp
  | true =>
    -- the statement skips a session it covers only if that is revoked already
    cases target with
    | session => simp [Target.rewrites, AuthSession.revoke]
    | family | wallet => cases hrvk : session.isRevoked <;>
        simp [Target.rewrites, AuthSession.revoke, hrvk]

theorem AuthSession.sameLogin_afterActivity :
    (session.afterActivity sessionId time expiresAt).SameLogin session := by
  unfold AuthSession.afterActivity
  split
  · exact ⟨rfl, rfl, rfl, rfl⟩
  · exact .refl session

theorem AuthSession.isRevoked_afterActivity :
    (session.afterActivity sessionId time expiresAt).isRevoked = session.isRevoked := by
  unfold AuthSession.afterActivity
  split
  · rfl
  · rfl

theorem AuthRefreshToken.sameToken_afterRevocation :
    (token.afterRevocation target time).SameToken token := by
  unfold AuthRefreshToken.afterRevocation
  split
  · exact ⟨rfl, rfl, rfl⟩
  · exact ⟨rfl, rfl, rfl⟩

theorem AuthRefreshToken.isConsumed_afterRevocation :
    (token.afterRevocation target time).isConsumed = token.isConsumed := by
  unfold AuthRefreshToken.afterRevocation
  split
  · rfl
  · rfl

theorem AuthRefreshToken.sameToken_afterConsumption (tokenHash newToken : ι) :
    (token.afterConsumption tokenHash time newToken).SameToken token := by
  unfold AuthRefreshToken.afterConsumption
  split
  · exact ⟨rfl, rfl, rfl⟩
  · exact ⟨rfl, rfl, rfl⟩

theorem AuthRefreshToken.isConsumed_afterConsumption (tokenHash newToken : ι) :
    (token.afterConsumption tokenHash time newToken).isConsumed =
      (token.isConsumed || decide (token.tokenHash = tokenHash)) := by
  unfold AuthRefreshToken.afterConsumption
  split
  · rename_i heq
    simp [heq, AuthRefreshToken.consume]
  · rename_i hne
    simp [hne]

end Rows

namespace AuthDb

variable (db : AuthDb ι)

/-- Fails if the id is taken. -/
def createSession (session : AuthSession ι) : Option (AuthDb ι) :=
  (db.sessions.insert session).map fun sessions => { db with sessions := sessions }

def findSessionById (sessionId : ι) : Option (AuthSession ι) := db.sessions.find sessionId

def updateSessionActivity (sessionId : ι) (lastActiveAt expiresAt : Nat) : AuthDb ι :=
  { db with
    sessions := db.sessions.update (AuthSession.afterActivity sessionId lastActiveAt expiresAt)
      fun session => (session.sameLogin_afterActivity sessionId lastActiveAt expiresAt).1 }

/-- `revokeSession`, `revokeFamily` and `revokeAllUserSessions`. -/
def revokeSessions (target : Target ι) (revokedAt : Nat) : AuthDb ι :=
  { db with
    sessions := db.sessions.update (AuthSession.afterRevocation target revokedAt)
      fun session => (session.sameLogin_afterRevocation target revokedAt).1 }

/-- Fails if the hash is taken. -/
def createRefreshToken (token : AuthRefreshToken ι) : Option (AuthDb ι) :=
  (db.tokens.insert token).map fun tokens => { db with tokens := tokens }

def findRefreshTokenByHash (tokenHash : ι) : Option (AuthRefreshToken ι) := db.tokens.find tokenHash

def markTokenConsumed (tokenHash : ι) (consumedAt : Nat) (replacedByTokenHash : ι) : AuthDb ι :=
  { db with
    tokens := db.tokens.update
      (AuthRefreshToken.afterConsumption tokenHash consumedAt replacedByTokenHash)
      fun token => (token.sameToken_afterConsumption consumedAt tokenHash replacedByTokenHash).1 }

/-- `revokeTokensByFamily`, `revokeTokensBySession` and `revokeTokensByUser`. -/
def revokeTokens (target : Target ι) (revokedAt : Nat) : AuthDb ι :=
  { db with
    tokens := db.tokens.update (AuthRefreshToken.afterRevocation target revokedAt)
      fun token => (token.sameToken_afterRevocation target revokedAt).1 }

end AuthDb

end Statements

/-!
## The auth service

Server processes that share the auth database. A process runs one call at a time, and the statements
of different processes come in any order. What a process has revoked it also remembers in its
registry, which a restart empties and which drops an entry when its time is over.

Signatures are not modelled: the access tokens that are presented are those that were issued. The
clients' side of the system are the responses they were given.
-/

variable {ι : Type}

/-! ## The registry -/

/-- When each session, family and wallet was revoked. It never evicts for capacity. -/
structure RevocationRegistry (ι : Type) where
  revokedSessions : ι → Option Nat
  revokedFamilies : ι → Option Nat
  revokedWallets : ι → Option Nat

/-- Thirty days. -/
def registryTtlMs : Nat := 86400000 * 30

namespace RevocationRegistry

def empty : RevocationRegistry ι := ⟨fun _ => none, fun _ => none, fun _ => none⟩

variable (registry : RevocationRegistry ι)

/-- An entry whose time is not over. -/
def live (clock : Nat) (entry : Option Nat) : Option Nat :=
  entry.filter fun revokedAt => decide (clock ≤ revokedAt + registryTtlMs)

def isSessionRevoked (clock : Nat) (sessionId : ι) : Bool :=
  (live clock (registry.revokedSessions sessionId)).isSome

def isFamilyRevoked (clock : Nat) (familyId : ι) : Bool :=
  (live clock (registry.revokedFamilies familyId)).isSome

def isWalletRevoked (clock : Nat) (walletPublicKey : ι) (tokenIssuedAtSeconds : Nat) : Bool :=
  (live clock (registry.revokedWallets walletPublicKey)).any fun revokedAt =>
    decide (tokenIssuedAtSeconds * 1000 ≤ revokedAt)

variable [DecidableEq ι]

/-- `revokeSession`, `revokeFamily` and `revokeWallet`. -/
def revoke (clock : Nat) : Target ι → RevocationRegistry ι
  | .session sessionId =>
    { registry with revokedSessions := update registry.revokedSessions sessionId clock }
  | .family familyId =>
    { registry with revokedFamilies := update registry.revokedFamilies familyId clock }
  | .wallet walletPublicKey =>
    { registry with revokedWallets := update registry.revokedWallets walletPublicKey clock }

end RevocationRegistry

/-! ## Calls -/

/-- The settings of the token service. -/
structure Options where
  accessTtlSeconds : Nat
  refreshTtlSeconds : Nat
  sessionMaxTtlSeconds : Nat
  deriving DecidableEq

/-- `iat` and `exp` are seconds. -/
structure AccessTokenPayload (ι : Type) where
  sub : ι
  sessionId : ι
  familyId : ι
  deviceId : ι
  iat : Nat
  exp : Nat
  deriving DecidableEq

/-- What a client is given: its tokens, and the refresh token it presented for them. -/
structure Response (ι : Type) where
  presented : Option ι
  refreshToken : ι
  accessToken : AccessTokenPayload ι
  deriving DecidableEq

inductive AuthError where
  | invalidRefreshToken
  | tokenReuse
  | sessionOrTokenRevoked
  | refreshTokenExpired
  | sessionNotFound
  | sessionLifetime
  | tokenExpired
  | sessionRevoked
  | familyRevoked
  | walletRevoked
  | sessionInvalid
  /-- A key of the database is taken. -/
  | constraint
  deriving DecidableEq

inductive Answer (ι : Type) where
  | tokens (response : Response ι)
  | revoked
  | error (error : AuthError)
  deriving DecidableEq

/-- Where a call stands: before which statement, and with what it has read. -/
inductive Call (ι : Type) where
  | findToken (now : Nat) (tokenHash newToken : ι)
  | findSession (now : Nat) (record : AuthRefreshToken ι) (newToken : ι)
  | expireSession (now : Nat) (sessionId : ι)
  | markConsumed (now : Nat) (record : AuthRefreshToken ι) (session : AuthSession ι) (newToken : ι)
  | insertToken (now : Nat) (session : AuthSession ι) (presented : Option ι) (newToken : ι)
      (expiresAt : Nat)
  | updateActivity (now : Nat) (session : AuthSession ι) (presented : Option ι) (newToken : ι)
      (expiresAt : Nat)
  /-- Before the access token is generated. -/
  | issue (session : AuthSession ι) (presented : Option ι) (newToken : ι)
  /-- A revocation that was asked for, or that another call makes before it fails. -/
  | revokeSessions (now : Nat) (target : Target ι) (failure : Option AuthError)
  | revokeTokens (now : Nat) (target : Target ι) (failure : Option AuthError)
  | register (target : Target ι) (failure : Option AuthError)
  deriving DecidableEq

/-- How a call goes on. -/
inductive Next (ι : Type) where
  | call (call : Call ι)
  | done (answer : Answer ι)

def newTokenRecord (now : Nat) (session : AuthSession ι) (newToken : ι) (expiresAt : Nat) :
    AuthRefreshToken ι where
  tokenHash := newToken
  sessionId := session.id
  familyId := session.familyId
  walletPublicKey := session.walletPublicKey
  createdAt := now
  expiresAt := expiresAt
  isConsumed := false
  consumedAt := none
  isRevoked := false
  revokedAt := none
  replacedByTokenHash := none

section Calls

variable (options : Options)

def maxSessionExpiry (session : AuthSession ι) : Nat :=
  session.createdAt + options.sessionMaxTtlSeconds * 1000

def generateAccessToken (clock : Nat) (session : AuthSession ι) : AccessTokenPayload ι where
  sub := session.walletPublicKey
  sessionId := session.id
  familyId := session.familyId
  deviceId := session.deviceId
  iat := clock / 1000
  exp := clock / 1000 + options.accessTtlSeconds

/-- After `findRefreshTokenByHash`: reuse is detected first. -/
def Next.ofToken (clock now : Nat) (registry : RevocationRegistry ι) (newToken : ι) :
    Option (AuthRefreshToken ι) → Next ι
  | none => .done (.error .invalidRefreshToken)
  | some record =>
    if record.isConsumed then
      .call (.revokeSessions now (.family record.familyId) (some .tokenReuse))
    else if record.isRevoked || registry.isFamilyRevoked clock record.familyId ||
        registry.isSessionRevoked clock record.sessionId then
      .done (.error .sessionOrTokenRevoked)
    else if record.expiresAt < now then .done (.error .refreshTokenExpired)
    else .call (.findSession now record newToken)

/-- After `findSessionById`. -/
def Next.ofSession (now : Nat) (record : AuthRefreshToken ι) (newToken : ι) :
    Option (AuthSession ι) → Next ι
  | none => .done (.error .sessionNotFound)
  | some session =>
    if session.isRevoked then .done (.error .sessionNotFound)
    else if maxSessionExpiry options session < now then .call (.expireSession now session.id)
    else .call (.markConsumed now record session newToken)

variable [DecidableEq ι]

/-- A process runs its call up to the next statement. -/
def runCall (clock : Nat) (db : AuthDb ι) (registry : RevocationRegistry ι) :
    Call ι → AuthDb ι × RevocationRegistry ι × Next ι
  | .findToken now tokenHash newToken =>
    (db, registry, .ofToken clock now registry newToken (db.findRefreshTokenByHash tokenHash))
  | .findSession now record newToken =>
    (db, registry, .ofSession options now record newToken (db.findSessionById record.sessionId))
  | .expireSession now sessionId =>
    (db.revokeSessions (.session sessionId) now, registry,
      .call (.register (.session sessionId) (some .sessionLifetime)))
  | .markConsumed now record session newToken =>
    (db.markTokenConsumed record.tokenHash now newToken, registry,
      .call (.insertToken now session (some record.tokenHash) newToken
        (min (now + options.refreshTtlSeconds * 1000) (maxSessionExpiry options session))))
  | .insertToken now session presented newToken expiresAt =>
    match db.createRefreshToken (newTokenRecord now session newToken expiresAt) with
    | none => (db, registry, .done (.error .constraint))
    | some db' =>
      (db', registry,
        if presented.isSome then .call (.updateActivity now session presented newToken expiresAt)
        else .call (.issue session presented newToken))
  | .updateActivity now session presented newToken expiresAt =>
    (db.updateSessionActivity session.id now expiresAt, registry, .call (.issue session presented newToken))
  | .issue session presented newToken =>
    (db, registry, .done (.tokens ⟨presented, newToken, generateAccessToken options clock session⟩))
  | .revokeSessions now target failure =>
    (db.revokeSessions target now, registry, .call (.revokeTokens now target failure))
  | .revokeTokens now target failure =>
    (db.revokeTokens target now, registry, .call (.register target failure))
  | .register target none => (db, registry.revoke clock target, .done .revoked)
  | .register target (some error) => (db, registry.revoke clock target, .done (.error error))

end Calls

/-! ## The processes -/

structure Process (ι : Type) where
  registry : RevocationRegistry ι
  call : Option (Call ι)
  answer : Option (Answer ι)

/-- A process that has just started. -/
def Process.fresh : Process ι := ⟨.empty, none, none⟩

structure State (ι : Type) where
  clock : Nat
  db : AuthDb ι
  processes : List (Process ι)
  responses : List (Response ι)

/-- The ids and tokens in an event are those that the process generates. -/
inductive Event (ι : Type) where
  | createSession (process : Nat) (walletPublicKey deviceId sessionId familyId newToken : ι)
  | rotateRefreshToken (process : Nat) (tokenHash newToken : ι)
  | revoke (process : Nat) (target : Target ι)
  | verify (process : Nat) (payload : AccessTokenPayload ι)
  | run (process : Nat)
  | restart (process : Nat)
  | tick (clock : Nat)
  deriving DecidableEq

def newSession (options : Options) (now : Nat) (walletPublicKey deviceId sessionId familyId : ι) :
    AuthSession ι where
  id := sessionId
  familyId := familyId
  walletPublicKey := walletPublicKey
  deviceId := deviceId
  createdAt := now
  lastActiveAt := now
  expiresAt := now + options.refreshTtlSeconds * 1000
  isRevoked := false
  revokedAt := none

section Step

variable [DecidableEq ι] (options : Options)

/-- `verifyAccessToken`, by one process. -/
def verifyAccessToken (clock : Nat) (db : AuthDb ι) (registry : RevocationRegistry ι)
    (payload : AccessTokenPayload ι) : Except AuthError (AccessTokenPayload ι) :=
  if payload.exp ≠ 0 ∧ payload.exp < clock / 1000 then .error .tokenExpired
  else if registry.isSessionRevoked clock payload.sessionId then .error .sessionRevoked
  else if registry.isFamilyRevoked clock payload.familyId then .error .familyRevoked
  else if registry.isWalletRevoked clock payload.sub payload.iat then .error .walletRevoked
  else
    match db.findSessionById payload.sessionId with
    | none => .error .sessionInvalid
    | some session => if session.isRevoked then .error .sessionInvalid else .ok payload

/-- What a verification leaves of the registry: a session that the database has no more is noted. -/
def registryAfter (clock : Nat) (db : AuthDb ι) (registry : RevocationRegistry ι)
    (payload : AccessTokenPayload ι) : RevocationRegistry ι :=
  match verifyAccessToken clock db registry payload with
  | .error .sessionInvalid => registry.revoke clock (.session payload.sessionId)
  | _ => registry

def Process.after (registry : RevocationRegistry ι) : Next ι → Process ι
  | .call call => ⟨registry, some call, none⟩
  | .done answer => ⟨registry, none, some answer⟩

def Next.responses : Next ι → List (Response ι)
  | .done (.tokens response) => [response]
  | .done .revoked => []
  | .done (.error _) => []
  | .call _ => []

/-- An idle process takes a call. -/
def State.begin (s : State ι) (p : Nat) (call : Call ι) : Option (State ι) := do
  let process ← s.processes[p]?
  match process.call with
  | none => some { s with processes := s.processes.set p ⟨process.registry, some call, none⟩ }
  | some _ => none

def step (s : State ι) : Event ι → Option (State ι)
  | .createSession p walletPublicKey deviceId sessionId familyId newToken => do
      let session := newSession options s.clock walletPublicKey deviceId sessionId familyId
      -- the ids are generated, and the session is inserted by the first statement
      let db ← s.db.createSession session
      let s' ← s.begin p (.insertToken s.clock session none newToken session.expiresAt)
      some { s' with db := db }
  | .rotateRefreshToken p tokenHash newToken => s.begin p (.findToken s.clock tokenHash newToken)
  | .revoke p target => s.begin p (.revokeSessions s.clock target none)
  | .verify p payload => do
      let process ← s.processes[p]?
      if process.call.isNone ∧ payload ∈ s.responses.map Response.accessToken then
        some { s with
          processes := s.processes.set p
            { process with registry := registryAfter s.clock s.db process.registry payload } }
      else none
  | .run p => do
      let process ← s.processes[p]?
      let call ← process.call
      let (db, registry, next) := runCall options s.clock s.db process.registry call
      some { s with
        db := db
        processes := s.processes.set p (.after registry next)
        responses := s.responses ++ next.responses }
  | .restart p => do
      let _ ← s.processes[p]?
      some { s with processes := s.processes.set p .fresh }
  | .tick clock => if s.clock ≤ clock then some { s with clock := clock } else none

/-- Processes over an empty database. -/
def auth : System (State ι) (Event ι) where
  start s := s.db.sessions.rows = [] ∧ s.db.tokens.rows = [] ∧ s.responses = [] ∧
    ∀ process ∈ s.processes, process = .fresh
  step := step options

end Step

end AiNet.Auth
