import AiNet.Agents.Watchdog
import AiNet.Core.Register
import AiNet.AgentSignature.Eviction

/-!
# The routes that write an agent

Registration, heartbeat and deletion ask for a proof of ownership, each by the key that it names: a
heartbeat and a deletion the key of the row, a registration the key in its body. Heartbeats and
deletions read and write in one go. A registration is checked when it arrives and written when the
Stellar account has been loaded, and whatever happens in between is not looked at again: the write is
an `upsert`.

How a number is written as JSON and what counts as a URL are parameters. Rate limits and caches are
left out, as is the answer.
-/

namespace AiNet.Agents.Routes

open Core AiNet.AgentSignature List Option System UniqueTable

section

/-- What is not under the control of the routes. -/
structure Platform extends Crypto where
  /-- `JSON.stringify` of a price. -/
  numberText : Rat → NumberText
  /-- `z.string().url()`. -/
  isUrl : Text → Bool

/-- How the process is configured. -/
structure Config where
  /-- The flag `agent_ownership_proof`. -/
  agentOwnershipProof : Bool
  skipStellarAccountVerify : Bool
  /-- `NODE_ENV` is `test`. -/
  test : Bool

/-! ## Bodies and payloads -/

/-- The body of a registration, with a member that is checked and not used. -/
structure RegisterBody extends Watchdog.Registration where
  bondAmountXLM : Option Rat
deriving DecidableEq

/-- `AGENT_ID_REGEX` and `CAPABILITY_REGEX`. -/
def isName : Text → Bool
  | [] => false
  | c :: rest => c.isAlphanum && decide (rest.length ≤ 63) &&
      rest.all fun c => c.isAlphanum || decide (c ∈ "._:-".toList)

/-- `STELLAR_PUBLIC_KEY_REGEX`. -/
def isStellarPublicKey : Text → Bool
  | 'G' :: rest => decide (rest.length = 55) && rest.all fun c =>
    c.isUpper || decide (c ∈ "234567".toList)
  | _ => false

def isHttp (endpoint : Text) : Bool :=
  let lower := endpoint.map Char.toLower
  "http://".toList.isPrefixOf lower || "https://".toList.isPrefixOf lower

/-- `RegisterAgentSchema`. -/
def RegisterBody.valid (isUrl : Text → Bool) (body : RegisterBody) : Bool :=
  isName body.agentId && decide (1 ≤ body.capabilities.length ∧ body.capabilities.length ≤ 32) &&
    body.capabilities.all isName && decide body.capabilities.Nodup &&
    decide (1 / 1000 ≤ body.pricingXLM) &&
    (decide ((JsString.ofText body.endpoint).length ≤ 2048) && isUrl body.endpoint && isHttp body.endpoint) &&
    isStellarPublicKey body.stellarPublicKey && body.bondAmountXLM.all fun bond => decide (0 ≤ bond)

def text (t : Text) : JsValue := .string (JsString.ofText t)

/-- The payload of a heartbeat or a deletion. -/
def agentPayload (agentId : Text) : JsValue :=
  .object [(JsString.ofText "agentId".toList, text agentId)]

def registrationPayload (numberText : Rat → NumberText) (data : Watchdog.Registration) : JsValue :=
  .object [
    (JsString.ofText "agentId".toList, text data.agentId),
    (JsString.ofText "capabilities".toList, .array (data.capabilities.map text)),
    (JsString.ofText "pricingXLM".toList, .number (numberText data.pricingXLM)),
    (JsString.ofText "endpoint".toList, text data.endpoint),
    (JsString.ofText "stellarPublicKey".toList, text data.stellarPublicKey)]

def registerInput (numberText : Rat → NumberText) (data : Watchdog.Registration) :
    VerifyAgentOwnershipInput where
  purpose := .register
  publicKey := data.stellarPublicKey
  payload := registrationPayload numberText data
  agentId := none
  correlationId := none

/-- What a heartbeat or a deletion of an agent has to prove: that it comes from the key of its row. -/
def agentInput (purpose : AgentAuthPurpose) (agent : AgentRecord) : VerifyAgentOwnershipInput where
  purpose := purpose
  publicKey := agent.stellarPublicKey
  payload := agentPayload agent.id
  agentId := some agent.id
  correlationId := none

/-! ## The proof of ownership -/

def truthy : Header → Bool
  | .absent => false
  | .one value => !value.isEmpty
  | .several _ => true

/-- `MIGRATION_EXEMPT_PURPOSES`. -/
def exempt : AgentAuthPurpose → Bool
  | .register | .heartbeat => true
  | .delete => false

/-- A call of `verifyAgentOwnership`, and what it leaves of the challenges. -/
def verify (c : Crypto) (req : Request) (input : VerifyAgentOwnershipInput) (auth : AgentSignature.State) :
    Option (Except AgentAuthError Unit × AgentSignature.State) :=
  (AgentSignature.State.step c auth (.verifyAgentOwnership req input)).map fun auth' =>
    ((verifyAgentOwnership c auth.clock req input auth.pending).1, auth')

def requireOwnership (c : Crypto) (config : Config) (req : Request) (input : VerifyAgentOwnershipInput)
    (auth : AgentSignature.State) : Option (Except AgentAuthError Unit × AgentSignature.State) :=
  if truthy req.challenge || truthy req.signature then verify c req input auth
  else if exempt input.purpose && !config.agentOwnershipProof then some (.ok (), auth)
  else verify c req input auth

def proofOf (req : Request) (input : VerifyAgentOwnershipInput) (clock : Nat) : Option Accepted :=
  req.presents.map fun challenge => ⟨challenge, input, clock⟩

/-! ## The routes -/

/-- A registration that was let through and waits for its account, with the proof it came with. -/
structure Registering where
  data : Watchdog.Registration
  proof : Option Accepted

structure State where
  /-- The challenges, and the clock. -/
  auth : AgentSignature.State
  db : AgentDb
  registering : Register Registering

/-- How `loadAccount` ends. -/
inductive Loaded
  | found | notFound | failed
deriving DecidableEq

/-- Is the registration written? -/
def Loaded.passes (config : Config) : Loaded → Bool
  | .found => true
  | .notFound => false
  | .failed => config.test

inductive Event
  | auth (e : AgentSignature.Event)
  | register (req : Request) (body : RegisterBody)
  /-- `loadAccount` returns to a registration, or throws. -/
  | loaded (k : Nat) (outcome : Loaded)
  | heartbeat (req : Request) (id : Text)
  | delete (req : Request) (id : Text)

variable (p : Platform) (config : Config)

def State.write (s : State) (data : Watchdog.Registration) : State :=
  { s with db := upsert s.db (data.record s.auth.clock) }

/-- A registration, up to its first `await`. -/
def State.register (s : State) (req : Request) (body : RegisterBody) : Option State :=
  if body.valid p.isUrl then
    let input := registerInput p.numberText body.toRegistration
    (requireOwnership p.toCrypto config req input s.auth).map fun (result, auth) =>
      match result with
      | .error _ => { s with auth := auth }
      | .ok () =>
        let s' := { s with auth := auth }
        if config.skipStellarAccountVerify then s'.write body.toRegistration
        else { s' with
          registering := s.registering.add ⟨body.toRegistration, proofOf req input s.auth.clock⟩ }
  else some s

def State.heartbeat (s : State) (req : Request) (id : Text) : Option State :=
  match findById s.db id with
  | none => some s
  | some agent =>
    (requireOwnership p.toCrypto config req (agentInput .heartbeat agent) s.auth).map
      fun (result, auth) =>
        match result with
        | .error _ => { s with auth := auth }
        | .ok () => { s with auth := auth, db := Watchdog.heartbeat s.db s.auth.clock id }

def State.delete (s : State) (req : Request) (id : Text) : Option State :=
  match findById s.db id with
  | none => some s
  | some agent =>
    (requireOwnership p.toCrypto config req (agentInput .delete agent) s.auth).map
      fun (result, auth) =>
        match result with
        | .error _ => { s with auth := auth }
        | .ok () => { s with auth := auth, db := Agents.delete s.db id }

def State.step (s : State) : Event → Option State
  -- calls of `verifyAgentOwnership` come from the routes
  | .auth (.verifyAgentOwnership _ _) => none
  | .auth e => (AgentSignature.State.step p.toCrypto s.auth e).map fun auth => { s with auth := auth }
  | .register req body => s.register p config req body
  | .loaded k outcome =>
    (s.registering.get k).map fun x =>
      let s := { s with registering := s.registering.drop fun k' _ => decide (k' = k) }
      if outcome.passes config then s.write x.data else s
  | .heartbeat req id => s.heartbeat p config req id
  | .delete req id => s.delete p config req id

/-- Requests of any parties in any order, from whatever agents there are. -/
def system : System State Event where
  start s := (agentAuth p.toCrypto).start s.auth ∧ s.registering = .empty
  step := State.step p config

end

/-!
## Who changes an agent

`changes` says what a step makes of the agents table: a registration is written, with the proof that it
came with; an agent is deleted, with the proof of the deletion; or no agent is changed in what its owner
registered. A deletion is proven by the key of the row. A registration is proven by the key it names,
which is the owner's only where the row has that key already.
-/

def Proven (c : Crypto) (auth : AgentSignature.State) (proof : Accepted) : Prop :=
  proof ∈ auth.accepted ∧ (proof.input.publicKey, proof.input.message c proof.challenge) ∈ auth.signed

/-- What the owner of an agent has registered, and the bond. -/
structure Owned extends Watchdog.Registration where
  bondAmountXLM : Rat
deriving DecidableEq

def owned (row : AgentRow) : Owned where
  agentId := row.id
  capabilities := row.capabilities
  pricingXLM := row.pricingXLM
  endpoint := row.endpoint
  stellarPublicKey := row.stellarPublicKey
  bondAmountXLM := row.bondAmountXLM

/-- The input of a proof has all that a request makes of a row. The bond is in no payload. -/
def Covers (numberText : Rat → NumberText) (row : AgentRow) (input : VerifyAgentOwnershipInput) :
    Option AgentRow → Prop
  | none => input.purpose = .delete ∧ input.payload = agentPayload row.id
  | some row' => input.purpose = .register ∧
      input.payload = registrationPayload numberText (owned row').toRegistration ∧
      row'.bondAmountXLM = row.bondAmountXLM

section Steps

variable (p : Platform) (config : Config)

/-- The proof that belongs to a step. -/
def Event.proof (s : State) : Event → Option Accepted
  | .auth _ => none
  | .register req body => proofOf req (registerInput p.numberText body.toRegistration) s.auth.clock
  | .loaded k _ => (s.registering.get k).bind Registering.proof
  | .heartbeat req id => (findById s.db id).bind fun agent =>
    proofOf req (agentInput .heartbeat agent) s.auth.clock
  | .delete req id => (findById s.db id).bind fun agent =>
    proofOf req (agentInput .delete agent) s.auth.clock

/-- The registration that a step is about to write. -/
def Event.writes (s : State) : Event → Option Watchdog.Registration
  | .register req body =>
    let input := registerInput p.numberText body.toRegistration
    if config.skipStellarAccountVerify ∧ body.valid p.isUrl ∧
        (verifyAgentOwnership p.toCrypto s.auth.clock req input s.auth.pending).1 = .ok () then
      some body.toRegistration
    else none
  | .loaded k outcome =>
    if outcome.passes config then (s.registering.get k).map Registering.data else none
  | .auth _ | .heartbeat _ _ | .delete _ _ => none

/-- What the owner registered changes only by a proof of the owner's key that covers the change. -/
def Rightful (s : State) (e : Event) : Prop :=
  ∀ s', (system p config).step s e = some s' → ∀ a row, s.db.find a = some row →
    (s'.db.find a).map owned ≠ some (owned row) →
      ∃ proof, e.proof p s = some proof ∧ Proven p.toCrypto s'.auth proof ∧
        proof.input.publicKey = row.stellarPublicKey ∧
        Covers p.numberText row proof.input (s'.db.find a)

/-- Where a registration is about to be written, the id is free, or its row has the same key and no bond. -/
def Unclaimed (s : State) (e : Event) : Prop :=
  ∀ data ∈ e.writes p config s, ∀ row ∈ s.db.find data.agentId,
    row.stellarPublicKey = data.stellarPublicKey ∧ row.bondAmountXLM = 0

end Steps

/-! ## Proofs -/

section Proofs

variable {c : Crypto} {config : Config} {req : Request} {input : VerifyAgentOwnershipInput}
  {auth auth' : AgentSignature.State} {result : Except AgentAuthError Unit}

theorem step_of_require (hprf : config.agentOwnershipProof = true)
    (h : requireOwnership c config req input auth = some (result, auth')) :
    (agentAuth c).step auth (.verifyAgentOwnership req input) = some auth' ∧
      (verifyAgentOwnership c auth.clock req input auth.pending).1 = result := by
  have hve : verify c req input auth = some (result, auth') := by
    unfold requireOwnership at h
    rw [hprf, Bool.not_true, Bool.and_false, if_neg Bool.false_ne_true, ite_self] at h
    exact h
  obtain ⟨auth₁, hst, heq⟩ := map_eq_some_iff.mp hve
  obtain ⟨hres, rfl⟩ := Prod.mk.inj heq
  exact ⟨hst, hres⟩

/-- **What is let through is proven**, by the proof that the request presents. -/
theorem proven_of_require (hprf : config.agentOwnershipProof = true)
    (h : requireOwnership c config req input auth = some (.ok (), auth')) :
    ∃ proof, proofOf req input auth.clock = some proof ∧ proof.input = input ∧ Proven c auth' proof := by
  obtain ⟨hst, hok⟩ := step_of_require hprf h
  obtain ⟨hun, rfl⟩ := of_step hst
  obtain ⟨challenge, signature, _, bytes, hpr, hrd, hsg, _, _, _, _, hde, hve⟩ :=
    of_ok hok
  refine ⟨⟨challenge, input, auth.clock⟩, ?_, rfl, ?_, ?_⟩
  · rw [proofOf, hpr]
    rfl
  · refine mem_append_right _ ?_
    rw [acceptedBy, hok, hpr]
    exact mem_singleton_self _
  · exact hun challenge hrd signature hsg bytes hde hve

theorem Proven.grows {proof : Accepted} {e : AgentSignature.Event} (hprv : Proven c auth proof)
    (h : (agentAuth c).step auth e = some auth') : Proven c auth' proof := by
  refine ⟨?_, (AgentSignature.grows h).2 _ hprv.2⟩
  cases e with
  | issueAgentChallenge | tick =>
    obtain ⟨_, rfl⟩ := of_step h
    exact hprv.1
  | sign publicKey message =>
    have heq : auth' = { auth with signed := auth.signed ++ [(publicKey, message)] } := of_step h
    rw [heq]
    exact hprv.1
  | verifyAgentOwnership =>
    obtain ⟨_, rfl⟩ := of_step h
    exact mem_append_left _ hprv.1

end Proofs

/-! ## What a step does -/

variable {p : Platform} {config : Config} {s s' : State}

/-- The registrations that wait for their account are proven. -/
def Sound (p : Platform) (s : State) : Prop :=
  ∀ k x, s.registering.get k = some x → ∃ proof, x.proof = some proof ∧
    proof.input = registerInput p.numberText x.data ∧ Proven p.toCrypto s.auth proof

/-- What a step makes of the agents table, with its proof. -/
inductive Changes (p : Platform) (config : Config) (s : State) (e : Event) (s' : State) : Prop
  | quiet : e.writes p config s = none →
      (∀ a, (s'.db.find a).map owned = (s.db.find a).map owned) → Changes p config s e s'
  | registered {data : Watchdog.Registration} {proof : Accepted} : e.writes p config s = some data →
      s'.db = upsert s.db (data.record s.auth.clock) → e.proof p s = some proof →
      proof.input = registerInput p.numberText data → Proven p.toCrypto s'.auth proof →
      Changes p config s e s'
  | deleted {agent : AgentRecord} {proof : Accepted} : e.writes p config s = none →
      findById s.db agent.id = some agent → s'.db = Agents.delete s.db agent.id →
      e.proof p s = some proof → proof.input = agentInput .delete agent →
      Proven p.toCrypto s'.auth proof → Changes p config s e s'

variable {e : Event}

theorem Changes.of_db (hwrs : e.writes p config s = none) (hdb : s'.db = s.db) :
    Changes p config s e s' := by
  refine .quiet hwrs fun a => ?_
  rw [hdb]

theorem owned_heartbeat (db : AgentDb) (now : Nat) (id a : Text) :
    ((Watchdog.heartbeat db now id).find a).map owned = (db.find a).map owned := by
  unfold Watchdog.heartbeat findById
  cases hfi : db.find id with
  | none => rfl
  | some row =>
    have hid := (find_eq_some.mp hfi).2
    simp only [map_some]
    rw [find_upsert]
    split
    · rename_i ha
      have hfi : db.find a = some row := by
        rw [← ha, AgentRow.toRecord, hid]
        exact hfi
      rw [hfi]
      rfl
    · rfl

variable {req : Request}

theorem changes_register (hprf : config.agentOwnershipProof = true) {body : RegisterBody}
    (h : (system p config).step s (.register req body) = some s') :
    Changes p config s (.register req body) s' := by
  replace h : s.register p config req body = some s' := h
  unfold State.register at h
  by_cases hval : body.valid p.isUrl = true
  · rw [if_pos hval] at h
    obtain ⟨⟨result, auth⟩, hre, rfl⟩ := map_eq_some_iff.mp h
    have hres := (step_of_require hprf hre).2
    cases result with
    | error =>
      refine .of_db (if_neg fun hwrs => ?_) rfl
      rw [hwrs.2.2] at hres
      cases hres
    | ok =>
      by_cases hsk : config.skipStellarAccountVerify = true
      · obtain ⟨proof, hprs, hinp, hprv⟩ := proven_of_require hprf hre
        have hclk : auth.clock = s.auth.clock := by
          obtain ⟨_, rfl⟩ := of_step (step_of_require hprf hre).1
          rfl
        refine .registered (if_pos ⟨hsk, hval, hres⟩) ?_ hprs hinp ?_
        · dsimp only
          rw [if_pos hsk, State.write, hclk]
        · dsimp only
          rw [if_pos hsk]
          exact hprv
      · refine .of_db (if_neg fun hwrs => hsk hwrs.1) ?_
        dsimp only
        rw [if_neg hsk]
  · rw [if_neg hval] at h
    refine .of_db (if_neg fun hwrs => hval hwrs.2.1) ?_
    rw [Option.some.inj h]

theorem changes_loaded (hS : Sound p s) {k : Nat} {outcome : Loaded}
    (h : (system p config).step s (.loaded k outcome) = some s') :
    Changes p config s (.loaded k outcome) s' := by
  obtain ⟨x, hx, rfl⟩ := map_eq_some_iff.mp h
  by_cases hpss : outcome.passes config = true
  · obtain ⟨proof, hprs, hinp, hprv⟩ := hS k x hx
    have hwrs : (Event.loaded k outcome).writes p config s = some x.data := by
      rw [Event.writes, if_pos hpss, hx]
      rfl
    refine .registered hwrs ?_ ?_ hinp ?_
    · rw [if_pos hpss]
      rfl
    · rw [Event.proof, hx]
      exact hprs
    · rw [if_pos hpss]
      exact hprv
  · refine .of_db (if_neg hpss) ?_
    rw [if_neg hpss]

theorem changes_heartbeat {id : Text} (h : (system p config).step s (.heartbeat req id) = some s') :
    Changes p config s (.heartbeat req id) s' := by
  refine .quiet rfl fun a => ?_
  replace h : s.heartbeat p config req id = some s' := h
  unfold State.heartbeat at h
  split at h
  · rw [Option.some.inj h]
  · obtain ⟨⟨result, auth⟩, _, rfl⟩ := map_eq_some_iff.mp h
    cases result with
    | error => rfl
    | ok => exact owned_heartbeat s.db s.auth.clock id a

theorem changes_delete (hprf : config.agentOwnershipProof = true) {id : Text}
    (h : (system p config).step s (.delete req id) = some s') :
    Changes p config s (.delete req id) s' := by
  replace h : s.delete p config req id = some s' := h
  unfold State.delete at h
  cases hfi : findById s.db id with
  | none =>
    rw [hfi] at h
    refine .of_db rfl ?_
    rw [Option.some.inj h]
  | some =>
    rw [hfi] at h
    obtain ⟨⟨result, auth⟩, hre, rfl⟩ := map_eq_some_iff.mp h
    cases result with
    | error => exact .of_db rfl rfl
    | ok =>
      obtain ⟨proof, hprs, hinp, hprv⟩ := proven_of_require hprf hre
      obtain ⟨row, hrow, rfl⟩ := map_eq_some_iff.mp hfi
      have hid : row.toRecord.id = id := (find_eq_some.mp hrow).2
      have hagt : findById s.db row.toRecord.id = some row.toRecord := by
        rw [hid, hfi]
      refine .deleted rfl hagt ?_ ?_ hinp hprv
      · rw [hid]
      · rw [Event.proof, hfi]
        exact hprs

theorem of_auth {e : AgentSignature.Event} (h : (system p config).step s (.auth e) = some s') :
    ∃ auth, (agentAuth p.toCrypto).step s.auth e = some auth ∧ s' = { s with auth := auth } := by
  have hmap : (AgentSignature.State.step p.toCrypto s.auth e).map (fun auth => { s with auth := auth }) =
      some s' := by
    cases e with
    | verifyAgentOwnership => cases h
    | issueAgentChallenge | sign | tick => exact h
  obtain ⟨auth, hau, heq⟩ := map_eq_some_iff.mp hmap
  exact ⟨auth, hau, heq.symm⟩

theorem changes (hprf : config.agentOwnershipProof = true) (hS : Sound p s)
    (h : (system p config).step s e = some s') : Changes p config s e s' := by
  cases e with
  | auth =>
    obtain ⟨auth, _, rfl⟩ := of_auth h
    exact .of_db rfl rfl
  | register => exact changes_register hprf h
  | loaded => exact changes_loaded hS h
  | heartbeat => exact changes_heartbeat h
  | delete => exact changes_delete hprf h

/-! ## Registrations that wait -/

theorem Sound.grows (hS : Sound p s) {e : AgentSignature.Event} {auth : AgentSignature.State}
    (h : (agentAuth p.toCrypto).step s.auth e = some auth) : Sound p { s with auth := auth } := by
  intro k x hx
  obtain ⟨proof, hprs, hinp, hprv⟩ := hS k x hx
  exact ⟨proof, hprs, hinp, hprv.grows h⟩

theorem Sound.of_registering (hS : Sound p s) (hau : s'.auth = s.auth)
    (h : ∀ k x, s'.registering.get k = some x → s.registering.get k = some x) : Sound p s' := by
  intro k x hx
  rw [hau]
  exact hS k x (h k x hx)

theorem Sound.register (hprf : config.agentOwnershipProof = true) (hS : Sound p s) {body : RegisterBody}
    (h : (system p config).step s (.register req body) = some s') : Sound p s' := by
  replace h : s.register p config req body = some s' := h
  unfold State.register at h
  split at h
  · obtain ⟨⟨result, auth⟩, hre, rfl⟩ := map_eq_some_iff.mp h
    have hgrn := hS.grows (step_of_require hprf hre).1
    cases result with
    | error => exact hgrn
    | ok =>
      dsimp only
      split
      · exact hgrn
      · intro k x hx
        rcases Register.of_get_add hx with ⟨_, rfl⟩ | hold
        · exact proven_of_require hprf hre
        · exact hgrn k x hold
  · rw [← Option.some.inj h]
    exact hS

theorem Sound.step (hprf : config.agentOwnershipProof = true) (hS : Sound p s)
    (h : (system p config).step s e = some s') : Sound p s' := by
  cases e with
  | auth =>
    obtain ⟨auth, hau, rfl⟩ := of_auth h
    exact hS.grows hau
  | register => exact hS.register hprf h
  | loaded k =>
    obtain ⟨x, hx, rfl⟩ := map_eq_some_iff.mp h
    dsimp only
    split
    · exact hS.of_registering rfl fun k x hx => (Register.of_get_drop hx).1
    · exact hS.of_registering rfl fun k x hx => (Register.of_get_drop hx).1
  | heartbeat req id =>
    replace h : s.heartbeat p config req id = some s' := h
    unfold State.heartbeat at h
    split at h
    · rw [← Option.some.inj h]
      exact hS
    · obtain ⟨⟨result, auth⟩, hre, rfl⟩ := map_eq_some_iff.mp h
      have hgrn := hS.grows (step_of_require hprf hre).1
      cases result with
      | error => exact hgrn
      | ok => exact hgrn.of_registering rfl fun k x hx => hx
  | delete req id =>
    replace h : s.delete p config req id = some s' := h
    unfold State.delete at h
    split at h
    · rw [← Option.some.inj h]
      exact hS
    · obtain ⟨⟨result, auth⟩, hre, rfl⟩ := map_eq_some_iff.mp h
      have hgrn := hS.grows (step_of_require hprf hre).1
      cases result with
      | error => exact hgrn
      | ok => exact hgrn.of_registering rfl fun k x hx => hx

theorem sound (hprf : config.agentOwnershipProof = true) {guard : State → Event → Prop}
    (h : (system p config).Reachable guard s) : Sound p s := by
  refine System.Reachable.invariant ?_ ?_ h
  · intro s hsta k x hx
    rw [hsta.2] at hx
    cases hx
  · intro s e s' _ _ hS hst
    exact hS.step hprf hst

/-! ## The owner -/

variable {row : AgentRow}

theorem find_registered {data : Watchdog.Registration} {now : Nat}
    (hdb : s'.db = upsert s.db (data.record now)) (hrow : s.db.find data.agentId = some row) :
    s'.db.find data.agentId = some ((data.record now).onto row) := by
  rw [hdb, find_upsert, if_pos (show (data.record now).id = data.agentId from rfl), hrow]
  rfl

theorem owned_registered {data : Watchdog.Registration} {now : Nat} (hrow : s.db.find data.agentId = some row) :
    owned ((data.record now).onto row) = { toRegistration := data, bondAmountXLM := 0 } := by
  have hid := (find_eq_some.mp hrow).2
  unfold owned
  rw [show ((data.record now).onto row).id = data.agentId from hid]
  rfl

theorem rightful_of_unclaimed (hch : Changes p config s e s') (hun : Unclaimed p config s e)
    {a : Text} (hrow : s.db.find a = some row) (hne : (s'.db.find a).map owned ≠ some (owned row)) :
    ∃ proof, e.proof p s = some proof ∧ Proven p.toCrypto s'.auth proof ∧
      proof.input.publicKey = row.stellarPublicKey ∧
      Covers p.numberText row proof.input (s'.db.find a) := by
  cases hch with
  | quiet _ hsm =>
    rw [hsm a, hrow] at hne
    exact absurd rfl hne
  | @registered data proof hwrs hdb hprs hinp hprv =>
    by_cases ha : data.agentId = a
    · obtain rfl := ha
      obtain ⟨hkey, hbo⟩ := hun data hwrs row hrow
      have hnew : owned ((data.record s.auth.clock).onto row) =
          { toRegistration := data, bondAmountXLM := 0 } := owned_registered hrow
      refine ⟨proof, hprs, hprv, ?_, ?_⟩
      · rw [hinp, hkey]
        rfl
      · rw [find_registered hdb hrow, hinp]
        refine ⟨rfl, ?_, ?_⟩
        · rw [hnew]
          rfl
        · exact (congrArg Owned.bondAmountXLM hnew).trans hbo.symm
    · rw [hdb, find_upsert, if_neg (show ¬(data.record s.auth.clock).id = a from ha), hrow] at hne
      exact absurd rfl hne
  | @deleted agent proof _ hfi hdb hprs hinp hprv =>
    by_cases ha : agent.id = a
    · obtain ⟨row', hrow', hagt⟩ := map_eq_some_iff.mp hfi
      rw [ha, hrow] at hrow'
      cases hrow'
      refine ⟨proof, hprs, hprv, ?_, ?_⟩
      · rw [hinp, ← hagt]
        rfl
      · rw [hdb, find_delete, if_pos ha, hinp, ← hagt]
        exact ⟨rfl, rfl⟩
    · rw [hdb, find_delete, if_neg ha, hrow] at hne
      exact absurd rfl hne

/-- **A step is rightful exactly when it registers nothing over the row of another key, or over a bond.** -/
theorem rightful_iff (hprf : config.agentOwnershipProof = true) (hS : Sound p s)
    (h : (system p config).step s e = some s') : Rightful p config s e ↔ Unclaimed p config s e := by
  have hch := changes hprf hS h
  constructor
  · intro hri data hwrs row hrow
    cases hch with
    | quiet hno | deleted hno =>
      rw [hno] at hwrs
      cases hwrs
    | @registered data' proof hwrs' hdb hprs hinp _ =>
      obtain rfl := Option.some.inj (hwrs'.symm.trans hwrs)
      have hfi := find_registered hdb hrow
      have hnew : owned ((data'.record s.auth.clock).onto row) =
          { toRegistration := data', bondAmountXLM := 0 } := owned_registered hrow
      by_cases hsm : (s'.db.find data'.agentId).map owned = some (owned row)
      · -- nothing has changed: the row was as it was registered
        rw [hfi, map_some, hnew] at hsm
        have hsm := Option.some.inj hsm
        exact ⟨(congrArg (fun o : Owned => o.stellarPublicKey) hsm).symm,
          (congrArg Owned.bondAmountXLM hsm).symm⟩
      · obtain ⟨proof', hprs', _, hkey, hcov⟩ := hri s' h _ row hrow hsm
        obtain rfl := Option.some.inj (hprs.symm.trans hprs')
        rw [hinp] at hkey
        rw [hfi] at hcov
        exact ⟨hkey.symm, hcov.2.2.symm.trans (congrArg Owned.bondAmountXLM hnew)⟩
  · intro hun s₁ hs₁ a row hrow hne
    obtain rfl := Option.some.inj (h.symm.trans hs₁)
    exact rightful_of_unclaimed hch hun hrow hne

/--
**Only the key holder changes an agent, exactly as long as nothing is registered over the row of
another key, or over a bond.**
-/
theorem only_owner_changes (hproof : config.agentOwnershipProof = true) {s : State}
    {log : List (State × Event)} (h : (system p config).Logged (fun _ _ => True) s log) :
    (∀ entry ∈ log, Rightful p config entry.1 entry.2) ↔
      ∀ entry ∈ log, Unclaimed p config entry.1 entry.2 := by
  refine forall₂_congr fun entry hent => ?_
  obtain ⟨before, after, hlog⟩ := append_of_mem hent
  obtain ⟨hbf, _, s', hst⟩ := h.split hlog
  exact rightful_iff hproof (sound hproof hbf.reachable) hst

/-! ## A registration, of a free id and of one that is taken -/

section Sample

/-- The Stellar key of the party that registers. -/
def newcomer : Text := "GDVEU3DD4KOFECV66VIHWEZOYX4ZKR3WV27L464SIIPOU2IUI3JCZA57".toList

def newBody : RegisterBody where
  agentId := ['a']
  capabilities := [['x']]
  pricingXLM := 1
  endpoint := "https://b.example".toList
  stellarPublicKey := newcomer
  bondAmountXLM := none

def one : NumberText := ⟨['1'], by decide, List.forall_mem_singleton.mpr (by decide)⟩

def newInput : VerifyAgentOwnershipInput := registerInput (fun _ => one) newBody.toRegistration

def newDigest : List UInt8 :=
  [203, 36, 117, 128, 187, 222, 247, 249, 118, 119, 64, 7, 145, 198, 204, 181, 0, 16, 197, 154, 209, 67,
    155, 200, 176, 15, 239, 252, 165, 179, 184, 218]

def newSignature : Text :=
  "lP1Lg2Zi+BIUDyhAlV7KaepWbhaoCK0TzFvAkQYnY8pEwqXpO+G+pvdVNo8B2dCoW2JE5YldD/11Z5djB+egAg==".toList

def newMessage : Text :=
  buildAgentAuthMessage .register newcomer (List.replicate 32 'A') (toHex newDigest)

/-- SHA-256, Ed25519 and the text of a price where the registration needs them. -/
def samplePlatform : Platform where
  sha256 := fun text => if text = newInput.payload.canonicalJson then newDigest else 0 :: wide text
  verify := fun publicKey message signature =>
    some (decide (publicKey = newcomer ∧ message = newMessage ∧
      some signature = decodeSignature newSignature))
  numberText := fun _ => one
  isUrl := fun _ => true

def required : Config := ⟨true, false, false⟩

def registration : List Event :=
  [.auth (.issueAgentChallenge newInput.toIssueChallengeInput sampleNonce 300000),
    .auth (.sign newcomer newMessage),
    .register ⟨.one (List.replicate 32 'A'), .one newSignature⟩ newBody]

def startWith (db : AgentDb) : State := ⟨emptyStore, db, .empty⟩

theorem start_startWith (db : AgentDb) : (system samplePlatform required).start (startWith db) :=
  ⟨⟨rfl, rfl, rfl, rfl, rfl, rfl⟩, rfl⟩

theorem only_owner_changes_newcomer : ∃ (s : State) (log : List (State × Event)),
    (s.db.find ['a']).map AgentRow.stellarPublicKey = some newcomer ∧
      ((∀ entry ∈ log, Rightful samplePlatform required entry.1 entry.2) ↔
        ∀ entry ∈ log, Unclaimed samplePlatform required entry.1 entry.2) := by
  have hpl : ((system samplePlatform required).play (fun _ _ => True)
      (registration ++ [.loaded 0 .found]) (startWith (.empty _))).any
      (fun s => decide ((s.db.find ['a']).map AgentRow.stellarPublicKey = some newcomer)) = true := by
    have hkey : newcomer = _ := String.toList_ofList
    have hsig : newSignature = _ := String.toList_ofList
    unfold samplePlatform registration newMessage newInput newBody
    rw [hkey, hsig]
    decide +kernel
  obtain ⟨s, hlgd, hfnd⟩ := exists_logged (start_startWith _) hpl
  exact ⟨s, _, hfnd, only_owner_changes rfl hlgd⟩

/-- The agent `a` of another party, with a bond. -/
def taken : AgentRecord where
  id := ['a']
  capabilities := [['x']]
  pricingXLM := 2
  endpoint := "https://a.example".toList
  stellarPublicKey := holder
  reputationScore := 5
  lastSeenAt := 0
  status := .online
  bondAmountXLM := some 100
  tasksCompleted := none
  tasksFailed := none
  lastActiveAt := none

/--
**A newcomer registers the id of an agent.** It proves its own key, which is all that is asked for, and
the agent's endpoint and payments are the newcomer's.
-/
theorem takes_over : ∃ (s : State) (log : List (State × Event)),
    (system samplePlatform required).Logged (fun _ _ => True) s log ∧
      ¬∀ entry ∈ log, Rightful samplePlatform required entry.1 entry.2 := by
  have hpl : ((system samplePlatform required).play (fun _ _ => True) registration
      (startWith (upsert (.empty _) taken))).any
      (fun s => ((system samplePlatform required).step s (.loaded 0 .found)).isSome &&
        decide ((Event.loaded 0 .found).writes samplePlatform required s = some newBody.toRegistration) &&
        decide ((s.db.find ['a']).map AgentRow.stellarPublicKey = some holder)) = true := by
    have hkey : newcomer = _ := String.toList_ofList
    have hsig : newSignature = _ := String.toList_ofList
    unfold samplePlatform registration newMessage newInput newBody
    rw [hkey, hsig]
    decide +kernel
  obtain ⟨s, hs, hfcs⟩ := (Option.any_eq_true _ _).mp hpl
  simp only [Bool.and_eq_true, decide_eq_true_eq, isSome_iff_exists] at hfcs
  obtain ⟨⟨⟨s', hs'⟩, hwrs⟩, hkey⟩ := hfcs
  have hlgd := logged_of_play (start_startWith _) hs
  refine ⟨s', _, hlgd.step trivial hs', fun hall => ?_⟩
  have hri := hall _ (mem_append_right _ (mem_singleton_self _))
  have hun := (rightful_iff rfl (sound rfl hlgd.reachable) hs').mp hri
  obtain ⟨row, hrow, hhl⟩ := map_eq_some_iff.mp hkey
  have hsm := (hun _ hwrs row hrow).1
  rw [hhl] at hsm
  exact absurd hsm (by decide)

end Sample

end AiNet.Agents.Routes
