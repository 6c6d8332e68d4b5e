import AiNet.Core.Number
import AiNet.Idempotency.Fencing
import AiNet.Core.Processes

/-!
# The idempotency middleware

A request with an `Idempotency-Key` reserves its slot before its handler runs. The promotion of the
reservation hangs on the `finish` event of the response, and this event does not come when the client
has gone before the response is flushed. So a handler may have succeeded and its reservation expire
all the same; the next request of the slot reclaims it and runs the handler again.

`β` are the JSON texts of response bodies. A body that `JSON.stringify` has no text for reaches the
statement as `undefined`; whether the driver binds that or throws is `bindsUndefined`. The store
itself does not fail here: a reservation that throws lets its handler run unprotected, by design.
-/

namespace AiNet.Idempotency

open Core List Option System UniqueTable

section

abbrev Slot := List Char × List Char

/-- What the middleware reads of a request: texts as lists of characters. -/
structure Incoming where
  idempotencyKey : Option (List Char)
  /-- `walletPublicKey` of the body, if it is a string. -/
  bodyWallet : Option (List Char)
  headerWallet : Option (List Char)
  deriving DecidableEq

def idempotencyKeyMaxLength : Nat := 128

def resolveWallet (req : Incoming) : List Char :=
  let fromBody := trim (req.bodyWallet.getD [])
  let fromHeader := trim (req.headerWallet.getD [])
  if fromBody ≠ [] then fromBody
  else if fromHeader ≠ [] then fromHeader
  else "anonymous".toList

/-- What becomes of a request before the store is asked. -/
inductive Admission where
  | passThrough
  /-- 400: the key has this many characters. -/
  | tooLong (actual : Nat)
  | slot (slot : Slot)
  deriving DecidableEq

def admission (req : Incoming) : Admission :=
  let key := trim (req.idempotencyKey.getD [])
  if key = [] then .passThrough
  else if idempotencyKeyMaxLength < key.length then .tooLong key.length
  else .slot (resolveWallet req, key)

/-- Where a request stands. -/
inductive Progress (β : Type) where
  | reserving
  /-- 409 `REQUEST_IN_PROGRESS`. -/
  | inFlight
  | replayed (statusCode : Nat) (body : Option β)
  /-- The handler runs. -/
  | handling
  /-- The handler has written its response, which is not flushed yet. -/
  | responded (statusCode : Nat) (body : Option β)
  /-- The response is flushed, and the store has been told to promote the reservation. -/
  | promoted (statusCode : Nat) (body : Option β) (expiresAt : Nat)
  /-- It is flushed, and the reservation was released or could not be promoted. -/
  | finished (statusCode : Nat) (body : Option β)
  deriving DecidableEq

structure Request (ρ β : Type) where
  slot : Slot
  reservationId : ρ
  connected : Bool
  progress : Progress β
  deriving DecidableEq

/-- `status >= 200 && status < 400`. -/
def success (statusCode : Nat) : Bool := decide (200 ≤ statusCode) && decide (statusCode < 400)

variable {ρ β : Type}

/-- How the middleware goes on from where its `reserve` stands. -/
def Progress.of : Stage (List Char) (List Char) ρ β → Progress β
  | .returned (.reserved _) => .handling
  | .returned (.replay entry) => .replayed (entry.statusCode.getD 200) entry.responseBody
  | .returned .conflict => .inFlight
  | .attempt _ => .reserving
  | .insert _ _ => .reserving
  | .select _ _ => .reserving
  | .deleteExpired _ _ => .reserving

/-- The processes of the backend. Request `i` has made the call `i` of the store. -/
structure Backend (ρ β : Type) where
  store : State (List Char) (List Char) ρ β
  requests : List (Request ρ β)

inductive BackendEvent (ρ β : Type) where
  | arrive (req : Incoming) (reservationId : ρ)
  /-- The next statement of the request's `reserve`. -/
  | reserve (request : Nat)
  | respond (request : Nat) (statusCode : Nat) (body : Option β)
  /-- The handler throws, and the error handler responds. -/
  | throw (request : Nat) (statusCode : Nat) (body : Option β)
  /-- The `finish` event of the response, and the time its listener reads. -/
  | finish (request : Nat) (now : Nat)
  | disconnect (request : Nat)
  | cleanup (now : Nat)
  | tick (clock : Nat)
  deriving DecidableEq

section Step

variable [DecidableEq ρ] (options : Options) (bindsUndefined : Bool)

def Backend.write (s : Backend ρ β) (e : Event (List Char) (List Char) ρ β)
    (requests : List (Request ρ β)) : Option (Backend ρ β) := do
  let store ← step options s.store e
  some ⟨store, requests⟩

/-- The listener of `finish`. -/
def finishStep (s : Backend ρ β) (i now : Nat) (request : Request ρ β) (statusCode : Nat)
    (body : Option β) : Option (Backend ρ β) :=
  if success statusCode then
    if body.isSome || bindsUndefined then
      s.write options (.complete request.slot request.reservationId statusCode body now)
        (s.requests.set i
          { request with progress := .promoted statusCode body (now + options.ttlMs) })
    else
      -- the statement throws, which is logged
      some { s with
        requests := s.requests.set i { request with progress := .finished statusCode body } }
  else
    s.write options (.release request.slot request.reservationId)
      (s.requests.set i { request with progress := .finished statusCode body })

def backendStep (s : Backend ρ β) : BackendEvent ρ β → Option (Backend ρ β)
  | .arrive req reservationId =>
    match admission req with
    | .slot slot =>
      s.write options (.reserve slot reservationId)
        (s.requests ++ [⟨slot, reservationId, true, .reserving⟩])
    | .passThrough => some s
    | .tooLong _ => some s
  | .reserve i => do
      let request ← s.requests[i]?
      let store ← step options s.store (.run i)
      let call ← store.calls[i]?
      some ⟨store, s.requests.set i { request with progress := .of call.stage }⟩
  | .respond i statusCode body => do
      let request ← s.requests[i]?
      match request.progress with
      | .handling =>
        some { s with
          requests := s.requests.set i { request with progress := .responded statusCode body } }
      | _ => none
  | .throw i statusCode body => do
      let request ← s.requests[i]?
      match request.progress with
      | .handling =>
        if 400 ≤ statusCode then
          s.write options (.release request.slot request.reservationId)
            (s.requests.set i { request with progress := .responded statusCode body })
        else none
      | _ => none
  | .finish i now => do
      let request ← s.requests[i]?
      match request.connected, request.progress with
      | true, .responded statusCode body =>
        finishStep options bindsUndefined s i now request statusCode body
      | _, _ => none
  | .disconnect i => do
      let request ← s.requests[i]?
      some { s with requests := s.requests.set i { request with connected := false } }
  | .cleanup now => s.write options (.cleanup now) s.requests
  | .tick clock => s.write options (.tick clock) s.requests

/-- Any table the database holds, and no request yet. -/
def backend : System (Backend ρ β) (BackendEvent ρ β) where
  start s := s.store.calls = [] ∧ s.requests = []
  step := backendStep options bindsUndefined

end Step

end

/-!
## One successful run for each key

As long as every successful response is flushed before its reservation expires, the slot is never
free from the first success on until the stored response expires: first the pending row holds it, then
the completed one. What every request contributes to this is `Secured`. A client that goes before the
response is flushed leaves a success that nothing records.
-/

variable {ρ β : Type} [DecidableEq ρ]

/-- The request's reservation is in the table and does not expire before `clock`. -/
def Standing (store : State (List Char) (List Char) ρ β) (request : Request ρ β) (clock : Nat) : Prop :=
  ∃ row ∈ store.table.rows, row.heldBy request.slot request.reservationId = true ∧ clock < row.expiresAt

instance (store : State (List Char) (List Char) ρ β) (request : Request ρ β) (clock : Nat) :
    Decidable (Standing store request clock) :=
  inferInstanceAs (Decidable (∃ row ∈ store.table.rows,
    row.heldBy request.slot request.reservationId = true ∧ clock < row.expiresAt))

/-- The handler has succeeded, and the response is not flushed. -/
def Progress.flushing : Progress β → Bool
  | .responded statusCode _ => success statusCode
  | .reserving => false
  | .inFlight => false
  | .replayed _ _ => false
  | .handling => false
  | .promoted _ _ _ => false
  | .finished _ _ => false

def Progress.succeeded : Progress β → Bool
  | .responded statusCode _ => success statusCode
  | .promoted statusCode _ _ => success statusCode
  | .finished statusCode _ => success statusCode
  | .reserving => false
  | .inFlight => false
  | .replayed _ _ => false
  | .handling => false

/-- Generated ids are distinct, and handlers finish while their reservation stands. -/
def InTime (s : Backend ρ β) : BackendEvent ρ β → Prop
  | .arrive _ reservationId => reservationId ∉ s.requests.map Request.reservationId
  | .respond i _ _ => ∀ request ∈ s.requests[i]?, Standing s.store request s.store.clock
  | .throw i _ _ => ∀ request ∈ s.requests[i]?, Standing s.store request s.store.clock
  | .reserve _ => True
  | .finish _ _ => True
  | .disconnect _ => True
  | .cleanup _ => True
  | .tick _ => True

/--
Moreover every success is flushed before its reservation expires: its client is there and stays, and
its body can be stored.
-/
def Flushed (bindsUndefined : Bool) (s : Backend ρ β) (e : BackendEvent ρ β) : Prop :=
  InTime s e ∧ match e with
    | .respond i statusCode body => success statusCode = true → ∀ request ∈ s.requests[i]?,
          request.connected = true ∧ (body.isSome || bindsUndefined) = true
    | .disconnect i => ∀ request ∈ s.requests[i]?, request.progress.flushing = false
    | .tick clock => ∀ request ∈ s.requests, request.progress.flushing = true →
        Standing s.store request clock
    | _ => True

instance (s : Backend ρ β) (e : BackendEvent ρ β) : Decidable (InTime s e) := by
  cases e with
  | arrive req reservationId =>
    exact inferInstanceAs (Decidable (reservationId ∉ s.requests.map Request.reservationId))
  | respond i | throw i =>
    exact inferInstanceAs (Decidable (∀ request ∈ s.requests[i]?, Standing s.store request s.store.clock))
  | reserve | finish | disconnect | cleanup | tick => exact isTrue trivial

instance (bindsUndefined : Bool) (s : Backend ρ β) (e : BackendEvent ρ β) :
    Decidable (Flushed bindsUndefined s e) := by
  -- the second condition is a closed formula for each event
  unfold Flushed
  cases e with
  | respond i statusCode body =>
    exact inferInstanceAs (Decidable (_ ∧ (success statusCode = true → ∀ request ∈ s.requests[i]?,
      request.connected = true ∧ (body.isSome || bindsUndefined) = true)))
  | disconnect i =>
    exact inferInstanceAs (Decidable (_ ∧ ∀ request ∈ s.requests[i]?, request.progress.flushing = false))
  | tick clock =>
    exact inferInstanceAs (Decidable (_ ∧ ∀ request ∈ s.requests, request.progress.flushing = true →
      Standing s.store request clock))
  | arrive | throw | reserve | finish | cleanup => exact inferInstanceAs (Decidable (_ ∧ True))

/-! ## What a request contributes -/

/-- A success holds its slot: by the pending row until it is promoted, by the stored response after it. -/
def Secured (bindsUndefined : Bool) (store : State (List Char) (List Char) ρ β)
    (request : Request ρ β) : Prop :=
  match request.progress with
  | .responded statusCode body => success statusCode = true →
      request.connected = true ∧ (body.isSome || bindsUndefined) = true ∧ Standing store request store.clock
  | .promoted _ _ expiresAt => expiresAt ≤ store.clock ∨ ∃ row ∈ store.table.rows,
        row.slot = request.slot ∧ row.status = .completed ∧ row.expiresAt = expiresAt
  | .finished statusCode _ => success statusCode = false
  | .reserving => True
  | .inFlight => True
  | .replayed _ _ => True
  | .handling => True

section Secured

variable {options : Options} {bindsUndefined : Bool}
  {store store' : State (List Char) (List Char) ρ β} {request : Request ρ β}
  {e : Event (List Char) (List Char) ρ β}

def FinalisesOf (request : Request ρ β) : Event (List Char) (List Char) ρ β → Prop
  | .complete _ reservationId _ _ _ => reservationId = request.reservationId
  | .release _ reservationId => reservationId = request.reservationId
  | .reserve _ _ => False
  | .run _ => False
  | .cleanup _ => False
  | .tick _ => False

theorem not_finalises {row : Row (List Char) (List Char) ρ β} {slot : Slot}
    (hhd : row.heldBy slot request.reservationId = true) (h : ¬FinalisesOf request e) :
    ¬Finalises row e := by
  have hid := (Row.heldBy_iff.mp hhd).2.2
  cases e with
  | complete | release =>
    intro hfnl
    exact h ((Row.heldBy_iff.mp hfnl).2.2.symm.trans hid)
  | reserve | run | cleanup | tick => exact id

theorem Standing.kept {clock : Nat} (h : Standing store request clock) (htm : Timely store)
    (hclk : store.clock ≤ clock) (hfnl : ¬FinalisesOf request e)
    (hs : (AiNet.Idempotency.store options).step store e = some store') :
    Standing store' request clock := by
  obtain ⟨row, hrow, hhd, hlv⟩ := h
  have hlv₀ : store.clock < row.expiresAt := Nat.lt_of_le_of_lt hclk hlv
  exact ⟨row, kept_step htm hrow hlv₀ (not_finalises hhd hfnl) hs, hhd, hlv⟩

/-- **A success stays secured through the statements of the others.** -/
theorem Secured.kept (h : Secured bindsUndefined store request) (htim : Timely store)
    (hfnl : request.progress.flushing = true → ¬FinalisesOf request e)
    (htm : request.progress.flushing = true → Standing store request store'.clock)
    (hs : (AiNet.Idempotency.store options).step store e = some store') :
    Secured bindsUndefined store' request := by
  unfold Secured at h ⊢
  cases hpgs : request.progress with
  | responded =>
    rw [hpgs] at h hfnl htm
    intro hsuc
    obtain ⟨hco, hbo, _⟩ := h hsuc
    exact ⟨hco, hbo, (htm hsuc).kept htim (clock_le hs) (hfnl hsuc) hs⟩
  | promoted statusCode body expiresAt =>
    rw [hpgs] at h
    rcases h with hexp | ⟨row, hrow, hsl, hcmp, rfl⟩
    · exact .inl (Nat.le_trans hexp (clock_le hs))
    · rcases Nat.lt_or_ge store.clock row.expiresAt with hlv | hexp
      · have hkpt := kept_step htim hrow hlv (not_finalises_of_completed hcmp e) hs
        exact .inr ⟨row, hkpt, hsl, hcmp, rfl⟩
      · exact .inl (Nat.le_trans hexp (clock_le hs))
  | finished =>
    rw [hpgs] at h
    exact h
  | reserving | inFlight | replayed | handling => trivial

theorem Secured.standing (h : Secured bindsUndefined store request)
    (hfls : request.progress.flushing = true) :
    request.connected = true ∧ (∃ statusCode body, request.progress = .responded statusCode body ∧
      (body.isSome || bindsUndefined) = true) ∧ Standing store request store.clock := by
  unfold Secured at h
  cases hpgs : request.progress with
  | responded statusCode body =>
    rw [hpgs] at h hfls
    obtain ⟨hco, hbo, hstn⟩ := h hfls
    exact ⟨hco, ⟨statusCode, body, rfl, hbo⟩, hstn⟩
  | reserving | inFlight | replayed | handling | promoted | finished =>
    rw [hpgs] at hfls; cases hfls

end Secured

/-! ## The invariant -/

/-- What every step keeps. -/
structure Guarded (bindsUndefined : Bool) (s : Backend ρ β) : Prop where
  timely : Timely s.store
  /-- Request `i` made call `i`. -/
  aligned : s.requests.map (fun request => (request.slot, request.reservationId)) =
    s.store.calls.map fun call => (call.slot, call.reservationId)
  distinct : (s.requests.map Request.reservationId).Nodup
  secured : ∀ request ∈ s.requests, Secured bindsUndefined s.store request

section Steps

variable {options : Options} {bindsUndefined : Bool} {s s' : Backend ρ β}

variable {e : Event (List Char) (List Char) ρ β}

theorem of_write {requests : List (Request ρ β)} (h : s.write options e requests = some s') :
    (store options).step s.store e = some s'.store ∧ s'.requests = requests := by
  obtain ⟨store', hs, h⟩ := bind_eq_some_iff.mp h
  cases h
  exact ⟨hs, rfl⟩

variable {i : Nat} {j : Nat}

theorem Guarded.ids_ne (hI : Guarded bindsUndefined s) {request other : Request ρ β}
    (hreq : s.requests[i]? = some request) (hoth : s.requests[j]? = some other)
    (hne : i ≠ j) : other.reservationId ≠ request.reservationId := by
  intro heq
  have hi : (s.requests.map Request.reservationId)[i]? = some request.reservationId := by
    rw [List.getElem?_map, hreq]
    rfl
  have hj : (s.requests.map Request.reservationId)[j]? = some request.reservationId := by
    rw [List.getElem?_map, hoth, ← heq]
    rfl
  have hlt : i < (s.requests.map Request.reservationId).length :=
    (List.getElem?_eq_some_iff.mp hi).1
  exact hne ((List.getElem?_inj hlt hI.distinct).mp (hi.trans hj.symm))

variable {request : Request ρ β}

theorem Guarded.others (hI : Guarded bindsUndefined s) (hreq : s.requests[i]? = some request)
    (he : ∀ other, FinalisesOf other e → request.reservationId = other.reservationId) {other : Request ρ β}
    (hne : i ≠ j) (hoth : s.requests[j]? = some other) :
    ¬FinalisesOf other e := by
  intro hfnl
  exact hI.ids_ne hreq hoth hne (he other hfnl).symm

variable {store : State (List Char) (List Char) ρ β}

/-- **A statement of one request, by which the clock does not move, leaves the others secured.** -/
theorem Guarded.others_secured (hI : Guarded bindsUndefined s) (hreq : s.requests[i]? = some request)
    (he : ∀ other, FinalisesOf other e → request.reservationId = other.reservationId)
    (hs : (AiNet.Idempotency.store options).step s.store e = some store)
    (hclk : store.clock = s.store.clock) {other : Request ρ β} (hne : i ≠ j)
    (hoth : s.requests[j]? = some other) : Secured bindsUndefined store other := by
  have hscd := hI.secured other (mem_of_getElem? hoth)
  refine hscd.kept hI.timely (fun _ => hI.others hreq he hne hoth) (fun hfls => ?_) hs
  rw [hclk]
  exact (hscd.standing hfls).2.2

theorem Guarded.moved (hI : Guarded bindsUndefined s) {request new : Request ρ β}
    (hreq : s.requests[i]? = some request) (htm : Timely store)
    (hcs : store.calls.map (fun call => (call.slot, call.reservationId)) = s.store.calls.map fun call => (call.slot, call.reservationId))
    (hsm : (new.slot, new.reservationId) = (request.slot, request.reservationId))
    (hnew : Secured bindsUndefined store new)
    (hots : ∀ j other, i ≠ j → s.requests[j]? = some other → Secured bindsUndefined store other) :
    Guarded bindsUndefined ⟨store, s.requests.set i new⟩ where
  timely := htm
  aligned := by
    have hmap : (s.requests.set i new).map (fun r => (r.slot, r.reservationId)) =
        s.requests.map fun r => (r.slot, r.reservationId) := map_set_of_eq hreq hsm
    exact hmap.trans (hI.aligned.trans hcs.symm)
  distinct := by
    have hmap : (s.requests.set i new).map Request.reservationId =
        s.requests.map Request.reservationId := map_set_of_eq hreq (Prod.mk.inj hsm).2
    exact hmap ▸ hI.distinct
  secured := forall_mem_set hnew hots

theorem calls_of_step {store store' : State (List Char) (List Char) ρ β}
    (hs : (AiNet.Idempotency.store options).step store e = some store')
    (he : ∀ slot reservationId, e ≠ .reserve slot reservationId) :
    store'.calls.map (fun call => (call.slot, call.reservationId)) =
      store.calls.map fun call => (call.slot, call.reservationId) := by
  cases e with
  | reserve slot reservationId => exact absurd rfl (he slot reservationId)
  | run =>
    obtain ⟨call, table, stage, hcl, _, rfl⟩ := of_step hs
    exact map_set_of_eq hcl rfl
  | complete | cleanup | tick =>
    obtain ⟨_, rfl⟩ := of_step hs
    rfl
  | release => rw [of_step hs]

theorem clock_of_step {store store' : State (List Char) (List Char) ρ β}
    (hs : (AiNet.Idempotency.store options).step store e = some store')
    (he : ∀ clock, e ≠ .tick clock) : store'.clock = store.clock := by
  cases e with
  | reserve | release => rw [of_step hs]
  | run =>
    obtain ⟨call, table, stage, hcl, _, rfl⟩ := of_step hs
    rfl
  | complete | cleanup =>
    obtain ⟨_, rfl⟩ := of_step hs
    rfl
  | tick clock => exact absurd rfl (he clock)

theorem secured_of (store : State (List Char) (List Char) ρ β) (request : Request ρ β)
    (stage : Stage (List Char) (List Char) ρ β) :
    Secured bindsUndefined store { request with progress := .of stage } := by
  cases stage with
  | returned result =>
    cases result with
    | reserved | replay | conflict => trivial
  | attempt | insert | select | deleteExpired => trivial

theorem of_backendStep {e : BackendEvent ρ β}
    (h : (backend options bindsUndefined).step s e = some s') :
    match e with
    | .arrive req reservationId => s' = s ∨ ∃ slot, admission req = .slot slot ∧
        s.write options (.reserve slot reservationId)
          (s.requests ++ [⟨slot, reservationId, true, .reserving⟩]) = some s'
    | .reserve i => ∃ request store call, s.requests[i]? = some request ∧
        (AiNet.Idempotency.store options).step s.store (.run i) = some store ∧
        store.calls[i]? = some call ∧
        s' = ⟨store, s.requests.set i { request with progress := .of call.stage }⟩
    | .respond i statusCode body => ∃ request, s.requests[i]? = some request ∧
        request.progress = .handling ∧
        s' = { s with
          requests := s.requests.set i { request with progress := .responded statusCode body } }
    | .throw i statusCode body => ∃ request, s.requests[i]? = some request ∧
        request.progress = .handling ∧ 400 ≤ statusCode ∧
        s.write options (.release request.slot request.reservationId)
          (s.requests.set i { request with progress := .responded statusCode body }) = some s'
    | .finish i now => ∃ request statusCode body, s.requests[i]? = some request ∧
        request.connected = true ∧ request.progress = .responded statusCode body ∧
        finishStep options bindsUndefined s i now request statusCode body = some s'
    | .disconnect i => ∃ request, s.requests[i]? = some request ∧
        s' = { s with requests := s.requests.set i { request with connected := false } }
    | .cleanup now => s.write options (.cleanup now) s.requests = some s'
    | .tick clock => s.write options (.tick clock) s.requests = some s' := by
  cases e with
  | arrive req reservationId =>
    simp only [backend, backendStep] at h
    split at h
    · rename_i slot hsl
      exact .inr ⟨slot, hsl, h⟩
    · exact .inl (Option.some.inj h).symm
    · exact .inl (Option.some.inj h).symm
  | reserve =>
    obtain ⟨request, hreq, h⟩ := bind_eq_some_iff.mp h
    obtain ⟨store, hs, h⟩ := bind_eq_some_iff.mp h
    obtain ⟨call, hcl, h⟩ := bind_eq_some_iff.mp h
    exact ⟨request, store, call, hreq, hs, hcl, (Option.some.inj h).symm⟩
  | respond i statusCode body =>
    obtain ⟨request, hreq, h⟩ := bind_eq_some_iff.mp h
    split at h
    · rename_i hha
      exact ⟨request, hreq, hha, (Option.some.inj h).symm⟩
    · cases h
  | throw i statusCode body =>
    obtain ⟨request, hreq, h⟩ := bind_eq_some_iff.mp h
    split at h
    · rename_i hha
      obtain ⟨hst, h⟩ := ite_none_right_eq_some.mp h
      exact ⟨request, hreq, hha, hst, h⟩
    · cases h
  | finish i now =>
    obtain ⟨request, hreq, h⟩ := bind_eq_some_iff.mp h
    split at h
    · rename_i statusCode body hco hre
      exact ⟨request, statusCode, body, hreq, hco, hre, h⟩
    · cases h
  | disconnect =>
    obtain ⟨request, hreq, h⟩ := bind_eq_some_iff.mp h
    exact ⟨request, hreq, (Option.some.inj h).symm⟩
  | cleanup | tick => exact h

theorem secured_promoted {statusCode now : Nat} {body : Option β}
    (hstn : Standing s.store request s.store.clock)
    (hs : (AiNet.Idempotency.store options).step s.store (.complete request.slot request.reservationId statusCode body now) = some store) :
    Secured bindsUndefined store
      { request with progress := .promoted statusCode body (now + options.ttlMs) } := by
  obtain ⟨row, hrow, hhd, _⟩ := hstn
  obtain ⟨_, rfl⟩ := of_step hs
  refine .inr ⟨_, completed_mem_completeStmt hrow hhd, ?_, rfl, rfl⟩
  exact (Row.heldBy_iff.mp hhd).1

theorem Guarded.step {e : BackendEvent ρ β} (hI : Guarded bindsUndefined s)
    (hgrd : Flushed bindsUndefined s e)
    (h : (backend options bindsUndefined).step s e = some s') : Guarded bindsUndefined s' := by
  cases e with
  | arrive req reservationId =>
    rcases of_backendStep h with rfl | ⟨slot, _, hwte⟩
    · exact hI
    · obtain ⟨hs, hrqs⟩ := of_write hwte
      have hstr := of_step hs
      refine ⟨hI.timely.step hs, ?_, ?_, ?_⟩
      · rw [hrqs, hstr, map_append, map_append, hI.aligned]
        rfl
      · rw [hrqs, map_append, nodup_append]
        refine ⟨hI.distinct, nodup_singleton _, fun a ha b hb heq => hgrd.1 ?_⟩
        obtain rfl : b = reservationId := mem_singleton.mp hb
        exact heq ▸ ha
      · intro request hreq
        rw [hrqs] at hreq
        rcases mem_append.mp hreq with hold | hnew
        · have hscd := hI.secured request hold
          have hclk := clock_of_step hs nofun
          refine hscd.kept hI.timely (fun _ => id) (fun hfls => ?_) hs
          exact hclk ▸ (hscd.standing hfls).2.2
        · rw [mem_singleton.mp hnew]
          trivial
  | reserve =>
    obtain ⟨request, store, call, hreq, hs, hcl, rfl⟩ := of_backendStep h
    refine hI.moved hreq (hI.timely.step hs) (calls_of_step hs nofun) rfl
      (secured_of store request call.stage) fun j other hne hoth => ?_
    exact hI.others_secured hreq (fun _ => False.elim) hs (clock_of_step hs nofun) hne hoth
  | respond =>
    obtain ⟨request, hreq, hha, rfl⟩ := of_backendStep h
    refine hI.moved hreq hI.timely rfl rfl ?_ fun j other _ hoth =>
      hI.secured other (mem_of_getElem? hoth)
    intro hsuc
    obtain ⟨hco, hbo⟩ := hgrd.2 hsuc request hreq
    exact ⟨hco, hbo, hgrd.1 request hreq⟩
  | throw =>
    obtain ⟨request, hreq, hha, hst, hwte⟩ := of_backendStep h
    obtain ⟨hs, hrqs⟩ := of_write hwte
    obtain ⟨store, requests⟩ := s'
    obtain rfl : requests = _ := hrqs
    refine hI.moved hreq (hI.timely.step hs) (calls_of_step hs nofun) rfl ?_
      fun j other hne hoth => ?_
    · intro hsuc
      unfold success at hsuc
      simp at hsuc
      omega
    · exact hI.others_secured hreq (by intro _ heq; exact heq) hs (clock_of_step hs nofun) hne hoth
  | finish i now =>
    obtain ⟨request, statusCode, body, hreq, hco, hre, hfi⟩ := of_backendStep h
    have hscd := hI.secured request (mem_of_getElem? hreq)
    unfold finishStep at hfi
    split at hfi
    · rename_i hsuc
      have hfls : request.progress.flushing = true := by
        rw [hre]
        exact hsuc
      obtain ⟨_, ⟨statusCode', body', hre', hbo⟩, hstn⟩ := hscd.standing hfls
      obtain ⟨rfl, rfl⟩ := Progress.responded.inj (hre.symm.trans hre')
      rw [if_pos hbo] at hfi
      obtain ⟨hs, hrqs⟩ := of_write hfi
      obtain ⟨store, requests⟩ := s'
      obtain rfl : requests = _ := hrqs
      refine hI.moved hreq (hI.timely.step hs) (calls_of_step hs nofun) rfl
        (secured_promoted hstn hs) fun j other hne hoth => ?_
      exact hI.others_secured hreq (by intro _ heq; exact heq) hs (clock_of_step hs nofun) hne hoth
    · rename_i hfa
      obtain ⟨hs, hrqs⟩ := of_write hfi
      obtain ⟨store, requests⟩ := s'
      obtain rfl : requests = _ := hrqs
      refine hI.moved hreq (hI.timely.step hs) (calls_of_step hs nofun) rfl
        (Bool.eq_false_iff.mpr hfa) fun j other hne hoth => ?_
      exact hI.others_secured hreq (by intro _ heq; exact heq) hs (clock_of_step hs nofun) hne hoth
  | disconnect =>
    obtain ⟨request, hreq, rfl⟩ := of_backendStep h
    refine hI.moved hreq hI.timely rfl rfl ?_ fun j other _ hoth =>
      hI.secured other (mem_of_getElem? hoth)
    -- the response of this request, if there is one, is no success that waits to be flushed
    have hil : request.progress.flushing = false := hgrd.2 request hreq
    have hscd := hI.secured request (mem_of_getElem? hreq)
    unfold Secured at hscd ⊢
    cases hpgs : request.progress with
    | responded =>
      rw [hpgs] at hil
      intro hsuc
      exact absurd hsuc (Bool.eq_false_iff.mp hil)
    | reserving | inFlight | replayed | handling => trivial
    | promoted | finished =>
      rw [hpgs] at hscd
      exact hscd
  | cleanup =>
    obtain ⟨hs, hrqs⟩ := of_write (of_backendStep h)
    refine ⟨hI.timely.step hs, ?_, hrqs ▸ hI.distinct, fun request hreq => ?_⟩
    · rw [hrqs, hI.aligned, calls_of_step hs nofun]
    · rw [hrqs] at hreq
      have hscd := hI.secured request hreq
      have hclk := clock_of_step hs nofun
      refine hscd.kept hI.timely (fun _ => id) (fun hfls => ?_) hs
      exact hclk ▸ (hscd.standing hfls).2.2
  | tick =>
    obtain ⟨hs, hrqs⟩ := of_write (of_backendStep h)
    refine ⟨hI.timely.step hs, ?_, hrqs ▸ hI.distinct, fun request hreq => ?_⟩
    · rw [hrqs, hI.aligned, calls_of_step hs nofun]
    · rw [hrqs] at hreq
      refine (hI.secured request hreq).kept hI.timely (fun _ => id) (fun hfls => ?_) hs
      obtain ⟨_, hstr⟩ := of_step hs
      rw [hstr]
      exact hgrd.2 request hreq hfls

theorem guarded (h : (backend options bindsUndefined).Reachable (Flushed bindsUndefined) s) :
    Guarded bindsUndefined s := by
  refine h.invariant ?_ ?_
  · intro s hsta
    obtain ⟨hcs, hrqs⟩ := hsta
    refine ⟨?_, ?_, ?_, ?_⟩
    · intro call hcl
      rw [hcs] at hcl
      cases hcl
    · rw [hcs, hrqs]
      rfl
    · rw [hrqs]
      exact nodup_nil
    · intro request hreq
      rw [hrqs] at hreq
      cases hreq
  · intro s e s' _ hgrd hI hs
    exact hI.step hgrd hs

end Steps

/-! ## The claim -/

section SingleRun

variable {options : Options} {bindsUndefined : Bool} {s s' : Backend ρ β}

def Starts (options : Options) (bindsUndefined : Bool) (s : Backend ρ β) (i : Nat) (slot : Slot)
    (s' : Backend ρ β) : Prop :=
  (backend options bindsUndefined).step s (.reserve i) = some s' ∧
    ∃ request, s'.requests[i]? = some request ∧ request.slot = slot ∧ request.progress = .handling

/-- After a success no handler of the slot starts, before the stored response has expired. -/
def RunsOnce (options : Options) (bindsUndefined : Bool) (s : Backend ρ β) : Prop :=
  ∀ request ∈ s.requests, request.progress.succeeded = true →
    ∀ i s', Starts options bindsUndefined s i request.slot s' →
      ∃ statusCode body expiresAt, request.progress = .promoted statusCode body expiresAt ∧
        expiresAt ≤ s.store.clock

theorem Guarded.free_of_starts (hI : Guarded bindsUndefined s) {i : Nat} {slot : Slot}
    (h : Starts options bindsUndefined s i slot s') : ∀ row ∈ s.store.table.rows, row.slot ≠ slot := by
  obtain ⟨hst, started, hstd, hsl, hha⟩ := h
  obtain ⟨request, store, call, hreq, hs, hcl, rfl⟩ := of_backendStep hst
  cases (getElem?_set_of_some hreq).symm.trans hstd
  obtain ⟨before, table, stage, hbf, hrun, rfl⟩ := of_step hs
  cases (getElem?_set_of_some hbf).symm.trans hcl
  obtain ⟨reservationId, rfl⟩ : ∃ reservationId, stage = .returned (.reserved reservationId) := by
    cases stage with
    | returned result =>
      cases result with
      | reserved reservationId => exact ⟨reservationId, rfl⟩
      | replay | conflict => cases hha
    | attempt | insert | select | deleteExpired => cases hha
  obtain ⟨n, now, _, _, hins⟩ := of_granted hrun
  -- request `i` made call `i`, so the call reserves the slot of the request
  have hclS : before.slot = request.slot := by
    have hpa := congrArg (fun pairs : List (Slot × ρ) => pairs[i]?) hI.aligned
    simp only [List.getElem?_map, hreq, hbf, map_some, Option.some.injEq] at hpa
    exact (Prod.mk.inj hpa).1.symm
  intro row hrow heq
  refine (insert_eq_some hins).2 row hrow ?_
  exact heq.trans (hsl.symm.trans hclS.symm)

/-- **A handler runs once for each key, where every success is flushed in time.** -/
theorem runs_once (h : (backend options bindsUndefined).Reachable (Flushed bindsUndefined) s) :
    RunsOnce options bindsUndefined s := by
  intro request hreq hsuc i s' hst
  have hI := guarded h
  have hfr := hI.free_of_starts hst
  have hscd := hI.secured request hreq
  unfold Secured at hscd
  cases hpgs : request.progress with
  | responded =>
    rw [hpgs] at hscd hsuc
    obtain ⟨_, _, row, hrow, hhd, _⟩ := hscd hsuc
    exact absurd (Row.heldBy_iff.mp hhd).1 (hfr row hrow)
  | promoted statusCode body expiresAt =>
    rw [hpgs] at hscd
    rcases hscd with hexp | ⟨row, hrow, hsl, _⟩
    · exact ⟨statusCode, body, expiresAt, rfl, hexp⟩
    · exact absurd hsl (hfr row hrow)
  | finished =>
    rw [hpgs] at hscd hsuc
    exact absurd hsuc (Bool.eq_false_iff.mp hscd)
  | reserving | inFlight | replayed | handling => rw [hpgs] at hsuc; cases hsuc

/-- One request with the key `k`. -/
def keyed : Incoming := ⟨some ['k'], some ['w'], none⟩

/-- The response is flushed, so a second request finds it. -/
theorem runs_once_flushed : ∃ s : Backend Nat Nat,
    s.requests.any (fun request => request.progress.succeeded) = true ∧ RunsOnce ⟨100, 10⟩ true s := by
  have hpl : ((backend ⟨100, 10⟩ true).play (Flushed true)
      [.arrive keyed 1, .reserve 0, .reserve 0, .respond 0 201 (some 7), .finish 0 0]
      (⟨⟨0, empty _, []⟩, []⟩ : Backend Nat Nat)).any
        (fun s => s.requests.any fun request => request.progress.succeeded) = true := by
    decide
  have hsta : (backend ⟨100, 10⟩ true).start (⟨⟨0, empty _, []⟩, []⟩ : Backend Nat Nat) :=
    ⟨rfl, rfl⟩
  obtain ⟨s, hr, hs⟩ := exists_reachable_of_play hsta hpl
  exact ⟨s, hs, runs_once hr⟩

/--
**A client that goes before the response is flushed.** Its handler has succeeded at 0. At 10 the
reservation has expired, and the retry runs the handler again.
-/
theorem runs_twice : ∃ s : Backend Nat Nat, (backend ⟨100, 10⟩ true).Reachable InTime s ∧
    s.store.clock < 100 ∧ ¬RunsOnce ⟨100, 10⟩ true s := by
  have hpl : ((backend ⟨100, 10⟩ true).play InTime
      [.arrive keyed 1, .reserve 0, .reserve 0, .respond 0 201 (some 7), .disconnect 0, .tick 10,
        .arrive keyed 2, .reserve 1, .reserve 1, .reserve 1, .reserve 1, .reserve 1]
      (⟨⟨0, empty _, []⟩, []⟩ : Backend Nat Nat)).any
        (fun s => decide (s.store.clock < 100) && (decide (s.requests[0]? = some ⟨(['w'], ['k']), 1, false, .responded 201 (some 7)⟩) &&
          ((backendStep ⟨100, 10⟩ true s (.reserve 1)).any fun s' =>
            decide (s'.requests[1]? = some ⟨(['w'], ['k']), 2, true, .handling⟩)))) = true := by
    decide
  have hsta : (backend ⟨100, 10⟩ true).start (⟨⟨0, empty _, []⟩, []⟩ : Backend Nat Nat) :=
    ⟨rfl, rfl⟩
  obtain ⟨s, hr, hs⟩ := exists_reachable_of_play hsta hpl
  obtain ⟨hclk, hs⟩ := Bool.and_eq_true_iff.mp hs
  obtain ⟨hfst, hs⟩ := Bool.and_eq_true_iff.mp hs
  obtain ⟨s', hs', hsec⟩ := (Option.any_eq_true _ _).mp hs
  refine ⟨s, hr, of_decide_eq_true hclk, fun hoc => ?_⟩
  have hmem := mem_of_getElem? (of_decide_eq_true hfst)
  obtain ⟨_, _, _, hpr, _⟩ := hoc _ hmem rfl 1 s'
    ⟨hs', _, of_decide_eq_true hsec, rfl, rfl⟩
  cases hpr

end SingleRun

end AiNet.Idempotency
