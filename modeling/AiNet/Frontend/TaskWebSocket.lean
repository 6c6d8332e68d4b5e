import AiNet.Core.Transition
import AiNet.Core.Cut

/-!
# The stream client of the frontend

`useTaskWebSocket` hands the events of a task to its consumer. It keeps the number of the last event it has
received, asks the server with it for what comes after when it connects, and compares it with the number of
each event that arrives: where one is skipped it connects again. It also connects again some time after its
socket was closed, and when the consumer asks for it.

The server sends on a socket the stored events above the cursor of the request, in order; the connection
may lose any of them. What the hook shows (its status and its countdown) is left out.
-/

namespace AiNet.Frontend

open Core List Option System

section

variable {τ : Type}

/-! ## The hook -/

structure UseTaskWebSocketOptions where
  walletPublicKey : Option String
  signChallenge : Option (String → String)
  requireAuthentication : Bool
  maxReconnectAttempts : Nat

def WS_CLOSE_STALE : Nat := 4408

/-- An event, as it arrives: a number that is not whole is none. -/
structure DAGEvent (τ : Type) where
  seq : Option Int
  payload : τ
deriving DecidableEq

inductive Frame (τ : Type)
  | unreadable
  | authChallenge (nonce : Option String)
  | ping
  | event (data : DAGEvent τ)
deriving DecidableEq

/-- What the client sends. -/
inductive Reply
  | pong
  | auth (walletPublicKey nonce signature : String)
deriving DecidableEq

inductive ReadyState
  | connecting | opened | closed
deriving DecidableEq

/-- A socket: the cursor of its request, how far the server's answer has been read, and its state. -/
structure Socket where
  lastEventId : Option Int
  position : Int
  readyState : ReadyState
deriving DecidableEq

/-- The refs of the hook, what it has handed to its consumer, and the sockets it has disconnected from whose
`onclose` is still to come. -/
structure Hook (τ : Type) where
  lastSeqRef : Int
  resumeCursorRef : Int
  gapRetriedRef : Bool
  manualCloseRef : Bool
  stopReconnectingRef : Bool
  reconnectAttemptRef : Nat
  reconnectTimeout : Bool
  wsRef : Option Socket
  closing : Nat
  consumer : List (DAGEvent τ)
  sent : List Reply
deriving DecidableEq

def Hook.fresh : Hook τ := ⟨-1, -1, false, false, false, 0, false, none, 0, [], []⟩

def seqCursor (seq : Option Int) : Option Int := seq.filter fun n => decide (0 ≤ n)

def truthy (text : Option String) : Bool := text.any (· ≠ "")

def authenticationRequired (options : UseTaskWebSocketOptions) : Bool :=
  options.requireAuthentication && !truthy options.walletPublicKey

section Hook

variable (options : UseTaskWebSocketOptions) (hook : Hook τ)

/-- The server starts after the cursor, or with the first event. -/
def Hook.socket : Socket :=
  let lastEventId := if 0 ≤ hook.resumeCursorRef then some hook.resumeCursorRef else none
  ⟨lastEventId, lastEventId.getD (-1), .connecting⟩

def Hook.connectWebSocket : Hook τ :=
  if authenticationRequired options then { hook with reconnectTimeout := false }
  else { hook with manualCloseRef := false, wsRef := some hook.socket }

def Hook.disconnect : Hook τ :=
  match hook.wsRef with
  | some socket =>
    { hook with
      reconnectTimeout := false
      manualCloseRef := true
      wsRef := none
      closing := if socket.readyState = .closed then hook.closing else hook.closing + 1 }
  | none => { hook with reconnectTimeout := false }

def Hook.onopen (socket : Socket) : Hook τ :=
  { hook with
    wsRef := some { socket with readyState := .opened }
    reconnectAttemptRef := 0
    gapRetriedRef := false }

def Hook.onclose (code : Nat) : Hook τ :=
  if hook.manualCloseRef || hook.stopReconnectingRef then hook
  else
    let attempt := if code = WS_CLOSE_STALE then 0 else hook.reconnectAttemptRef
    if attempt < options.maxReconnectAttempts then
      { hook with reconnectAttemptRef := attempt + 1, reconnectTimeout := true }
    else { hook with reconnectAttemptRef := attempt }

/-- The signature of a challenge, when the client can sign. -/
def challengeReply : Option String → Option Reply
  | none => none
  | some nonce =>
    if nonce = "" then none
    else
      match options.walletPublicKey, options.signChallenge with
      | some publicKey, some signer =>
        if publicKey = "" then none else some (.auth publicKey nonce (signer nonce))
      | _, _ => none

/-- An event is skipped, and the client has not connected again for that on this socket. -/
def Hook.gap (seq : Int) : Bool :=
  decide (hook.lastSeqRef + 1 < seq ∧ 0 < hook.lastSeqRef + 1) && !hook.gapRetriedRef

def Hook.onevent (data : DAGEvent τ) : Hook τ :=
  match seqCursor data.seq with
  | some seq =>
    -- the cursor is moved in both cases, so the server is not asked for what was skipped
    if hook.gap seq then
      { hook with gapRetriedRef := true, lastSeqRef := seq, resumeCursorRef := seq, wsRef := none }.connectWebSocket
        options
    else { hook with lastSeqRef := seq, resumeCursorRef := seq, consumer := hook.consumer ++ [data] }
  | none => { hook with consumer := hook.consumer ++ [data] }

def Hook.onmessage : Frame τ → Hook τ
  | .unreadable => hook
  | .authChallenge nonce => { hook with sent := hook.sent ++ (challengeReply options nonce).toList }
  | .ping => { hook with sent := hook.sent ++ [.pong] }
  | .event data => hook.onevent options data

end Hook

/-! ## The page and the server -/

/-- An event of the task, under its number. -/
structure StoredEvent (τ : Type) where
  seq : Nat
  payload : τ
deriving DecidableEq

def number (e : StoredEvent τ) : Int := e.seq

/-- The hook, the page's session storage, if it can be used, and the stored events. `start` is the cursor the
hook was mounted with, `lastReceived` the number of the last event that has arrived since. -/
structure World (τ : Type) where
  hook : Hook τ
  storage : Bool
  saved : Option Nat
  stored : List (StoredEvent τ)
  start : Int
  lastReceived : Int
deriving DecidableEq

/-- `setItem`, or what is left of it. -/
def World.remember (w : World τ) (seq : Int) : World τ :=
  if w.storage then { w with saved := some seq.toNat } else w

def Hook.restore (hook : Hook τ) : Option Nat → Hook τ
  | some saved => { hook with lastSeqRef := saved, resumeCursorRef := saved }
  | none => hook

/-- The effect of the hook, after its clean-up. -/
def World.mount (options : UseTaskWebSocketOptions) (w : World τ) : World τ :=
  if authenticationRequired options then { w with hook := w.hook.disconnect }
  else
    { w with
      hook := (w.hook.disconnect.restore (if w.storage then w.saved else none)).connectWebSocket options }

/-- A page on which the hook has just been mounted. -/
def World.mounted (options : UseTaskWebSocketOptions) (storage : Bool) (saved : Option Nat)
    (stored : List (StoredEvent τ)) : World τ :=
  let w : World τ := World.mount options ⟨.fresh, storage, saved, stored, 0, 0⟩
  { w with start := w.hook.lastSeqRef, lastReceived := w.hook.lastSeqRef }

section Steps

variable [DecidableEq τ]

/-- A stored event that the answer of a socket still has to come to. -/
def World.sends (w : World τ) (socket : Socket) (data : DAGEvent τ) : Bool :=
  match seqCursor data.seq with
  | some seq => decide (⟨seq.toNat, data.payload⟩ ∈ w.stored ∧ socket.position < seq)
  | none => true

/-- The server's answer is read up to the event. -/
def World.read (w : World τ) (socket : Socket) (seq : Int) : World τ :=
  { w with hook := { w.hook with wsRef := some { socket with position := seq } }, lastReceived := seq }

/-- A frame arrives: the answer has been read up to it, and the hook handles it. -/
def World.receive (options : UseTaskWebSocketOptions) (w : World τ) (socket : Socket) : Frame τ → Option (World τ)
  | .event data =>
    if w.sends socket data then
      match seqCursor data.seq with
      | some seq =>
        let w := (w.read socket seq).remember seq
        some { w with hook := w.hook.onmessage options (.event data) }
      | none => some { w with hook := w.hook.onmessage options (.event data) }
    else none
  | frame => some { w with hook := w.hook.onmessage options frame }

inductive Event (τ : Type)
  | stores (e : StoredEvent τ)
  | opens
  | arrives (frame : Frame τ)
  | closes (code : Nat)
  | closesLate (code : Nat)
  | fires
  | reconnect
  | disconnect
  | stops (value : Bool)
  | mounts

def step (options : UseTaskWebSocketOptions) (w : World τ) : Event τ → Option (World τ)
  | .stores e =>
    if w.stored.all fun e' => decide (e'.seq < e.seq) then some { w with stored := w.stored ++ [e] } else none
  | .opens =>
    match w.hook.wsRef with
    | some socket =>
      if socket.readyState = .connecting then some { w with hook := w.hook.onopen socket } else none
    | none => none
  | .arrives frame =>
    match w.hook.wsRef with
    | some socket => if socket.readyState = .opened then w.receive options socket frame else none
    | none => none
  | .closes code =>
    match w.hook.wsRef with
    | some socket =>
      if socket.readyState = .closed then none
      else
        let hook := { w.hook with wsRef := some { socket with readyState := .closed } }
        some { w with hook := hook.onclose options code }
    | none => none
  | .closesLate code =>
    if 0 < w.hook.closing then
      some { w with hook := { w.hook with closing := w.hook.closing - 1 }.onclose options code }
    else none
  | .fires =>
    if w.hook.reconnectTimeout then
      some { w with hook := { w.hook with reconnectTimeout := false }.connectWebSocket options }
    else none
  | .reconnect => some { w with hook := { w.hook with reconnectAttemptRef := 0 }.connectWebSocket options }
  | .disconnect => some { w with hook := w.hook.disconnect }
  | .stops value =>
    some { w with hook := { w.hook with
      stopReconnectingRef := value, reconnectTimeout := w.hook.reconnectTimeout && !value } }
  | .mounts => some (w.mount options)

/-- The client and its server, from the time the hook is mounted. -/
def system (options : UseTaskWebSocketOptions) : System (World τ) (Event τ) where
  start w := ∃ storage saved stored, Rising number stored ∧ w = World.mounted options storage saved stored
  step := step options

end Steps

/-! ## What the refs hold -/

/-- The client asks for what comes after the last number it knows, and reads its socket up to there. -/
structure Hook.Tuned (hook : Hook τ) : Prop where
  resume : hook.resumeCursorRef = hook.lastSeqRef
  low : -1 ≤ hook.lastSeqRef
  position : ∀ socket, hook.wsRef = some socket → socket.position = hook.lastSeqRef
  fresh : ∀ socket, hook.wsRef = some socket → socket.readyState = .opened → hook.gapRetriedRef = false

section Tuned

variable {options : UseTaskWebSocketOptions} {hook : Hook τ}

theorem Hook.connectWebSocket_lastSeqRef : (hook.connectWebSocket options).lastSeqRef = hook.lastSeqRef := by
  unfold Hook.connectWebSocket
  split <;> rfl

theorem Hook.connectWebSocket_consumer : (hook.connectWebSocket options).consumer = hook.consumer := by
  unfold Hook.connectWebSocket
  split <;> rfl

theorem Hook.disconnect_lastSeqRef : hook.disconnect.lastSeqRef = hook.lastSeqRef := by
  unfold Hook.disconnect
  split <;> rfl

theorem Hook.disconnect_consumer : hook.disconnect.consumer = hook.consumer := by
  unfold Hook.disconnect
  split <;> rfl

theorem Hook.onclose_eq (options : UseTaskWebSocketOptions) (hook : Hook τ) (code : Nat) :
    ∃ attempt timeout, hook.onclose options code =
      { hook with reconnectAttemptRef := attempt, reconnectTimeout := timeout } := by
  unfold Hook.onclose
  dsimp only
  generalize (if code = WS_CLOSE_STALE then 0 else hook.reconnectAttemptRef) = attempt
  by_cases hsh : (hook.manualCloseRef || hook.stopReconnectingRef) = true
  · rw [if_pos hsh]
    exact ⟨_, _, rfl⟩
  · rw [if_neg hsh]
    by_cases hmo : attempt < options.maxReconnectAttempts
    · rw [if_pos hmo]
      exact ⟨_, _, rfl⟩
    · rw [if_neg hmo]
      exact ⟨_, _, rfl⟩

variable {code : Nat}

theorem Hook.onclose_lastSeqRef : (hook.onclose options code).lastSeqRef = hook.lastSeqRef := by
  obtain ⟨_, _, heq⟩ := Hook.onclose_eq options hook code
  rw [heq]

theorem Hook.onclose_consumer : (hook.onclose options code).consumer = hook.consumer := by
  obtain ⟨_, _, heq⟩ := Hook.onclose_eq options hook code
  rw [heq]

theorem Hook.tuned_of_none (hre : hook.resumeCursorRef = hook.lastSeqRef) (hlow : -1 ≤ hook.lastSeqRef)
    (hno : hook.wsRef = none) : hook.Tuned where
  resume := hre
  low := hlow
  position := by
    intro socket h
    rw [hno] at h
    cases h
  fresh := by
    intro socket h
    rw [hno] at h
    cases h

theorem Hook.tuned_fresh : (Hook.fresh : Hook τ).Tuned := Hook.tuned_of_none rfl (Int.le_refl _) rfl

theorem Hook.Tuned.connectWebSocket (h : hook.Tuned) : (hook.connectWebSocket options).Tuned := by
  unfold Hook.connectWebSocket
  split
  · exact ⟨h.resume, h.low, h.position, h.fresh⟩
  · refine ⟨h.resume, h.low, ?_, ?_⟩
    · intro socket hsck
      cases hsck
      have hlow := h.low
      have hre := h.resume
      unfold Hook.socket
      dsimp only
      split
      · exact hre
      · dsimp only [getD_none]
        omega
    · intro socket hsck hopd
      cases hsck
      cases hopd

theorem Hook.Tuned.disconnect (h : hook.Tuned) : hook.disconnect.Tuned := by
  unfold Hook.disconnect
  split
  · exact Hook.tuned_of_none h.resume h.low rfl
  · exact ⟨h.resume, h.low, h.position, h.fresh⟩

theorem Hook.Tuned.onopen {socket : Socket} (h : hook.Tuned) (hsck : hook.wsRef = some socket) :
    (hook.onopen socket).Tuned where
  resume := h.resume
  low := h.low
  position := by
    intro socket' hsck'
    cases hsck'
    exact h.position socket hsck
  fresh := fun _ _ _ => rfl

theorem Hook.Tuned.onclose (h : hook.Tuned) : (hook.onclose options code).Tuned := by
  obtain ⟨_, _, heq⟩ := Hook.onclose_eq options hook code
  rw [heq]
  exact ⟨h.resume, h.low, h.position, h.fresh⟩

theorem Hook.Tuned.closed {socket : Socket} (h : hook.Tuned) (hsck : hook.wsRef = some socket) :
    { hook with wsRef := some { socket with readyState := .closed } }.Tuned where
  resume := h.resume
  low := h.low
  position := by
    intro socket' hsck'
    cases hsck'
    exact h.position socket hsck
  fresh := by
    intro socket' hsck' hopd
    cases hsck'
    cases hopd

theorem Hook.Tuned.restore {saved : Option Nat} (h : hook.Tuned)
    (hsav : ∀ n, saved = some n → (n : Int) = hook.lastSeqRef) : hook.restore saved = hook := by
  cases saved with
  | none => rfl
  | some n =>
    have hn := hsav n rfl
    have hre := h.resume
    obtain ⟨last, cursor, _, _, _, _, _, _, _, _, _⟩ := hook
    dsimp only at hn hre
    subst hn
    subst hre
    rfl

end Tuned

end

/-!
## Events that come out of turn

What the consumer has is compared with what is stored. The cursor of the client is the number of the last
event that has arrived, also when the client connects again because of a gap. So it asks for what comes
after the gap, and neither the events in it nor the one behind it are handed on. `complete_iff` says which
runs lose nothing: those in which each event arrives in its turn.
-/

variable {τ : Type} {options : UseTaskWebSocketOptions} {w w' : World τ}

/-! ## Steps -/

def DAGEvent.stored (data : DAGEvent τ) : Option (StoredEvent τ) :=
  (seqCursor data.seq).map fun seq => ⟨seq.toNat, data.payload⟩

def World.delivered (w : World τ) : List (StoredEvent τ) := w.hook.consumer.filterMap DAGEvent.stored

theorem nonneg_of_seqCursor {seq : Option Int} {n : Int} (h : seqCursor seq = some n) : 0 ≤ n := by
  obtain ⟨-, hn⟩ := filter_eq_some_iff.mp h
  exact of_decide_eq_true hn

/-- The client knows the number of the last event that has arrived. -/
structure Kept (options : UseTaskWebSocketOptions) (w : World τ) : Prop where
  rising : Rising number w.stored
  tuned : w.hook.Tuned
  last : w.lastReceived = w.hook.lastSeqRef
  start_le : w.start ≤ w.hook.lastSeqRef
  place : w.hook.lastSeqRef = w.start ∨ ∃ e ∈ w.stored, number e = w.hook.lastSeqRef
  saved : authenticationRequired options = false → w.storage = true →
    ∀ n, w.saved = some n → (n : Int) = w.hook.lastSeqRef

/-- Nothing arrives and nothing is stored. -/
structure Idle (w w' : World τ) : Prop where
  stored : w'.stored = w.stored
  start : w'.start = w.start
  last : w'.lastReceived = w.lastReceived
  lastSeqRef : w'.hook.lastSeqRef = w.hook.lastSeqRef
  storage : w'.storage = w.storage
  saved : w'.saved = w.saved
  delivered : w'.delivered = w.delivered
  tuned : w'.hook.Tuned

theorem Kept.idle (h : Kept options w) (hil : Idle w w') : Kept options w' where
  rising := by rw [hil.stored]; exact h.rising
  tuned := hil.tuned
  last := by rw [hil.last, hil.lastSeqRef]; exact h.last
  start_le := by rw [hil.start, hil.lastSeqRef]; exact h.start_le
  place := by rw [hil.lastSeqRef, hil.start, hil.stored]; exact h.place
  saved := by rw [hil.storage, hil.saved, hil.lastSeqRef]; exact h.saved

theorem idle_hook {hook : Hook τ} (hla : hook.lastSeqRef = w.hook.lastSeqRef)
    (hco : hook.consumer = w.hook.consumer) (htun : hook.Tuned) : Idle w { w with hook := hook } where
  stored := rfl
  start := rfl
  last := rfl
  lastSeqRef := hla
  storage := rfl
  saved := rfl
  delivered := congrArg (List.filterMap DAGEvent.stored) hco
  tuned := htun

theorem Kept.mount (h : Kept options w) : Idle w (w.mount options) := by
  unfold World.mount
  have hdi := h.tuned.disconnect
  split
  · exact idle_hook Hook.disconnect_lastSeqRef Hook.disconnect_consumer hdi
  · rename_i hau
    have hrst : w.hook.disconnect.restore (if w.storage then w.saved else none) = w.hook.disconnect := by
      refine hdi.restore fun n hn => ?_
      obtain ⟨hst, hsav⟩ := ite_none_right_eq_some.mp hn
      rw [Hook.disconnect_lastSeqRef]
      exact h.saved (Bool.eq_false_iff.mpr hau) hst n hsav
    rw [hrst]
    refine idle_hook ?_ ?_ hdi.connectWebSocket
    · rw [Hook.connectWebSocket_lastSeqRef, Hook.disconnect_lastSeqRef]
    · rw [Hook.connectWebSocket_consumer, Hook.disconnect_consumer]

/-- The world after a numbered event. -/
def World.arrived (options : UseTaskWebSocketOptions) (w : World τ) (socket : Socket) (data : DAGEvent τ)
    (seq : Int) : World τ :=
  let w := (w.read socket seq).remember seq
  { w with hook := w.hook.onevent options data }

/-- A numbered event arrives on a socket: it is stored, and the answer comes to it. -/
structure Arrives (w : World τ) (socket : Socket) (data : DAGEvent τ) (seq : Int) : Prop where
  numbered : seqCursor data.seq = some seq
  current : w.hook.wsRef = some socket
  opened : socket.readyState = .opened
  stored : ⟨seq.toNat, data.payload⟩ ∈ w.stored
  next : socket.position < seq

/-- A step that is neither the arrival of a numbered event nor the storing of one. -/
def Event.aside : Event τ → Prop
  | .stores _ => False
  | .arrives (.event data) => seqCursor data.seq = none
  | _ => True

section Steps

variable [DecidableEq τ]

theorem Kept.receive {socket : Socket} {frame : Frame τ} (h : Kept options w) (hsck : w.hook.wsRef = some socket)
    (hopd : socket.readyState = .opened) (hs : w.receive options socket frame = some w') :
    (∃ data seq, frame = .event data ∧ Arrives w socket data seq ∧ w' = w.arrived options socket data seq) ∨
      (Event.arrives frame).aside ∧ Idle w w' := by
  have hse : ∀ sent, Idle w { w with hook := { w.hook with sent := sent } } := fun sent =>
    idle_hook rfl rfl ⟨h.tuned.resume, h.tuned.low, h.tuned.position, h.tuned.fresh⟩
  cases frame with
  | unreadable =>
    cases hs
    exact .inr ⟨trivial, idle_hook rfl rfl h.tuned⟩
  | authChallenge | ping =>
    cases hs
    exact .inr ⟨trivial, hse _⟩
  | event data =>
    obtain ⟨hsns, hs⟩ := ite_none_right_eq_some.mp hs
    unfold World.sends at hsns
    cases hseq : seqCursor data.seq with
    | some seq =>
      rw [hseq] at hs hsns
      obtain ⟨hsto, hnx⟩ := of_decide_eq_true hsns
      exact .inl ⟨data, seq, rfl, ⟨hseq, hsck, hopd, hsto, hnx⟩, (Option.some.inj hs).symm⟩
    | none =>
      rw [hseq] at hs
      cases hs
      -- without a number, the event is handed on and that is all
      have hev : w.hook.onmessage options (.event data) =
          { w.hook with consumer := w.hook.consumer ++ [data] } := by
        rw [Hook.onmessage, Hook.onevent, hseq]
      have hno : data.stored = none := by
        unfold DAGEvent.stored
        rw [hseq]
        rfl
      refine .inr ⟨hseq, ?_⟩
      rw [hev]
      refine ⟨rfl, rfl, rfl, rfl, rfl, rfl, ?_, ?_⟩
      · unfold World.delivered
        rw [filterMap_append, filterMap_cons_none hno, filterMap_nil, append_nil]
      · exact ⟨h.tuned.resume, h.tuned.low, h.tuned.position, h.tuned.fresh⟩

/-- **What a step can do:** an event is stored, a numbered event arrives, or neither. -/
theorem Kept.step_cases {e : Event τ} (h : Kept options w) (hs : step options w e = some w') :
    (∃ x, e = .stores x ∧ (∀ y ∈ w.stored, y.seq < x.seq) ∧ w' = { w with stored := w.stored ++ [x] }) ∨
      (∃ socket data seq, e = .arrives (.event data) ∧ Arrives w socket data seq ∧
        w' = w.arrived options socket data seq) ∨
      e.aside ∧ Idle w w' := by
  cases e with
  | stores x =>
    obtain ⟨hall, hs⟩ := ite_none_right_eq_some.mp hs
    refine .inl ⟨x, rfl, ?_, (Option.some.inj hs).symm⟩
    intro y hy
    exact of_decide_eq_true (List.all_eq_true.mp hall y hy)
  | arrives =>
    rw [step] at hs
    cases hsck : w.hook.wsRef with
    | none =>
      rw [hsck] at hs
      cases hs
    | some socket =>
      rw [hsck] at hs
      obtain ⟨hopd, hs⟩ := ite_none_right_eq_some.mp hs
      rcases h.receive hsck hopd hs with ⟨data, seq, rfl, harr, hw'⟩ | hasi
      · exact .inr (.inl ⟨socket, data, seq, rfl, harr, hw'⟩)
      · exact .inr (.inr hasi)
  | opens =>
    rw [step] at hs
    cases hsck : w.hook.wsRef with
    | none =>
      rw [hsck] at hs
      cases hs
    | some =>
      rw [hsck] at hs
      obtain ⟨-, hs⟩ := ite_none_right_eq_some.mp hs
      cases hs
      exact .inr (.inr ⟨trivial, idle_hook rfl rfl (h.tuned.onopen hsck)⟩)
  | closes =>
    rw [step] at hs
    cases hsck : w.hook.wsRef with
    | none =>
      rw [hsck] at hs
      cases hs
    | some =>
      rw [hsck] at hs
      obtain ⟨-, hs⟩ := ite_none_left_eq_some.mp hs
      cases hs
      exact .inr (.inr ⟨trivial, idle_hook Hook.onclose_lastSeqRef Hook.onclose_consumer
        (h.tuned.closed hsck).onclose⟩)
  | closesLate =>
    obtain ⟨-, hs⟩ := ite_none_right_eq_some.mp hs
    cases hs
    have htun : { w.hook with closing := w.hook.closing - 1 }.Tuned :=
      ⟨h.tuned.resume, h.tuned.low, h.tuned.position, h.tuned.fresh⟩
    exact .inr (.inr ⟨trivial, idle_hook Hook.onclose_lastSeqRef Hook.onclose_consumer htun.onclose⟩)
  | fires =>
    obtain ⟨-, hs⟩ := ite_none_right_eq_some.mp hs
    cases hs
    have htun : { w.hook with reconnectTimeout := false }.Tuned :=
      ⟨h.tuned.resume, h.tuned.low, h.tuned.position, h.tuned.fresh⟩
    exact .inr (.inr ⟨trivial, idle_hook Hook.connectWebSocket_lastSeqRef Hook.connectWebSocket_consumer
      htun.connectWebSocket⟩)
  | reconnect =>
    cases hs
    have htun : { w.hook with reconnectAttemptRef := 0 }.Tuned :=
      ⟨h.tuned.resume, h.tuned.low, h.tuned.position, h.tuned.fresh⟩
    exact .inr (.inr ⟨trivial, idle_hook Hook.connectWebSocket_lastSeqRef Hook.connectWebSocket_consumer
      htun.connectWebSocket⟩)
  | disconnect =>
    cases hs
    exact .inr (.inr ⟨trivial, idle_hook Hook.disconnect_lastSeqRef Hook.disconnect_consumer h.tuned.disconnect⟩)
  | stops =>
    cases hs
    exact .inr (.inr ⟨trivial, idle_hook rfl rfl
      ⟨h.tuned.resume, h.tuned.low, h.tuned.position, h.tuned.fresh⟩⟩)
  | mounts =>
    cases hs
    exact .inr (.inr ⟨trivial, h.mount⟩)

end Steps

/-! ## What an arrival does -/

theorem remember_eq (w : World τ) (seq : Int) :
    w.remember seq = { w with saved := if w.storage then some seq.toNat else w.saved } := by
  unfold World.remember
  split <;> rfl

/-- The event is skipped over: the client moves its cursor to it and connects again. -/
def World.skips (w : World τ) (seq : Int) : Prop := w.hook.lastSeqRef + 1 < seq ∧ 0 < w.hook.lastSeqRef + 1

section Arrival

variable {socket : Socket} {data : DAGEvent τ} {seq : Int}

theorem Kept.lt_of_arrives (h : Kept options w) (harr : Arrives w socket data seq) : w.hook.lastSeqRef < seq := by
  have hpo := h.tuned.position socket harr.current
  have hnx := harr.next
  omega

theorem Kept.gap_iff (h : Kept options w) (harr : Arrives w socket data seq) :
    ((w.read socket seq).remember seq).hook.gap seq = true ↔ w.skips seq := by
  have hfr := h.tuned.fresh socket harr.current harr.opened
  rw [remember_eq]
  unfold Hook.gap World.read World.skips
  dsimp only
  rw [hfr, Bool.not_false, Bool.and_true, decide_eq_true_eq]

theorem Kept.arrived (h : Kept options w) (harr : Arrives w socket data seq) :
    (w.arrived options socket data seq).hook.lastSeqRef = seq ∧
      (w.arrived options socket data seq).hook.Tuned ∧
      (w.arrived options socket data seq).delivered = w.delivered ++
        if (w.read socket seq).remember seq |>.hook.gap seq then [] else [⟨seq.toNat, data.payload⟩] := by
  have hlt := h.lt_of_arrives harr
  have hlow := h.tuned.low
  have hsto : data.stored = some ⟨seq.toNat, data.payload⟩ := by
    unfold DAGEvent.stored
    rw [harr.numbered]
    rfl
  have hco : ((w.read socket seq).remember seq).hook.consumer = w.hook.consumer := by
    rw [remember_eq]
    rfl
  have hsck : ((w.read socket seq).remember seq).hook.wsRef = some { socket with position := seq } := by
    rw [remember_eq]
    rfl
  have hfr : ((w.read socket seq).remember seq).hook.gapRetriedRef = false := by
    rw [remember_eq]
    exact h.tuned.fresh socket harr.current harr.opened
  unfold World.arrived World.delivered
  dsimp only
  rw [← hco]
  generalize ((w.read socket seq).remember seq).hook = hook at hsck hfr ⊢
  rw [Hook.onevent, harr.numbered]
  dsimp only
  by_cases hgap : hook.gap seq = true
  · rw [if_pos hgap, if_pos hgap, Hook.connectWebSocket_lastSeqRef, Hook.connectWebSocket_consumer, append_nil]
    refine ⟨rfl, ?_, rfl⟩
    have hno : { hook with gapRetriedRef := true, lastSeqRef := seq, resumeCursorRef := seq, wsRef := none }.Tuned :=
      Hook.tuned_of_none rfl (by dsimp only; omega) rfl
    exact hno.connectWebSocket
  · rw [if_neg hgap, if_neg hgap, filterMap_append, filterMap_cons_some hsto, filterMap_nil]
    refine ⟨rfl, ⟨rfl, by dsimp only; omega, ?_, ?_⟩, rfl⟩
    · intro socket' hsck'
      dsimp only at hsck'
      rw [hsck] at hsck'
      cases hsck'
      rfl
    · intro _ _ _
      exact hfr

end Arrival

theorem Kept.stores {e : StoredEvent τ} (h : Kept options w) (hnew : ∀ x ∈ w.stored, x.seq < e.seq) :
    Kept options { w with stored := w.stored ++ [e] } where
  rising := by
    refine pairwise_append.mpr ⟨h.rising, pairwise_singleton _ _, ?_⟩
    intro x hx y hy
    rw [mem_singleton.mp hy]
    exact Int.ofNat_lt.mpr (hnew x hx)
  tuned := h.tuned
  last := h.last
  start_le := h.start_le
  place := by
    rcases h.place with hsta | ⟨x, hx, heq⟩
    · exact .inl hsta
    · exact .inr ⟨x, mem_append_left _ hx, heq⟩
  saved := h.saved

theorem Kept.arrives {socket : Socket} {data : DAGEvent τ} {seq : Int} (h : Kept options w)
    (harr : Arrives w socket data seq) : Kept options (w.arrived options socket data seq) := by
  obtain ⟨hla, htun, -⟩ := h.arrived harr
  have hnn := nonneg_of_seqCursor harr.numbered
  have hlt := h.lt_of_arrives harr
  have hfi : (w.arrived options socket data seq).stored = w.stored ∧
      (w.arrived options socket data seq).start = w.start ∧
      (w.arrived options socket data seq).lastReceived = seq ∧
      (w.arrived options socket data seq).storage = w.storage ∧
      (w.arrived options socket data seq).saved = if w.storage then some seq.toNat else w.saved := by
    unfold World.arrived
    rw [remember_eq]
    exact ⟨rfl, rfl, rfl, rfl, rfl⟩
  obtain ⟨hsto, hsta, hrcv, hst, hsav⟩ := hfi
  refine ⟨?_, htun, ?_, ?_, ?_, ?_⟩
  · rw [hsto]
    exact h.rising
  · rw [hrcv, hla]
  · have hle := h.start_le
    rw [hsta, hla]
    omega
  · refine .inr ⟨_, hsto ▸ harr.stored, ?_⟩
    rw [hla]
    unfold number
    dsimp only
    omega
  · intro _ hwks n hn
    rw [hst] at hwks
    rw [hsav, if_pos hwks] at hn
    cases hn
    rw [hla]
    omega

section Runs

variable [DecidableEq τ]

theorem Kept.step {e : Event τ} (h : Kept options w) (hs : step options w e = some w') : Kept options w' := by
  rcases h.step_cases hs with ⟨x, rfl, hnew, rfl⟩ | ⟨socket, data, seq, rfl, harr, rfl⟩ | ⟨-, hil⟩
  · exact h.stores hnew
  · exact h.arrives harr
  · exact h.idle hil

theorem kept_start (h : (system options).start w) : Kept options w := by
  obtain ⟨storage, saved, stored, hri, rfl⟩ := h
  have hfr : (Hook.fresh : Hook τ).disconnect.Tuned := Hook.tuned_fresh.disconnect
  unfold World.mounted World.mount
  dsimp only
  by_cases hau : authenticationRequired options = true
  · rw [if_pos hau]
    refine ⟨hri, hfr, rfl, Int.le_refl _, .inl rfl, fun hnot => ?_⟩
    rw [hau] at hnot
    cases hnot
  · rw [if_neg hau]
    have hrst : ((Hook.fresh : Hook τ).disconnect.restore (if storage then saved else none)).Tuned := by
      cases (if storage then saved else none) with
      | none => exact hfr
      | some => exact Hook.tuned_of_none rfl (by dsimp only [Hook.restore]; omega) rfl
    refine ⟨hri, hrst.connectWebSocket, rfl, Int.le_refl _, .inl rfl, ?_⟩
    intro _ hwks n hn
    dsimp only at hwks hn ⊢
    rw [Hook.connectWebSocket_lastSeqRef, if_pos hwks, hn]
    rfl

theorem kept_of_reachable {guard : World τ → Event τ → Prop}
    (h : (system options).Reachable guard w) : Kept options w := by
  have hsta : ∀ w : World τ, (system options).start w → Kept options w := fun _ => kept_start
  refine h.invariant hsta ?_
  intro s e s' _ _ hkpt hs
  exact hkpt.step hs

end Runs

/-! ## What the consumer has -/

/-- The consumer has each stored event above the starting point once and in order, up to the last one that has
arrived. -/
def Complete (w : World τ) : Prop := w.delivered = window number w.stored w.start w.lastReceived

/-- An event arrives in its turn: its number is the next one, or it is the first event that is stored and the
first one that arrives. -/
def InTurn (w : World τ) : Event τ → Prop
  | .arrives (.event data) => ∀ seq ∈ seqCursor data.seq,
      seq = w.hook.lastSeqRef + 1 ∨ w.hook.lastSeqRef = -1 ∧ ∀ e ∈ w.stored, seq ≤ number e
  | _ => True

instance (w : World τ) (e : Event τ) : Decidable (InTurn w e) :=
  match e with
  | .arrives (.event data) =>
    inferInstanceAs (Decidable (∀ seq ∈ seqCursor data.seq,
      seq = w.hook.lastSeqRef + 1 ∨ w.hook.lastSeqRef = -1 ∧ ∀ e ∈ w.stored, seq ≤ number e))
  | .arrives .unreadable | .arrives (.authChallenge _) | .arrives .ping | .stores _ | .opens | .closes _
  | .closesLate _ | .fires | .reconnect | .disconnect | .stops _ | .mounts => .isTrue trivial

theorem inTurn_aside {e : Event τ} (h : e.aside) : InTurn w e := by
  cases e with
  | arrives frame =>
    cases frame with
    | event data =>
      intro seq hseq
      have hno : seqCursor data.seq = none := h
      rw [hno] at hseq
      cases hseq
    | _ => trivial
  | _ => trivial

theorem Complete.stores {x : StoredEvent τ} (h : Complete w) (hkpt : Kept options w)
    (hnew : ∀ y ∈ w.stored, y.seq < x.seq) : Complete { w with stored := w.stored ++ [x] } := by
  unfold Complete at h ⊢
  refine Eq.trans h (window_append_above ?_).symm
  intro y hy hsta
  rw [mem_singleton.mp hy] at hsta ⊢
  rw [hkpt.last]
  -- the last number is the starting point or that of an event below the new one
  rcases hkpt.place with heq | ⟨z, hz, heq⟩
  · rwa [heq]
  · have hlt := hnew z hz
    unfold number at heq ⊢
    omega

/-- **An arrival keeps the consumer complete just when it is in turn.** -/
theorem Complete.arrives_iff {socket : Socket} {data : DAGEvent τ} {seq : Int} (h : Complete w)
    (hkpt : Kept options w) (harr : Arrives w socket data seq) :
    Complete (w.arrived options socket data seq) ↔ InTurn w (.arrives (.event data)) := by
  have hlt := hkpt.lt_of_arrives harr
  have hnn := nonneg_of_seqCursor harr.numbered
  have hnum : number (⟨seq.toNat, data.payload⟩ : StoredEvent τ) = seq := Int.toNat_of_nonneg hnn
  have hlow := hkpt.tuned.low
  have hspl : window number w.stored w.start seq =
      w.delivered ++ window number w.stored w.hook.lastSeqRef seq := by
    unfold Complete at h
    rw [h, hkpt.last]
    exact hkpt.rising.window_split hkpt.start_le (by omega)
  have hwin : Complete (w.arrived options socket data seq) ↔
      (w.arrived options socket data seq).delivered = window number w.stored w.start seq := by
    unfold Complete World.arrived
    rw [remember_eq]
    rfl
  have htn : InTurn w (.arrives (.event data)) ↔
      seq = w.hook.lastSeqRef + 1 ∨ w.hook.lastSeqRef = -1 ∧ ∀ e ∈ w.stored, seq ≤ number e := by
    refine ⟨fun hin => hin seq harr.numbered, fun hin seq' hseq' => ?_⟩
    rw [harr.numbered] at hseq'
    rwa [← Option.some.inj hseq']
  have habo : w.hook.lastSeqRef < number (⟨seq.toNat, data.payload⟩ : StoredEvent τ) := by rwa [hnum]
  have hsi := hkpt.rising.window_eq_singleton_iff harr.stored habo
  rw [hnum] at hsi
  obtain ⟨-, -, hdlv⟩ := hkpt.arrived harr
  have hgap := hkpt.gap_iff harr
  rw [hwin, hdlv, hspl, append_cancel_left_eq, htn]
  by_cases hski : w.skips seq
  · -- the event is missing, although it has arrived
    rw [if_pos (hgap.mpr hski)]
    have hmem : (⟨seq.toNat, data.payload⟩ : StoredEvent τ) ∈ window number w.stored w.hook.lastSeqRef seq :=
      mem_window.mpr ⟨harr.stored, by rw [hnum]; exact hlt, by rw [hnum]⟩
    refine iff_of_false (fun heq => ?_) fun hin => ?_
    · rw [← heq] at hmem
      cases hmem
    · unfold World.skips at hski
      omega
  · rw [if_neg fun hg => hski (hgap.mp hg), eq_comm, hsi]
    unfold World.skips at hski
    constructor
    · intro hnx
      by_cases hfst : w.hook.lastSeqRef = -1
      · refine .inr ⟨hfst, fun e he => hnx e he ?_⟩
        unfold number
        omega
      · omega
    · intro hin e he habo
      rcases hin with hsu | ⟨-, hfst⟩
      · omega
      · exact hfst e he

section Runs

variable [DecidableEq τ]

theorem complete_start (h : (system options).start w) : Complete w := by
  obtain ⟨storage, saved, stored, -, rfl⟩ := h
  have hco : (World.mounted options storage saved stored : World τ).hook.consumer = [] := by
    unfold World.mounted World.mount
    dsimp only
    split
    · rfl
    · dsimp only
      rw [Hook.connectWebSocket_consumer]
      cases (if storage then saved else none) <;> rfl
  unfold Complete World.delivered
  rw [hco]
  exact window_self.symm

theorem complete_step_iff {e : Event τ} (h : Complete w) (hkpt : Kept options w)
    (hs : step options w e = some w') : Complete w' ↔ InTurn w e := by
  rcases hkpt.step_cases hs with ⟨x, rfl, hnew, rfl⟩ | ⟨socket, data, seq, rfl, harr, rfl⟩ | ⟨hasi, hil⟩
  · exact iff_of_true (h.stores hkpt hnew) trivial
  · exact h.arrives_iff hkpt harr
  · refine iff_of_true ?_ (inTurn_aside hasi)
    unfold Complete at h ⊢
    rw [hil.delivered, hil.stored, hil.start, hil.last]
    exact h

/--
**The client loses nothing just when every event arrives in its turn.** Whatever the connection does besides,
the consumer has every event up to the last one that has arrived, once and in order.
-/
theorem complete_iff {log : List (World τ × Event τ)}
    (h : (system options).Logged (fun _ _ => True) w log) :
    (∀ p ∈ log.map Prod.fst ++ [w], Complete p) ↔ ∀ entry ∈ log, InTurn entry.1 entry.2 := by
  refine h.forall_passed_iff (fun _ hsta => complete_start hsta) ?_
  intro s e s' hrea _ hs hco
  exact complete_step_iff hco (kept_of_reachable hrea) hs

end Runs

/-! ## Runs of it -/

section Sample

def anonymous : UseTaskWebSocketOptions := ⟨none, none, false, 8⟩

def threeEvents : List (StoredEvent Nat) := [⟨1, 10⟩, ⟨2, 20⟩, ⟨3, 30⟩]

def page : World Nat := World.mounted anonymous true none threeEvents

theorem start_page : (system anonymous).start page := by
  have hri : Rising number threeEvents := by
    unfold Rising threeEvents number
    simp
  exact ⟨true, none, threeEvents, hri, rfl⟩

def arrival (seq : Int) (payload : Nat) : Event Nat := .arrives (.event ⟨some seq, payload⟩)

/-- The socket is closed after the first event, and the client asks for the rest. -/
def interrupted : List (Event Nat) :=
  [.opens, arrival 1 10, .closes 1006, .fires, .opens, arrival 2 20, arrival 3 30]

/-- Nothing is lost when the socket closes between two events. -/
theorem complete_interrupted : ∃ (w : World Nat) (log : List (World Nat × Event Nat)),
    w.delivered = threeEvents ∧ ∀ p ∈ log.map Prod.fst ++ [w], Complete p := by
  have hpl : ((system anonymous).play InTurn interrupted page).any (fun w =>
      decide (w.delivered = threeEvents)) = true := by
    decide
  obtain ⟨w, hlgd, hdlv⟩ := exists_logged start_page hpl
  have htur : ∀ entry ∈ (system anonymous).record interrupted page, InTurn entry.1 entry.2 := by
    intro entry hent
    obtain ⟨before, after, hlog⟩ := append_of_mem hent
    exact (hlgd.split hlog).2.1
  have hfr : (system anonymous).Logged (fun _ _ => True) w _ := hlgd.under fun _ _ => trivial
  exact ⟨w, _, hdlv, (complete_iff hfr).mpr htur⟩

/--
**A gap is not filled.** The second event is lost on the way. The client notices when the third one arrives,
connects again, and asks for what comes after the third.
-/
theorem gap_not_filled : ∃ (w : World Nat) (log : List (World Nat × Event Nat)),
    (system anonymous).Logged (fun _ _ => True) w log ∧
      (w.hook.wsRef.bind (·.lastEventId)) = some 3 ∧ w.lastReceived = 3 ∧ w.delivered = [⟨1, 10⟩] ∧ ¬Complete w := by
  have hpl : ((system anonymous).play (fun _ _ => True) [.opens, arrival 1 10, arrival 3 30, .opens] page).any
      (fun w => decide ((w.hook.wsRef.bind (·.lastEventId)) = some 3 ∧ w.lastReceived = 3 ∧
        w.delivered = [⟨1, 10⟩] ∧ window number w.stored w.start w.lastReceived = threeEvents)) = true := by
    decide
  obtain ⟨w, hw, hcur, hla, hdlv, hwin⟩ := exists_logged start_page hpl
  refine ⟨w, _, hw, hcur, hla, hdlv, fun hco => ?_⟩
  unfold Complete at hco
  rw [hdlv, hwin] at hco
  cases hco

end Sample

end AiNet.Frontend
