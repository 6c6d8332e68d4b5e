import AiNet.Core.Number
import AiNet.Streaming.FanOut

/-!
# The event stream of a task over HTTP

A request is a client of the hub whose `deliver` writes messages to the response, with the number of the
event as the id. It drops an event when the socket holds more than the high-water mark, and ends the
response after a terminal event. Requests, timers and the events of a socket come when no flush is
running; `deliver` runs in one piece.

A client of the endpoint has at most one request that it reads. A new one resumes after the last id that
has arrived, whatever was written to the old one.
-/

namespace AiNet.Streaming

open Core AiNet.Events Function

variable {τ : Type} [DecidableEq τ]

/-! ## Messages -/

/-- The type of a wire event: PascalCase becomes snake_case. -/
def snakeType (type : String) : String :=
  String.ofList (type.toList.zipIdx.flatMap fun (c, offset) =>
    if 'A' ≤ c ∧ c ≤ 'Z' then if offset = 0 then [c.toLower] else ['_', c.toLower] else [c])

def terminalEventTypes : List String := ["task_completed", "task_failed"]

def terminal (event : EventRow τ) : Bool := terminalEventTypes.contains (snakeType event.type)

def wireId (event : EventRow τ) : String := toString event.taskSeq

/-! ## Requests -/

/-- A header, which may be there many times. -/
inductive Header where
  | one (value : String)
  | many (values : List String)
  deriving DecidableEq

def Header.first : Header → Option String
  | .one value => some value
  | .many values => values.head?

/-- `parseResumeCursor`. A parameter of the URL that is not a string is none. -/
def parseResumeCursor (header : Option Header) (query : Option String) : Option Nat :=
  match (header.bind Header.first).or query with
  | none => none
  | some raw => if trim raw.toList = [] then none else wholeNumber raw

structure TaskEventsSseOptions where
  maxConnectionsPerClient : Nat
  highWaterMarkBytes : Nat
  staleTimeoutMs : Nat

/-- What a request is admitted by: the flag, the wallet of the task if it is there, the wallet in the
header, and the address. -/
structure SseRequest where
  streamingResponses : Bool
  owner : Option String
  walletPublicKey : Option String
  clientIp : String
  deriving DecidableEq

inductive SseError where
  | streamingDisabled
  | taskNotFound
  | accessDenied
  | tooManyStreams
  deriving DecidableEq

def SseError.statusCode : SseError → Nat
  | .streamingDisabled => 404
  | .taskNotFound => 404
  | .accessDenied => 403
  | .tooManyStreams => 429

/-- The checks of the handler, with the number of open streams of the address. -/
def SseRequest.admit (options : TaskEventsSseOptions) (request : SseRequest) (streams : Nat) :
    Except SseError Unit :=
  if !request.streamingResponses then throw .streamingDisabled
  else
    match request.owner with
    | none => throw .taskNotFound
    | some owner =>
      if request.walletPublicKey.getD "" = "" ∨ request.walletPublicKey ≠ some owner then
        throw .accessDenied
      else if options.maxConnectionsPerClient ≤ streams then throw .tooManyStreams
      else pure ()

/-! ## Connections -/

/-- The variables of a request, and the record of its messages: the events that were written, and those
that were dropped with the size of the buffer. -/
structure Connection (τ : Type) where
  taskId : τ
  /-- Its number among the clients of the task. -/
  id : Nat
  /-- The client of the endpoint. -/
  client : Nat
  clientIp : String
  start : Int
  closed : Bool
  finished : Bool
  /-- `res.end()` was called. -/
  ended : Bool
  /-- `stream_timeout` was written. -/
  timedOut : Bool
  lastProgressAt : Nat
  written : List (EventRow τ)
  dropped : List (EventRow τ × Nat)
  deriving DecidableEq

/-- `deliver`, up to the end of the response. -/
def Connection.deliver (options : TaskEventsSseOptions) (c : Connection τ) (event : EventRow τ)
    (writableLength : Nat) (flushed : Bool) (now : Nat) : Connection τ :=
  if c.closed || c.finished then c
  else if options.highWaterMarkBytes < writableLength then
    { c with dropped := c.dropped ++ [(event, writableLength)] }
  else
    { c with
      written := c.written ++ [event]
      lastProgressAt := if flushed then now else c.lastProgressAt
      finished := terminal event }

/-- A client: its URL, the request that it reads and how many messages of it have arrived, and the
events that have arrived over all requests. -/
structure Client (τ : Type) where
  taskId : τ
  query : Option String
  connection : Option Nat
  arrived : Nat
  received : List (EventRow τ)
  deriving DecidableEq

def Client.lastEventId (c : Client τ) : Option String := c.received.getLast?.map wireId

/-- What a request of the client resumes after. -/
def Client.cursor (c : Client τ) : Option Nat := parseResumeCursor (c.lastEventId.map Header.one) c.query

/-! ## The endpoint -/

structure SseServer (τ : Type) where
  hub : TaskStreamHub τ
  /-- `connectionsByClient`; an address that is missing has none. -/
  connectionsByClient : String → Nat
  connections : List (Connection τ)
  clients : List (Client τ)

/-- What happens. The answers of the socket are part of it: how much it holds and whether it takes the
write at once. -/
inductive SseEvent (τ : Type) where
  | join (taskId : τ) (query : Option String)
  | connect (client : Nat) (request : SseRequest) (now : Nat)
  | deliver (writableLength : Nat) (flushed : Bool) (now : Nat)
  | heartbeat (connection : Nat) (flushed : Bool) (now : Nat)
  | drained (connection : Nat) (now : Nat)
  | close (connection : Nat)
  | receive (client : Nat)
  | hub (event : HubEvent τ)

def SseEvent.returns : SseEvent τ → Bool
  | .deliver _ _ _ => true
  | .hub .run => true
  | _ => false

namespace SseServer

variable (hubOptions : TaskStreamHubOptions) (options : TaskEventsSseOptions) (s : SseServer τ)

/-- The request whose `deliver` the hub calls, and the event. -/
def called : Option (Nat × EventRow τ) :=
  match s.hub.stack with
  | [] => none
  | taskId :: _ =>
    match (s.hub.streams taskId).drain with
    | some ⟨_, _, _, .calling event _ id⟩ =>
      (s.connections.findIdx? fun c => decide (c.taskId = taskId ∧ c.id = id)).map fun i => (i, event)
    | _ => none

def setConnection (i : Nat) (f : Connection τ → Connection τ) : SseServer τ :=
  { s with connections := s.connections.modify i f }

def cleanup (i : Nat) : Option (SseServer τ) :=
  s.connections[i]?.bind fun c =>
    if c.closed then some s
    else
      (s.hub.step hubOptions (.unsubscribe c.taskId c.id)).map fun hub =>
        { s.setConnection i (fun c => { c with closed := true }) with
          hub := hub
          connectionsByClient :=
            update s.connectionsByClient c.clientIp (s.connectionsByClient c.clientIp - 1) }

/-- `cleanup` and the end of the response. -/
def finish (i : Nat) : Option (SseServer τ) :=
  (s.cleanup hubOptions i).map fun s => s.setConnection i fun c => { c with ended := true }

/-- An admitted request attaches to the hub and asks it for what is stored. -/
def attach (number : Nat) (client : Client τ) (clientIp : String) (now : Nat) : Option (SseServer τ) :=
  let cursor := client.cursor.map Int.ofNat
  (s.hub.step hubOptions (.subscribe client.taskId cursor)).bind fun hub =>
    (hub.step hubOptions (.flush client.taskId)).map fun hub =>
      { hub := hub
        connectionsByClient := update s.connectionsByClient clientIp (s.connectionsByClient clientIp + 1)
        connections := s.connections ++ [
          { taskId := client.taskId
            id := (s.hub.streams client.taskId).subscribers.length
            client := number
            clientIp := clientIp
            start := cursor.getD earliestCursor
            closed := false
            finished := false
            ended := false
            timedOut := false
            lastProgressAt := now
            written := []
            dropped := [] }]
        clients := s.clients.modify number fun c =>
          { c with connection := some s.connections.length, arrived := 0 } }

/-- What others do at the hub. They do not detach a request, and attach when the task is not drained. A
number is at most what a double counts to. -/
def allows : HubEvent τ → Bool
  | .subscribe taskId _ => (s.hub.streams taskId).drain.isNone
  | .unsubscribe taskId id => s.connections.all fun c => !decide (c.taskId = taskId ∧ c.id = id)
  | .append event => decide (event.taskSeq ≤ 2 ^ 53)
  | _ => true

def step : SseEvent τ → Option (SseServer τ)
  | .join taskId query => some { s with clients := s.clients ++ [⟨taskId, query, none, 0, []⟩] }
  | .connect client request now =>
    if s.hub.stack = [] then
      s.clients[client]?.bind fun c =>
        match request.admit options (s.connectionsByClient request.clientIp) with
        | .error _ => some s
        | .ok () => s.attach hubOptions client c request.clientIp now
    else none
  | .deliver writableLength flushed now =>
    s.called.bind fun (i, event) =>
      let s' := s.setConnection i fun c => c.deliver options event writableLength flushed now
      let wasFinished := s.connections[i]?.any Connection.finished
      let s' := if s'.connections[i]?.any Connection.finished && !wasFinished then
        s'.finish hubOptions i else some s'
      -- and the hub goes on
      s'.bind fun s' => (s'.hub.step hubOptions .run).map fun hub => { s' with hub := hub }
  | .heartbeat i flushed now =>
    if s.hub.stack = [] then
      s.connections[i]?.bind fun c =>
        if c.closed then some s
        else if c.lastProgressAt + options.staleTimeoutMs < now then
          (s.setConnection i fun c => { c with timedOut := true }).finish hubOptions i
        else if flushed then some (s.setConnection i fun c => { c with lastProgressAt := now })
        else some s
    else none
  | .drained i now =>
    if s.hub.stack = [] then some (s.setConnection i fun c => { c with lastProgressAt := now }) else none
  | .close i => if s.hub.stack = [] then s.cleanup hubOptions i else none
  | .receive client =>
    s.clients[client]?.bind fun c =>
      (c.connection.bind fun i => s.connections[i]?).bind fun connection =>
        connection.written[c.arrived]?.map fun event =>
          { s with clients := s.clients.modify client fun c =>
            { c with arrived := c.arrived + 1, received := c.received ++ [event] } }
  | .hub event =>
    if s.called.isNone && s.allows event then
      (s.hub.step hubOptions event).map fun hub => { s with hub := hub }
    else none

def system : System (SseServer τ) (SseEvent τ) where
  start s := (TaskStreamHub.system hubOptions).start s.hub ∧ s.connectionsByClient = (fun _ => 0) ∧
    s.connections = [] ∧ s.clients = [] ∧ ∀ r ∈ s.hub.store.events.rows, r.taskSeq ≤ 2 ^ 53
  step := step hubOptions options

end SseServer

end AiNet.Streaming
