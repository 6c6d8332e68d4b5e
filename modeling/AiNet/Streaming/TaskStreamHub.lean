import AiNet.Core.Transition
import AiNet.Events.EventArchive

/-!
# The fan-out of task streams

The hub reads the stored events of a task in pages and hands them to the clients of the task. It runs on
one thread, but `deliver` calls back: while a client is being called, it may emit and detach clients, and
this may flush other tasks in turn. So a flush is a `Drain` that stands at some `Point`, and the drains
in progress are those of the tasks on the call stack.

What the hub and the bus keep of a task is its `TaskStream`. Clients are numbered in the order in which
they attach to the task; a Map iterates in this order, skips who has left and visits who came in meanwhile.
A Map whose last client leaves is dropped, and the next client makes a new one (`generation`).
-/

namespace AiNet.Streaming

open Core AiNet.Events

variable {τ : Type} [DecidableEq τ]

/-- A client, with the record of its start and of what `deliver` was called with. -/
structure Subscriber (τ : Type) where
  generation : Nat
  cursor : Int
  attached : Bool
  start : Int
  received : List (EventRow τ)
  deriving DecidableEq

/-- The client is in this Map. -/
def Subscriber.within (sub : Subscriber τ) (generation : Nat) : Bool :=
  sub.attached && decide (sub.generation = generation)

/-- Where a drain stands. `visit` has the rest of the page and the client to look at next. -/
inductive Point (τ : Type) where
  | read
  | visit (page : List (EventRow τ)) (next : Nat)
  | calling (event : EventRow τ) (page : List (EventRow τ)) (id : Nat)
  | drained
  deriving DecidableEq

/-- A running `flush`: the Map it iterates over, the rows of its page, and the rows it has read. -/
structure Drain (τ : Type) where
  generation : Nat
  pageRows : Nat
  rowsRead : Nat
  point : Point τ
  deriving DecidableEq

/-- `unannounced` records that an event or a client came after the last flush. -/
structure TaskStream (τ : Type) where
  /-- Has `subscribersByTask` the task? -/
  present : Bool
  generation : Nat
  subscribers : List (Subscriber τ)
  /-- Has `detachByTask` the task? -/
  bound : Bool
  /-- The hub's listeners on the task's channel of the bus. -/
  listeners : Nat
  /-- The drain, if the task is in `draining`. -/
  drain : Option (Drain τ)
  reentrant : Bool
  unannounced : Bool
  deriving DecidableEq

/-- Cursor meaning "nothing delivered yet". -/
def earliestCursor : Int := -1

namespace TaskStream

variable (s : TaskStream τ)

def fresh : TaskStream τ := ⟨false, 0, [], false, 0, none, false, false⟩

/-- The Map is there and has a client. -/
def occupied : Bool := s.present && s.subscribers.any fun sub => sub.within s.generation

def subscribe (lastEventId : Option Int) : TaskStream τ :=
  { s with
    present := true
    subscribers := s.subscribers ++ [⟨s.generation, lastEventId.getD earliestCursor, true,
      lastEventId.getD earliestCursor, []⟩]
    bound := true
    listeners := if s.bound then s.listeners else s.listeners + 1
    unannounced := true }

def leave (id : Nat) : List (Subscriber τ) :=
  s.subscribers.modify id fun sub => { sub with attached := false }

/-- The function that `subscribe` returned to client `id`. -/
def unsubscribe (id : Nat) : TaskStream τ :=
  match s.subscribers[id]? with
  | none => s
  | some sub =>
    if !sub.attached then s
    else
      let s' := { s with subscribers := s.leave id }
      if !s.present then s'
      else if s'.subscribers.any fun sub => sub.within s.generation then s'
      else
        { s' with
          present := false
          generation := s.generation + 1
          bound := false
          listeners := if s.bound then s.listeners - 1 else s.listeners
          reentrant := false }

/-- The call of `flush`, up to its loop. -/
def flush : TaskStream τ :=
  if !s.occupied then s
  else if s.drain.isSome then { s with reentrant := true, unannounced := false }
  else { s with drain := some ⟨s.generation, 0, 0, .read⟩, unannounced := false }

/-- The bus calls the hub's listener. -/
def notify : TaskStream τ := if s.listeners = 0 then s else s.flush

/-- The next client of a Map, from a number on. -/
def nextSubscriber (generation next : Nat) : Option Nat :=
  (List.range s.subscribers.length).find? fun id =>
    decide (next ≤ id) && s.subscribers[id]?.any fun sub => sub.within generation

/-- The client has not had the event. -/
def behind (id : Nat) (event : EventRow τ) : Bool :=
  s.subscribers[id]?.any fun sub => decide (sub.cursor < (event.taskSeq : Int))

def slowest (generation : Nat) : Option Int :=
  ((s.subscribers.filter fun sub => sub.within generation).map Subscriber.cursor).min?

/-- The loop of `flush` and `drainOnce` go on: they read a page, look at the next client, or end. -/
def goOn (listSince : Int → List (EventRow τ)) (pageSize : Nat) (d : Drain τ) : TaskStream τ :=
  let move (d' : Drain τ) : TaskStream τ := { s with drain := some d' }
  match d.point with
  | .read =>
    match s.slowest d.generation with
    | none => move { d with pageRows := 0, point := .drained }
    | some cursor =>
      let page := listSince cursor
      if page.length = 0 then move { d with pageRows := 0, point := .drained }
      else move { d with pageRows := page.length, point := .visit page 0 }
  | .visit [] _ => move { d with point := .drained }
  | .visit (event :: page) next =>
    match s.nextSubscriber d.generation next with
    | none => move { d with point := .visit page 0 }
    | some id =>
      if s.behind id event then
        { s with
          subscribers := s.subscribers.modify id fun sub =>
            { sub with received := sub.received ++ [event] }
          drain := some { d with point := .calling event page id } }
      else move { d with point := .visit (event :: page) (id + 1) }
  | .calling event page id =>
    -- `deliver` returns
    { s with
      subscribers := s.subscribers.modify id fun sub => { sub with cursor := event.taskSeq }
      drain := some { d with point := .visit (event :: page) (id + 1) } }
  | .drained =>
    let d' := { d with rowsRead := d.rowsRead + d.pageRows }
    if s.reentrant then { move { d' with point := .read } with reentrant := false }
    else if d.pageRows < pageSize then { s with drain := none }
    else move { d' with point := .read }

end TaskStream

/-- What the constructor accepts. -/
structure TaskStreamHubOptions where
  pageSize : Nat
  positive : 0 < pageSize

structure TaskStreamHub (τ : Type) where
  store : EventStore τ
  streams : τ → TaskStream τ
  /-- The tasks whose flush is on the call stack, the running one first. -/
  stack : List τ

inductive HubEvent (τ : Type) where
  | subscribe (taskId : τ) (lastEventId : Option Int)
  | unsubscribe (taskId : τ) (id : Nat)
  | append (event : AppEvent τ)
  | notify (taskId : τ)
  | flush (taskId : τ)
  | run

namespace TaskStreamHub

variable (options : TaskStreamHubOptions) (s : TaskStreamHub τ)

/-- The program is outside of the hub: nothing is on the stack, or a client is being called. -/
def outside : Bool :=
  match s.stack with
  | [] => true
  | taskId :: _ =>
    match (s.streams taskId).drain with
    | some ⟨_, _, _, .calling _ _ _⟩ => true
    | _ => false

def put (taskId : τ) (stream : TaskStream τ) : TaskStreamHub τ :=
  { s with streams := Function.update s.streams taskId stream }

/-- A flush that starts to drain is on top of the stack. -/
def called (taskId : τ) (stream : TaskStream τ) : TaskStreamHub τ :=
  { s.put taskId stream with
    stack := if (s.streams taskId).drain.isNone && stream.drain.isSome then taskId :: s.stack else s.stack }

def step : HubEvent τ → Option (TaskStreamHub τ)
  | .subscribe taskId lastEventId =>
    if s.outside then some (s.put taskId ((s.streams taskId).subscribe lastEventId)) else none
  | .unsubscribe taskId id =>
    if s.outside then some (s.put taskId ((s.streams taskId).unsubscribe id)) else none
  | .append event =>
    if s.outside && (s.store.ofTask event.taskId).all fun r => decide (r.taskSeq < event.taskSeq) then
      (s.store.append event).map fun store =>
        { s.put event.taskId { s.streams event.taskId with unannounced := true } with store := store }
    else none
  | .notify taskId =>
    if s.outside then some (s.called taskId (s.streams taskId).notify) else none
  | .flush taskId =>
    if s.outside then some (s.called taskId (s.streams taskId).flush) else none
  | .run =>
    match s.stack with
    | [] => none
    | taskId :: rest =>
      (s.streams taskId).drain.map fun d =>
        let stream := (s.streams taskId).goOn
          (fun cursor => s.store.listByTaskSince taskId cursor options.pageSize) options.pageSize d
        { s.put taskId stream with stack := if stream.drain.isSome then s.stack else rest }

/-- Any stored events, and no clients. -/
def system : System (TaskStreamHub τ) (HubEvent τ) where
  start s := s.stack = [] ∧ s.streams = fun _ => TaskStream.fresh
  step s e := s.step options e

end TaskStreamHub

end AiNet.Streaming
