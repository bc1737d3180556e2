import OpenWorkers.Lib.Log
import OpenWorkers.Operations.Dispatch

/-!
# The operations of a context

A context with its event loop, the tasks of its operations, the queue of the object it may serve
and the two channels between guest and loop, over any number of requests.  The ids of all
operations come from one counter; `reset` clears the tables and the channel to the guest between
two requests, and leaves the counter, the loop and its tasks alone.

The host ends a call when it likes and with what it likes, a read of a stream likewise, and any
request can be cancelled at any moment: by the token of its caller or by `BeginRequest`.  Nothing
in the runtime sends `Shutdown`.
-/

namespace OpenWorkers.Operations

open Object Scheduler

/-- `MAX_INLINE_CALLS`. -/
def maxInlineCalls : Nat := 16

/-- The operations of a guest, but for invoke. -/
inductive Call where
  | fetch
  | bindingFetch (binding : String)
  | storage (binding : String)
  | kv (binding : String)
  | database (binding : String)
  | d1 (binding : String)
  | worker (binding : String)
  | durableObject (binding id : String)
  | objectStorage (op : ObjectStorageOp)
  | streamRead (stream : StreamId)
  | webSocketConnect (socket : WebSocketId) (url : String)
deriving DecidableEq, Repr

/-- The message of an operation. -/
def Call.message (callback : CallbackId) : Call → SchedulerMessage
  | .fetch => .fetchStreaming callback
  | .bindingFetch binding => .bindingFetch callback binding
  | .storage binding => .bindingStorage callback binding
  | .kv binding => .bindingKv callback binding
  | .database binding => .bindingDatabase callback binding
  | .d1 binding => .bindingD1 callback binding
  | .worker binding => .bindingWorker callback binding
  | .durableObject binding id => .bindingDurableObject callback binding id
  | .objectStorage op => .objectStorage callback op
  | .streamRead stream => .streamRead callback stream
  | .webSocketConnect socket url => .webSocketConnect callback socket url

/-- The callbacks that an operation registers. -/
def Call.register (tables : Tables) (callback : CallbackId) (request : Nat) : Call → Tables
  | .streamRead _ => tables.registerRead callback request
  | _ => tables.registerPair callback request

/-- The operation of a message. -/
def operation : SchedulerMessage → Option CallbackId
  | .fetchStreaming callback | .bindingFetch callback _ | .bindingStorage callback _
  | .bindingKv callback _ | .bindingDatabase callback _ | .bindingD1 callback _
  | .bindingWorker callback _ | .bindingInvoke callback | .bindingDurableObject callback _ _
  | .objectStorage callback _ | .streamRead callback _ | .webSocketConnect callback _ _ =>
    some callback
  | _ => none

/-- The operation of an item of the queue. -/
def queuedCallback : Queued → Option CallbackId
  | .storage callback _ => some callback
  | .socket _ | .barrier _ => none

structure State where
  tables : Tables
  /-- `next_callback_id`. -/
  nextId : CallbackId
  /-- The request the context serves. -/
  request : Nat
  inlineCalls : Nat
  toScheduler : List SchedulerMessage
  handled : Nat
  loop : EventLoop
  /-- The requests whose token was cancelled. -/
  cancelled : List Scope
  /-- The tasks of operations that have not answered. -/
  tasks : List Task
  queue : List Queued
  /-- `failed` of `run_object_queue`. -/
  queueFailed : Bool
  /-- The gates that opened, and those that closed. -/
  gates : GateId → Option Bool
  /-- The channel of callback messages. -/
  toGuest : List CallbackMessage

inductive Op where
  | call (call : Call)
  /-- `__nativeBindingInvoke`: the call is ready at once, or goes to the scheduler. -/
  | invoke (inline : Option InvokeResult) (threw : Bool)
  /-- Another message to the loop. -/
  | send (message : SchedulerMessage)
  /-- A round of the event loop of the guest starts. -/
  | round
  | handle
  /-- The token of a request is cancelled. -/
  | cancel (scope : Scope)
  /-- The queue of the object takes its next item; `result` is what the host answers, if it is
  asked. -/
  | work (result : Object.OperationResult)
  | finish (i : Nat) (ending : Ending)
  /-- A message of the channel is dispatched.  A Durable Object holds some messages back, so it
  may be any of them. -/
  | dispatch (i : Nat) (threw : Bool)
  | reset
deriving DecidableEq, Repr

/-- What the gate of a call says. -/
def State.gate (s : State) : Gate → Option Bool
  | .free => some true
  | .closed => some false
  | .behind gate => s.gates gate

/-- A task can end this way.  A task that has polled its token can still end with the result when
the token is cancelled right then. -/
def State.allows (s : State) : Task → Ending → Bool
  | .call _ _ _ scope, .cancelled | .streamRead _ _ scope, .cancelled
  | .webSocket _ _ scope, .cancelled => scope ∈ s.cancelled
  | .call _ _ gate _, .gateClosed => s.gate gate = some false
  | .call _ _ gate _, .result _ => s.gate gate = some true
  | .streamRead _ _ _, .chunk _ | .webSocket _ _ _, .result _ => true
  | _, _ => false

/-- The task of an operation that an effect starts. -/
def startsTask : Effect → Option Task
  | .spawn task => if (taskCallback task).isSome then some task else none
  | _ => none

/-- The item that an effect puts into the queue. -/
def enqueues : Effect → Option Queued
  | .enqueue work => some work
  | _ => none

/-- The scope that an effect cancels. -/
def cancelsScope : Effect → Option Scope
  | .cancel scope => some scope
  | _ => none

/-- The loop handles a message.  The task of the queue lives as long as the loop. -/
def State.handle (s : State) (message : SchedulerMessage) (rest : List SchedulerMessage) : State :=
  let r := s.loop.handle true s.handled message
  { s with
    toScheduler := rest
    handled := s.handled + 1
    loop := r.1
    cancelled := s.cancelled ++ r.2.filterMap cancelsScope
    tasks := s.tasks ++ r.2.filterMap startsTask
    queue := s.queue ++ r.2.filterMap enqueues }

/-- The answers among what the queue does. -/
def queueAnswer : QueueEvent → Option CallbackMessage
  | .answer callback result => some (.objectStorage callback result)
  | _ => none

/-- The gate that an item decides: a barrier opens, or its sender is dropped. -/
def State.passBarrier (s : State) : Queued → GateId → Option Bool
  | .barrier gate => Function.update s.gates gate (some !s.queueFailed)
  | _ => s.gates

def State.work (s : State) (work : Queued) (rest : List Queued)
    (result : Object.OperationResult) : State :=
  let r := Object.handle s.queueFailed work result
  { s with
    queue := rest
    queueFailed := r.2
    gates := s.passBarrier work
    toGuest := s.toGuest ++ r.1.filterMap queueAnswer }

def step (s : State) : Op → Option State
  | .call call =>
    some { s with
      tables := call.register s.tables s.nextId s.request
      nextId := s.nextId + 1
      toScheduler := s.toScheduler ++ [call.message s.nextId] }
  | .invoke inline threw =>
    let tables := s.tables.registerPair s.nextId s.request
    match inline with
    | some result =>
      if s.inlineCalls < maxInlineCalls then
        some { s with
          tables := (dispatch tables threw (.invokeResult s.nextId result)).tables
          nextId := s.nextId + 1
          inlineCalls := s.inlineCalls + 1 }
      else
        none
    | none =>
      some { s with
        tables, nextId := s.nextId + 1
        toScheduler := s.toScheduler ++ [.bindingInvoke s.nextId] }
  | .send message =>
    if operation message = none ∧ message ≠ .shutdown then
      some { s with toScheduler := s.toScheduler ++ [message] }
    else
      none
  | .round => some { s with inlineCalls := 0 }
  | .handle =>
    match s.toScheduler with
    | message :: rest => some (s.handle message rest)
    | [] => none
  | .cancel scope => some { s with cancelled := s.cancelled ++ [scope] }
  | .work result =>
    match s.queue with
    | work :: rest => some (s.work work rest result)
    | [] => none
  | .finish i ending =>
    match s.tasks[i]? with
    | some task =>
      if s.allows task ending then
        (answer task ending).map fun message =>
          { s with tasks := s.tasks.eraseIdx i, toGuest := s.toGuest ++ [message] }
      else
        none
    | none => none
  | .dispatch i threw =>
    match s.toGuest[i]? with
    | some message =>
      some { s with
        tables := (dispatch s.tables threw message).tables
        toGuest := s.toGuest.eraseIdx i }
    | none => none
  | .reset => some { s with tables := .empty, request := s.request + 1, toGuest := [] }

def machine : Machine State Op where
  init := ⟨.empty, 1, 0, 0, [], 0, EventLoop.init, [], [], [], false, fun _ => none, []⟩
  step := step

/-! ## What is seen of a run -/

inductive Event where
  /-- A request sends the message of an operation. -/
  | sent (callback : CallbackId) (request : Nat)
  /-- An answer is sent to the guest. -/
  | answered (message : CallbackMessage)
  /-- An answer is dispatched during a request: the callbacks it takes out of the tables, and
  those it calls, each with the request that registered it. -/
  | dispatched (message : CallbackMessage) (request : Nat) (taken called : List (Half × Nat))
deriving DecidableEq, Repr

def observe (s : State) : Op → List Event
  | .call _ | .invoke none _ => [.sent s.nextId s.request]
  | .work result =>
    match s.queue with
    | work :: _ => ((Object.handle s.queueFailed work result).1.filterMap queueAnswer).map .answered
    | [] => []
  | .finish i ending =>
    match s.tasks[i]? with
    | some task => (answer task ending).toList.map .answered
    | none => []
  | .dispatch i threw =>
    match s.toGuest[i]? with
    | some message =>
      let d := dispatch s.tables threw message
      [.dispatched message s.request d.taken d.called]
    | none => []
  | _ => []

/-- The operations that were sent, with the request that sent them. -/
def sent (log : List Event) : List (CallbackId × Nat) :=
  log.filterMap fun
    | .sent callback request => some (callback, request)
    | _ => none

/-- The operations that were answered. -/
def answered (log : List Event) : List CallbackId :=
  log.filterMap fun
    | .answered message => some message.callback
    | _ => none

/-- The operations whose answer was dispatched. -/
def dispatched (log : List Event) : List CallbackId :=
  log.filterMap fun
    | .dispatched message _ _ _ => some message.callback
    | _ => none

end OpenWorkers.Operations
