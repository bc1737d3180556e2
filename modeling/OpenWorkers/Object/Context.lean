import OpenWorkers.Lib.Machine
import OpenWorkers.Object.Pipeline

/-!
# The context of a Durable Object

The pipeline of an instance together with everything behind which something leaves the
object:

* the tasks of outbound calls (`after(gate, …)` under the token of their request), of which some
  have called `ops.handle(op)` before they look at the gate;
* the host functions that `__nativeBindingInvoke` polls inside the call of the guest;
* the tasks of outgoing WebSockets, and the hand-overs of relayed sockets (`forward`);
* the events in flight, whose response or outcome is held until its barrier opens
  (`Held`, `answer`), and the bodies whose chunks each wait for a barrier (`gated`).

Everything the program does not decide is part of the action: what the guest sends and
when, what the host answers, which task runs next, when a caller leaves, when the context
is dropped.  `left` records what has left the object, each with the message it belongs to:
the message of a call or of a socket op, and the barrier of a response, of an outcome or of
a chunk.
-/

namespace OpenWorkers.Object.Context

open Option Scheduler

/-- Settled in place of a real result when a request is cancelled. -/
def cancelledText : String := "Operation cancelled"

inductive CallPc where
  /-- Behind its gate. -/
  | waiting
  /-- With the host. -/
  | handed
  /-- Answered, with an error if there is one. -/
  | ended (error : Option String)
deriving DecidableEq, Repr

/-- The task of an outbound call. -/
structure Call where
  msg : MsgId
  kind : CallKind
  gate : Gate
  scope : Scope
  pc : CallPc
deriving DecidableEq, Repr

inductive OutgoingPc where
  | connecting
  | handed
  | connected
  | ended
deriving DecidableEq, Repr

/-- The task of an outgoing WebSocket, with the commands in its channel. -/
structure Outgoing where
  msg : MsgId
  socket : WebSocketId
  scope : Scope
  commands : List (MsgId × WebSocketCommand)
  pc : OutgoingPc
deriving DecidableEq, Repr

/-- The task that gives the socket of an upgrade to a relay. -/
structure Forward where
  msg : MsgId
  socket : WebSocketId
  ended : Bool
deriving DecidableEq, Repr

inductive EventKind where
  | fetch
  | alarm
deriving DecidableEq, Repr

/-- An event the object has taken and that someone waits for. -/
structure InFlight where
  kind : EventKind
  /-- `res_tx` or `done` is still there. -/
  caller : Bool
  /-- The gate of the answer that is held. -/
  held : Option Gate
deriving DecidableEq, Repr

/-- The task that forwards the chunks of a response body. -/
inductive Body where
  | reading
  /-- A chunk waits for its barrier. -/
  | waiting (gate : Gate)
  /-- Over, with an error for the host or without. -/
  | ended (error : Bool)
deriving DecidableEq, Repr

/-- The ways out of the object. -/
inductive ExitKind where
  | call (kind : CallKind)
  | socketOp
  | response (event : Nat)
  | outcome (event : Nat)
  | chunk (body : Nat)
  | connect
  | frame
  | relay
deriving DecidableEq, Repr

/-- The ways out that take the output gate. -/
def ExitKind.gated : ExitKind → Bool
  | .call kind => kind.gated
  | .socketOp | .response _ | .outcome _ | .chunk _ => true
  | .connect | .frame | .relay => false

/-- The calls whose task makes the future of the host, by `ops.handle(op)`, before it looks at its
gate and its token.  The others do it in an `async` block, which waits for the gate too. -/
def isEager : CallKind → Bool
  | .worker | .durableObject | .storage | .kv | .database | .d1 => true
  | .fetch | .bindingFetch | .invoke => false

/-- Something left the object. -/
structure Exit where
  kind : ExitKind
  msg : MsgId
deriving DecidableEq, Repr

structure State where
  pipe : Pipeline
  /-- The context was dropped, and its loop aborted. -/
  dropped : Bool
  /-- The token of the context. -/
  cancelled : Bool
  /-- The request scopes that a token of the caller cancelled. -/
  abortedScopes : List Scope
  calls : List Call
  outgoings : List Outgoing
  forwards : List Forward
  inflight : List InFlight
  bodies : List Body
  left : List Exit
deriving DecidableEq, Repr

inductive Action where
  | send (msg : SchedulerMessage)
  /-- A host function is polled inside the call of the guest.  If it is not ready, the message that
  goes on with it is the next one sent. -/
  | invoke
  /-- The loop takes the next message. -/
  | handle
  /-- The queue task takes the next item. -/
  | take
  /-- The host ends the op of the queue. -/
  | finish (result : OperationResult)
  /-- The handler of the host panics under the queue task. -/
  | panic
  /-- The context is dropped, with the events in flight. -/
  | drop
  /-- The token of the dropped context fires. -/
  | cancel
  /-- The aborted loop ends. -/
  | stop
  | abortScope (scope : Scope)
  /-- A call finds its gate open. -/
  | openCall (call : Nat)
  /-- A call finds its gate shut. -/
  | refuseCall (call : Nat)
  | cancelCall (call : Nat)
  /-- The host acts on the op of a call in `handle`, and does not wait to be polled. -/
  | early (call : Nat)
  /-- The host answers a call; a binding may hand over a socket. -/
  | answerCall (call : Nat) (error : Option String) (relay : Option WebSocketId)
  | connect (outgoing : Nat)
  | connected (outgoing : Nat) (ok : Bool)
  /-- The task of a socket takes the next command. -/
  | command (outgoing : Nat)
  | closeOutgoing (outgoing : Nat)
  /-- The upgrade of a relayed socket completes, or fails. -/
  | forward (forward : Nat) (ok : Bool)
  | admitEvent (kind : EventKind)
  /-- `answer` reads the response of an event, which may hand over a socket and may stream. -/
  | respond (event : Nat) (socket : Option WebSocketId) (streams : Bool)
  /-- `answer` cannot read the response. -/
  | failResponse (event : Nat)
  /-- `answer` reads the outcome of an alarm. -/
  | outcome (event : Nat)
  /-- `answer` polls what is held. -/
  | poll (event : Nat)
  /-- The caller of an event leaves. -/
  | leave (event : Nat)
  /-- A chunk of a body comes. -/
  | chunk (body : Nat)
  /-- The task of a body polls its barrier; the host may have dropped its end. -/
  | pollChunk (body : Nat) (delivered : Bool)
  | endBody (body : Nat)
deriving DecidableEq, Repr

namespace State

def init : State := ⟨.init, false, false, [], [], [], [], [], [], []⟩

/-- The token of a request scope has fired. -/
def isCancelled (s : State) (scope : Scope) : Bool :=
  s.cancelled || decide (scope < s.pipe.loop.scope) || decide (scope ∈ s.abortedScopes)

def withPipe (s : State) (pipe : Pipeline) : State := { s with pipe }

/-- Something leaves. -/
def exit (s : State) (kind : ExitKind) (msg : MsgId) : State :=
  { s with left := s.left ++ [⟨kind, msg⟩] }

def setCall (s : State) (call : Nat) (pc : CallPc) : State :=
  { s with calls := s.calls.modify call fun c => { c with pc } }

def setOutgoing (s : State) (outgoing : Nat) (f : Outgoing → Outgoing) : State :=
  { s with outgoings := s.outgoings.modify outgoing f }

def setEvent (s : State) (event : Nat) (caller : Bool) (held : Option Gate) : State :=
  { s with inflight := s.inflight.modify event fun e => { e with caller, held } }

def setBody (s : State) (body : Nat) (b : Body) : State :=
  { s with bodies := s.bodies.modify body fun _ => b }

/-- The socket that a response carries is asked for. -/
def handOver (s : State) : Option WebSocketId → State
  | none => s
  | some socket => s.withPipe (s.pipe.send (.objectUpgrade socket)).1

/-- The body of a response gets a task if it streams. -/
def stream (s : State) (streams : Bool) : State :=
  if streams then { s with bodies := s.bodies ++ [.reading] } else s

/-- `Held`: the answer of an event waits for a barrier. -/
def hold (s : State) (event : Nat) : State :=
  let sent := s.pipe.send .outputBarrier
  (s.withPipe sent.1).setEvent event true (some sent.2)

/-- What an effect of the loop does outside the pipeline: it starts a task or sends a
command to one.  The other tasks (timers, streams, pairs) let nothing out of the object. -/
def perform (n : MsgId) (s : State) : Effect → State
  | .spawn (.call kind _ gate scope) =>
    { s with calls := s.calls ++ [⟨n, kind, gate, scope, .waiting⟩] }
  | .spawn (.webSocket _ socket scope) =>
    { s with outgoings := s.outgoings ++ [⟨n, socket, scope, [], .connecting⟩] }
  | .spawn (.forward socket) => { s with forwards := s.forwards ++ [⟨n, socket, false⟩] }
  | .command socket command =>
    { s with outgoings := s.outgoings.map fun o =>
        if o.socket = socket then { o with commands := o.commands ++ [(n, command)] } else o }
  | .spawn (.writable _ _ _) | .spawn (.streamRead _ _ _) | .spawn (.serverWebSocket _ _ _)
  | .spawn (.linkAbort _ _) | .enqueue _ | .openGate | .hangUp _ | .closeStream _ | .cancel _ => s

end State

/-- What a polled answer is to its event. -/
def EventKind.exit (event : Nat) : EventKind → ExitKind
  | .fetch => .response event
  | .alarm => .outcome event

/-- Steps of the tasks of calls. -/
def stepCall (s : State) (call : Nat) (c : Call) : Action → Option State
  | .openCall _ =>
    if c.pc = .waiting ∧ s.isCancelled c.scope = false ∧ s.pipe.IsOpen c.gate then
      some ((s.setCall call .handed).exit (.call c.kind) c.msg)
    else
      none
  | .refuseCall _ =>
    if c.pc = .waiting ∧ s.isCancelled c.scope = false ∧ s.pipe.IsShut c.gate then
      some (s.setCall call (.ended (some storageFailed)))
    else
      none
  | .cancelCall _ =>
    if (c.pc = .waiting ∨ c.pc = .handed) ∧ s.isCancelled c.scope = true then
      some (s.setCall call (.ended (some cancelledText)))
    else
      none
  | .answerCall _ error relay =>
    if c.pc = .handed ∧ s.isCancelled c.scope = false then
      match relay with
      | none => some (s.setCall call (.ended error))
      | some socket =>
        if c.kind = .worker ∨ c.kind = .durableObject then
          let relays := socket :: s.pipe.loop.relays.filter (· ≠ socket)
          let pipe := { s.pipe with loop := { s.pipe.loop with relays } }
          some ((s.withPipe pipe).setCall call (.ended none))
        else
          none
    else
      none
  | _ => none

/-- Steps of the tasks of outgoing sockets. -/
def stepOutgoing (s : State) (outgoing : Nat) (o : Outgoing) : Action → Option State
  | .connect _ =>
    if o.pc = .connecting ∧ s.isCancelled o.scope = false then
      some ((s.setOutgoing outgoing fun o => { o with pc := .handed }).exit .connect o.msg)
    else
      none
  | .connected _ ok =>
    if o.pc = .handed ∧ s.isCancelled o.scope = false then
      let pc := if ok then .connected else .ended
      some (s.setOutgoing outgoing fun o => { o with pc })
    else
      none
  | .command _ =>
    if o.pc = .connected ∧ s.isCancelled o.scope = false then
      match o.commands with
      | [] => none
      | (_, .attach) :: commands | (_, .accept) :: commands =>
        some (s.setOutgoing outgoing fun o => { o with commands })
      | (n, .send _) :: commands =>
        some ((s.setOutgoing outgoing fun o => { o with commands }).exit .frame n)
      | (n, .close _ _) :: commands =>
        some ((s.setOutgoing outgoing fun o => { o with commands, pc := .ended }).exit .frame n)
    else
      none
  | .closeOutgoing _ => some (s.setOutgoing outgoing fun o => { o with pc := .ended })
  | _ => none

/-- Steps of `answer` and of the callers of events. -/
def stepEvent (s : State) (event : Nat) (e : InFlight) : Action → Option State
  | .respond _ socket streams =>
    if e.kind = .fetch ∧ e.caller = true ∧ e.held = none then
      some (((s.handOver socket).stream streams).hold event)
    else
      none
  | .failResponse _ =>
    if e.kind = .fetch ∧ e.caller = true ∧ e.held = none then
      some (s.setEvent event false none)
    else
      none
  | .outcome _ =>
    if e.kind = .alarm ∧ e.caller = true ∧ e.held = none then
      some (s.hold event)
    else
      none
  | .poll _ =>
    match e.held with
    | some (.behind n) =>
      if s.pipe.IsOpen (.behind n) then
        some ((s.setEvent event false none).exit (e.kind.exit event) n)
      else if s.pipe.IsShut (.behind n) then
        some (s.setEvent event false none)
      else
        none
    | some .closed => some (s.setEvent event false none)
    | some .free | none => none
  | .leave _ => some (s.setEvent event false none)
  | _ => none

/-- Steps of the tasks of bodies. -/
def stepBody (s : State) (body : Nat) (b : Body) : Action → Option State
  | .chunk _ =>
    if b = .reading then
      let sent := s.pipe.send .outputBarrier
      some ((s.withPipe sent.1).setBody body (.waiting sent.2))
    else
      none
  | .pollChunk _ delivered =>
    match b with
    | .waiting (.behind n) =>
      if s.pipe.IsOpen (.behind n) then
        if delivered then
          some ((s.setBody body .reading).exit (.chunk body) n)
        else
          some (s.setBody body (.ended false))
      else if s.pipe.IsShut (.behind n) then
        some (s.setBody body (.ended true))
      else
        none
    | .waiting .closed => some (s.setBody body (.ended true))
    | .waiting .free | .reading | .ended _ => none
  | .endBody _ => if b = .reading then some (s.setBody body (.ended false)) else none
  | _ => none

/-- Steps of the event loop, of the queue task and of the owner of the context. -/
def stepPipe (s : State) : Action → Option State
  | .send msg => some (s.withPipe (s.pipe.send msg).1)
  | .handle =>
    s.pipe.handle.map fun (effects, pipe) =>
      effects.foldl (State.perform s.pipe.handled) (s.withPipe pipe)
  | .take =>
    s.pipe.take.map fun ((n, work), _, pipe) =>
      let s' := s.withPipe pipe
      match work with
      | .socket _ => if pipe.busy then s'.exit .socketOp n else s'
      | .storage _ _ | .barrier _ => s'
  | .finish result => (s.pipe.finish result).map s.withPipe
  | .panic => if s.pipe.busy then some (s.withPipe s.pipe.panic) else none
  | .drop =>
    if s.dropped then
      none
    else
      let inflight := s.inflight.map fun e => { e with caller := false, held := none }
      some { s with dropped := true, inflight }
  | .cancel => if s.dropped then some { s with cancelled := true } else none
  | .stop =>
    if s.pipe.running ∧ (s.dropped ∨ s.pipe.loop.shutdown) then
      some (s.withPipe s.pipe.stop)
    else
      none
  | .abortScope scope => some { s with abortedScopes := scope :: s.abortedScopes }
  | .admitEvent kind =>
    if s.dropped then none else some { s with inflight := s.inflight ++ [⟨kind, true, none⟩] }
  | _ => none

def step (s : State) (a : Action) : Option State :=
  match a with
  | .openCall k | .refuseCall k | .cancelCall k | .answerCall k _ _ =>
    s.calls[k]?.bind fun c => stepCall s k c a
  | .early k =>
    s.calls[k]?.bind fun c =>
      if c.pc = .waiting ∧ isEager c.kind = true then some (s.exit (.call c.kind) c.msg) else none
  | .invoke => if s.dropped then none else some (s.exit (.call .invoke) s.pipe.sent.length)
  | .connect k | .connected k _ | .command k | .closeOutgoing k =>
    s.outgoings[k]?.bind fun o => stepOutgoing s k o a
  | .forward k ok =>
    match s.forwards[k]? with
    | some ⟨msg, socket, false⟩ =>
      let s' := { s with forwards := s.forwards.modify k fun _ => ⟨msg, socket, true⟩ }
      some (if ok then s'.exit .relay msg else s')
    | _ => none
  | .respond k _ _ | .failResponse k | .outcome k | .poll k | .leave k =>
    s.inflight[k]?.bind fun e => stepEvent s k e a
  | .chunk k | .pollChunk k _ | .endBody k => s.bodies[k]?.bind fun b => stepBody s k b a
  | .send _ | .handle | .take | .finish _ | .panic | .drop | .cancel | .stop | .abortScope _
  | .admitEvent _ => stepPipe s a

def machine : Machine State Action where
  init := .init
  step := step

/-- A storage write of one key, for runs. -/
def put : ObjectStorageOp := .write [("k", [1])] [] false

/-! ## What a step does to the pipeline -/

section Pipe

variable {s s' : State}

theorem pipe_perform (s : State) (n : MsgId) (effect : Effect) :
    (s.perform n effect).pipe = s.pipe := by
  cases effect with
  | spawn task => cases task <;> rfl
  | _ => rfl

theorem pipe_foldl_perform (s : State) (n : MsgId) (effects : List Effect) :
    (effects.foldl (State.perform n) s).pipe = s.pipe := by
  induction effects generalizing s with
  | nil => rfl
  | cons effect effects ih => exact (ih _).trans (pipe_perform s n effect)

/-- What every operation of the pipeline keeps. -/
structure Closed (Q : Pipeline → Prop) : Prop where
  relays : ∀ p relays, Q p → Q { p with loop := { p.loop with relays } }
  send : ∀ p msg, Q p → Q (p.send msg).1
  handle : ∀ p effects p', p.handle = some (effects, p') → Q p → Q p'
  take : ∀ p item events p', p.take = some (item, events, p') → Q p → Q p'
  finish : ∀ p result p', p.finish result = some p' → Q p → Q p'
  panic : ∀ p, Q p → Q p.panic
  stop : ∀ p, Q p → Q p.stop

namespace Closed

variable {Q : Pipeline → Prop} (hQ : Closed Q) (h : Q s.pipe)

include hQ h

theorem stepCall {k : Nat} {c : Call} {a : Action} (hstep : stepCall s k c a = some s') :
    Q s'.pipe := by
  cases a with
  | openCall | refuseCall | cancelCall =>
      obtain ⟨-, heq⟩ := ite_none_right_eq_some.mp hstep
      cases heq
      exact h
  | answerCall i error relay =>
      obtain ⟨-, heq⟩ := ite_none_right_eq_some.mp hstep
      cases relay with
      | none =>
          cases heq
          exact h
      | some socket =>
          obtain ⟨-, heq⟩ := ite_none_right_eq_some.mp heq
          cases heq
          exact hQ.relays _ _ h
  | _ => cases hstep

omit hQ in
theorem stepOutgoing {k : Nat} {o : Outgoing} {a : Action}
    (hstep : stepOutgoing s k o a = some s') : Q s'.pipe := by
  cases a with
  | connect | connected =>
      obtain ⟨-, heq⟩ := ite_none_right_eq_some.mp hstep
      cases heq
      exact h
  | closeOutgoing =>
      cases hstep
      exact h
  | command i =>
      obtain ⟨-, heq⟩ := ite_none_right_eq_some.mp hstep
      split at heq <;> cases heq <;> exact h
  | _ => cases hstep

theorem stepEvent {k : Nat} {e : InFlight} {a : Action} (hstep : stepEvent s k e a = some s') :
    Q s'.pipe := by
  cases a with
  | respond i socket streams =>
      obtain ⟨-, heq⟩ := ite_none_right_eq_some.mp hstep
      cases heq
      refine hQ.send _ _ ?_
      have hover : Q (s.handOver socket).pipe := by
        cases socket with
        | none => exact h
        | some ws => exact hQ.send _ _ h
      cases streams <;> exact hover
  | outcome i =>
      obtain ⟨-, heq⟩ := ite_none_right_eq_some.mp hstep
      cases heq
      exact hQ.send _ _ h
  | failResponse i =>
      obtain ⟨-, heq⟩ := ite_none_right_eq_some.mp hstep
      cases heq
      exact h
  | poll i =>
      simp only [Context.stepEvent] at hstep
      split at hstep
      · split at hstep
        · cases hstep
          exact h
        · obtain ⟨-, heq⟩ := ite_none_right_eq_some.mp hstep
          cases heq
          exact h
      · cases hstep
        exact h
      · cases hstep
      · cases hstep
  | leave i =>
      cases hstep
      exact h
  | _ => cases hstep

theorem stepBody {k : Nat} {b : Body} {a : Action} (hstep : stepBody s k b a = some s') :
    Q s'.pipe := by
  cases a with
  | chunk i =>
      obtain ⟨-, heq⟩ := ite_none_right_eq_some.mp hstep
      cases heq
      exact hQ.send _ _ h
  | pollChunk i delivered =>
      simp only [Context.stepBody] at hstep
      split at hstep
      · split at hstep
        · split at hstep <;> cases hstep <;> exact h
        · obtain ⟨-, heq⟩ := ite_none_right_eq_some.mp hstep
          cases heq
          exact h
      · cases hstep
        exact h
      · cases hstep
      · cases hstep
      · cases hstep
  | endBody i =>
      obtain ⟨-, heq⟩ := ite_none_right_eq_some.mp hstep
      cases heq
      exact h
  | _ => cases hstep

theorem stepPipe {a : Action} (hstep : stepPipe s a = some s') : Q s'.pipe := by
  cases a with
  | send msg =>
      cases hstep
      exact hQ.send _ _ h
  | handle =>
      obtain ⟨⟨effects, pipe⟩, hhandle, rfl⟩ := map_eq_some_iff.mp hstep
      rw [pipe_foldl_perform]
      exact hQ.handle _ _ _ hhandle h
  | take =>
      obtain ⟨⟨⟨n, work⟩, events, pipe⟩, htake, rfl⟩ := map_eq_some_iff.mp hstep
      have hnext : Q pipe := hQ.take _ _ _ _ htake h
      cases work with
      | socket op =>
          simp only
          split <;> exact hnext
      | storage | barrier => exact hnext
  | finish result =>
      obtain ⟨pipe, hfinish, rfl⟩ := map_eq_some_iff.mp hstep
      exact hQ.finish _ _ _ hfinish h
  | panic =>
      obtain ⟨-, heq⟩ := ite_none_right_eq_some.mp hstep
      cases heq
      exact hQ.panic _ h
  | stop =>
      obtain ⟨-, heq⟩ := ite_none_right_eq_some.mp hstep
      cases heq
      exact hQ.stop _ h
  | cancel =>
      obtain ⟨-, heq⟩ := ite_none_right_eq_some.mp hstep
      cases heq
      exact h
  | drop | admitEvent =>
      obtain ⟨-, heq⟩ := ite_none_left_eq_some.mp hstep
      cases heq
      exact h
  | abortScope scope =>
      cases hstep
      exact h
  | _ => cases hstep

/-- **The pipeline changes by its operations only.** -/
theorem step {a : Action} (hstep : step s a = some s') : Q s'.pipe := by
  cases a with
  | openCall k | refuseCall k | cancelCall k | answerCall k =>
      obtain ⟨c, -, hstep⟩ := bind_eq_some_iff.mp hstep
      exact hQ.stepCall h hstep
  | early k =>
      obtain ⟨c, -, hstep⟩ := bind_eq_some_iff.mp hstep
      obtain ⟨-, ⟨⟩⟩ := ite_none_right_eq_some.mp hstep
      exact h
  | invoke =>
      obtain ⟨-, ⟨⟩⟩ := ite_none_left_eq_some.mp hstep
      exact h
  | connect k | connected k | command k | closeOutgoing k =>
      obtain ⟨o, -, hstep⟩ := bind_eq_some_iff.mp hstep
      exact Closed.stepOutgoing h hstep
  | respond k | failResponse k | outcome k | poll k | leave k =>
      obtain ⟨e, -, hstep⟩ := bind_eq_some_iff.mp hstep
      exact hQ.stepEvent h hstep
  | chunk k | pollChunk k | endBody k =>
      obtain ⟨b, -, hstep⟩ := bind_eq_some_iff.mp hstep
      exact hQ.stepBody h hstep
  | forward k ok =>
      simp only [Context.step] at hstep
      split at hstep
      · cases hstep
        cases ok <;> exact h
      · cases hstep
  | send | handle | take | finish | panic | drop | cancel | stop | abortScope | admitEvent =>
      simp only [Context.step] at hstep
      exact hQ.stepPipe h hstep

end Closed

end Pipe

end OpenWorkers.Object.Context
