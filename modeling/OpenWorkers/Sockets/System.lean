import OpenWorkers.Lib.Fresh
import OpenWorkers.Lib.Log
import OpenWorkers.Sockets.Socket
import Mathlib.Data.List.Basic

/-!
# The event loop and the tasks of its sockets

The event loop of a context with its messages, the tasks of the sockets, and the tasks of the
requests to bindings, which hand over a socket when the binding answers a 101.  A context serves
any number of requests; `BeginRequest` opens the scope of the next one.

The id of a socket comes from a counter of the process.  `created` records the request that each
pair and each relay belongs to: a pair to the request it was made in, a relay to the request of
the call that brought it.

A context that is dropped aborts the loop, which drops the command channels, and cancels the
token, as two steps.
-/

namespace OpenWorkers.Sockets

open List Object Scheduler

structure State where
  toScheduler : List SchedulerMessage
  handled : Nat
  loop : EventLoop
  /-- The loop is there; an aborted loop has dropped its variables. -/
  running : Bool
  /-- The requests whose token was cancelled. -/
  cancelled : List Scope
  contextCancelled : Bool
  /-- The requests to workers and Durable Objects that have no answer, by the request that made
  them, and whether a 101 is there that is not handed over. -/
  bindings : List (Scope × Bool)
  sockets : List Socket
  nextSocketId : WebSocketId
  created : List (WebSocketId × Scope)
deriving DecidableEq, Repr

/-- The token of a request is cancelled, by itself or with the one of the context. -/
def State.isCancelled (s : State) (scope : Scope) : Bool :=
  s.contextCancelled || scope ∈ s.cancelled

/-- A command for the task of a socket. -/
def Socket.push (command : WebSocketCommand) (s : Socket) : Socket :=
  { s with commands := s.commands ++ [command] }

/-- The loop drops the command channel of a socket. -/
def Socket.hangUp (s : Socket) : Socket := { s with hungUp := true }

/-- A change of the socket of an id. -/
def onSocket (id : WebSocketId) (f : Socket → Socket) (s : Socket) : Socket :=
  if s.id = id then f s else s

/-- What an effect of the loop does to the sockets. -/
def performSockets (sockets : List Socket) : Effect → List Socket
  | .spawn (.webSocket _ id scope) => sockets ++ [.ofConnect id scope]
  | .spawn (.serverWebSocket id carried scope) => sockets ++ [.ofPair id carried scope]
  | .command id command => sockets.map (onSocket id (Socket.push command))
  | .hangUp id => sockets.map (onSocket id Socket.hangUp)
  | _ => sockets

/-- The request to a binding that an effect starts. -/
def startsBinding : Effect → Option (Scope × Bool)
  | .spawn (.call .worker _ _ scope) | .spawn (.call .durableObject _ _ scope) =>
    some (scope, false)
  | _ => none

/-- The scope that an effect cancels. -/
def cancels : Effect → Option Scope
  | .cancel scope => some scope
  | _ => none

/-- The pair that a message makes, if a response can still carry it. -/
def makesPair (l : EventLoop) : SchedulerMessage → Option WebSocketId
  | .webSocketPair id => l.pairs.map fun _ => id
  | _ => none

/-- The message does not make a socket, and sends no Close frame as data. -/
def sendable : SchedulerMessage → Bool
  | .webSocketPair _ | .webSocketConnect _ _ _ => false
  | .webSocketSend _ frame => !isClose frame
  | _ => true

inductive Op where
  /-- A message of the guest or of the host to the loop. -/
  | send (message : SchedulerMessage)
  /-- `new WebSocketPair()`. -/
  | pair
  /-- `__nativeWebSocketConnect`. -/
  | connect (callback : CallbackId) (url : String)
  /-- `exec` closes a socket that the guest never accepted. -/
  | closeUnaccepted (id : WebSocketId)
  /-- Another context takes a socket id. -/
  | otherSocket
  | handle (alive : Bool)
  /-- A binding answers a request with a 101; the task does not find its token cancelled. -/
  | answer (k : Nat)
  /-- The task hands over the socket. -/
  | relay (k : Nat)
  /-- The connect, or the upgrade of the client, succeeds or fails. -/
  | outcome (i : Nat) (connected : Bool)
  | peer (i : Nat) (message : WebSocketIncoming)
  | vanish (i : Nat)
  | poll (i : Nat)
  /-- The caller of the request gives it up. -/
  | cancel (scope : Scope)
  | abortLoop
  | cancelContext
deriving DecidableEq, Repr

/-- The loop handles a message. -/
def State.handle (s : State) (alive : Bool) (message : SchedulerMessage)
    (rest : List SchedulerMessage) : State :=
  let r := s.loop.handle alive s.handled message
  { s with
    toScheduler := rest
    handled := s.handled + 1
    loop := r.1
    cancelled := s.cancelled ++ r.2.filterMap cancels
    bindings := s.bindings ++ r.2.filterMap startsBinding
    sockets := r.2.foldl performSockets s.sockets
    created := s.created ++ (makesPair s.loop message).toList.map fun id => (id, s.loop.scope) }

/-- A change of the socket at a position. -/
def State.modify (s : State) (i : Nat) (f : Socket → Socket) : State :=
  { s with sockets := s.sockets.modify i f }

def step (s : State) : Op → Option State
  | .send message =>
    if sendable message then some { s with toScheduler := s.toScheduler ++ [message] } else none
  | .pair =>
    some { s with
      toScheduler := s.toScheduler ++ [.webSocketPair s.nextSocketId]
      nextSocketId := s.nextSocketId + 1 }
  | .connect callback url =>
    some { s with
      toScheduler := s.toScheduler ++ [.webSocketConnect callback s.nextSocketId url]
      nextSocketId := s.nextSocketId + 1 }
  | .closeUnaccepted id =>
    some { s with toScheduler := s.toScheduler ++ [.webSocketClose id 1000 ""] }
  | .otherSocket => some { s with nextSocketId := s.nextSocketId + 1 }
  | .handle alive =>
    match s.toScheduler, s.running with
    | message :: rest, true => some (s.handle alive message rest)
    | _, _ => none
  | .answer k =>
    match s.bindings[k]? with
    | some (scope, false) =>
      if s.isCancelled scope then none
      else some { s with bindings := s.bindings.set k (scope, true) }
    | _ => none
  | .relay k =>
    match s.bindings[k]? with
    | some (scope, true) =>
      some { s with
        bindings := s.bindings.eraseIdx k
        loop := { s.loop with relays := s.nextSocketId :: s.loop.relays }
        nextSocketId := s.nextSocketId + 1
        created := s.created ++ [(s.nextSocketId, scope)] }
    | _ => none
  | .outcome i connected =>
    match s.sockets[i]? with
    | some socket =>
      if socket.outcome = none then
        some (s.modify i fun socket => { socket with outcome := some connected })
      else
        none
    | none => none
  | .peer i message =>
    match s.sockets[i]? with
    | some socket =>
      if socket.peerGone then none
      else some (s.modify i fun socket => { socket with incoming := socket.incoming ++ [message] })
    | none => none
  | .vanish i =>
    if i < s.sockets.length then
      some (s.modify i fun socket => { socket with peerGone := true })
    else
      none
  | .poll i =>
    match s.sockets[i]? with
    | some socket =>
      match socket.mode with
      | .ended _ => none
      | _ => some (s.modify i (Socket.poll (s.isCancelled socket.scope)))
    | none => none
  | .cancel scope => some { s with cancelled := s.cancelled ++ [scope] }
  | .abortLoop => some { s with running := false, sockets := s.sockets.map Socket.hangUp }
  | .cancelContext => some { s with contextCancelled := true }

def machine : Machine State Op where
  init := ⟨[], 0, EventLoop.init, true, [], false, [], [], 0, []⟩
  step := step

/-! ## What a step can do -/

/-- What the environment does to the socket at a position. -/
inductive Touched (i : Nat) (socket : Socket) : Op → Socket → Prop
  | outcome (connected : Bool) (houtcome : socket.outcome = none) :
      Touched i socket (.outcome i connected) { socket with outcome := some connected }
  | peer (message : WebSocketIncoming) (hthere : socket.peerGone = false) :
      Touched i socket (.peer i message) { socket with incoming := socket.incoming ++ [message] }
  | vanish : Touched i socket (.vanish i) { socket with peerGone := true }

section Touched

variable {i : Nat} {socket socket' : Socket} {op : Op}

theorem Touched.cases_op (h : Touched i socket op socket') :
    (∃ connected, op = .outcome i connected) ∨ (∃ message, op = .peer i message) ∨
      op = .vanish i := by
  cases h with
  | outcome connected => exact .inl ⟨connected, rfl⟩
  | peer message => exact .inr (.inl ⟨message, rfl⟩)
  | vanish => exact .inr (.inr rfl)

theorem Touched.id (h : Touched i socket op socket') : socket'.id = socket.id := by
  cases h <;> rfl

theorem Touched.kind (h : Touched i socket op socket') : socket'.kind = socket.kind := by
  cases h <;> rfl

theorem Touched.scope (h : Touched i socket op socket') : socket'.scope = socket.scope := by
  cases h <;> rfl

theorem Touched.mode (h : Touched i socket op socket') : socket'.mode = socket.mode := by
  cases h <;> rfl

end Touched

/-- What a step of the system does. -/
inductive Moved (s : State) : Op → State → Prop
  | send {message : SchedulerMessage} (hsendable : sendable message = true) :
      Moved s (.send message) { s with toScheduler := s.toScheduler ++ [message] }
  | pair : Moved s .pair
      { s with
        toScheduler := s.toScheduler ++ [.webSocketPair s.nextSocketId]
        nextSocketId := s.nextSocketId + 1 }
  | connect {callback : CallbackId} {url : String} : Moved s (.connect callback url)
      { s with
        toScheduler := s.toScheduler ++ [.webSocketConnect callback s.nextSocketId url]
        nextSocketId := s.nextSocketId + 1 }
  | closeUnaccepted {id : WebSocketId} : Moved s (.closeUnaccepted id)
      { s with toScheduler := s.toScheduler ++ [.webSocketClose id 1000 ""] }
  | otherSocket : Moved s .otherSocket { s with nextSocketId := s.nextSocketId + 1 }
  | handle {alive : Bool} {message : SchedulerMessage} {rest : List SchedulerMessage}
      (hqueue : s.toScheduler = message :: rest) (hrunning : s.running = true) :
      Moved s (.handle alive) (s.handle alive message rest)
  | answer {k : Nat} {scope : Scope} (hbinding : s.bindings[k]? = some (scope, false))
      (hcancelled : s.isCancelled scope = false) :
      Moved s (.answer k) { s with bindings := s.bindings.set k (scope, true) }
  | relay {k : Nat} {scope : Scope} (hbinding : s.bindings[k]? = some (scope, true)) :
      Moved s (.relay k)
        { s with
          bindings := s.bindings.eraseIdx k
          loop := { s.loop with relays := s.nextSocketId :: s.loop.relays }
          nextSocketId := s.nextSocketId + 1
          created := s.created ++ [(s.nextSocketId, scope)] }
  | touch {op : Op} {i : Nat} {socket : Socket} {f : Socket → Socket}
      (hsocket : s.sockets[i]? = some socket) (htouched : Touched i socket op (f socket)) :
      Moved s op (s.modify i f)
  | poll {i : Nat} {socket : Socket} (hsocket : s.sockets[i]? = some socket)
      (hmode : ∀ exit, socket.mode ≠ .ended exit) :
      Moved s (.poll i) (s.modify i (Socket.poll (s.isCancelled socket.scope)))
  | cancel {scope : Scope} :
      Moved s (.cancel scope) { s with cancelled := s.cancelled ++ [scope] }
  | abortLoop : Moved s .abortLoop
      { s with running := false, sockets := s.sockets.map Socket.hangUp }
  | cancelContext : Moved s .cancelContext { s with contextCancelled := true }

theorem moved_step {s s' : State} {op : Op} (hstep : machine.step s op = some s') :
    Moved s op s' := by
  change step s op = some s' at hstep
  cases op with
  | send message =>
      simp only [step] at hstep
      split at hstep
      · next hsendable =>
        cases hstep
        exact .send hsendable
      · cases hstep
  | pair =>
      cases hstep
      exact .pair
  | connect callback url =>
      cases hstep
      exact .connect
  | closeUnaccepted id =>
      cases hstep
      exact .closeUnaccepted
  | otherSocket =>
      cases hstep
      exact .otherSocket
  | handle alive =>
      simp only [step] at hstep
      split at hstep
      · next message rest hqueue hrunning =>
        cases hstep
        exact .handle hqueue hrunning
      · cases hstep
  | answer k =>
      simp only [step] at hstep
      split at hstep
      · next scope hbinding =>
        split at hstep
        · cases hstep
        · next hcancelled =>
          cases hstep
          exact .answer hbinding (Bool.not_eq_true _ ▸ hcancelled)
      · cases hstep
  | relay k =>
      simp only [step] at hstep
      split at hstep
      · next scope hbinding =>
        cases hstep
        exact .relay hbinding
      · cases hstep
  | outcome i connected =>
      simp only [step] at hstep
      split at hstep
      · next socket hsocket =>
        split at hstep
        · next houtcome =>
          cases hstep
          exact .touch hsocket (.outcome connected houtcome)
        · cases hstep
      · cases hstep
  | peer i message =>
      simp only [step] at hstep
      split at hstep
      · next socket hsocket =>
        split at hstep
        · cases hstep
        · next hthere =>
          cases hstep
          exact .touch hsocket (.peer message (Bool.not_eq_true _ ▸ hthere))
      · cases hstep
  | vanish i =>
      simp only [step] at hstep
      split at hstep
      · next hlt =>
        cases hstep
        exact .touch (getElem?_eq_getElem hlt) .vanish
      · cases hstep
  | poll i =>
      simp only [step] at hstep
      split at hstep
      · next socket hsocket =>
        split at hstep
        · cases hstep
        · next hmode =>
          cases hstep
          exact .poll hsocket hmode
      · cases hstep
  | cancel scope =>
      cases hstep
      exact .cancel
  | abortLoop =>
      cases hstep
      exact .abortLoop
  | cancelContext =>
      cases hstep
      exact .cancelContext

/-! ## The ids of sockets -/

/-- The socket that a message makes. -/
def makes : SchedulerMessage → Option WebSocketId
  | .webSocketPair id | .webSocketConnect _ id _ => some id
  | _ => none

/-- The ids that wait in messages. -/
def State.waiting (s : State) : List WebSocketId := s.toScheduler.filterMap makes

theorem waiting_of_handle {s : State} {message : SchedulerMessage} {rest : List SchedulerMessage}
    (h : s.toScheduler = message :: rest) :
    s.waiting = (makes message).toList ++ rest.filterMap makes := by
  rw [State.waiting, h]
  cases hmakes : makes message with
  | none => exact filterMap_cons_none hmakes
  | some id => exact filterMap_cons_some hmakes

theorem waiting_of_send {s s' : State} {message : SchedulerMessage}
    (h : s'.toScheduler = s.toScheduler ++ [message]) :
    s'.waiting = s.waiting ++ (makes message).toList := by
  rw [State.waiting, h, filterMap_append]
  cases hmakes : makes message with
  | none => rw [filterMap_cons_none hmakes]; rfl
  | some id => rw [filterMap_cons_some hmakes]; rfl

theorem makes_of_sendable {message : SchedulerMessage} (h : sendable message = true) :
    makes message = none := by
  cases message <;> first | rfl | cases h

/-! ## The sockets after a message -/

/-- The command that an effect has for a socket. -/
def commandFor (id : WebSocketId) : Effect → Option WebSocketCommand
  | .command id' command => if id' = id then some command else none
  | _ => none

/-- The effect drops the command channel of a socket. -/
def hangsUp (id : WebSocketId) : Effect → Bool
  | .hangUp id' => id' = id
  | _ => false

/-- A socket after the effects of a message. -/
def Socket.receive (effects : List Effect) (socket : Socket) : Socket :=
  { socket with
    commands := socket.commands ++ effects.filterMap (commandFor socket.id)
    hungUp := socket.hungUp || effects.any (hangsUp socket.id) }

/-- The socket whose task the loop starts for a message. -/
def newSocket (l : EventLoop) : SchedulerMessage → Option Socket
  | .webSocketConnect _ id _ => some (.ofConnect id l.scope)
  | .webSocketPair id => some (.ofPair id l.pairs.isSome l.scope)
  | _ => none

theorem performSockets_eq (sockets : List Socket) (effect : Effect) :
    performSockets sockets effect =
      sockets.map (Socket.receive [effect]) ++ performSockets [] effect := by
  have hid : ∀ {f : Socket → Socket}, (∀ socket, f socket = socket) → sockets.map f = sockets := by
    intro f hf
    rw [funext hf]
    exact map_id _
  have hkeep : (∀ id, commandFor id effect = none) → (∀ id, hangsUp id effect = false) →
      sockets.map (Socket.receive [effect]) = sockets := by
    intro hcommand hhang
    refine hid fun socket => ?_
    simp [Socket.receive, hcommand, hhang]
  cases effect with
  | command id command =>
      refine (append_nil _).symm.trans (congrArg (· ++ []) (map_congr_left ?_))
      intro socket _
      by_cases h : socket.id = id
      · simp [Socket.receive, onSocket, Socket.push, commandFor, hangsUp, h]
      · simp [Socket.receive, onSocket, commandFor, hangsUp, h, Ne.symm h]
  | hangUp id =>
      refine (append_nil _).symm.trans (congrArg (· ++ []) (map_congr_left ?_))
      intro socket _
      by_cases h : socket.id = id
      · simp [Socket.receive, onSocket, Socket.hangUp, commandFor, hangsUp, h]
      · have hcommand : commandFor socket.id (.hangUp id) = none := rfl
        simp [Socket.receive, onSocket, hcommand, hangsUp, h, Ne.symm h]
  | spawn task =>
      rw [hkeep (fun _ => rfl) fun _ => rfl]
      cases task <;> first | rfl | exact (append_nil _).symm
  | enqueue | openGate | closeStream | cancel =>
      rw [hkeep (fun _ => rfl) fun _ => rfl]
      exact (append_nil _).symm

theorem receive_cons (effect : Effect) (effects : List Effect) (socket : Socket) :
    Socket.receive effects (Socket.receive [effect] socket) =
      Socket.receive (effect :: effects) socket := by
  simp only [Socket.receive, append_assoc, ← filterMap_append, singleton_append,
    Bool.or_assoc, ← any_append]

/-- The sockets that were there get the commands for them, and the new ones are behind them. -/
theorem foldl_performSockets (effects : List Effect) (sockets : List Socket) :
    effects.foldl performSockets sockets =
      sockets.map (Socket.receive effects) ++ effects.foldl performSockets [] := by
  induction effects generalizing sockets with
  | nil =>
      have hid : Socket.receive [] = id := by
        funext socket
        simp [Socket.receive]
      rw [hid, map_id]
      exact (append_nil _).symm
  | cons effect effects ih =>
      rw [foldl_cons, foldl_cons, performSockets_eq, ih, ih (performSockets [] effect),
        map_append, map_map, append_assoc]
      congr 2
      funext socket
      exact receive_cons effect effects socket

theorem foldl_performSockets_nil {effects : List Effect}
    (h : ∀ effect ∈ effects, performSockets [] effect = []) :
    effects.foldl performSockets [] = [] := by
  induction effects with
  | nil => rfl
  | cons effect effects ih =>
      rw [foldl_cons, h effect mem_cons_self]
      exact ih fun e he => h e (mem_cons_of_mem _ he)

/-- The loop starts the task of a socket only for the messages that make one. -/
theorem handle_newSocket (l : EventLoop) (alive : Bool) (n : Nat) (message : SchedulerMessage) :
    (l.handle alive n message).2.foldl performSockets [] = (newSocket l message).toList := by
  cases message
  case webSocketConnect => rfl
  case webSocketPair =>
    simp only [EventLoop.handle, newSocket]
    cases l.pairs <;> rfl
  all_goals
    refine foldl_performSockets_nil fun effect heffect => ?_
    cases EventLoop.does_of_mem_handle heffect with
    | spawn htask => cases htask <;> rfl
    | _ => rfl

theorem handle_sockets {s : State} {alive : Bool} {message : SchedulerMessage}
    {rest : List SchedulerMessage} :
    (s.handle alive message rest).sockets =
      s.sockets.map (Socket.receive (s.loop.handle alive s.handled message).2) ++
        (newSocket s.loop message).toList := by
  change (s.loop.handle alive s.handled message).2.foldl performSockets s.sockets = _
  rw [foldl_performSockets, handle_newSocket]

end OpenWorkers.Sockets
