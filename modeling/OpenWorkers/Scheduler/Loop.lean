import OpenWorkers.Object.Queue

/-!
# The event loop of a context

`run_event_loop` of `src/runtime/scheduler.rs`.  One iteration takes a message or the end
of a timer, changes the local variables of the loop (`EventLoop`) and has `Effect`s on the
rest: it spawns tasks, puts work in the queue of the object, opens gates, sends commands to
the tasks of sockets.  What becomes of an effect is a matter of the machine that runs the
loop.

The payload of a message that the loop only passes on to the host (a request, a binding's
op) is left out.  `handle` gets the position of the message in the channel, which names
what the message creates: its task, its gate.
-/

namespace OpenWorkers.Scheduler

open List Object

abbrev StreamId := Nat

/-- The number of a request scope: the child of the token of the context that
`BeginRequest` makes. -/
abbrev Scope := Nat

inductive SchedulerMessage where
  | scheduleTimeout (callback : CallbackId) (delayMs : Nat)
  | scheduleWritable (callback : CallbackId) (stream : StreamId)
  | scheduleInterval (callback : CallbackId) (intervalMs : Nat)
  | clearTimer (callback : CallbackId)
  | fetchStreaming (callback : CallbackId)
  | bindingFetch (callback : CallbackId) (binding : String)
  | bindingStorage (callback : CallbackId) (binding : String)
  | bindingKv (callback : CallbackId) (binding : String)
  | bindingDatabase (callback : CallbackId) (binding : String)
  | bindingD1 (callback : CallbackId) (binding : String)
  | bindingWorker (callback : CallbackId) (binding : String)
  | bindingInvoke (callback : CallbackId)
  | bindingDurableObject (callback : CallbackId) (binding : String) (id : String)
  | objectStorage (callback : CallbackId) (op : ObjectStorageOp)
  | objectSocket (op : ObjectSocketOp)
  | objectUpgrade (socket : WebSocketId)
  | outputBarrier
  | streamRead (callback : CallbackId) (stream : StreamId)
  | streamCancel (stream : StreamId)
  | webSocketConnect (callback : CallbackId) (socket : WebSocketId) (url : String)
  | webSocketPair (socket : WebSocketId)
  | webSocketUpgrade (socket : Option WebSocketId)
  | webSocketAccept (socket : WebSocketId)
  | webSocketSend (socket : WebSocketId) (message : WebSocketOutgoing)
  | webSocketClose (socket : WebSocketId) (code : Nat) (reason : String)
  | beginRequest (abort : Option Nat)
  | shutdown
deriving DecidableEq, Repr

/-- The message is a storage write of the object. -/
def SchedulerMessage.isWrite : SchedulerMessage → Bool
  | .objectStorage _ op => op.writes
  | _ => false

structure Timer where
  id : CallbackId
  isInterval : Bool
  intervalMs : Nat
deriving DecidableEq, Repr

/-- The local variables of `run_event_loop`. -/
structure EventLoop where
  timers : List Timer
  cancelled : List CallbackId
  shutdown : Bool
  /-- `request_cancel`. -/
  scope : Scope
  /-- The sockets with a command channel. -/
  wsCommands : List WebSocketId
  /-- The queue of the object exists. -/
  queue : Bool
  /-- The sockets that binding responses handed over. -/
  relays : List WebSocketId
  /-- The pairs the response of the request can still carry; `none` once it is read. -/
  pairs : Option (List WebSocketId)
deriving DecidableEq, Repr

/-- What an outbound call waits for. -/
inductive Gate where
  /-- Nothing: the object had made no storage op. -/
  | free
  /-- The barrier of this name. -/
  | behind (gate : GateId)
  /-- A barrier whose sender is gone already. -/
  | closed
deriving DecidableEq, Repr

/-- The operations that are one call of the host and one answer. -/
inductive CallKind where
  | fetch
  | bindingFetch
  | worker
  | durableObject
  | storage
  | kv
  | database
  | d1
  | invoke
deriving DecidableEq, Repr

/-- The calls that take the output gate. -/
def CallKind.gated : CallKind → Bool
  | .fetch | .bindingFetch | .worker | .durableObject => true
  | .storage | .kv | .database | .d1 | .invoke => false

inductive WebSocketCommand where
  | attach
  | accept
  | send (message : WebSocketOutgoing)
  | close (code : Nat) (reason : String)
deriving DecidableEq, Repr

/-- The tasks that the loop spawns, besides the queue. -/
inductive Task where
  | writable (callback : CallbackId) (stream : StreamId) (scope : Scope)
  | call (kind : CallKind) (callback : CallbackId) (gate : Gate) (scope : Scope)
  | streamRead (callback : CallbackId) (stream : StreamId) (scope : Scope)
  | webSocket (callback : CallbackId) (socket : WebSocketId) (scope : Scope)
  | serverWebSocket (socket : WebSocketId) (carried : Bool) (scope : Scope)
  /-- `forward`: gives the socket of an upgrade to a relay. -/
  | forward (socket : WebSocketId)
  /-- Cancels the scope when the token of the caller fires. -/
  | linkAbort (abort : Nat) (scope : Scope)
deriving DecidableEq, Repr

inductive Effect where
  | spawn (task : Task)
  | enqueue (work : Queued)
  /-- The gate of the message opens at once. -/
  | openGate
  | command (socket : WebSocketId) (command : WebSocketCommand)
  /-- The command channel of a socket is dropped. -/
  | hangUp (socket : WebSocketId)
  | closeStream (stream : StreamId)
  | cancel (scope : Scope)
deriving DecidableEq, Repr

namespace EventLoop

/-- The loop as it starts. -/
def init : EventLoop := ⟨[], [], false, 0, [], false, [], some []⟩

/-- `output_gate`: a barrier behind the work queued so far.  Without a queue there is
nothing to wait for, and a queue whose task is gone (`alive`) takes no barrier. -/
def outputGate (l : EventLoop) (alive : Bool) (n : GateId) : Gate × List Effect :=
  if l.queue && alive then (.behind n, [.enqueue (.barrier n)]) else (.free, [])

/-- `enqueue`, which starts the queue if it has to. -/
def enqueue (l : EventLoop) (work : Queued) : EventLoop × List Effect :=
  ({ l with queue := true }, [.enqueue work])

/-- A call that takes the output gate. -/
def gatedCall (l : EventLoop) (alive : Bool) (n : GateId) (kind : CallKind)
    (callback : CallbackId) : EventLoop × List Effect :=
  let (gate, effects) := l.outputGate alive n
  (l, effects ++ [.spawn (.call kind callback gate l.scope)])

/-- A call that does not. -/
def freeCall (l : EventLoop) (kind : CallKind) (callback : CallbackId) :
    EventLoop × List Effect :=
  (l, [.spawn (.call kind callback .free l.scope)])

/-- A command for the task of a socket, if it still has its channel. -/
def command (l : EventLoop) (socket : WebSocketId) (command : WebSocketCommand) :
    EventLoop × List Effect :=
  (l, if socket ∈ l.wsCommands then [.command socket command] else [])

/-- `WebSocketUpgrade`: the pair or the relay that the response carries gets the socket of
the upgrade, and the other pairs close. -/
def upgrade (l : EventLoop) (socket : Option WebSocketId) : EventLoop × List Effect :=
  let pairs := l.pairs.getD []
  let unused := match socket with
    | none => pairs
    | some ws => pairs.erase ws
  let carried : List Effect := match socket with
    | none => []
    | some ws =>
      if ws ∈ pairs ∧ ws ∈ l.wsCommands then
        [.command ws .attach]
      else if ws ∈ l.relays then
        [.spawn (.forward ws)]
      else
        []
  ({ l with
      pairs := none
      relays := []
      wsCommands := l.wsCommands.filter (· ∉ unused) },
    carried ++ unused.map .hangUp)

/-- What the loop does with the message at position `n` of its channel. -/
def handle (alive : Bool) (n : Nat) (l : EventLoop) : SchedulerMessage → EventLoop × List Effect
  | .scheduleTimeout id delayMs =>
    ({ l with
        cancelled := l.cancelled.filter (· ≠ id)
        timers := l.timers ++ [⟨id, false, delayMs⟩] }, [])
  | .scheduleInterval id intervalMs =>
    ({ l with
        cancelled := l.cancelled.filter (· ≠ id)
        timers := l.timers ++ [⟨id, true, intervalMs⟩] }, [])
  | .scheduleWritable id stream => (l, [.spawn (.writable id stream l.scope)])
  | .clearTimer id => ({ l with cancelled := id :: l.cancelled.filter (· ≠ id) }, [])
  | .fetchStreaming callback => l.gatedCall alive n .fetch callback
  | .bindingFetch callback _ => l.gatedCall alive n .bindingFetch callback
  | .bindingStorage callback _ => l.freeCall .storage callback
  | .bindingKv callback _ => l.freeCall .kv callback
  | .bindingDatabase callback _ => l.freeCall .database callback
  | .bindingInvoke callback => l.freeCall .invoke callback
  | .bindingD1 callback _ => l.freeCall .d1 callback
  | .bindingWorker callback _ => l.gatedCall alive n .worker callback
  | .bindingDurableObject callback _ _ => l.gatedCall alive n .durableObject callback
  | .objectStorage callback op => l.enqueue (.storage callback op)
  | .objectSocket op => l.enqueue (.socket op)
  | .outputBarrier => (l, if l.queue then [.enqueue (.barrier n)] else [.openGate])
  | .objectUpgrade socket =>
    if socket ∈ l.relays then
      ({ l with relays := l.relays.erase socket }, [.spawn (.forward socket)])
    else
      l.enqueue (.socket (.attach socket))
  | .webSocketConnect callback socket _ =>
    ({ l with wsCommands := socket :: l.wsCommands.filter (· ≠ socket) },
      [.spawn (.webSocket callback socket l.scope)])
  | .webSocketPair socket =>
    match l.pairs with
    -- A pair made after the response never gets a socket: its commands go nowhere.
    | none => (l, [.spawn (.serverWebSocket socket false l.scope)])
    | some pairs =>
      ({ l with
          pairs := some (socket :: pairs.filter (· ≠ socket))
          wsCommands := socket :: l.wsCommands.filter (· ≠ socket) },
        [.spawn (.serverWebSocket socket true l.scope)])
  | .webSocketUpgrade socket => l.upgrade socket
  | .webSocketAccept socket => l.command socket .accept
  | .webSocketSend socket message => l.command socket (.send message)
  | .webSocketClose socket code reason =>
    ({ l with wsCommands := l.wsCommands.filter (· ≠ socket) },
      if socket ∈ l.wsCommands then [.command socket (.close code reason), .hangUp socket] else [])
  | .streamRead callback stream => (l, [.spawn (.streamRead callback stream l.scope)])
  | .streamCancel stream => (l, [.closeStream stream])
  | .beginRequest abort =>
    ({ l with scope := l.scope + 1, wsCommands := [], pairs := some [] },
      [.cancel l.scope] ++ l.wsCommands.map .hangUp ++
        abort.toList.map fun token => .spawn (.linkAbort token (l.scope + 1)))
  | .shutdown => ({ l with shutdown := true }, [])

/-! ## The effects of a message -/

/-- The task that the loop spawns for a message, behind the gate it found. -/
def task (l : EventLoop) (gate : Gate) : SchedulerMessage → Option Task
  | .scheduleWritable id stream => some (.writable id stream l.scope)
  | .fetchStreaming callback => some (.call .fetch callback gate l.scope)
  | .bindingFetch callback _ => some (.call .bindingFetch callback gate l.scope)
  | .bindingStorage callback _ => some (.call .storage callback .free l.scope)
  | .bindingKv callback _ => some (.call .kv callback .free l.scope)
  | .bindingDatabase callback _ => some (.call .database callback .free l.scope)
  | .bindingInvoke callback => some (.call .invoke callback .free l.scope)
  | .bindingD1 callback _ => some (.call .d1 callback .free l.scope)
  | .bindingWorker callback _ => some (.call .worker callback gate l.scope)
  | .bindingDurableObject callback _ _ => some (.call .durableObject callback gate l.scope)
  | .webSocketConnect callback socket _ => some (.webSocket callback socket l.scope)
  | .webSocketPair socket => some (.serverWebSocket socket l.pairs.isSome l.scope)
  | .streamRead callback stream => some (.streamRead callback stream l.scope)
  | _ => none

/-- The pairs that close because the response carries another socket, or none. -/
def unused (l : EventLoop) : Option WebSocketId → List WebSocketId
  | none => l.pairs.getD []
  | some socket => (l.pairs.getD []).erase socket

/-- What the loop does for a message. -/
inductive Does (l : EventLoop) : SchedulerMessage → Effect → Prop
  | spawn {message : SchedulerMessage} {gate : Gate} {task : Task}
      (htask : l.task gate message = some task) : Does l message (.spawn task)
  | enqueue {message : SchedulerMessage} {work : Queued}
      (hstorage : ∀ callback op, work = .storage callback op →
        message = .objectStorage callback op) :
      Does l message (.enqueue work)
  | openGate {message : SchedulerMessage} : Does l message .openGate
  | closeStream {stream : StreamId} : Does l (.streamCancel stream) (.closeStream stream)
  | forward {message : SchedulerMessage} {socket : WebSocketId}
      (hmessage : message = .objectUpgrade socket ∨ message = .webSocketUpgrade (some socket))
      (hrelay : socket ∈ l.relays) : Does l message (.spawn (.forward socket))
  | attach {socket : WebSocketId} (hpair : socket ∈ l.pairs.getD [])
      (hcommands : socket ∈ l.wsCommands) :
      Does l (.webSocketUpgrade (some socket)) (.command socket .attach)
  | unused {named : Option WebSocketId} {socket : WebSocketId}
      (hunused : socket ∈ l.unused named) : Does l (.webSocketUpgrade named) (.hangUp socket)
  | accept {socket : WebSocketId} (hcommands : socket ∈ l.wsCommands) :
      Does l (.webSocketAccept socket) (.command socket .accept)
  | send {socket : WebSocketId} {message : WebSocketOutgoing}
      (hcommands : socket ∈ l.wsCommands) :
      Does l (.webSocketSend socket message) (.command socket (.send message))
  | close {socket : WebSocketId} {code : Nat} {reason : String}
      (hcommands : socket ∈ l.wsCommands) :
      Does l (.webSocketClose socket code reason) (.command socket (.close code reason))
  | closed {socket : WebSocketId} {code : Nat} {reason : String}
      (hcommands : socket ∈ l.wsCommands) :
      Does l (.webSocketClose socket code reason) (.hangUp socket)
  | cancel {abort : Option Nat} : Does l (.beginRequest abort) (.cancel l.scope)
  | hangUp {abort : Option Nat} {socket : WebSocketId} (hcommands : socket ∈ l.wsCommands) :
      Does l (.beginRequest abort) (.hangUp socket)
  | linkAbort {token : Nat} :
      Does l (.beginRequest (some token)) (.spawn (.linkAbort token (l.scope + 1)))

section Does

variable {l : EventLoop} {alive : Bool} {n : Nat} {effect : Effect}

theorem does_gatedCall {message : SchedulerMessage} {kind : CallKind} {callback : CallbackId}
    (htask : ∀ gate, l.task gate message = some (.call kind callback gate l.scope))
    (h : effect ∈ (l.gatedCall alive n kind callback).2) : Does l message effect := by
  unfold gatedCall outputGate at h
  rcases mem_append.mp h with h | h
  · split at h
    · cases mem_singleton.mp h
      exact .enqueue nofun
    · cases h
  · cases mem_singleton.mp h
    exact .spawn (htask _)

theorem does_task {message : SchedulerMessage} {task : Task}
    (htask : l.task .free message = some task) (h : effect ∈ [Effect.spawn task]) :
    Does l message effect := by
  cases mem_singleton.mp h
  exact .spawn htask

theorem does_command {message : SchedulerMessage} {socket : WebSocketId}
    {command : WebSocketCommand}
    (hcommand : socket ∈ l.wsCommands → Does l message (.command socket command))
    (h : effect ∈ (l.command socket command).2) : Does l message effect := by
  unfold EventLoop.command at h
  dsimp only at h
  split at h
  · next hsocket =>
    cases mem_singleton.mp h
    exact hcommand hsocket
  · cases h

theorem does_upgrade {named : Option WebSocketId} (h : effect ∈ (l.upgrade named).2) :
    Does l (.webSocketUpgrade named) effect := by
  unfold upgrade at h
  rcases mem_append.mp h with h | h
  · cases named with
    | none => cases h
    | some socket =>
        dsimp only at h
        split at h
        · next hpair =>
          cases mem_singleton.mp h
          exact .attach hpair.1 hpair.2
        · split at h
          · next hrelay =>
            cases mem_singleton.mp h
            exact .forward (.inr rfl) hrelay
          · cases h
  · obtain ⟨socket, hsocket, rfl⟩ := mem_map.mp h
    cases named with
    | none => exact .unused hsocket
    | some named => exact .unused hsocket

theorem does_beginRequest {abort : Option Nat}
    (h : effect ∈ (l.handle alive n (.beginRequest abort)).2) :
    Does l (.beginRequest abort) effect := by
  rcases mem_append.mp h with h | h
  · rcases mem_cons.mp h with rfl | h
    · exact .cancel
    · obtain ⟨socket, hsocket, rfl⟩ := mem_map.mp h
      exact .hangUp hsocket
  · obtain ⟨token, htoken, rfl⟩ := mem_map.mp h
    cases Option.mem_toList.mp htoken
    exact .linkAbort

/-- Every effect of a message is accounted for. -/
theorem does_of_mem_handle {message : SchedulerMessage}
    (h : effect ∈ (l.handle alive n message).2) : Does l message effect := by
  cases message
  case fetchStreaming => exact does_gatedCall (fun _ => rfl) h
  case bindingFetch => exact does_gatedCall (fun _ => rfl) h
  case bindingWorker => exact does_gatedCall (fun _ => rfl) h
  case bindingDurableObject => exact does_gatedCall (fun _ => rfl) h
  case webSocketUpgrade => exact does_upgrade h
  case beginRequest => exact does_beginRequest h
  case scheduleWritable => exact does_task rfl h
  case bindingStorage => exact does_task rfl h
  case bindingKv => exact does_task rfl h
  case bindingDatabase => exact does_task rfl h
  case bindingInvoke => exact does_task rfl h
  case bindingD1 => exact does_task rfl h
  case webSocketConnect => exact does_task rfl h
  case streamRead => exact does_task rfl h
  case webSocketPair =>
    unfold handle at h
    dsimp only at h
    split at h
    · next hpairs => exact does_task (by rw [task, hpairs]; rfl) h
    · next hpairs => exact does_task (by rw [task, hpairs]; rfl) h
  case objectStorage =>
    cases mem_singleton.mp h
    refine .enqueue fun callback op hwork => ?_
    cases hwork
    rfl
  case objectSocket =>
    cases mem_singleton.mp h
    exact .enqueue nofun
  case objectUpgrade =>
    unfold handle at h
    dsimp only at h
    split at h
    · next hrelay =>
      cases mem_singleton.mp h
      exact .forward (.inl rfl) hrelay
    · cases mem_singleton.mp h
      exact .enqueue nofun
  case outputBarrier =>
    unfold handle at h
    dsimp only at h
    split at h
    · cases mem_singleton.mp h
      exact .enqueue nofun
    · cases mem_singleton.mp h
      exact .openGate
  case webSocketAccept => exact does_command .accept h
  case webSocketSend => exact does_command .send h
  case webSocketClose =>
    unfold handle at h
    dsimp only at h
    split at h
    · next hsocket =>
      rcases mem_cons.mp h with rfl | h
      · exact .close hsocket
      · cases mem_singleton.mp h
        exact .closed hsocket
    · cases h
  case streamCancel =>
    cases mem_singleton.mp h
    exact .closeStream
  all_goals cases h

end Does

/-! ## The variables after a message -/

/-- What becomes of the variables of the loop. -/
inductive Becomes (l : EventLoop) : SchedulerMessage → EventLoop → Prop
  | same {message : SchedulerMessage} (hbegin : ∀ abort, message ≠ .beginRequest abort) :
      Becomes l message l
  | timeout {id : CallbackId} {delayMs : Nat} : Becomes l (.scheduleTimeout id delayMs)
      { l with
        cancelled := l.cancelled.filter (· ≠ id), timers := l.timers ++ [⟨id, false, delayMs⟩] }
  | interval {id : CallbackId} {intervalMs : Nat} : Becomes l (.scheduleInterval id intervalMs)
      { l with
        cancelled := l.cancelled.filter (· ≠ id), timers := l.timers ++ [⟨id, true, intervalMs⟩] }
  | clear {id : CallbackId} : Becomes l (.clearTimer id)
      { l with cancelled := id :: l.cancelled.filter (· ≠ id) }
  | queue {message : SchedulerMessage} (hbegin : ∀ abort, message ≠ .beginRequest abort) :
      Becomes l message { l with queue := true }
  | relay {socket : WebSocketId} : Becomes l (.objectUpgrade socket)
      { l with relays := l.relays.erase socket }
  | connect {callback : CallbackId} {socket : WebSocketId} {url : String} :
      Becomes l (.webSocketConnect callback socket url)
        { l with wsCommands := socket :: l.wsCommands.filter (· ≠ socket) }
  | pair {socket : WebSocketId} {pairs : List WebSocketId} (hpairs : l.pairs = some pairs) :
      Becomes l (.webSocketPair socket)
        { l with
          pairs := some (socket :: pairs.filter (· ≠ socket))
          wsCommands := socket :: l.wsCommands.filter (· ≠ socket) }
  | upgrade {named : Option WebSocketId} : Becomes l (.webSocketUpgrade named)
      { l with
        pairs := none, relays := [], wsCommands := l.wsCommands.filter (· ∉ l.unused named) }
  | close {socket : WebSocketId} {code : Nat} {reason : String} :
      Becomes l (.webSocketClose socket code reason)
        { l with wsCommands := l.wsCommands.filter (· ≠ socket) }
  | beginRequest {abort : Option Nat} : Becomes l (.beginRequest abort)
      { l with scope := l.scope + 1, wsCommands := [], pairs := some [] }
  | shutdown : Becomes l .shutdown { l with shutdown := true }

theorem becomes_handle (l : EventLoop) (alive : Bool) (n : Nat) (message : SchedulerMessage) :
    Becomes l message (l.handle alive n message).1 := by
  cases message
  case scheduleTimeout => exact .timeout
  case scheduleInterval => exact .interval
  case clearTimer => exact .clear
  case objectStorage => exact .queue nofun
  case objectSocket => exact .queue nofun
  case objectUpgrade =>
    unfold handle
    dsimp only
    split
    · exact .relay
    · exact .queue nofun
  case webSocketConnect => exact .connect
  case webSocketPair =>
    unfold handle
    dsimp only
    split
    · exact .same nofun
    · next hpairs => exact .pair hpairs
  case webSocketUpgrade named => cases named <;> exact .upgrade
  case webSocketClose => exact .close
  case beginRequest => exact .beginRequest
  case shutdown => exact .shutdown
  all_goals exact .same nofun

end EventLoop

end OpenWorkers.Scheduler
