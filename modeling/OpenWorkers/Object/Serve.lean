import OpenWorkers.Core
import OpenWorkers.Lib.Machine
import OpenWorkers.Object.Queue
import Mathlib.Data.List.Basic

/-!
# An instance serves its events

`ExecutionContext::serve` and `turn` of `src/execution_context/durable_object.rs`, with the
part of `src/js/durable_object.js` that they ask for the state of the gate.

`serve` is polled any number of times.  A poll is one turn and what follows it: up to
`MAX_ROUNDS` rounds, each of which admits events while the gate is open, delivers the
callbacks that the gate lets in and answers the events that are ready; then the timers.  The
machine makes the stretches between two looks at the gate its steps, so that the guest, the
host, the mailbox and the clock can do anything in between.

What the guest does in a stretch is a list of `GlueOp`s: it starts and ends storage reads
and `blockConcurrencyWhile` callbacks, and it may fail.  The mailbox and the channel of the
callbacks are kept as the lists of everything put in them, with the number of items taken.
`admitted` and `delivered` record what was let in, and the state of the glue at that moment.
-/

namespace OpenWorkers.Object

open Option

/-- The messages of the event loop and of its tasks to the guest. -/
inductive CallbackMessage where
  | executeTimeout (callback : CallbackId)
  | executeInterval (callback : CallbackId)
  | fetchError (callback : CallbackId) (message : String)
  | fetchStreamingSuccess (callback : CallbackId) (stream : Nat)
  | bindingUpgrade (callback : CallbackId) (socket : WebSocketId)
  | streamChunk (callback : CallbackId)
  | storageResult (callback : CallbackId)
  | kvResult (callback : CallbackId)
  | databaseResult (callback : CallbackId)
  | invokeResult (callback : CallbackId)
  | d1Result (callback : CallbackId)
  | objectStorage (callback : CallbackId) (result : ObjectStorageResult)
  | webSocketConnected (callback : CallbackId) (socket : WebSocketId)
  | webSocketConnectError (callback : CallbackId) (message : String)
  | webSocketEvent (socket : WebSocketId)
deriving DecidableEq, Repr

/-- `matches!(message, CallbackMessage::ObjectStorage(..))`. -/
def CallbackMessage.isObjectStorage : CallbackMessage → Bool
  | .objectStorage _ _ => true
  | _ => false

namespace Serve

/-! ## The glue -/

/-- The counters of `durable_object.js`. -/
structure Glue where
  blocked : Nat
  reads : Nat
  failure : Option String
deriving DecidableEq, Repr

inductive GlueOp where
  | startRead
  | endRead
  | block
  | unblock
  /-- A write or a `blockConcurrencyWhile` callback fails. -/
  | fail (message : String)
deriving DecidableEq, Repr

namespace Glue

/-- A read ends once, and so does a callback. -/
def apply (g : Glue) : GlueOp → Option Glue
  | .startRead => some { g with reads := g.reads + 1 }
  | .endRead => if g.reads = 0 then none else some { g with reads := g.reads - 1 }
  | .block => some { g with blocked := g.blocked + 1 }
  | .unblock => if g.blocked = 0 then none else some { g with blocked := g.blocked - 1 }
  | .fail message => some { g with failure := some (g.failure.getD message) }

def run : Glue → List GlueOp → Option Glue
  | g, [] => some g
  | g, op :: ops => (g.apply op).bind fun g' => g'.run ops

end Glue

/-- What the object lets through. -/
inductive Gate where
  | state (blocked reading : Bool)
  | broken (message : String)
deriving DecidableEq, Repr

def Glue.gate (g : Glue) : Gate :=
  match g.failure with
  | some message => .broken message
  | none => .state (0 < g.blocked) (0 < g.reads)

/-! ## The state -/

def maxRounds : Nat := 4

/-- In milliseconds. -/
def gateTimeout : Nat := 30000

structure Config where
  idle : Nat
  drain : Nat
deriving DecidableEq, Repr

inductive ObjectEvent where
  | fetch
  | alarm (retryCount : Nat)
  | socket (socket : WebSocketId)
deriving DecidableEq, Repr

/-- A position in the mailbox. -/
abbrev EventId := Nat

inductive Phase where
  /-- Between two polls. -/
  | idle
  /-- In the loop that admits events, with the number admitted in this round. -/
  | admitting (round admitted : Nat)
  /-- In `drain_gated`, with the number of callbacks delivered. -/
  | draining (round admitted count : Nat)
  /-- After `drain_gated`. -/
  | answering (round admitted count : Nat)
  /-- The turn has returned, with the message of its error if it has one. -/
  | settling (error : Option String)
  | ended (outcome : Outcome)
deriving DecidableEq, Repr

structure State where
  glue : Glue
  /-- Everything sent to the mailbox; the event at position 0 is `first`. -/
  mailbox : List ObjectEvent
  mailboxOpen : Bool
  /-- How many events were taken from the mailbox. -/
  taken : Nat
  queue : List EventId
  admitted : List (EventId × Glue)
  /-- The events whose admission failed. -/
  refused : List EventId
  inflight : List EventId
  /-- Everything sent to the channel of the callbacks. -/
  arrived : List CallbackMessage
  channelOpen : Bool
  received : Nat
  pending : List CallbackMessage
  delivered : List (CallbackMessage × Glue)
  closed : Bool
  /-- `admitted` of the outcome of the turn. -/
  took : Bool
  /-- An event was in flight before the turn. -/
  active : Bool
  /-- The turn woke its own waker. -/
  woken : Bool
  now : Nat
  idleTimer : Nat
  gateTimer : Option Nat
  drainTimer : Option Nat
  phase : Phase
deriving DecidableEq, Repr

inductive Action where
  | tick (ms : Nat)
  | mail (event : ObjectEvent)
  | closeMailbox
  | arrive (message : CallbackMessage)
  | closeChannel
  | poll
  /-- The next event goes in, and its handler runs; it may fail. -/
  | admitEvent (effects : List GlueOp) (error : Option String)
  /-- The gate is closed, or no event is there. -/
  | endAdmission
  /-- The next callback that the gate lets in is delivered. -/
  | deliver (effects : List GlueOp)
  | endDrain
  /-- `answer`, with the events that are over; it says whether it ran guest code. -/
  | answer (answered : Bool) (finished : List EventId) (effects : List GlueOp)
  /-- What `serve` does after a turn, with the limits that the turn went over and the
  events whose caller left. -/
  | settle (cpu wall memory : Bool) (pinned : Bool) (left : List EventId)
deriving DecidableEq, Repr

/-- `serve` begins, with what the constructor left. -/
def init (cfg : Config) (glue : Glue) (first : ObjectEvent) : State where
  glue
  mailbox := [first]
  mailboxOpen := true
  taken := 1
  queue := [0]
  admitted := []
  refused := []
  inflight := []
  arrived := []
  channelOpen := true
  received := 0
  pending := []
  delivered := []
  closed := false
  took := false
  active := false
  woken := false
  now := 0
  idleTimer := cfg.idle
  gateTimer := none
  drainTimer := none
  phase := .idle

/-! ## A turn -/

/-- `matches!(self.gate(), Gate::State { blocked: false, reading: false, .. })`. -/
def Gate.isOpen : Gate → Bool
  | .state false false => true
  | .state _ _ | .broken _ => false

/-- `matches!(self.gate(), Gate::State { reading: true, .. })`. -/
def Gate.isReading : Gate → Bool
  | .state _ true => true
  | .state _ false | .broken _ => false

namespace State

/-- The next event of the queue, or else of the mailbox. -/
def nextEvent (s : State) : Option (EventId × State) :=
  match s.queue with
  | id :: queue => some (id, { s with queue })
  | [] =>
    if s.taken < s.mailbox.length then some (s.taken, { s with taken := s.taken + 1 }) else none

/-- The position of the next callback that the gate lets in. -/
def nextCallback (s : State) : Option Nat :=
  if s.glue.gate.isReading then
    s.pending.findIdx? CallbackMessage.isObjectStorage
  else if s.pending = [] then
    none
  else
    some 0

/-- The admission loop goes on with an event. -/
def admitEvent (s : State) (round admitted : Nat) (effects : List GlueOp) (error : Option String) :
    Option State :=
  if s.glue.gate.isOpen then
    s.nextEvent.bind fun next => (s.glue.run effects).map fun glue =>
      match error with
      | none =>
        { next.2 with
          glue
          admitted := s.admitted ++ [(next.1, s.glue)]
          inflight := s.inflight ++ [next.1]
          phase := .admitting round (admitted + 1) }
      | some message =>
        { next.2 with
          glue
          refused := s.refused ++ [next.1]
          phase := .settling (some message) }
  else
    none

/-- The admission loop ends, and `drain_gated` takes what is in the channel. -/
def endAdmission (s : State) (round admitted : Nat) : Option State :=
  if s.glue.gate.isOpen && s.nextEvent.isSome then
    none
  else
    some { s with
      closed := s.closed || (s.glue.gate.isOpen && !s.mailboxOpen)
      pending := s.pending ++ s.arrived.drop s.received
      received := s.arrived.length
      phase :=
        if s.channelOpen then .draining round admitted 0
        else .settling (some "Event loop channel closed") }

/-- One iteration of the loop of `drain_gated`. -/
def deliver (s : State) (round admitted count : Nat) (effects : List GlueOp) : Option State :=
  s.nextCallback.bind fun index => s.pending[index]?.bind fun message =>
    (s.glue.run effects).map fun glue =>
      { s with
        glue
        pending := s.pending.eraseIdx index
        delivered := s.delivered ++ [(message, s.glue)]
        phase := .draining round admitted (count + 1) }

/-- The end of a round. -/
def answer (s : State) (round admitted count : Nat) (answered : Bool) (finished : List EventId)
    (effects : List GlueOp) : Option State :=
  match s.glue.gate with
  | .broken _ => some { s with phase := .settling none }
  | .state _ _ =>
    -- Guest code runs only in an `answer` that says so.
    if answered = false ∧ effects ≠ [] then
      none
    else
      (s.glue.run effects).map fun glue =>
        let s' := { s with
          glue
          inflight := s.inflight.filter (· ∉ finished)
          took := s.took || 0 < admitted }
        if admitted = 0 ∧ count = 0 ∧ answered = false then
          { s' with phase := .settling none }
        else if round + 1 < maxRounds then
          { s' with phase := .admitting (round + 1) 0 }
        else
          { s' with woken := true, phase := .settling none }

/-! ## After a turn -/

/-- The timer of a gate that `blockConcurrencyWhile` holds. -/
def checkGate (s : State) : Except TerminationReason State :=
  match s.glue.gate with
  | .broken message => .error (.exception message)
  | .state true _ =>
    let timer := s.gateTimer.getD (s.now + gateTimeout)
    if timer ≤ s.now then
      .error (.other "blockConcurrencyWhile held the object for too long")
    else
      .ok { s with gateTimer := some timer }
  | .state false _ => .ok { s with gateTimer := none }

theorem checkGate_eq_ok {s s' : State} (h : s.checkGate = .ok s') :
    s' = { s with gateTimer := s'.gateTimer } := by
  unfold checkGate at h
  split at h
  · cases h
  · simp only at h
    split at h
    · cases h
    · cases h
      rfl
  · cases h
    rfl

/-- The events whose caller left go, and what keeps the object moves the idle timer. -/
def keep (s : State) (cfg : Config) (pinned : Bool) (left : List EventId) : State :=
  let inflight := s.inflight.filter (· ∉ left)
  { s with
    inflight
    idleTimer :=
      if s.active || s.took || pinned || !inflight.isEmpty then s.now + cfg.idle else s.idleTimer }

/-- The object ends if it is idle, or if it closed and its events take too long. -/
def checkIdle (s : State) (cfg : Config) : State :=
  if s.inflight = [] ∧ (s.closed = true ∨ s.idleTimer ≤ s.now) then
    { s with phase := .ended (.ok ()) }
  else if s.closed then
    let timer := s.drainTimer.getD (s.now + cfg.drain)
    if timer ≤ s.now then
      { s with
        phase := .ended (.error (.other "events in flight did not end after the object closed")) }
    else
      { s with drainTimer := some timer, phase := .idle }
  else
    { s with phase := .idle }

end State

/-- The limit a turn went over, if any. -/
def stopped (cpu wall memory : Bool) : Option TerminationReason :=
  if cpu then some .cpuTimeLimit
  else if wall then some .wallClockTimeout
  else if memory then some .memoryLimit
  else none

/-- What `serve` does after a turn. -/
def State.settle (s : State) (cfg : Config) (error : Option String)
    (limit : Option TerminationReason)
    (pinned : Bool) (left : List EventId) : State :=
  match limit, error with
  | some reason, _ => { s with phase := .ended (.error reason) }
  | none, some message => { s with phase := .ended (.error (.exception message)) }
  | none, none =>
    match s.checkGate with
    | .error reason => { s with phase := .ended (.error reason) }
    | .ok s' => (s'.keep cfg pinned left).checkIdle cfg

def step (cfg : Config) (s : State) : Action → Option State
  | .tick ms => some { s with now := s.now + ms }
  | .mail event => if s.mailboxOpen then some { s with mailbox := s.mailbox ++ [event] } else none
  | .closeMailbox => some { s with mailboxOpen := false }
  | .arrive message =>
    if s.channelOpen then some { s with arrived := s.arrived ++ [message] } else none
  | .closeChannel => some { s with channelOpen := false }
  | .poll =>
    match s.phase with
    | .idle =>
      some { s with
        took := false
        woken := false
        active := !s.inflight.isEmpty
        phase := .admitting 0 0 }
    | _ => none
  | .admitEvent effects error =>
    match s.phase with
    | .admitting round admitted => s.admitEvent round admitted effects error
    | _ => none
  | .endAdmission =>
    match s.phase with
    | .admitting round admitted => s.endAdmission round admitted
    | _ => none
  | .deliver effects =>
    match s.phase with
    | .draining round admitted count => s.deliver round admitted count effects
    | _ => none
  | .endDrain =>
    match s.phase with
    | .draining round admitted count =>
      if s.nextCallback = none then some { s with phase := .answering round admitted count }
      else none
    | _ => none
  | .answer answered finished effects =>
    match s.phase with
    | .answering round admitted count => s.answer round admitted count answered finished effects
    | _ => none
  | .settle cpu wall memory pinned left =>
    match s.phase with
    | .settling error => some (s.settle cfg error (stopped cpu wall memory) pinned left)
    | _ => none

/-- The steps of `serve`, one constructor for each way a step can go. -/
inductive Step (cfg : Config) (s : State) : Action → State → Prop where
  | tick (ms : Nat) : Step cfg s (.tick ms) { s with now := s.now + ms }
  | mail (event : ObjectEvent) (hopen : s.mailboxOpen = true) :
      Step cfg s (.mail event) { s with mailbox := s.mailbox ++ [event] }
  | closeMailbox : Step cfg s .closeMailbox { s with mailboxOpen := false }
  | arrive (message : CallbackMessage) (hopen : s.channelOpen = true) :
      Step cfg s (.arrive message) { s with arrived := s.arrived ++ [message] }
  | closeChannel : Step cfg s .closeChannel { s with channelOpen := false }
  | poll (hphase : s.phase = .idle) : Step cfg s .poll
      { s with
        took := false
        woken := false
        active := !s.inflight.isEmpty
        phase := .admitting 0 0 }
  | admitEvent {round admitted : Nat} {effects : List GlueOp} {error : Option String} {s' : State}
      (hphase : s.phase = .admitting round admitted)
      (hevent : s.admitEvent round admitted effects error = some s') :
      Step cfg s (.admitEvent effects error) s'
  | endAdmission {round admitted : Nat} {s' : State} (hphase : s.phase = .admitting round admitted)
      (hend : s.endAdmission round admitted = some s') : Step cfg s .endAdmission s'
  | deliver {round admitted count index : Nat} {effects : List GlueOp} {message : CallbackMessage}
      {glue : Glue} (hphase : s.phase = .draining round admitted count)
      (hindex : s.nextCallback = some index) (hmessage : s.pending[index]? = some message)
      (hglue : s.glue.run effects = some glue) : Step cfg s (.deliver effects)
      { s with
        glue
        pending := s.pending.eraseIdx index
        delivered := s.delivered ++ [(message, s.glue)]
        phase := .draining round admitted (count + 1) }
  | endDrain {round admitted count : Nat} (hphase : s.phase = .draining round admitted count)
      (hnone : s.nextCallback = none) :
      Step cfg s .endDrain { s with phase := .answering round admitted count }
  | answer {round admitted count : Nat} {answered : Bool} {finished : List EventId}
      {effects : List GlueOp} {s' : State} (hphase : s.phase = .answering round admitted count)
      (hanswer : s.answer round admitted count answered finished effects = some s') :
      Step cfg s (.answer answered finished effects) s'
  | settle {error : Option String} (cpu wall memory pinned : Bool) (left : List EventId)
      (hphase : s.phase = .settling error) : Step cfg s (.settle cpu wall memory pinned left)
      (s.settle cfg error (stopped cpu wall memory) pinned left)

theorem of_step {cfg : Config} {s s' : State} {a : Action} (h : step cfg s a = some s') :
    Step cfg s a s' := by
  cases a with
  | tick ms =>
      cases h
      exact .tick ms
  | mail event =>
      obtain ⟨hopen, ⟨⟩⟩ := ite_none_right_eq_some.mp h
      exact .mail event hopen
  | closeMailbox =>
      cases h
      exact .closeMailbox
  | arrive message =>
      obtain ⟨hopen, ⟨⟩⟩ := ite_none_right_eq_some.mp h
      exact .arrive message hopen
  | closeChannel =>
      cases h
      exact .closeChannel
  | poll =>
      simp only [step] at h
      split at h
      · next hphase =>
          cases h
          exact .poll hphase
      · cases h
  | admitEvent effects error =>
      simp only [step] at h
      split at h
      · next hphase => exact .admitEvent hphase h
      · cases h
  | endAdmission =>
      simp only [step] at h
      split at h
      · next hphase => exact .endAdmission hphase h
      · cases h
  | deliver effects =>
      simp only [step] at h
      split at h
      · next hphase =>
          obtain ⟨index, hindex, h⟩ := bind_eq_some_iff.mp h
          obtain ⟨message, hmessage, h⟩ := bind_eq_some_iff.mp h
          obtain ⟨glue, hglue, rfl⟩ := map_eq_some_iff.mp h
          exact .deliver hphase hindex hmessage hglue
      · cases h
  | endDrain =>
      simp only [step] at h
      split at h
      · next hphase =>
          obtain ⟨hnone, ⟨⟩⟩ := ite_none_right_eq_some.mp h
          exact .endDrain hphase hnone
      · cases h
  | answer answered finished effects =>
      simp only [step] at h
      split at h
      · next hphase => exact .answer hphase h
      · cases h
  | settle cpu wall memory pinned left =>
      simp only [step] at h
      split at h
      · next hphase =>
          cases h
          exact .settle cpu wall memory pinned left hphase
      · cases h

/-- The runs of `serve` from what the constructor left. -/
def machine (cfg : Config) (glue : Glue) (first : ObjectEvent) : Machine State Action where
  init := init cfg glue first
  step := step cfg

end Serve

end OpenWorkers.Object
