import OpenWorkers.Lib.BoundedChannel
import OpenWorkers.Scheduler.Timers
import OpenWorkers.Streams.Manager

/-!
# The pump of a response body

`streamBody` of `src/js/stream_body.js` takes the chunks of a guest's `ReadableStream` and puts
them in the channel of a stream of the `StreamManager`.  It must not block, so it tries
(`try_write_chunk`), and when the channel has no room it asks the event loop for a wait
(`ScheduleWritable`): a task that gets two permits of the channel, gives them back, and lets a
timer of the pump expire.

The pump runs beside the rest of the guest, whose timers share the map, the ids and the two
channels with the waits of the pump; all of that is the state of `OpenWorkers.Scheduler.Timers`.
A step is what one party does between two `await`s.  The guest's source, the reader of the channel
and the caller, who can cancel the request, are the environment.

The machine is about one request, which ends with a `reset`, and about one stream of it.  On a
context that was used before, messages and tasks of an earlier request may name the id of the
stream; how that comes is the matter of `OpenWorkers.Streams.Isolation`.  `StreamCancel` is sent by
a native stream for its own id, and nothing in the runtime sends `Shutdown`.
-/

namespace OpenWorkers.Streams.Pump

open Option
open Object (CallbackId)
open Scheduler

/-- Where `streamBody` is. -/
inductive Pc where
  /-- `await reader.read()`. -/
  | reading
  /-- It is about to write the chunk; `waited` says that it has waited for room. -/
  | writing (chunk : Bytes) (waited : Bool)
  /-- The chunk was not taken. -/
  | refused (chunk : Bytes)
  /-- `await writable(streamId)`, with the id of the timer. -/
  | waiting (chunk : Bytes) (timer : CallbackId)
  /-- `await reader.cancel(..)`: the stream is closed. -/
  | cancelling
  /-- It is about to write the terminal marker. -/
  | ending (marker : StreamChunk)
  | ended
deriving DecidableEq, Repr

/-- The task of a `ScheduleWritable`. -/
structure Wait where
  id : CallbackId
  /-- The manager had the sender of the stream. -/
  sender : Bool
  /-- The permits that `reserve_many(2)` has got so far. -/
  held : Nat
deriving DecidableEq, Repr

structure State (capacity : Nat) where
  stream : StreamId
  manager : StreamManager
  /-- The channel of the stream. -/
  channel : BoundedChannel capacity StreamChunk
  /-- The receiver was not dropped. -/
  receiver : Bool
  /-- The token of the request is cancelled. -/
  cancelled : Bool
  pc : Pc
  waits : List Wait
  timers : Timers.State

inductive Op where
  /-- The source yields a chunk. -/
  | yield (chunk : Bytes)
  | close
  /-- The source fails.  No text can be made of an error whose `toString` throws, or whose message
  is not a string, and then nothing is written. -/
  | fail (message : Option String)
  /-- The guest changes the array that it has yielded, while the pump waits with it. -/
  | overwrite (chunk : Bytes)
  /-- `__responseStreamWrite`, `__responseStreamEnd` or `__responseStreamError`. -/
  | write
  /-- `__responseStreamIsClosed`, and the wait for room if it is not. -/
  | check
  /-- The cancellation of the source is over. -/
  | settle
  | handle (alive : Bool)
  /-- A wait gets a permit. -/
  | reserve (k : Nat)
  /-- A wait is over. -/
  | ready (k : Nat)
  /-- A wait finds the request cancelled. -/
  | abandon (k : Nat)
  /-- The guest gets the message at position `k`. -/
  | deliver (k : Nat)
  /-- Anything else that has to do with timers. -/
  | timer (op : Timers.Op)
  /-- The reader takes a chunk. -/
  | receive
  /-- The reader drops its receiver. -/
  | leave
  /-- The request is cancelled. -/
  | cancel
  /-- A task of an earlier request closes the stream, which has the id of its own. -/
  | foreignClose
deriving DecidableEq, Repr

/-- The message neither closes the stream nor stops the loop. -/
def harmless (stream : StreamId) : SchedulerMessage → Bool
  | .streamCancel stream' => stream' ≠ stream
  | .shutdown => false
  | _ => true

/-- The wait for room in the stream that a message asks for. -/
def waitOf (stream : StreamId) : SchedulerMessage → Option CallbackId
  | .scheduleWritable id stream' => if stream' = stream then some id else none
  | _ => none

/-- What the rest of the guest and the tasks of the context can do. -/
def others (waits : List Wait) : Timers.Op → Bool
  | .handle _ | .deliver _ | .reset => false
  | .writable id => id ∉ waits.map Wait.id
  | _ => true

/-- What they can do without naming the stream of the pump. -/
def aside (stream : StreamId) (waits : List Wait) : Timers.Op → Bool
  | .handle _ | .deliver _ | .reset => false
  | .wait stream' => stream' ≠ stream
  | .writable id => id ∉ waits.map Wait.id
  | .send message => harmless stream message
  | _ => true

/-- The timer of the pump runs out: `resolve` was called. -/
def Pc.resume (executing : Option CallbackId) : Pc → Pc
  | .waiting chunk timer => if executing = some timer then .writing chunk true
      else .waiting chunk timer
  | pc => pc

namespace State

variable {capacity : Nat} (s : State capacity)

/-- `try_write_chunk`. -/
def tryWriteChunk (chunk : StreamChunk) : Bool × State capacity :=
  match s.manager.sender s.stream with
  | none => (false, s)
  | some _ =>
    -- The last permit is for the terminal marker.
    if !chunk.terminal && decide (s.channel.free ≤ 1) then (false, s)
    else if s.receiver then
      match s.channel.trySend chunk with
      | some channel => (true, { s with channel })
      | none => (false, s)
    else (false, { s with manager := s.manager.removeSender s.stream })

/-- The task that the loop spawns for a message. -/
def spawned (message : SchedulerMessage) : Option Wait :=
  (waitOf s.stream message).map fun id => ⟨id, s.manager.hasSender s.stream, 0⟩

/-- The streams, once the loop has handled a message. -/
def closes : SchedulerMessage → StreamManager
  | .streamCancel stream => s.manager.closeStream stream
  | _ => s.manager

/-- The wait at position `k` ends: its permits are free, and its timer expires. -/
def endWait (k : Nat) (wait : Wait) : Option (State capacity) :=
  (Timers.step s.timers (.writable wait.id)).map fun timers =>
    { s with timers, channel := s.channel.release wait.held, waits := s.waits.eraseIdx k }

end State

variable {capacity : Nat}

def step (s : State capacity) : Op → Option (State capacity)
  | .yield chunk =>
    if s.pc = .reading then
      -- An empty chunk is skipped.
      some { s with pc := if chunk = [] then .reading else .writing chunk false }
    else
      none
  | .close => if s.pc = .reading then some { s with pc := .ending .done } else none
  | .fail message =>
    if s.pc = .reading then
      some { s with pc := (message.map fun text => .ending (.error text)).getD .ended }
    else
      none
  | .overwrite chunk =>
    match s.pc with
    | .waiting _ timer => some { s with pc := .waiting chunk timer }
    | _ => none
  | .write =>
    match s.pc with
    | .writing chunk _ =>
      let (written, s) := s.tryWriteChunk (.data chunk)
      some { s with pc := if written then .reading else .refused chunk }
    -- What becomes of the marker is not looked at.
    | .ending marker => some { (s.tryWriteChunk marker).2 with pc := .ended }
    | _ => none
  | .check =>
    match s.pc with
    | .refused chunk =>
      if s.manager.hasSender s.stream then
        (Timers.step s.timers (.wait s.stream)).map fun timers =>
          { s with timers, pc := .waiting chunk s.timers.nextTimerId }
      else
        some { s with pc := .cancelling }
    | _ => none
  | .settle => if s.pc = .cancelling then some { s with pc := .ending .done } else none
  | .handle alive =>
    match s.timers.toScheduler with
    | message :: _ =>
      (Timers.step s.timers (.handle alive)).map fun timers =>
        { s with
          timers, manager := s.closes message, waits := s.waits ++ (s.spawned message).toList }
    | [] => none
  | .reserve k =>
    match s.waits[k]? with
    | some wait =>
      if wait.sender && s.receiver && decide (wait.held < 2) then
        s.channel.reserve.map fun channel =>
          { s with
            channel
            waits := s.waits.modify k fun wait => { wait with held := wait.held + 1 } }
      else
        none
    | none => none
  | .ready k =>
    match s.waits[k]? with
    | some wait =>
      if !wait.sender || (!s.cancelled && (wait.held == 2 || !s.receiver)) then s.endWait k wait
      else none
    | none => none
  | .abandon k =>
    match s.waits[k]? with
    | some wait =>
      if wait.sender && s.cancelled then
        { s with manager := s.manager.closeStream s.stream }.endWait k wait
      else
        none
    | none => none
  | .deliver k =>
    (Timers.step s.timers (.deliver k)).map fun timers =>
      { s with timers, pc := s.pc.resume timers.executing }
  | .timer op =>
    if others s.waits op then
      (Timers.step s.timers op).map fun timers => { s with timers }
    else
      none
  | .receive =>
    if s.receiver then s.channel.receive.map fun (_, channel) => { s with channel } else none
  | .leave => some { s with receiver := false, channel := s.channel.drop }
  | .cancel => some { s with cancelled := true }
  | .foreignClose => some { s with manager := s.manager.closeStream s.stream }

/-- A context in which `streamBody` creates a stream. -/
structure Start where
  manager : StreamManager
  timers : Timers.State
  reached : ∃ ops, Timers.machine.run ops = some timers
  running : timers.loop.shutdown = false

/-- No message that is under way names the id of the stream. -/
structure Start.Clean (start : Start) : Prop where
  harmless : ∀ message ∈ start.timers.toScheduler,
    Pump.harmless start.manager.nextId message = true
  /-- Nothing is left of a wait for room in an earlier stream with this id. -/
  apart : start.timers.toScheduler.filterMap (waitOf start.manager.nextId) = []

def machine (start : Start) : Machine (State start.manager.capacity) Op where
  init := {
    stream := start.manager.nextId
    manager := start.manager.createStream 0 "response"
    channel := .empty
    receiver := true
    cancelled := false
    pc := .reading
    waits := []
    timers := start.timers }
  step := step

/-! ## What is seen of a run -/

inductive Event where
  | yielded (chunk : Bytes)
  | closed
  | failed (message : Option String)
  | received (chunk : StreamChunk)
deriving DecidableEq, Repr

def observe (s : State capacity) : Op → List Event
  | .yield chunk => [.yielded chunk]
  | .close => [.closed]
  | .fail message => [.failed message]
  | .receive => s.channel.buffer.head?.toList.map .received
  | _ => []

/-- A chunk of the source that is not empty. -/
def Event.chunk : Event → Option StreamChunk
  | .yielded chunk => if chunk = [] then none else some (.data chunk)
  | _ => none

/-- The terminal marker for the end of the source. -/
def Event.marker : Event → Option StreamChunk
  | .closed => some .done
  | .failed message => some (.error (message.getD ""))
  | _ => none

def Event.delivered : Event → Option StreamChunk
  | .received chunk => some chunk
  | _ => none

/-- What the source has given: its chunks in order, the empty ones left out, and how it ended. -/
def given (log : List Event) : List StreamChunk :=
  log.filterMap Event.chunk ++ log.filterMap Event.marker

def delivered (log : List Event) : List StreamChunk := log.filterMap Event.delivered

/-! ## Conditions on runs -/

/-- The timer of the wait that the pump is in. -/
def Pc.timer : Pc → Option CallbackId
  | .waiting _ timer => some timer
  | _ => none

/-- The reader stays, the request is not cancelled, the guest does not clear the timer of the pump,
which it was not given, and leaves an array alone that it has yielded, a text can be made of the
error of the source, and nothing of an earlier request or another pump names the stream. -/
def Undisturbed (s : State capacity) : Op → Prop
  | .leave | .cancel | .fail none | .overwrite _ | .foreignClose => False
  | .timer (.clear id) => s.pc.timer ≠ some id
  | .timer (.wait stream) => stream ≠ s.stream
  | .timer (.send message) => harmless s.stream message = true
  | _ => True

instance (s : State capacity) (op : Op) : Decidable (Undisturbed s op) := by
  cases op <;> dsimp only [Undisturbed] <;> try split
  all_goals infer_instance

/-- What the pump, the runtime and the reader do by themselves, and the guest code that runs when
it comes to its end. -/
def moves : Op → Bool
  | .write | .check | .handle _ | .reserve _ | .ready _ | .deliver _ | .receive => true
  | .timer (.schedule _ _) | .timer (.finish _) => true
  | _ => false

variable {s s' : State capacity} {op : Op}

/-! ## Steps of an undisturbed run -/

/-- What a step does as long as the stream is open, its reader there and the request not
cancelled. -/
inductive Moved (s : State capacity) : Op → State capacity → Prop
  | skip (hpc : s.pc = .reading) : Moved s (.yield []) { s with pc := .reading }
  | yield {chunk : Bytes} (hpc : s.pc = .reading) (hchunk : chunk ≠ []) :
      Moved s (.yield chunk) { s with pc := .writing chunk false }
  | close (hpc : s.pc = .reading) : Moved s .close { s with pc := .ending .done }
  | fail {message : String} (hpc : s.pc = .reading) :
      Moved s (.fail (some message)) { s with pc := .ending (.error message) }
  | accept {chunk : Bytes} {waited : Bool} {channel : BoundedChannel capacity StreamChunk}
      (hpc : s.pc = .writing chunk waited) (hfree : 1 < s.channel.free)
      (hsend : s.channel.trySend (.data chunk) = some channel) :
      Moved s .write { s with channel, pc := .reading }
  | refuse {chunk : Bytes} {waited : Bool} (hpc : s.pc = .writing chunk waited)
      (hfull : s.channel.free ≤ 1) : Moved s .write { s with pc := .refused chunk }
  | finish {marker : StreamChunk} {channel : BoundedChannel capacity StreamChunk}
      (hpc : s.pc = .ending marker) (hsend : s.channel.trySend marker = some channel) :
      Moved s .write { s with channel, pc := .ended }
  | await {chunk : Bytes} {timers : Timers.State} (hpc : s.pc = .refused chunk)
      (htimers : Timers.step s.timers (.wait s.stream) = some timers) :
      Moved s .check { s with timers, pc := .waiting chunk s.timers.nextTimerId }
  | handle {alive : Bool} {message : SchedulerMessage} {rest : List SchedulerMessage}
      {timers : Timers.State} (hqueue : s.timers.toScheduler = message :: rest)
      (htimers : Timers.step s.timers (.handle alive) = some timers) :
      Moved s (.handle alive) { s with
        timers, manager := s.closes message, waits := s.waits ++ (s.spawned message).toList }
  | reserve {k : Nat} {wait : Wait} {channel : BoundedChannel capacity StreamChunk}
      (hwait : s.waits[k]? = some wait) (hheld : wait.held < 2)
      (hreserve : s.channel.reserve = some channel) :
      Moved s (.reserve k) { s with
        channel, waits := s.waits.modify k fun wait => { wait with held := wait.held + 1 } }
  | ready {k : Nat} {wait : Wait} {timers : Timers.State} (hwait : s.waits[k]? = some wait)
      (hheld : wait.held = 2)
      (htimers : Timers.step s.timers (.writable wait.id) = some timers) :
      Moved s (.ready k) { s with
        timers, channel := s.channel.release wait.held, waits := s.waits.eraseIdx k }
  | deliver {k : Nat} {timers : Timers.State}
      (htimers : Timers.step s.timers (.deliver k) = some timers) :
      Moved s (.deliver k) { s with timers, pc := s.pc.resume timers.executing }
  | timer {op : Timers.Op} {timers : Timers.State} (haside : aside s.stream s.waits op = true)
      (htimers : Timers.step s.timers op = some timers) :
      Moved s (.timer op) { s with timers }
  | receive {chunk : StreamChunk} {channel : BoundedChannel capacity StreamChunk}
      (hreceive : s.channel.receive = some (chunk, channel)) :
      Moved s .receive { s with channel }

/-- The stream is open, its reader is there, and the request is not cancelled. -/
structure Served (s : State capacity) : Prop where
  sender : s.manager.hasSender s.stream = true
  receiver : s.receiver = true
  cancelled : s.cancelled = false
  pc : s.pc ≠ .cancelling
  waits : ∀ wait ∈ s.waits, wait.sender = true
  /-- What the pump ends with is a terminal marker, and there is room for it. -/
  marker : ∀ marker, s.pc = .ending marker → marker.terminal = true ∧ 0 < s.channel.free

theorem Served.tryWriteChunk (h : Served s) (chunk : StreamChunk) :
    s.tryWriteChunk chunk =
      if !chunk.terminal && decide (s.channel.free ≤ 1) then (false, s)
      else match s.channel.trySend chunk with
        | some channel => (true, { s with channel })
        | none => (false, s) := by
  obtain ⟨c, hc⟩ := isSome_iff_exists.mp h.sender
  rw [State.tryWriteChunk, StreamManager.sender, hc, h.receiver]
  rfl

theorem aside_of_others {op : Timers.Op} (h : others s.waits op = true)
    (hop : Undisturbed s (.timer op)) : aside s.stream s.waits op = true := by
  cases op with
  | wait stream => exact decide_eq_true hop
  | send message => exact hop
  | _ => exact h

theorem moved_of_step (h : Served s) (hop : Undisturbed s op)
    (hstep : step s op = some s') : Moved s op s' := by
  cases op with
  | yield chunk =>
      simp only [step] at hstep
      split at hstep
      · next hpc =>
        cases hstep
        by_cases hchunk : chunk = []
        · subst hchunk
          exact .skip hpc
        · rw [if_neg hchunk]
          exact .yield hpc hchunk
      · cases hstep
  | close =>
      simp only [step] at hstep
      split at hstep
      · next hpc =>
        cases hstep
        exact .close hpc
      · cases hstep
  | fail message =>
      simp only [step] at hstep
      split at hstep
      · next hpc =>
        cases hstep
        cases message with
        | none => exact hop.elim
        | some text => exact .fail hpc
      · cases hstep
  | write =>
      simp only [step] at hstep
      split at hstep
      · next chunk waited hpc =>
        rw [h.tryWriteChunk, StreamChunk.terminal, Bool.not_false, Bool.true_and] at hstep
        by_cases hfull : s.channel.free ≤ 1
        · rw [if_pos (decide_eq_true hfull)] at hstep
          cases hstep
          exact .refuse hpc hfull
        · rw [if_neg (by simpa using hfull)] at hstep
          have hfree : 1 < s.channel.free := Nat.lt_of_not_le hfull
          obtain ⟨channel, hsend⟩ := isSome_iff_exists.mp
            (BoundedChannel.isSome_trySend.mpr (Nat.lt_trans Nat.zero_lt_one hfree))
          rw [hsend] at hstep
          cases hstep
          exact .accept hpc hfree hsend
      · next marker hpc =>
        obtain ⟨hterminal, hfree⟩ := h.marker marker hpc
        obtain ⟨channel, hsend⟩ := isSome_iff_exists.mp
          ((BoundedChannel.isSome_trySend (a := marker)).mpr hfree)
        rw [h.tryWriteChunk, hterminal, Bool.not_true, Bool.false_and, if_neg Bool.false_ne_true,
          hsend] at hstep
        cases hstep
        exact .finish hpc hsend
      · cases hstep
  | check =>
      simp only [step] at hstep
      split at hstep
      · next chunk hpc =>
        rw [if_pos h.sender] at hstep
        obtain ⟨timers, htimers, rfl⟩ := map_eq_some_iff.mp hstep
        exact .await hpc htimers
      · cases hstep
  | settle =>
      simp only [step] at hstep
      rw [if_neg h.pc] at hstep
      cases hstep
  | handle alive =>
      simp only [step] at hstep
      split at hstep
      · next message rest hqueue =>
        obtain ⟨timers, htimers, rfl⟩ := map_eq_some_iff.mp hstep
        exact .handle hqueue htimers
      · cases hstep
  | reserve k =>
      simp only [step] at hstep
      split at hstep
      · next wait hwait =>
        split at hstep
        · next hcond =>
          rw [Bool.and_eq_true, decide_eq_true_eq] at hcond
          obtain ⟨channel, hreserve, rfl⟩ := map_eq_some_iff.mp hstep
          exact .reserve hwait hcond.2 hreserve
        · cases hstep
      · cases hstep
  | ready k =>
      simp only [step] at hstep
      split at hstep
      · next wait hwait =>
        rw [h.waits wait (List.mem_of_getElem? hwait), h.receiver, h.cancelled] at hstep
        split at hstep
        · next hheld =>
          obtain ⟨timers, htimers, rfl⟩ := map_eq_some_iff.mp hstep
          exact .ready hwait (by simpa using hheld) htimers
        · cases hstep
      · cases hstep
  | abandon k =>
      simp only [step] at hstep
      split at hstep
      · rw [h.cancelled, Bool.and_false] at hstep
        cases hstep
      · cases hstep
  | deliver k =>
      obtain ⟨timers, htimers, rfl⟩ := map_eq_some_iff.mp hstep
      exact .deliver htimers
  | timer op =>
      simp only [step] at hstep
      split at hstep
      · next hothers =>
        obtain ⟨timers, htimers, rfl⟩ := map_eq_some_iff.mp hstep
        exact .timer (aside_of_others hothers hop) htimers
      · cases hstep
  | receive =>
      simp only [step] at hstep
      rw [if_pos h.receiver] at hstep
      obtain ⟨⟨chunk, channel⟩, hreceive, rfl⟩ := map_eq_some_iff.mp hstep
      exact .receive hreceive
  | leave | cancel | overwrite | foreignClose => exact hop.elim

end OpenWorkers.Streams.Pump
