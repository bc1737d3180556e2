import OpenWorkers.Lib.Machine
import OpenWorkers.Streams.Manager

/-!
# The tasks that work on the streams of a context

Requests follow one another on one context: `reset`, `begin_request`, `exec`.  Their streams
are written, read, passed on and closed by tasks that are spawned for a request and that no
reset stops.  A task keeps the *id* of its stream and looks it up in the `StreamManager` at
each of its steps.

* A stream has one producer (`ProducerKind`): `pump_request_body`, `spawn_stream_reader`, a
  task that nothing cancels (the pump of `storage_fetch`, and a body without a stream, which
  the task of the fetch writes itself), or the guest's `streamBody`.
* `ReadTask` is the task of a `StreamRead`, `RoomTask` that of a `ScheduleWritable`.
* `Forward` is the task of `read_response_object`, with what the host got from it.

A step of the machine is what one task does between two `await`s; `write_chunk` and
`read_chunk` are cut at theirs.  The event loop, the host, the sources of the bodies and the
guest are the environment: the actions say what they do and when.  A guest names only
streams of its own request, and no guest code of a request runs after the reset that ends
it.  An empty chunk of a guest, which `streamBody` skips, does not count as produced.

For the statements the state also has logs that no step reads: who wrote a chunk (`buffer`),
who got it (`received`), and every other work on a channel (`touched`).
-/

namespace OpenWorkers.Streams

open Option
open Scheduler (StreamId Scope)

inductive ProducerKind where
  /-- `pump_request_body`. -/
  | pump
  /-- `spawn_stream_reader`. -/
  | reader
  /-- A task that nothing cancels. -/
  | plain
  /-- `streamBody`. -/
  | guest
deriving DecidableEq, Repr

/-- Where the producer of a stream is. -/
inductive ProducerPc where
  /-- It waits for its source. -/
  | reading
  /-- It is about to write the chunk. -/
  | writing (chunk : StreamChunk)
  /-- `tx.send(chunk).await`: it has cloned the sender of a channel. -/
  | sending (sender : Channel) (chunk : StreamChunk)
  /-- `streamBody` waits for room. -/
  | waiting (bytes : Bytes)
  | ended
deriving DecidableEq, Repr

/-- What a source gives next. -/
inductive Upstream where
  | chunk (bytes : Bytes)
  | fail (message : String)
  | finish
deriving DecidableEq, Repr

inductive Source where
  | flowing
  | failed
  | ended
deriving DecidableEq, Repr

/-- An item of the receiver that the host got in `ResponseBody::Stream`. -/
inductive Item where
  | ok (bytes : Bytes)
  | err (message : String)
deriving DecidableEq, Repr

inductive ForwardPc where
  | receiving
  /-- `tx.send(Ok(bytes)).await`. -/
  | sending (bytes : Bytes)
  /-- `tx.send(Err(e)).await`. -/
  | failing (message : String)
  | ended
deriving DecidableEq, Repr

structure Forward where
  receiver : Channel
  pc : ForwardPc
  /-- What the host got. -/
  yielded : List Item
  /-- The host dropped its receiver. -/
  left : Bool
deriving DecidableEq, Repr

/-- A stream: its channel, its producer, and its way to the host. -/
structure Stream where
  id : StreamId
  /-- The request that created it. -/
  owner : Nat
  kind : ProducerKind
  producer : ProducerPc
  /-- What is in the channel; each chunk with the stream whose producer wrote it. -/
  buffer : List (StreamChunk × Channel)
  /-- The receiver was dropped. -/
  closed : Bool
  forward : Option Forward
  /-- What the source gave. -/
  produced : List Bytes
  source : Source
  /-- A terminal marker was put in the channel. -/
  marked : Bool
  /-- The reader was cancelled, the sender was removed before the terminal marker, or the
  guest read from the channel. -/
  cut : Bool
deriving DecidableEq, Repr

inductive ReadPc where
  /-- Spawned. -/
  | start
  /-- It has taken the receiver of a channel. -/
  | receiving (receiver : Channel)
  | ended
deriving DecidableEq, Repr

/-- The task of a `StreamRead`. -/
structure ReadTask where
  stream : Channel
  scope : Scope
  pc : ReadPc
deriving DecidableEq, Repr

/-- The task of a `ScheduleWritable`, with the sender it cloned. -/
structure RoomTask where
  stream : Channel
  scope : Scope
  sender : Channel
  live : Bool
deriving DecidableEq, Repr

/-- The messages of the event loop that have to do with streams.  A message carries the id
of the stream it is about. -/
inductive Message where
  | streamRead (stream : Channel)
  | streamCancel (stream : Channel)
  | scheduleWritable (stream : Channel)
  | beginRequest
deriving DecidableEq, Repr

def Message.stream : Message → Option Channel
  | .streamRead c => some c
  | .streamCancel c => some c
  | .scheduleWritable c => some c
  | .beginRequest => none

structure State where
  manager : StreamManager
  streams : List Stream
  /-- The request that is being served. -/
  request : Nat
  /-- How many streams there were at the last reset. -/
  base : Channel
  /-- `request_cancel` of the event loop; earlier scopes are cancelled. -/
  scope : Scope
  /-- The scopes that the caller aborted. -/
  aborted : List Scope
  /-- The context was dropped: its token is cancelled, its loop and its guest are gone. -/
  dropped : Bool
  messages : List Message
  reads : List ReadTask
  rooms : List RoomTask
  /-- Who worked on which channel: a task or message made for the stream `p.1` put a chunk
  in the channel `p.2`, took one from it, or took or dropped one of its ends. -/
  touched : List (Channel × Channel)
  /-- The chunks that were received: from which channel, written for which stream. -/
  received : List (Channel × Channel)

namespace State

variable (s : State)

/-- The id of a stream, which all tasks and messages made for it carry. -/
def idOf (c : Channel) : StreamId := (s.streams[c]?.map Stream.id).getD 0

def ownerOf (c : Channel) : Nat := (s.streams[c]?.map Stream.owner).getD 0

def isCancelled (scope : Scope) : Bool :=
  s.dropped || decide (scope < s.scope) || s.aborted.contains scope

/-- Guest code of the request runs. -/
def guestRuns (owner : Nat) : Bool := !s.dropped && owner == s.request

/-- Nobody will write the rest of the stream: its request is over, its guest is gone, or its
reader is cancelled. -/
def isOver (st : Stream) : Bool :=
  decide (st.owner < s.request) || (st.kind == .guest && s.dropped) ||
    (st.kind == .reader && s.isCancelled st.owner)

def modify (c : Channel) (f : Stream → Stream) : State :=
  { s with streams := s.streams.modify c f }

def touch (actor c : Channel) : State := { s with touched := s.touched ++ [(actor, c)] }

/-- A receiver is dropped. -/
def dropReceiver (c : Channel) : State := s.modify c fun st => { st with closed := true }

/-- Not all that the source of the stream gives will be in the channel. -/
def setCut (c : Channel) : State := s.modify c fun st => { st with cut := true }

/-- A sender went from the map, if there was one. -/
def lostSender (actor : Channel) : Option Channel → State
  | none => s
  | some c => (s.touch actor c).modify c fun st => { st with cut := st.cut || !st.marked }

/-- A receiver went from the map, if there was one. -/
def lostReceiver (actor : Channel) : Option Channel → State
  | none => s
  | some c => (s.touch actor c).dropReceiver c

/-- There is a sender for the channel: that of the map, or a clone of it. -/
def hasSender (c : Channel) : Bool :=
  s.manager.sender (s.idOf c) == some c
    || s.streams.any (fun st => match st.producer with
      | .sending d _ => d == c
      | _ => false)
    || s.rooms.any fun t => t.live && t.sender == c

/-! ## What a step does to the manager and to a channel -/

/-- `create_stream`; the map drops what was under the id. -/
def createStream (kind : ProducerKind) (owner : Nat) (url : String) : State :=
  let c := s.streams.length
  let stream : Stream :=
    { id := s.manager.nextId, owner, kind, producer := .reading, buffer := [], closed := false,
      forward := none, produced := [], source := .flowing, marked := false, cut := false }
  (({ s with
      streams := s.streams ++ [stream]
      manager := s.manager.createStream c url }).lostSender c
    (s.manager.senders s.manager.nextId)).lostReceiver c (s.manager.receivers s.manager.nextId)

def removeSender (actor : Channel) : State :=
  ({ s with manager := s.manager.removeSender (s.idOf actor) }).lostSender actor
    (s.manager.senders (s.idOf actor))

def closeStream (actor : Channel) : State :=
  (({ s with manager := s.manager.closeStream (s.idOf actor) }).lostSender actor
    (s.manager.senders (s.idOf actor))).lostReceiver actor (s.manager.receivers (s.idOf actor))

/-- The receiver of the channel `c` is taken out of the map. -/
def takeReceiver (actor c : Channel) : State :=
  ({ s with manager := s.manager.takeReceiver (s.idOf actor) }).touch actor c

def putBack (actor c : Channel) : State :=
  ({ s with manager := s.manager.putBack (s.idOf actor) c }).lostReceiver actor
    (s.manager.receivers (s.idOf actor))

/-- A chunk goes into the channel `c`. -/
def push (actor c : Channel) (chunk : StreamChunk) : State :=
  (s.touch actor c).modify c fun st =>
    { st with buffer := st.buffer ++ [(chunk, actor)], marked := st.marked || chunk.terminal }

/-- The first chunk of the channel `c`, written for `author`, is received. -/
def pop (actor c author : Channel) : State :=
  ({ s with received := s.received ++ [(c, author)] }.touch actor c).modify c fun st =>
    { st with buffer := st.buffer.tail }

/-- `clear`, with what becomes of the ends that were in the maps. -/
def clear : State :=
  { s with
    manager := s.manager.clear
    streams := s.streams.mapIdx fun c st =>
      { st with
        cut := st.cut || (s.manager.senders st.id == some c && !st.marked)
        closed := st.closed || s.manager.receivers st.id == some c } }

end State

/-! ## The producers -/

/-- The producer gets an item from its source; `streamBody` skips an empty one. -/
def Stream.produce (st : Stream) : Upstream → Stream
  | .chunk bytes =>
      if st.kind = .guest ∧ bytes = [] then st
      else { st with produced := st.produced ++ [bytes], producer := .writing (.data bytes) }
  | .fail message => { st with source := .failed, producer := .writing (.error message) }
  | .finish => { st with source := .ended, producer := .writing .done }

/-- What the producer does after a write.  After the error of its source only
`pump_request_body` goes on to write `Done`. -/
def Stream.wrote (st : Stream) (ok : Bool) (chunk : StreamChunk) : Stream :=
  { st with
    producer := match chunk with
      | .data _ => if ok then .reading else .writing .done
      | .error _ => if st.kind = .pump then .writing .done else .ended
      | .done => .ended }

namespace State

variable (s : State)

/-- Who may create a stream: the guest or the runtime in the request that is being served,
and the task of a fetch, of any request, unless it was cancelled. -/
def mayCreate (kind : ProducerKind) (owner : Nat) : Bool :=
  match kind with
  | .pump | .guest => s.guestRuns owner
  | .plain => s.guestRuns owner || (decide (owner ≤ s.request) && !s.isCancelled owner)
  | .reader => decide (owner ≤ s.request) && !s.isCancelled owner

/-- The producer can take an item of its source: a guest has to run, and the reader of a
fetch looks at its token first. -/
def mayProduce (st : Stream) : Bool :=
  match st.kind with
  | .guest => s.guestRuns st.owner
  | .reader => !s.isCancelled st.owner
  | _ => true

def stepProduce (c : Channel) (item : Upstream) : Option State :=
  s.streams[c]?.bind fun st =>
    if st.producer = .reading ∧ s.mayProduce st then some (s.modify c (·.produce item)) else none

/-- `cancel.cancelled() => break` of `spawn_stream_reader`, which leads to `Done`. -/
def stepCancel (c : Channel) : Option State :=
  s.streams[c]?.bind fun st =>
    if st.kind = .reader ∧ st.producer = .reading ∧ s.isCancelled st.owner then
      some ((s.setCut c).modify c fun st => { st with producer := .writing .done })
    else none

/-- The look-up of `write_chunk`. -/
def lookUp (c : Channel) (chunk : StreamChunk) : State :=
  match s.manager.sender (s.idOf c) with
  | some d => s.modify c fun st => { st with producer := .sending d chunk }
  | none => s.modify c (·.wrote false chunk)

/-- The end of `write_chunk`: the channel `d` has room, or its receiver is gone. -/
def send (c d : Channel) (chunk : StreamChunk) : Option State :=
  s.streams[d]?.bind fun st =>
    if st.closed then some ((s.removeSender c).modify c (·.wrote false chunk))
    else if st.buffer.length < s.manager.capacity then
      some ((s.push c d chunk).modify c (·.wrote true chunk))
    else none

/-- `streamBody` found no room and waits for it. -/
def awaitRoom (c : Channel) (chunk : StreamChunk) : State :=
  match chunk with
  | .data bytes =>
      { s.modify c fun st => { st with producer := .waiting bytes } with
        messages := s.messages ++ [.scheduleWritable c] }
  | chunk => s.modify c (·.wrote false chunk)

/-- `try_write_chunk` of `streamBody`, and what it does next. -/
def tryWrite (c : Channel) (chunk : StreamChunk) : Option State :=
  match s.manager.sender (s.idOf c) with
  | none => some (s.modify c (·.wrote false chunk))
  | some d => s.streams[d]?.map fun st =>
      if !chunk.terminal && decide (s.manager.capacity ≤ st.buffer.length + 1) then
        s.awaitRoom c chunk
      else if st.closed then (s.removeSender c).modify c (·.wrote false chunk)
      else if st.buffer.length < s.manager.capacity then
        (s.push c d chunk).modify c (·.wrote true chunk)
      else s.awaitRoom c chunk

/-- The producer that has a chunk goes on. -/
def stepWrite (c : Channel) : Option State :=
  s.streams[c]?.bind fun st =>
    match st.producer with
    | .writing chunk =>
        if st.kind = .guest then
          if s.guestRuns st.owner then s.tryWrite c chunk else none
        else some (s.lookUp c chunk)
    | .sending d chunk => s.send c d chunk
    | .waiting bytes =>
        if s.guestRuns st.owner then
          some (s.modify c fun st => { st with producer := .writing (.data bytes) })
        else none
    | _ => none

/-! ## The tasks of `StreamRead` and of `ScheduleWritable` -/

def setRead (k : Nat) (pc : ReadPc) : State :=
  { s with reads := s.reads.modify k fun t => { t with pc } }

/-- The end of `read_chunk`: a chunk was received from the channel `c`. -/
def finishRead (actor c : Channel) (chunk : StreamChunk) : State :=
  if chunk.terminal then s.dropReceiver c else s.putBack actor c

/-- `read_chunk` under `cancel.cancelled()`: the cancellation of a read that has taken the
receiver drops it. -/
def stepRead (k : Nat) : Option State :=
  s.reads[k]?.bind fun t =>
    match t.pc with
    | .start =>
        if s.isCancelled t.scope then some (s.setRead k .ended)
        else match s.manager.receivers (s.idOf t.stream) with
          | none => some (s.setRead k .ended)
          | some c => some ((s.takeReceiver t.stream c).setRead k (.receiving c))
    | .receiving c =>
        if s.isCancelled t.scope then some ((s.dropReceiver c).setRead k .ended)
        else s.streams[c]?.bind fun st =>
          match st.buffer with
          | (chunk, author) :: _ =>
              some ((((s.pop t.stream c author).setCut c).finishRead t.stream c chunk).setRead k
                .ended)
          | [] => if s.hasSender c then none else some ((s.dropReceiver c).setRead k .ended)
    | .ended => none

def endRoom (k : Nat) : State :=
  { s with rooms := s.rooms.modify k fun t => { t with live := false } }

/-- `cancel.cancelled() => close_stream` or `sender.reserve_many(2)`. -/
def stepRoom (k : Nat) : Option State :=
  s.rooms[k]?.bind fun t =>
    if t.live then
      if s.isCancelled t.scope then some ((s.closeStream t.stream).endRoom k)
      else s.streams[t.sender]?.bind fun st =>
        if st.closed ∨ st.buffer.length + 2 ≤ s.manager.capacity then some (s.endRoom k) else none
    else none

/-! ## The way to the host -/

def setForward (c : Channel) (f : Forward) : State :=
  s.modify c fun st => { st with forward := some f }

/-- `take_receiver` of `read_response_object`; without a receiver the response has no body. -/
def stepRespond (c : Channel) : Option State :=
  s.streams[c]?.bind fun st =>
    if s.guestRuns st.owner ∧ st.forward = none then
      match s.manager.receivers (s.idOf c) with
      | none => some s
      | some d => some ((s.takeReceiver c d).setForward c
          { receiver := d, pc := .receiving, yielded := [], left := false })
    else none

/-- `receiver.recv()`: the end of the channel (no sender is left) is the end of the body, as
`Done` is. -/
def forwardNext (c : Channel) (f : Forward) : Option State :=
  s.streams[f.receiver]?.bind fun st =>
    match st.buffer with
    | (.data bytes, author) :: _ =>
        some ((s.pop c f.receiver author).setForward c { f with pc := .sending bytes })
    | (.done, author) :: _ =>
        some (((s.pop c f.receiver author).dropReceiver f.receiver).setForward c
          { f with pc := .ended })
    | (.error message, author) :: _ =>
        some ((s.pop c f.receiver author).setForward c { f with pc := .failing message })
    | [] =>
        if s.hasSender f.receiver then none
        else some ((s.dropReceiver f.receiver).setForward c { f with pc := .ended })

/-- The host takes the item that the task holds. -/
def hostTake (c : Channel) (f : Forward) : Option State :=
  match f.pc with
  | .sending bytes =>
      some (s.setForward c { f with pc := .receiving, yielded := f.yielded ++ [.ok bytes] })
  | .failing message =>
      some ((s.dropReceiver f.receiver).setForward c
        { f with pc := .ended, yielded := f.yielded ++ [.err message] })
  | _ => none

/-- The host drops its receiver. -/
def hostLeave (c : Channel) (f : Forward) : Option State :=
  match f.pc with
  | .receiving | .sending _ =>
      some (((s.closeStream c).dropReceiver f.receiver).setForward c
        { f with pc := .ended, left := true })
  | .failing _ =>
      some ((s.dropReceiver f.receiver).setForward c { f with pc := .ended, left := true })
  | .ended => none

/-- A step of the task that has the receiver of the response `c`. -/
def stepForward (c : Channel) (step : Forward → Option State) : Option State :=
  s.streams[c]?.bind fun st => st.forward.bind step

/-! ## The event loop and the guest -/

/-- The guest sends a message about a stream of its request. -/
def stepSend (c : Channel) (message : Message) : Option State :=
  s.streams[c]?.bind fun st =>
    if s.guestRuns st.owner then some { s with messages := s.messages ++ [message] } else none

/-- What the event loop does with a message. -/
def perform : Message → State
  | .streamRead c => { s with reads := s.reads ++ [⟨c, s.scope, .start⟩] }
  | .streamCancel c => s.closeStream c
  | .scheduleWritable c =>
      match s.manager.sender (s.idOf c) with
      | some d => { s with rooms := s.rooms ++ [⟨c, s.scope, d, true⟩] }
      | none => s
  | .beginRequest => { s with scope := s.scope + 1 }

def stepHandle : Option State :=
  match s.messages with
  | message :: rest =>
      if s.dropped then none else some ({ s with messages := rest }.perform message)
  | [] => none

/-- `reset`: the request is over. -/
def reset : State := { s.clear with request := s.request + 1, base := s.streams.length }

end State

inductive Action where
  | create (kind : ProducerKind) (owner : Nat) (url : String)
  | produce (c : Channel) (item : Upstream)
  | write (c : Channel)
  | cancelReader (c : Channel)
  | sendRead (c : Channel)
  | sendCancel (c : Channel)
  | beginRequest
  | handle
  | read (k : Nat)
  | room (k : Nat)
  | respond (c : Channel)
  | forward (c : Channel)
  | hostTake (c : Channel)
  | hostLeave (c : Channel)
  | reset
  /-- The caller aborts the request of the scope. -/
  | abort (scope : Scope)
  /-- The context is dropped. -/
  | drop
deriving DecidableEq, Repr

def step (s : State) : Action → Option State
  | .create kind owner url =>
      if s.mayCreate kind owner then some (s.createStream kind owner url) else none
  | .produce c item => s.stepProduce c item
  | .write c => s.stepWrite c
  | .cancelReader c => s.stepCancel c
  | .sendRead c => s.stepSend c (.streamRead c)
  | .sendCancel c => s.stepSend c (.streamCancel c)
  | .beginRequest =>
      if s.dropped then none else some { s with messages := s.messages ++ [.beginRequest] }
  | .handle => s.stepHandle
  | .read k => s.stepRead k
  | .room k => s.stepRoom k
  | .respond c => s.stepRespond c
  | .forward c => s.stepForward c fun f => if f.pc = .receiving then s.forwardNext c f else none
  | .hostTake c => s.stepForward c (s.hostTake c)
  | .hostLeave c => s.stepForward c (s.hostLeave c)
  | .reset => if s.dropped then none else some s.reset
  | .abort scope => some { s with aborted := scope :: s.aborted }
  | .drop => some { s with dropped := true }

/-- The streams of a context whose manager has the given high water mark. -/
def machine (highWaterMark : Nat) : Machine State Action where
  init :=
    { manager := .withHighWaterMark highWaterMark, streams := [], request := 1, base := 0,
      scope := 0, aborted := [], dropped := false, messages := [], reads := [], rooms := [],
      touched := [], received := [] }
  step := step

/-! ## What the longer steps can do -/

/-- A step of the read `t`, the `k`-th one. -/
inductive ReadStep (s : State) (k : Nat) (t : ReadTask) : State → Prop where
  | ended : t.pc = .start → ReadStep s k t (s.setRead k .ended)
  | took {c : Channel} : t.pc = .start → s.manager.receivers (s.idOf t.stream) = some c →
      ReadStep s k t ((s.takeReceiver t.stream c).setRead k (.receiving c))
  | dropped {c : Channel} : t.pc = .receiving c →
      ReadStep s k t ((s.dropReceiver c).setRead k .ended)
  | got {c author : Channel} {st : Stream} {chunk : StreamChunk}
      {rest : List (StreamChunk × Channel)} : t.pc = .receiving c → s.streams[c]? = some st →
      st.buffer = (chunk, author) :: rest →
      ReadStep s k t ((((s.pop t.stream c author).setCut c).finishRead t.stream c chunk).setRead k
        .ended)

theorem State.readStep_of_stepRead {s s' : State} {k : Nat} (h : s.stepRead k = some s') :
    ∃ t, s.reads[k]? = some t ∧ ReadStep s k t s' := by
  obtain ⟨t, ht, h⟩ := bind_eq_some_iff.mp h
  refine ⟨t, ht, ?_⟩
  cases hp : t.pc with
  | ended => simp [hp] at h
  | start =>
      simp only [hp] at h
      split at h
      next =>
        cases h
        exact .ended hp
      next =>
        split at h
        next =>
          cases h
          exact .ended hp
        next c hr =>
          cases h
          exact .took hp hr
  | receiving c =>
      simp only [hp] at h
      split at h
      next =>
        cases h
        exact .dropped hp
      next =>
        obtain ⟨st, hst, h⟩ := bind_eq_some_iff.mp h
        cases hb : st.buffer with
        | nil =>
            simp only [hb] at h
            obtain ⟨-, heq⟩ := ite_none_left_eq_some.mp h
            cases heq
            exact .dropped hp
        | cons x rest =>
            simp only [hb] at h
            cases h
            exact .got hp hst hb

/-- What the forwarder `f` of the stream `c` does with the channel of its receiver, `st`. -/
inductive ForwardStep (s : State) (c : Channel) (f : Forward) (st : Stream) : State → Prop where
  | data {bytes : Bytes} {author : Channel} {rest : List (StreamChunk × Channel)} :
      st.buffer = (.data bytes, author) :: rest →
      ForwardStep s c f st ((s.pop c f.receiver author).setForward c
        { f with pc := .sending bytes })
  | done {author : Channel} {rest : List (StreamChunk × Channel)} :
      st.buffer = (.done, author) :: rest →
      ForwardStep s c f st (((s.pop c f.receiver author).dropReceiver f.receiver).setForward c
        { f with pc := .ended })
  | error {message : String} {author : Channel} {rest : List (StreamChunk × Channel)} :
      st.buffer = (.error message, author) :: rest →
      ForwardStep s c f st ((s.pop c f.receiver author).setForward c
        { f with pc := .failing message })
  | none : st.buffer = [] → s.hasSender f.receiver = false →
      ForwardStep s c f st ((s.dropReceiver f.receiver).setForward c { f with pc := .ended })

theorem State.forwardStep_of_forwardNext {s s' : State} {c : Channel} {f : Forward}
    (h : s.forwardNext c f = some s') :
    ∃ st, s.streams[f.receiver]? = some st ∧ ForwardStep s c f st s' := by
  obtain ⟨st, hst, h⟩ := bind_eq_some_iff.mp h
  refine ⟨st, hst, ?_⟩
  split at h
  next hb =>
    cases h
    exact .data hb
  next hb =>
    cases h
    exact .done hb
  next hb =>
    cases h
    exact .error hb
  next hb =>
    obtain ⟨hsender, heq⟩ := ite_none_left_eq_some.mp h
    cases heq
    exact .none hb (Bool.eq_false_iff.mpr hsender)

/-- A step of a host: its item comes from a forwarder that sends, and it can leave one that is
not done. -/
inductive HostStep (s : State) (c : Channel) (f : Forward) : State → Prop where
  | take {bytes : Bytes} : f.pc = .sending bytes →
      HostStep s c f (s.setForward c
        { f with pc := .receiving, yielded := f.yielded ++ [.ok bytes] })
  | fail {message : String} : f.pc = .failing message →
      HostStep s c f ((s.dropReceiver f.receiver).setForward c
        { f with pc := .ended, yielded := f.yielded ++ [.err message] })
  | leave : f.pc ≠ .ended →
      HostStep s c f (((s.closeStream c).dropReceiver f.receiver).setForward c
        { f with pc := .ended, left := true })
  | leaveFailing : f.pc ≠ .ended →
      HostStep s c f ((s.dropReceiver f.receiver).setForward c
        { f with pc := .ended, left := true })

theorem State.hostStep_of_hostTake {s s' : State} {c : Channel} {f : Forward}
    (h : s.hostTake c f = some s') : HostStep s c f s' := by
  cases hp : f.pc with
  | receiving => simp [State.hostTake, hp] at h
  | ended => simp [State.hostTake, hp] at h
  | sending bytes =>
      simp only [State.hostTake, hp] at h
      cases h
      exact .take hp
  | failing message =>
      simp only [State.hostTake, hp] at h
      cases h
      exact .fail hp

theorem State.hostStep_of_hostLeave {s s' : State} {c : Channel} {f : Forward}
    (h : s.hostLeave c f = some s') : HostStep s c f s' := by
  cases hp : f.pc with
  | ended => simp [State.hostLeave, hp] at h
  | receiving =>
      simp only [State.hostLeave, hp] at h
      cases h
      exact .leave (by simp [hp])
  | sending bytes =>
      simp only [State.hostLeave, hp] at h
      cases h
      exact .leave (by simp [hp])
  | failing message =>
      simp only [State.hostLeave, hp] at h
      cases h
      exact .leaveFailing (by simp [hp])

theorem HostStep.pc_ne {s s' : State} {c : Channel} {f : Forward} (h : HostStep s c f s') :
    f.pc ≠ .ended := by
  cases h with
  | take hp => simp [hp]
  | fail hp => simp [hp]
  | leave hp => exact hp
  | leaveFailing hp => exact hp

end OpenWorkers.Streams
