import OpenWorkers.Lib.BoundedChannel
import OpenWorkers.Lib.Erase
import OpenWorkers.Lib.Machine
import OpenWorkers.Streams.Manager

/-!
# What the calls of a stream manager leave behind

Any number of callers share a `StreamManager` that is not cleared: a Durable Object is never
reset.  A call of `write_chunk` is its look-up and its send, a call of `read_chunk` is its take,
the receipt of a chunk and, after data, its put-back; both can be dropped where they wait.
`try_write_chunk`, `take_receiver` and `close_stream` have no `await`.  Which call goes on, and
what it is called with, is the matter of the actions, so the callers may do anything.

Without `clear` no id is handed out twice: the channel of a stream is named by its id.  The
record of a stream also says whether `close_stream` was called for it (`closed`) and whether a
`read_chunk` returned its `Done` or `Error` (`finished`); no step reads these two.

The manager's entries for a stream go in `close_stream` alone: the end of a stream that was read
to its `Done` keeps the sender and the metadata, and a read that was under way when its stream
was closed puts the receiver back.
-/

namespace OpenWorkers.Streams

open List Option Function
open Scheduler (StreamId)

/-- One of the three maps has an entry for the stream. -/
def StreamManager.Holds (m : StreamManager) (id : StreamId) : Prop :=
  m.senders id ≠ none ∨ m.receivers id ≠ none ∨ m.metadata id ≠ none

instance (m : StreamManager) (id : StreamId) : Decidable (m.Holds id) :=
  inferInstanceAs (Decidable (_ ∨ _ ∨ _))

namespace Calls

variable {capacity : Nat}

structure Stream (capacity : Nat) where
  queue : BoundedChannel capacity StreamChunk
  /-- The receiver was dropped. -/
  dropped : Bool
  closed : Bool
  finished : Bool

/-- Where a call of `write_chunk` is. -/
inductive WritePc where
  /-- `tx.send(chunk).await`. -/
  | sending (sender : Channel) (chunk : StreamChunk)
  | returned (result : Except String Unit)
  /-- The caller dropped it. -/
  | dropped

structure WriteCall where
  id : StreamId
  pc : WritePc

/-- Where a call of `read_chunk` is. -/
inductive ReadPc where
  /-- `rx.recv().await`. -/
  | receiving (receiver : Channel)
  /-- It has got data, and is about to put the receiver back. -/
  | received (receiver : Channel) (bytes : Bytes)
  | returned (result : Except String StreamChunk)
  /-- The caller dropped it. -/
  | dropped

structure ReadCall where
  id : StreamId
  pc : ReadPc

def WriteCall.inProgress (w : WriteCall) : Bool :=
  match w.pc with
  | .sending _ _ => true
  | _ => false

/-- The call has the receiver that it took out of the map. -/
def ReadCall.inProgress (r : ReadCall) : Bool :=
  match r.pc with
  | .receiving _ => true
  | .received _ _ => true
  | _ => false

structure State (capacity : Nat) where
  manager : StreamManager
  /-- The streams that were created. -/
  streams : StreamId → Option (Stream capacity)
  writes : List WriteCall
  reads : List ReadCall
  /-- The receivers that `take_receiver` gave away. -/
  taken : List Channel

namespace State

variable (s : State capacity) (id : StreamId)

def closed : Bool := (s.streams id).any Stream.closed

def finished : Bool := (s.streams id).any Stream.finished

/-- The stream was created, was not closed, and its end was not read. -/
def IsOpen : Prop := ∃ st, s.streams id = some st ∧ st.closed = false ∧ st.finished = false

/-- No `read_chunk` has the receiver of the stream. -/
def NoRead : Prop := ∀ r ∈ s.reads, r.id = id → r.inProgress = false

/-- No `read_chunk` and no `write_chunk` of the stream is in progress. -/
def Idle : Prop := s.NoRead id ∧ ∀ w ∈ s.writes, w.id = id → w.inProgress = false

instance : Decidable (s.NoRead id) := inferInstanceAs (Decidable (∀ r ∈ s.reads, _))

instance : Decidable (s.Idle id) := inferInstanceAs (Decidable (_ ∧ ∀ w ∈ s.writes, _))

/-- A stream that was closed, or whose end was read, has no entry. -/
def LeavesNothing : Prop := s.closed id ∨ s.finished id → ¬ s.manager.Holds id

def modify (f : Stream capacity → Stream capacity) : State capacity :=
  { s with streams := update s.streams id ((s.streams id).map f) }

/-- A receiver is dropped, with what is in its channel. -/
def dropReceiver (c : Channel) : State capacity :=
  s.modify c fun st => { st with queue := st.queue.drop, dropped := true }

def setQueue (c : Channel) (queue : BoundedChannel capacity StreamChunk) : State capacity :=
  s.modify c fun st => { st with queue }

def setWrite (k : Nat) (pc : WritePc) : State capacity :=
  { s with writes := s.writes.modify k fun w => { w with pc } }

def setRead (k : Nat) (pc : ReadPc) : State capacity :=
  { s with reads := s.reads.modify k fun r => { r with pc } }

/-- There is a sender for the channel: that of the map, or a clone of it. -/
def hasSender (c : Channel) : Bool :=
  s.manager.sender c == some c || s.writes.any fun w =>
    match w.pc with
    | .sending d _ => d == c
    | _ => false

def createStream (url : String) : State capacity :=
  { s with
    manager := s.manager.createStream s.manager.nextId url
    streams := update s.streams s.manager.nextId
      (some { queue := .empty, dropped := false, closed := false, finished := false }) }

/-- The look-up of `write_chunk`. -/
def lookUp (chunk : StreamChunk) : State capacity :=
  match s.manager.sender id with
  | some c => { s with writes := s.writes ++ [⟨id, .sending c chunk⟩] }
  | none =>
      { s with writes := s.writes ++ [⟨id, .returned (.error s!"Stream {id} not found")⟩] }

/-- The send of `write_chunk`: there is room in the channel, or its receiver is gone. -/
def send (k : Nat) : Option (State capacity) :=
  s.writes[k]?.bind fun w =>
    match w.pc with
    | .sending c chunk =>
        (s.streams c).bind fun st =>
          if st.dropped then
            some ({ s with manager := s.manager.removeSender w.id }.setWrite k
              (.returned (.error "Stream channel closed")))
          else
            (st.queue.trySend chunk).map fun queue =>
              (s.setQueue c queue).setWrite k (.returned (.ok ()))
    | _ => none

def dropWrite (k : Nat) : Option (State capacity) :=
  s.writes[k]?.bind fun w => if w.inProgress then some (s.setWrite k .dropped) else none

/-- `try_write_chunk`, with what it returns. -/
def tryWriteChunk (chunk : StreamChunk) : State capacity × Except String Unit :=
  match (s.manager.sender id).bind fun c => (s.streams c).map (c, ·) with
  | none => (s, .error s!"Stream {id} not found")
  | some (c, st) =>
      if !chunk.terminal && decide (st.queue.free ≤ 1) then
        (s, .error "Stream buffer full (backpressure)")
      else if st.dropped then
        ({ s with manager := s.manager.removeSender id }, .error "Stream channel closed")
      else match st.queue.trySend chunk with
        | some queue => (s.setQueue c queue, .ok ())
        | none => (s, .error "Stream buffer full (backpressure)")

/-- The first part of `read_chunk`. -/
def take : State capacity :=
  match s.manager.receivers id with
  | some c =>
      { s with
        manager := s.manager.takeReceiver id
        reads := s.reads ++ [⟨id, .receiving c⟩] }
  | none =>
      { s with
        reads := s.reads ++
          [⟨id, .returned (.error s!"Stream {id} not found or already being read")⟩] }

/-- The call has received a chunk: the receiver is dropped after a terminal one. -/
def finish (k : Nat) (r : ReadCall) (c : Channel) (chunk : StreamChunk) : State capacity :=
  match chunk with
  | .data bytes => s.setRead k (.received c bytes)
  | chunk =>
      ((s.dropReceiver c).modify r.id fun st => { st with finished := true }).setRead k
        (.returned (.ok chunk))

/-- `rx.recv()` of `read_chunk` is ready: with a chunk, or because no sender is left. -/
def receive (k : Nat) : Option (State capacity) :=
  s.reads[k]?.bind fun r =>
    match r.pc with
    | .receiving c =>
        (s.streams c).bind fun st =>
          match st.queue.receive with
          | some (chunk, queue) => some ((s.setQueue c queue).finish k r c chunk)
          | none =>
              if s.hasSender c then none
              else some ((s.dropReceiver c).setRead k
                (.returned (.error "Stream closed unexpectedly")))
    | _ => none

/-- The last part of `read_chunk`, after data. -/
def putBack (k : Nat) : Option (State capacity) :=
  s.reads[k]?.bind fun r =>
    match r.pc with
    | .received c bytes =>
        some ({ s with manager := s.manager.putBack r.id c }.setRead k
          (.returned (.ok (.data bytes))))
    | _ => none

/-- The receiver that the call had taken goes with it. -/
def dropRead (k : Nat) : Option (State capacity) :=
  s.reads[k]?.bind fun r =>
    match r.pc with
    | .receiving c => some ((s.dropReceiver c).setRead k .dropped)
    | _ => none

def takeReceiver : State capacity :=
  match s.manager.receivers id with
  | some c => { s with manager := s.manager.takeReceiver id, taken := s.taken ++ [c] }
  | none => s

/-- Who got a receiver from `take_receiver` receives from it. -/
def takenReceive (c : Channel) : Option (State capacity) :=
  if c ∈ s.taken then
    (s.streams c).bind fun st => st.queue.receive.map fun p => s.setQueue c p.2
  else none

def takenDrop (c : Channel) : Option (State capacity) :=
  if c ∈ s.taken then some ({ s with taken := s.taken.erase c }.dropReceiver c) else none

/-- The receiver of a map entry is dropped with it. -/
def dropEntry : Option Channel → State capacity
  | some c => s.dropReceiver c
  | none => s

def closeStream : State capacity :=
  (({ s with manager := s.manager.closeStream id }).dropEntry (s.manager.receivers id)).modify id
    fun st => { st with closed := true }

end State

inductive Action where
  | createStream (url : String)
  | lookUp (id : StreamId) (chunk : StreamChunk)
  | send (k : Nat)
  | dropWrite (k : Nat)
  | tryWriteChunk (id : StreamId) (chunk : StreamChunk)
  | take (id : StreamId)
  | receive (k : Nat)
  | putBack (k : Nat)
  | dropRead (k : Nat)
  | takeReceiver (id : StreamId)
  | takenReceive (c : Channel)
  | takenDrop (c : Channel)
  | closeStream (id : StreamId)
deriving DecidableEq, Repr

def step (s : State capacity) : Action → Option (State capacity)
  | .createStream url => some (s.createStream url)
  | .lookUp id chunk => some (s.lookUp id chunk)
  | .send k => s.send k
  | .dropWrite k => s.dropWrite k
  | .tryWriteChunk id chunk => some (s.tryWriteChunk id chunk).1
  | .take id => some (s.take id)
  | .receive k => s.receive k
  | .putBack k => s.putBack k
  | .dropRead k => s.dropRead k
  | .takeReceiver id => some (s.takeReceiver id)
  | .takenReceive c => s.takenReceive c
  | .takenDrop c => s.takenDrop c
  | .closeStream id => some (s.closeStream id)

/-- The calls of a manager with the given high water mark. -/
def machine (highWaterMark : Nat) : Machine (State (highWaterMark + 1)) Action where
  init :=
    { manager := .withHighWaterMark highWaterMark, streams := fun _ => none, writes := [],
      reads := [], taken := [] }
  step := step

/-! ## What a step does to the entries of a stream -/

namespace State

variable (s : State capacity) (id : StreamId)

/-- The stream whose end the read `k` receives next. -/
def endRead (k : Nat) : Option StreamId :=
  s.reads[k]?.bind fun r =>
    match r.pc with
    | .receiving c =>
        if ((s.streams c).bind fun st => st.queue.buffer.head?).any StreamChunk.terminal then
          some r.id
        else none
    | _ => none

/-- The stream whose receiver the read `k` puts back next. -/
def putBackOf (k : Nat) : Option StreamId :=
  s.reads[k]?.bind fun r =>
    match r.pc with
    | .received _ _ => some r.id
    | _ => none

/-- The end of the stream is read before `close_stream`, or its receiver is put back after it. -/
def Spoils : Action → Prop
  | .receive k => s.endRead k = some id ∧ s.closed id = false
  | .putBack k => s.putBackOf k = some id ∧ s.closed id = true
  | _ => False

instance (a : Action) : Decidable (s.Spoils id a) := by
  cases a <;> dsimp only [Spoils] <;> infer_instance

end State

/-- No entry for the stream is made, and nothing becomes of the stream itself. -/
structure Kept (id : StreamId) (s s' : State capacity) : Prop where
  senders : s.manager.senders id = none → s'.manager.senders id = none
  receivers : s.manager.receivers id = none → s'.manager.receivers id = none
  metadata : s'.manager.metadata id = s.manager.metadata id
  created : (s'.streams id).isSome = (s.streams id).isSome
  closed : s'.closed id = s.closed id
  finished : s'.finished id = s.finished id
  noRead : s.manager.receivers id = none → s.NoRead id → s'.NoRead id

section Kept

variable {s s' s'' : State capacity} {id : StreamId}

theorem Kept.refl : Kept id s s := ⟨fun h => h, fun h => h, rfl, rfl, rfl, rfl, fun _ h => h⟩

theorem Kept.trans (h : Kept id s s') (h' : Kept id s' s'') : Kept id s s'' where
  senders hs := h'.senders (h.senders hs)
  receivers hr := h'.receivers (h.receivers hr)
  metadata := h'.metadata.trans h.metadata
  created := h'.created.trans h.created
  closed := h'.closed.trans h.closed
  finished := h'.finished.trans h.finished
  noRead hr hn := h'.noRead (h.receivers hr) (h.noRead hr hn)

theorem update_none_eq_none {f : StreamId → Option Channel} (i : StreamId) (h : f id = none) :
    update f i none id = none := by
  by_cases hid : id = i
  · subst hid
    exact update_self ..
  · rw [update_of_ne hid, h]

theorem Kept.modify (c : StreamId) {f : Stream capacity → Stream capacity}
    (hclosed : ∀ st, (f st).closed = st.closed) (hfinished : ∀ st, (f st).finished = st.finished) :
    Kept id s (s.modify c f) := by
  have hmap : (s.modify c f).streams id = s.streams id ∨
      (s.modify c f).streams id = (s.streams id).map f := by
    by_cases hid : id = c
    · subst hid
      exact .inr (update_self ..)
    · exact .inl (update_of_ne hid ..)
  refine ⟨fun h => h, fun h => h, rfl, ?_, ?_, ?_, fun _ h => h⟩
  · rcases hmap with h | h <;> simp [h]
  · rcases hmap with h | h
    · rw [State.closed, h, State.closed]
    · rw [State.closed, h, State.closed]
      cases s.streams id with
      | none => rfl
      | some st => exact hclosed st
  · rcases hmap with h | h
    · rw [State.finished, h, State.finished]
    · rw [State.finished, h, State.finished]
      cases s.streams id with
      | none => rfl
      | some st => exact hfinished st

/-- What becomes of another stream. -/
theorem Kept.of_ne {i : StreamId} (hid : id ≠ i) (f : Stream capacity → Stream capacity) :
    Kept id s (s.modify i f) := by
  have hstream : (s.modify i f).streams id = s.streams id := update_of_ne hid ..
  refine ⟨fun h => h, fun h => h, rfl, ?_, ?_, ?_, fun _ h => h⟩
  · rw [hstream]
  · rw [State.closed, hstream, State.closed]
  · rw [State.finished, hstream, State.finished]

theorem Kept.dropReceiver (c : Channel) : Kept id s (s.dropReceiver c) :=
  .modify c (fun _ => rfl) fun _ => rfl

theorem Kept.setQueue (c : Channel) (queue : BoundedChannel capacity StreamChunk) :
    Kept id s (s.setQueue c queue) :=
  .modify c (fun _ => rfl) fun _ => rfl

theorem Kept.setWrite (k : Nat) (pc : WritePc) : Kept id s (s.setWrite k pc) :=
  ⟨fun h => h, fun h => h, rfl, rfl, rfl, rfl, fun _ h => h⟩

theorem Kept.addWrite (w : WriteCall) : Kept id s { s with writes := s.writes ++ [w] } :=
  ⟨fun h => h, fun h => h, rfl, rfl, rfl, rfl, fun _ h => h⟩

theorem Kept.removeSender (i : StreamId) :
    Kept id s { s with manager := s.manager.removeSender i } :=
  ⟨update_none_eq_none i, fun h => h, rfl, rfl, rfl, rfl, fun _ h => h⟩

/-- The call goes on; it does not get a receiver that it did not have. -/
theorem Kept.setRead {k : Nat} {r : ReadCall} {pc : ReadPc} (hr : s.reads[k]? = some r)
    (hpc : r.inProgress = false → ReadCall.inProgress ⟨r.id, pc⟩ = false) :
    Kept id s (s.setRead k pc) := by
  refine ⟨fun h => h, fun h => h, rfl, rfl, rfl, rfl, fun _ h => ?_⟩
  apply forall_mem_modify h
  intro r' hr' hid
  cases hr.symm.trans hr'
  exact hpc (h r (mem_of_getElem? hr) hid)

theorem Kept.lookUp (i : StreamId) (chunk : StreamChunk) : Kept id s (s.lookUp i chunk) := by
  rw [State.lookUp]
  split
  · exact .addWrite _
  · exact .addWrite _

theorem Kept.send {k : Nat} (h : s.send k = some s') : Kept id s s' := by
  obtain ⟨w, hw, h⟩ := bind_eq_some_iff.mp h
  split at h
  · obtain ⟨st, hst, h⟩ := bind_eq_some_iff.mp h
    split at h
    · cases h
      exact (Kept.removeSender w.id).trans (.setWrite k _)
    · obtain ⟨queue, -, rfl⟩ := map_eq_some_iff.mp h
      exact (Kept.setQueue _ queue).trans (.setWrite k _)
  · cases h

theorem Kept.dropWrite {k : Nat} (h : s.dropWrite k = some s') : Kept id s s' := by
  obtain ⟨w, hw, h⟩ := bind_eq_some_iff.mp h
  obtain ⟨-, h⟩ := ite_none_right_eq_some.mp h
  cases h
  exact .setWrite k _

theorem Kept.tryWriteChunk (i : StreamId) (chunk : StreamChunk) :
    Kept id s (s.tryWriteChunk i chunk).1 := by
  rw [State.tryWriteChunk]
  split
  · exact .refl
  · split
    · exact .refl
    · split
      · exact .removeSender i
      · split
        · exact .setQueue _ _
        · exact .refl

theorem Kept.take (i : StreamId) : Kept id s (s.take i) := by
  rw [State.take]
  split
  next c hc =>
    refine ⟨fun h => h, update_none_eq_none i, rfl, rfl, rfl, rfl, fun hnone h r hr hid => ?_⟩
    rcases mem_append.mp hr with hr | hr
    · exact h r hr hid
    · -- The receiver was in the map.
      obtain rfl := mem_singleton.mp hr
      obtain rfl : i = id := hid
      rw [hnone] at hc
      cases hc
  next hc =>
    refine ⟨fun h => h, fun h => h, rfl, rfl, rfl, rfl, fun _ h r hr hid => ?_⟩
    rcases mem_append.mp hr with hr | hr
    · exact h r hr hid
    · obtain rfl := mem_singleton.mp hr
      rfl

theorem Kept.dropRead {k : Nat} (h : s.dropRead k = some s') : Kept id s s' := by
  obtain ⟨r, hr, h⟩ := bind_eq_some_iff.mp h
  split at h
  · cases h
    exact (Kept.dropReceiver _).trans (.setRead hr fun _ => rfl)
  · cases h

theorem Kept.takeReceiver (i : StreamId) : Kept id s (s.takeReceiver i) := by
  rw [State.takeReceiver]
  split
  · exact ⟨fun h => h, update_none_eq_none i, rfl, rfl, rfl, rfl, fun _ h => h⟩
  · exact .refl

theorem Kept.takenReceive {c : Channel} (h : s.takenReceive c = some s') : Kept id s s' := by
  obtain ⟨-, h⟩ := ite_none_right_eq_some.mp h
  obtain ⟨st, -, h⟩ := bind_eq_some_iff.mp h
  obtain ⟨p, -, rfl⟩ := map_eq_some_iff.mp h
  exact .setQueue c _

theorem Kept.takenDrop {c : Channel} (h : s.takenDrop c = some s') : Kept id s s' := by
  obtain ⟨-, h⟩ := ite_none_right_eq_some.mp h
  cases h
  have htaken : Kept id s { s with taken := s.taken.erase c } :=
    ⟨fun h => h, fun h => h, rfl, rfl, rfl, rfl, fun _ h => h⟩
  exact htaken.trans (.dropReceiver c)

theorem Kept.createStream (url : String) (hid : id ≠ s.manager.nextId) :
    Kept id s (s.createStream url) := by
  have hstream : (s.createStream url).streams id = s.streams id := update_of_ne hid ..
  refine ⟨fun h => ?_, fun h => ?_, update_of_ne hid .., ?_, ?_, ?_, fun _ h => h⟩
  · exact (update_of_ne hid ..).trans h
  · exact (update_of_ne hid ..).trans h
  · rw [hstream]
  · rw [State.closed, hstream, State.closed]
  · rw [State.finished, hstream, State.finished]

theorem Kept.dropEntry : ∀ entry : Option Channel, Kept id s (s.dropEntry entry)
  | some c => .dropReceiver c
  | none => .refl

theorem Kept.closeStream {i : StreamId} (hid : id ≠ i) : Kept id s (s.closeStream i) := by
  have hmanager : Kept id s { s with manager := s.manager.closeStream i } :=
    ⟨update_none_eq_none i, update_none_eq_none i, update_of_ne hid .., rfl, rfl, rfl,
      fun _ h => h⟩
  exact (hmanager.trans (.dropEntry _)).trans (.of_ne hid _)

/-- The last part of a read of another stream. -/
theorem Kept.putBack {k : Nat} {r : ReadCall} {c : Channel} {bytes : Bytes}
    (hr : s.reads[k]? = some r) (hid : id ≠ r.id) :
    Kept id s ({ s with manager := s.manager.putBack r.id c }.setRead k
      (.returned (.ok (.data bytes)))) := by
  have hmanager : Kept id s { s with manager := s.manager.putBack r.id c } :=
    ⟨fun h => h, fun h => (update_of_ne hid ..).trans h, rfl, rfl, rfl, rfl, fun _ h => h⟩
  exact hmanager.trans (.setRead hr fun _ => rfl)

end Kept

/-- What a step does, as the entries of the stream `id` and its record show it. -/
inductive Stepped (id : StreamId) (s : State capacity) : Action → State capacity → Prop where
  | kept {a : Action} {s' : State capacity} : ¬ s.Spoils id a → Kept id s s' → Stepped id s a s'
  | create {url : String} : id = s.manager.nextId →
      Stepped id s (.createStream url) (s.createStream url)
  /-- The end of the stream is read. -/
  | finish {k : Nat} {r : ReadCall} {t : State capacity} : s.endRead k = some id →
      s.reads[k]? = some r → r.inProgress = true → r.id = id → Kept id s t →
      t.manager = s.manager →
      Stepped id s (.receive k) (t.modify id fun st => { st with finished := true })
  | putBack {k : Nat} {r : ReadCall} {t : State capacity} {c : Channel} :
      s.putBackOf k = some id → s.reads[k]? = some r → r.inProgress = true → r.id = id →
      Kept id s t → t.manager = s.manager →
      Stepped id s (.putBack k) { t with manager := s.manager.putBack id c }
  | close : Stepped id s (.closeStream id) (s.closeStream id)

section

variable {s s' : State capacity} {id : StreamId} {a : Action}

/-- The chunk that a read receives decides whether it ends the stream. -/
theorem endRead_eq {k : Nat} {r : ReadCall} {c : Channel} {st : Stream capacity}
    (hr : s.reads[k]? = some r) (hpc : r.pc = .receiving c) (hst : s.streams c = some st) :
    s.endRead k = if st.queue.buffer.head?.any StreamChunk.terminal then some r.id else none := by
  simp only [State.endRead, hr, bind_some, hpc, hst]

theorem not_spoils_of_endRead {k : Nat} (h : s.endRead k ≠ some id) :
    ¬ s.Spoils id (.receive k) := by
  rintro ⟨hend, -⟩
  exact h hend

/-- The call has received the terminal chunk of its stream. -/
theorem stepped_of_terminal {k : Nat} {r : ReadCall} {c : Channel} {chunk : StreamChunk}
    {queue : BoundedChannel capacity StreamChunk} (hr : s.reads[k]? = some r)
    (hin : r.inProgress = true) (hend : s.endRead k = some r.id) :
    Stepped id s (.receive k) ((((s.setQueue c queue).dropReceiver c).modify r.id fun st =>
      { st with finished := true }).setRead k (.returned (.ok chunk))) := by
  have hkept : ∀ {i}, Kept i s (((s.setQueue c queue).dropReceiver c).setRead k
      (.returned (.ok chunk))) :=
    ((Kept.setQueue c queue).trans (.dropReceiver c)).trans (.setRead hr fun _ => rfl)
  by_cases hid : id = r.id
  · subst hid
    exact .finish hend hr hin rfl hkept rfl
  · refine .kept (not_spoils_of_endRead ?_) (hkept.trans (.of_ne hid _))
    rw [hend]
    rintro ⟨⟩
    exact hid rfl

theorem stepped_of_receive {k : Nat} (h : s.receive k = some s') :
    Stepped id s (.receive k) s' := by
  obtain ⟨r, hr, h⟩ := bind_eq_some_iff.mp h
  split at h
  next c hpc =>
    obtain ⟨st, hst, h⟩ := bind_eq_some_iff.mp h
    have hin : r.inProgress = true := by rw [ReadCall.inProgress, hpc]
    have hend := endRead_eq hr hpc hst
    split at h
    next chunk queue hqueue =>
      cases h
      rw [(BoundedChannel.of_receive hqueue).1] at hend
      cases chunk with
      | data bytes =>
          have hr' : (s.setQueue c queue).reads[k]? = some r := hr
          refine .kept (not_spoils_of_endRead (by rw [hend]; exact nofun))
            ((Kept.setQueue c queue).trans (.setRead hr' ?_))
          rw [hin]
          rintro ⟨⟩
      | done | error => exact stepped_of_terminal hr hin hend
    next hqueue =>
      obtain ⟨-, h⟩ := ite_none_left_eq_some.mp h
      cases h
      refine .kept (not_spoils_of_endRead ?_)
        ((Kept.dropReceiver c).trans (.setRead hr fun _ => rfl))
      have hbuffer : st.queue.buffer = [] := by
        by_contra hne
        have hsome := BoundedChannel.isSome_receive.mpr hne
        rw [hqueue] at hsome
        cases hsome
      rw [hend, hbuffer]
      exact nofun
  next => cases h

theorem stepped_of_putBack {k : Nat} (h : s.putBack k = some s') :
    Stepped id s (.putBack k) s' := by
  obtain ⟨r, hr, h⟩ := bind_eq_some_iff.mp h
  split at h
  next c bytes hpc =>
    cases h
    have hof : s.putBackOf k = some r.id := by
      simp only [State.putBackOf, hr, bind_some, hpc]
    by_cases hid : id = r.id
    · subst hid
      have hkept : Kept r.id s (s.setRead k (.returned (.ok (.data bytes)))) :=
        .setRead hr fun _ => rfl
      have hin : r.inProgress = true := by rw [ReadCall.inProgress, hpc]
      exact .putBack hof hr hin rfl hkept rfl
    · refine .kept ?_ (.putBack hr hid)
      rintro ⟨hof', -⟩
      rw [hof] at hof'
      cases hof'
      exact hid rfl
  next => cases h

theorem stepped_of_step (h : step s a = some s') : Stepped id s a s' := by
  cases a with
  | createStream url =>
      cases h
      by_cases hid : id = s.manager.nextId
      · exact .create hid
      · exact .kept (fun h => h) (.createStream url hid)
  | lookUp i chunk =>
      cases h
      exact .kept (fun h => h) (.lookUp i chunk)
  | send k => exact .kept (fun h => h) (.send h)
  | dropWrite k => exact .kept (fun h => h) (.dropWrite h)
  | tryWriteChunk i chunk =>
      cases h
      exact .kept (fun h => h) (.tryWriteChunk i chunk)
  | take i =>
      cases h
      exact .kept (fun h => h) (.take i)
  | receive k => exact stepped_of_receive h
  | putBack k => exact stepped_of_putBack h
  | dropRead k => exact .kept (fun h => h) (.dropRead h)
  | takeReceiver i =>
      cases h
      exact .kept (fun h => h) (.takeReceiver i)
  | takenReceive c => exact .kept (fun h => h) (.takenReceive h)
  | takenDrop c => exact .kept (fun h => h) (.takenDrop h)
  | closeStream i =>
      cases h
      by_cases hid : id = i
      · subst hid
        exact .close
      · exact .kept (fun h => h) (.closeStream hid)

end

/-! ## The invariant -/

/-- The metadata is there from `create_stream` to `close_stream`, and there is nothing for an id
that was not handed out. -/
structure Inv (id : StreamId) (s : State capacity) : Prop where
  metadata : (s.manager.metadata id).isSome = ((s.streams id).isSome && !s.closed id)
  senders : s.streams id = none → s.manager.senders id = none
  receivers : s.streams id = none → s.manager.receivers id = none
  noRead : s.streams id = none → s.NoRead id

section

variable {s s' : State capacity} {id : StreamId} {a : Action}

theorem Inv.kept (h : Inv id s) (hkept : Kept id s s') : Inv id s' := by
  have hnone : s'.streams id = none → s.streams id = none := by
    intro hs
    have hsome := hkept.created
    rw [hs] at hsome
    exact isNone_iff_eq_none.mp (by rw [← not_isSome, ← hsome]; rfl)
  refine ⟨?_, fun hs => ?_, fun hs => ?_, fun hs => ?_⟩
  · rw [hkept.metadata, hkept.created, hkept.closed, h.metadata]
  · exact hkept.senders (h.senders (hnone hs))
  · exact hkept.receivers (h.receivers (hnone hs))
  · exact hkept.noRead (h.receivers (hnone hs)) (h.noRead (hnone hs))

theorem streams_modify_self (f : Stream capacity → Stream capacity) :
    (s.modify id f).streams id = (s.streams id).map f :=
  update_self ..

/-- The record of the stream is changed in a way that keeps `closed`. -/
theorem Inv.modify (h : Inv id s) {f : Stream capacity → Stream capacity}
    (hf : ∀ st, (f st).closed = st.closed) : Inv id (s.modify id f) := by
  have hstream : (s.modify id f).streams id = (s.streams id).map f := streams_modify_self f
  have hnone : (s.modify id f).streams id = none → s.streams id = none := by
    rw [hstream]
    exact map_eq_none_iff.mp
  have hclosed : (s.modify id f).closed id = s.closed id := by
    rw [State.closed, hstream, State.closed]
    cases s.streams id with
    | none => rfl
    | some st => exact hf st
  refine ⟨?_, fun hs => h.senders (hnone hs), fun hs => h.receivers (hnone hs),
    fun hs => h.noRead (hnone hs)⟩
  rw [hstream, hclosed, isSome_map]
  exact h.metadata

/-- A read that has a receiver took it from the map. -/
theorem Inv.created (h : Inv id s) {k : Nat} {r : ReadCall} (hr : s.reads[k]? = some r)
    (hin : r.inProgress = true) (hid : r.id = id) : s.streams id ≠ none := by
  intro hnone
  rw [h.noRead hnone r (mem_of_getElem? hr) hid] at hin
  cases hin

theorem manager_dropEntry : ∀ entry : Option Channel, (s.dropEntry entry).manager = s.manager
  | some _ => rfl
  | none => rfl

theorem manager_closeStream : (s.closeStream id).manager = s.manager.closeStream id :=
  manager_dropEntry _

theorem not_holds_closeStream : ¬ (s.closeStream id).manager.Holds id := by
  rw [manager_closeStream]
  rintro (h | h | h)
  · exact h (update_self ..)
  · exact h (update_self ..)
  · exact h (update_self ..)

theorem Inv.closeStream (h : Inv id s) : Inv id (s.closeStream id) := by
  have hgone : ¬ (s.closeStream id).manager.Holds id := not_holds_closeStream
  simp only [StreamManager.Holds, not_or, not_not] at hgone
  obtain ⟨hsenders, hreceivers, hmetadata⟩ := hgone
  have hkept : Kept id { s with manager := s.manager.closeStream id }
      ({ s with manager := s.manager.closeStream id }.dropEntry (s.manager.receivers id)) :=
    .dropEntry _
  refine ⟨?_, fun _ => hsenders, fun _ => hreceivers, fun hnone => ?_⟩
  · rw [hmetadata, State.closed, State.closeStream, streams_modify_self]
    generalize State.streams _ id = entry
    cases entry <;> rfl
  · apply hkept.noRead (update_self ..)
    apply h.noRead
    rw [State.closeStream, streams_modify_self, map_eq_none_iff] at hnone
    have hcreated := hkept.created
    rw [hnone] at hcreated
    exact isNone_iff_eq_none.mp (by rw [← not_isSome, ← hcreated]; rfl)

theorem streams_createStream_self (url : String) :
    (s.createStream url).streams s.manager.nextId =
      some { queue := .empty, dropped := false, closed := false, finished := false } :=
  update_self ..

theorem Inv.createStream (url : String) : Inv s.manager.nextId (s.createStream url) := by
  have hstream := streams_createStream_self (s := s) url
  have hcreated : (s.createStream url).streams s.manager.nextId ≠ none := by
    rw [hstream]
    exact nofun
  refine ⟨?_, fun h => absurd h hcreated, fun h => absurd h hcreated, fun h => absurd h hcreated⟩
  have hmetadata : (s.createStream url).manager.metadata s.manager.nextId = some url :=
    update_self ..
  rw [State.closed, hstream, hmetadata]
  rfl

theorem Inv.step (h : Inv id s) (hstep : step s a = some s') : Inv id s' := by
  cases stepped_of_step hstep with
  | kept _ hkept => exact h.kept hkept
  | create hid =>
      subst hid
      exact .createStream _
  | finish _ _ _ _ hkept _ => exact (h.kept hkept).modify fun _ => rfl
  | @putBack _ _ t _ _ hr hin hid hkept hmanager =>
      have ht := h.kept hkept
      have hcreated : t.streams id ≠ none := by
        rw [← isSome_iff_ne_none, hkept.created, isSome_iff_ne_none]
        exact h.created hr hin hid
      refine ⟨?_, fun h => absurd h hcreated, fun h => absurd h hcreated,
        fun h => absurd h hcreated⟩
      rw [← hmanager]
      exact ht.metadata
  | close => exact h.closeStream

/-! ## The streams that leave nothing -/

theorem Inv.holds_of_open (h : Inv id s) (hcreated : s.streams id ≠ none)
    (hclosed : s.closed id = false) : s.manager.Holds id := by
  have hmetadata := h.metadata
  rw [isSome_iff_ne_none.mpr hcreated, hclosed] at hmetadata
  exact .inr (.inr (isSome_iff_ne_none.mp hmetadata))

/-- A step leaves nothing of the stream unless it reads its end before `close_stream`, or puts its
receiver back after it. -/
theorem leavesNothing_step (h : Inv id s) (hs : s.LeavesNothing id) (hstep : step s a = some s') :
    s'.LeavesNothing id ↔ ¬ s.Spoils id a := by
  cases stepped_of_step hstep with
  | kept hspoils hkept =>
      refine iff_of_true ?_ hspoils
      intro hover
      rw [hkept.closed, hkept.finished] at hover
      have hnot := hs hover
      simp only [StreamManager.Holds, not_or, not_not] at hnot ⊢
      exact ⟨hkept.senders hnot.1, hkept.receivers hnot.2.1, hkept.metadata.trans hnot.2.2⟩
  | create hid =>
      subst hid
      refine iff_of_true ?_ (fun h => h)
      rw [State.LeavesNothing, State.closed, State.finished, streams_createStream_self]
      rintro (⟨⟨⟩⟩ | ⟨⟨⟩⟩)
  | @finish _ _ t hend hr hin hid hkept hmanager =>
      have hcreated := h.created hr hin hid
      have hfinished : (t.modify id fun st => { st with finished := true }).finished id = true := by
        rw [State.finished, streams_modify_self, Option.any_map, any_true, hkept.created]
        exact isSome_iff_ne_none.mpr hcreated
      have hiff : (t.modify id fun st => { st with finished := true }).LeavesNothing id ↔
          ¬ s.manager.Holds id := by
        rw [← hmanager]
        exact ⟨fun hleaves => hleaves (.inr hfinished), fun hnot _ => hnot⟩
      rw [hiff]
      constructor
      · rintro hnot ⟨-, hclosed⟩
        exact hnot (h.holds_of_open hcreated hclosed)
      · intro hspoils
        cases hclosed : s.closed id with
        | true => exact hs (.inl hclosed)
        | false => exact absurd ⟨hend, hclosed⟩ hspoils
  | @putBack _ _ t c hof hr hin hid hkept hmanager =>
      have hcreated := h.created hr hin hid
      have hholds : (s.manager.putBack id c).Holds id := by
        have hreceiver : (s.manager.putBack id c).receivers id = some c :=
          update_self ..
        refine .inr (.inl ?_)
        rw [hreceiver]
        exact nofun
      constructor
      · rintro hleaves ⟨-, hclosed⟩
        exact hleaves (.inl (hkept.closed.trans hclosed)) hholds
      · intro hspoils hover
        -- What was finished and leaves nothing was closed, and then the put-back spoils it.
        have hclosed : s.closed id = true := by
          by_contra hopen
          refine hs ?_ (h.holds_of_open hcreated (Bool.eq_false_iff.mpr hopen))
          exact hover.imp (hkept.closed ▸ ·) (hkept.finished ▸ ·)
        exact absurd ⟨hof, hclosed⟩ hspoils
  | close => exact iff_of_true (fun _ => not_holds_closeStream) (fun h => h)

/-- An entry is that of a stream that is open. -/
theorem Inv.isOpen (h : Inv id s) (hs : s.LeavesNothing id) (hholds : s.manager.Holds id) :
    s.IsOpen id := by
  cases hstream : s.streams id with
  | none =>
      rcases hholds with hne | hne | hne
      · exact absurd (h.senders hstream) hne
      · exact absurd (h.receivers hstream) hne
      · have hmetadata := h.metadata
        rw [hstream, isSome_iff_ne_none.mpr hne] at hmetadata
        cases hmetadata
  | some st =>
      refine ⟨st, hstream, ?_, ?_⟩
      · by_contra hclosed
        refine hs (.inl ?_) hholds
        rw [State.closed, hstream]
        exact eq_true_of_ne_false hclosed
      · by_contra hfinished
        refine hs (.inr ?_) hholds
        rw [State.finished, hstream]
        exact eq_true_of_ne_false hfinished

end

variable {highWaterMark : Nat}

theorem inv_run {as : List Action} {s : State (highWaterMark + 1)} (id : StreamId)
    (h : (machine highWaterMark).run as = some s) : Inv id s :=
  Machine.invariant ⟨rfl, fun _ => rfl, fun _ => rfl, fun _ => nofun⟩
    (fun _ _ _ hs hstep => hs.step hstep) h

/-- The stream leaves nothing, in every state of the run, exactly when no step spoils it. -/
theorem always_leavesNothing {as : List Action} {s : State (highWaterMark + 1)} (id : StreamId)
    (h : (machine highWaterMark).run as = some s) :
    (machine highWaterMark).Always (·.LeavesNothing id) (machine highWaterMark).init as ↔
      (machine highWaterMark).Meets (fun s a => ¬ s.Spoils id a)
        (machine highWaterMark).init as := by
  refine Machine.always_iff_meets (I := Inv id) ?_ ?_ ?_ ?_ h
  · exact ⟨rfl, fun _ => rfl, fun _ => rfl, fun _ => nofun⟩
  · rintro (⟨⟨⟩⟩ | ⟨⟨⟩⟩)
  · exact fun s a s' hs hstep => hs.step hstep
  · exact fun s a s' hs hleaves hstep => leavesNothing_step hs hleaves hstep

/-- If no step spoils the stream, it has no entry once it was closed or its end was read, and no
call of it is in progress. -/
theorem not_holds_of_idle {as : List Action} {s : State (highWaterMark + 1)} (id : StreamId)
    (h : (machine highWaterMark).run as = some s)
    (hmeets : (machine highWaterMark).Meets (fun s a => ¬ s.Spoils id a)
      (machine highWaterMark).init as) :
    (s.closed id ∨ s.finished id) ∧ s.Idle id → ¬ s.manager.Holds id :=
  fun hover => ((always_leavesNothing id h).mpr hmeets).last h hover.1

/-- **A finished stream leaves nothing behind**: a stream that was closed, or whose `Done` or
`Error` was read, has no entry in the three maps, in every state of the run and whatever is in
progress, exactly when its end is not read before `close_stream` and no read puts its receiver
back after it.  In every run the metadata is that of the streams that were not closed; and if no
step spoils a stream, the entries are those of the streams that are open. -/
theorem finished_streams_leave_nothing {as : List Action} {s : State (highWaterMark + 1)}
    (h : (machine highWaterMark).run as = some s) :
    (∀ id,
      (machine highWaterMark).Always (·.LeavesNothing id) (machine highWaterMark).init as ↔
        (machine highWaterMark).Meets (fun s a => ¬ s.Spoils id a)
          (machine highWaterMark).init as) ∧
    (∀ id, (s.manager.metadata id).isSome = ((s.streams id).isSome && !s.closed id)) ∧
    ((∀ id, (machine highWaterMark).Meets (fun s a => ¬ s.Spoils id a)
        (machine highWaterMark).init as) →
      ∀ id, s.manager.Holds id → s.IsOpen id) := by
  refine ⟨fun id => always_leavesNothing id h, fun id => (inv_run id h).metadata, ?_⟩
  intro hmeets id hholds
  have hleaves := ((always_leavesNothing id h).mpr (hmeets id)).last h
  exact (inv_run id h).isOpen hleaves hholds

/-- The stream 1 is read once and closed, the stream 2 stays open. -/
theorem finished_streams_leave_nothing_closed :
    ∃ s, (machine 16).run [.createStream "a", .createStream "b", .lookUp 1 (.data [7]), .send 0,
        .take 1, .receive 0, .putBack 0, .closeStream 1] = some s ∧
      s.closed 1 = true ∧ s.manager.Holds 2 ∧ ¬ s.manager.Holds 1 := by
  have h : (machine 16).run [.createStream "a", .createStream "b", .lookUp 1 (.data [7]), .send 0,
      .take 1, .receive 0, .putBack 0, .closeStream 1] = some _ := rfl
  have hleaves := ((finished_streams_leave_nothing h).1 1).mpr (by decide)
  exact ⟨_, h, rfl, by decide, hleaves.last h (.inl rfl)⟩

/-- A stream that was read to its `Done` keeps its sender and its metadata; and a stream that was
closed while a read waited for it has its receiver again once that read got data. -/
theorem ended_stream_keeps_entries :
    (∃ s, (machine 16).run [.createStream "a", .lookUp 1 .done, .send 0, .take 1, .receive 0] =
        some s ∧
      s.finished 1 = true ∧ s.Idle 1 ∧ s.manager.senders 1 = some 1 ∧
        s.manager.metadata 1 = some "a") ∧
    ∃ s, (machine 16).run [.createStream "a", .take 1, .lookUp 1 (.data [7]), .send 0,
        .closeStream 1, .receive 0, .putBack 0] = some s ∧
      s.closed 1 = true ∧ s.Idle 1 ∧ s.manager.receivers 1 = some 1 :=
  ⟨⟨_, rfl, rfl, by decide, rfl, rfl⟩, ⟨_, rfl, rfl, by decide, rfl⟩⟩

end Calls

end OpenWorkers.Streams
