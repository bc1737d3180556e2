import OpenWorkers.Streams.Tasks

/-!
# One stream on its way to the host

What a stream is when it is looked at alone (`Body`): its channel, its producer and its
forwarder, whether the maps hold its ends, and how many reads have taken its receiver.  The
parts of a step of `OpenWorkers.Streams.Tasks` have their counterparts here, without ids and
without other streams; `Body.Step` puts them together.  That the steps of the machine are
steps of this kind, once the streams are isolated, is the matter of
`OpenWorkers.Streams.Truncation`.

`Whole` is what carries the body: what the host has got, what its task holds, what is in the
channel and what the producer holds is, in this order, what the source gave (`Flow`); and the
terminal marker is behind all of it (`Terminated`).  `OpenWorkers.Streams.Way` shows that it
is kept as long as nobody cuts a stream that is being passed on.
-/

namespace OpenWorkers.Streams

open List

structure Body where
  stream : Stream
  /-- The map has its sender. -/
  sender : Bool
  /-- The map has its receiver. -/
  receiver : Bool
  /-- How many reads have taken its receiver. -/
  reading : Nat
deriving DecidableEq, Repr

namespace Body

variable (b : Body)

def modify (f : Stream → Stream) : Body := { b with stream := f b.stream }

def setCut : Body := b.modify fun st => { st with cut := true }

def dropReceiver : Body := b.modify fun st => { st with closed := true }

def removeSender : Body :=
  { b with
    sender := false
    stream := { b.stream with cut := b.stream.cut || (b.sender && !b.stream.marked) } }

def removeReceiver : Body :=
  { b with
    receiver := false
    stream := { b.stream with closed := b.stream.closed || b.receiver } }

def closeStream : Body := b.removeSender.removeReceiver

def takeReceiver : Body := { b with receiver := false }

def putBack : Body :=
  { b with
    receiver := true
    stream := { b.stream with closed := b.stream.closed || b.receiver } }

def push (actor : Channel) (chunk : StreamChunk) : Body :=
  b.modify fun st =>
    { st with buffer := st.buffer ++ [(chunk, actor)], marked := st.marked || chunk.terminal }

def pop : Body := b.modify fun st => { st with buffer := st.buffer.tail }

def setForward (f : Forward) : Body := b.modify fun st => { st with forward := some f }

/-- One more read has the receiver. -/
def startRead : Body := { b with reading := b.reading + 1 }

def endRead : Body := { b with reading := b.reading - 1 }

end Body

/-- The chunk that a producer has in hand. -/
def ProducerPc.hand : ProducerPc → Option StreamChunk
  | .writing chunk => some chunk
  | .sending _ chunk => some chunk
  | .waiting bytes => some (.data bytes)
  | .reading => none
  | .ended => none

/-- A stream may lose its ends: the host does not get it, or has left, or its terminal marker
is in the channel. -/
def Stream.Spared (st : Stream) : Prop :=
  ∀ f ∈ st.forward, f.left = true ∨ st.marked = true

/-- What can become of a stream in one step, by channels of the given capacity; `gone` says
that nobody will write the rest of it. -/
inductive Body.Step (capacity : Nat) (gone : Bool) : Body → Body → Prop where
  | produce {b : Body} (item : Upstream) : b.stream.producer = .reading →
      Step capacity gone b (b.modify (·.produce item))
  | cancel {b : Body} : b.stream.producer = .reading → (∀ f ∈ b.stream.forward, f.left = true) →
      Step capacity gone b (b.setCut.modify fun st => { st with producer := .writing .done })
  | hold {b : Body} {chunk : StreamChunk} (pc : ProducerPc) :
      b.stream.producer.hand = some chunk → pc.hand = some chunk →
      Step capacity gone b (b.modify fun st => { st with producer := pc })
  | noSender {b : Body} {chunk : StreamChunk} : b.stream.producer.hand = some chunk →
      b.sender = false → Step capacity gone b (b.modify (·.wrote false chunk))
  | noRoom {b : Body} {chunk : StreamChunk} : b.stream.producer.hand = some chunk →
      b.stream.kind = .guest → capacity ≤ b.stream.buffer.length →
      Step capacity gone b (b.modify (·.wrote false chunk))
  | sendClosed {b : Body} {chunk : StreamChunk} : b.stream.producer.hand = some chunk →
      b.stream.closed = true → Step capacity gone b (b.removeSender.modify (·.wrote false chunk))
  | send {b : Body} {chunk : StreamChunk} (actor : Channel) :
      b.stream.producer.hand = some chunk → b.stream.closed = false →
      (b.stream.kind = .guest → chunk.terminal = false → b.stream.buffer.length + 1 < capacity) →
      Step capacity gone b ((b.push actor chunk).modify (·.wrote true chunk))
  | read {b : Body} : b.receiver = true → Step capacity gone b b.takeReceiver.startRead
  | readData {b : Body} : 0 < b.reading → Step capacity gone b b.pop.setCut.putBack.endRead
  | readTerminal {b : Body} : 0 < b.reading →
      Step capacity gone b b.pop.setCut.dropReceiver.endRead
  | readDropped {b : Body} : 0 < b.reading → Step capacity gone b b.dropReceiver.endRead
  | close {b : Body} : b.stream.Spared → Step capacity gone b b.closeStream
  | respond {b : Body} (d : Channel) : b.receiver = true → b.stream.cut = false →
      (gone = true → b.stream.marked = true) →
      Step capacity gone b (b.takeReceiver.setForward
        { receiver := d, pc := .receiving, yielded := [], left := false })
  | forwardData {b : Body} {f : Forward} {bytes : Bytes} {author : Channel}
      {rest : List (StreamChunk × Channel)} : b.stream.forward = some f → f.pc = .receiving →
      b.stream.buffer = (.data bytes, author) :: rest →
      Step capacity gone b (b.pop.setForward { f with pc := .sending bytes })
  | forwardDone {b : Body} {f : Forward} {author : Channel} {rest : List (StreamChunk × Channel)} :
      b.stream.forward = some f → f.pc = .receiving → b.stream.buffer = (.done, author) :: rest →
      Step capacity gone b (b.pop.dropReceiver.setForward { f with pc := .ended })
  | forwardError {b : Body} {f : Forward} {message : String} {author : Channel}
      {rest : List (StreamChunk × Channel)} : b.stream.forward = some f → f.pc = .receiving →
      b.stream.buffer = (.error message, author) :: rest →
      Step capacity gone b (b.pop.setForward { f with pc := .failing message })
  | forwardNone {b : Body} {f : Forward} : b.stream.forward = some f → f.pc = .receiving →
      b.stream.buffer = [] → b.sender = false →
      Step capacity gone b (b.dropReceiver.setForward { f with pc := .ended })
  | hostTake {b : Body} {f : Forward} {bytes : Bytes} : b.stream.forward = some f →
      f.pc = .sending bytes →
      Step capacity gone b (b.setForward
        { f with pc := .receiving, yielded := f.yielded ++ [.ok bytes] })
  | hostFail {b : Body} {f : Forward} {message : String} : b.stream.forward = some f →
      f.pc = .failing message →
      Step capacity gone b (b.dropReceiver.setForward
        { f with pc := .ended, yielded := f.yielded ++ [.err message] })
  | hostLeave {b : Body} {f : Forward} : b.stream.forward = some f → f.pc ≠ .ended →
      Step capacity gone b
        (b.closeStream.dropReceiver.setForward { f with pc := .ended, left := true })
  | hostLeaveFailing {b : Body} {f : Forward} : b.stream.forward = some f → f.pc ≠ .ended →
      Step capacity gone b (b.dropReceiver.setForward { f with pc := .ended, left := true })

theorem Stream.Spared.mono {st st' : Stream} (h : st.Spared)
    (hforward : ∀ f' ∈ st'.forward, ∃ f ∈ st.forward, f.left = true → f'.left = true)
    (hmarked : st.marked = true → st'.marked = true) : st'.Spared := by
  intro f' hf'
  obtain ⟨f, hf, hleft⟩ := hforward f' hf'
  exact (h f hf).imp hleft hmarked

/-- A stream that is over and may lose its ends stays so. -/
theorem Body.Step.spared {capacity : Nat} {b b' : Body} (h : Step capacity true b b')
    (hb : b.stream.Spared) : b'.stream.Spared := by
  have hsame : ∀ f ∈ b.stream.forward, ∃ f' ∈ b.stream.forward, f'.left = true → f.left = true :=
    fun f hf => ⟨f, hf, id⟩
  cases h with
  | produce item =>
      refine hb.mono ?_ ?_ <;> unfold Body.modify Stream.produce <;> grind
  | send actor => exact hb.mono hsame fun hm => Bool.or_eq_true_iff.mpr (.inl hm)
  | respond d hr hcut hmarked => exact fun _ _ => .inr (hmarked rfl)
  | forwardData hf | forwardDone hf | forwardError hf | forwardNone hf | hostTake hf
  | hostFail hf =>
      refine hb.mono ?_ id
      rintro _ ⟨⟩
      exact ⟨_, hf, id⟩
  | hostLeave hf | hostLeaveFailing hf =>
      rintro _ ⟨⟩
      exact .inl rfl
  | _ => exact hb

/-- A step leaves the kind and the owner of a stream alone. -/
theorem Body.Step.same {capacity : Nat} {gone : Bool} {b b' : Body} (h : Step capacity gone b b') :
    b'.stream.kind = b.stream.kind ∧ b'.stream.owner = b.stream.owner := by
  cases h with
  | produce item =>
      unfold Body.modify Stream.produce
      grind
  | _ => exact ⟨rfl, rfl⟩

/-! ## What is on the way -/

/-- The data among the chunks of a channel. -/
def dataOf : List (StreamChunk × Channel) → List Bytes
  | [] => []
  | (.data bytes, _) :: rest => bytes :: dataOf rest
  | (.done, _) :: rest => dataOf rest
  | (.error _, _) :: rest => dataOf rest

/-- There is a terminal marker, no data is behind the first one, and if that is `Done` then
the source ended. -/
def Terminated (source : Source) : List (StreamChunk × Channel) → Prop
  | [] => False
  | (.data _, _) :: rest => Terminated source rest
  | (.done, _) :: rest => source = .ended ∧ dataOf rest = []
  | (.error _, _) :: rest => dataOf rest = []

/-- The data that a producer holds. -/
def ProducerPc.held (pc : ProducerPc) : List Bytes :=
  match pc.hand with
  | some (.data bytes) => [bytes]
  | _ => []

/-- The data that a forwarder holds. -/
def ForwardPc.held : ForwardPc → List Bytes
  | .sending bytes => [bytes]
  | _ => []

/-- A forwarder that has not reached the end of the body, for a host that is there. -/
def Forward.Passing (f : Forward) : Prop :=
  f.left = false ∧ f.pc ≠ .ended ∧ ∀ message, f.pc ≠ .failing message

/-- What is out of the channel: what the host has got, and what its forwarder holds. -/
def passed : Option Forward → List Item
  | none => []
  | some f => f.yielded ++ f.pc.held.map .ok

/-- What is out of the channel, what is in it and what the producer holds is what the source
gave. -/
def Flow (forward : Option Forward) (buffer : List (StreamChunk × Channel)) (pc : ProducerPc)
    (produced : List Bytes) : Prop :=
  passed forward ++ (dataOf buffer ++ pc.held).map .ok = produced.map .ok

/-- Where the producer is, when nothing was cut: only `pump_request_body` writes a second
terminal marker. -/
structure Phase (st : Stream) : Prop where
  reading : st.producer = .reading → st.source = .flowing ∧ st.marked = false
  data : ∀ bytes, st.producer.hand = some (.data bytes) →
    st.source = .flowing ∧ st.marked = false
  done : st.producer.hand = some .done →
    st.source = .ended ∧ st.marked = false ∨ st.kind = .pump ∧ st.marked = true
  error : ∀ message, st.producer.hand = some (.error message) → st.marked = false
  ended : st.producer = .ended → st.marked = true

/-- Nothing of the body is lost. -/
structure Whole (capacity : Nat) (b : Body) : Prop where
  sender : b.stream.marked = false → b.sender = true
  phase : Phase b.stream
  plain : b.stream.marked = false → ∀ x ∈ b.stream.buffer, x.1.terminal = false
  room : b.stream.kind = .guest → b.stream.marked = false → b.stream.buffer.length < capacity
  flow : (∀ f ∈ b.stream.forward, f.Passing) →
    Flow b.stream.forward b.stream.buffer b.stream.producer b.stream.produced
  terminated : (∀ f ∈ b.stream.forward, f.Passing) → b.stream.marked = true →
    Terminated b.stream.source b.stream.buffer

/-- What the host has got is all that the source gave up to its end, or an error. -/
def Complete (st : Stream) (f : Forward) : Prop :=
  (∃ message, .err message ∈ f.yielded) ∨
    st.source = .ended ∧ f.yielded = st.produced.map .ok

structure Way (capacity : Nat) (b : Body) : Prop where
  /-- There is one receiver. -/
  unique : b.receiver.toNat + b.reading + b.stream.forward.isSome.toNat ≤ 1
  /-- Nobody has a receiver that was dropped. -/
  alive : b.stream.closed = true → b.receiver = false ∧ b.reading = 0 ∧
    ∀ f ∈ b.stream.forward, f.pc = .ended
  /-- A forwarder that goes on no more has seen the terminal marker. -/
  past : ∀ f ∈ b.stream.forward, f.left = false →
    (f.pc = .ended ∨ ∃ message, f.pc = .failing message) → b.stream.marked = true
  intact : ∀ f ∈ b.stream.forward, f.left = false → b.stream.cut = false
  whole : b.stream.cut = false → Whole capacity b
  complete : ∀ f ∈ b.stream.forward, f.left = false → f.pc = .ended → Complete b.stream f

/-! ## Lists of chunks -/

theorem dataOf_append (xs ys : List (StreamChunk × Channel)) :
    dataOf (xs ++ ys) = dataOf xs ++ dataOf ys := by
  induction xs with
  | nil => rfl
  | cons x xs ih =>
      obtain ⟨chunk, author⟩ := x
      cases chunk with
      | data bytes => simp only [cons_append, dataOf, ih]
      | done => exact ih
      | error message => exact ih

/-- A terminal marker is no data. -/
theorem dataOf_terminal {chunk : StreamChunk} (h : chunk.terminal = true) (author : Channel) :
    dataOf [(chunk, author)] = [] := by
  cases chunk with
  | data bytes => exact nomatch h
  | done => rfl
  | error message => rfl

/-- The first terminal marker, behind data only. -/
theorem terminated_of_plain {source : Source} {xs : List (StreamChunk × Channel)}
    {chunk : StreamChunk} (hxs : ∀ x ∈ xs, x.1.terminal = false) (h : chunk.terminal = true)
    (hdone : chunk = .done → source = .ended) (author : Channel) :
    Terminated source (xs ++ [(chunk, author)]) := by
  induction xs with
  | nil =>
      cases chunk with
      | data bytes => exact nomatch h
      | done => exact ⟨hdone rfl, rfl⟩
      | error message => rfl
  | cons x xs ih =>
      obtain ⟨chunk', author'⟩ := x
      have hx := hxs _ mem_cons_self
      cases chunk' with
      | data bytes => exact ih fun y hy => hxs y (mem_cons_of_mem _ hy)
      | done => exact nomatch hx
      | error message => exact nomatch hx

/-- A further terminal marker changes nothing. -/
theorem Terminated.append {source : Source} {xs : List (StreamChunk × Channel)}
    {chunk : StreamChunk} (hxs : Terminated source xs) (h : chunk.terminal = true)
    (author : Channel) : Terminated source (xs ++ [(chunk, author)]) := by
  induction xs with
  | nil => exact hxs.elim
  | cons x xs ih =>
      obtain ⟨chunk', author'⟩ := x
      have hrest : dataOf xs = [] → dataOf (xs ++ [(chunk, author)]) = [] := by
        intro hnil
        rw [dataOf_append, hnil, dataOf_terminal h]
        rfl
      cases chunk' with
      | data bytes => exact ih hxs
      | done => exact ⟨hxs.1, hrest hxs.2⟩
      | error message => exact hrest hxs

/-! ## The flow -/

namespace Flow

variable {forward : Option Forward} {buffer : List (StreamChunk × Channel)} {pc : ProducerPc}
  {produced : List Bytes}

/-- Only what the producer holds matters. -/
theorem of_held (h : Flow forward buffer pc produced) {pc' : ProducerPc}
    (hheld : pc'.held = pc.held) : Flow forward buffer pc' produced := by
  unfold Flow
  rw [hheld]
  exact h

/-- The source gives a chunk to a producer that holds nothing. -/
theorem produce (h : Flow forward buffer pc produced) (hheld : pc.held = []) (bytes : Bytes) :
    Flow forward buffer (.writing (.data bytes)) (produced ++ [bytes]) := by
  unfold Flow at h ⊢
  rw [hheld, append_nil] at h
  rw [map_append, ← append_assoc, h, map_append]
  rfl

/-- What the producer holds goes into the channel. -/
theorem push (h : Flow forward buffer pc produced) {chunk : StreamChunk}
    (hhand : pc.hand = some chunk) {pc' : ProducerPc} (hheld : pc'.held = []) (author : Channel) :
    Flow forward (buffer ++ [(chunk, author)]) pc' produced := by
  have hpc : dataOf [(chunk, author)] = pc.held := by
    unfold ProducerPc.held
    rw [hhand]
    cases chunk <;> rfl
  unfold Flow at h ⊢
  rw [dataOf_append, hpc, hheld, append_nil, h]

/-- The forwarder takes a chunk from the channel. -/
theorem pop {f : Forward} {bytes : Bytes} {author : Channel}
    (h : Flow (some f) ((.data bytes, author) :: buffer) pc produced) (hf : f.pc = .receiving) :
    Flow (some { f with pc := .sending bytes }) buffer pc produced := by
  unfold Flow at h ⊢
  rw [← h]
  simp [passed, hf, ForwardPc.held, dataOf]

/-- The host takes a chunk from the forwarder. -/
theorem take {f : Forward} {bytes : Bytes} (h : Flow (some f) buffer pc produced)
    (hf : f.pc = .sending bytes) :
    Flow (some { f with pc := .receiving, yielded := f.yielded ++ [.ok bytes] }) buffer pc
      produced := by
  unfold Flow at h ⊢
  rw [← h]
  simp [passed, hf, ForwardPc.held]

/-- At the terminal marker everything has been passed on. -/
theorem eq_of_nil {f : Forward} (h : Flow (some f) buffer pc produced) (hf : f.pc = .receiving)
    (hbuffer : dataOf buffer = []) (hheld : pc.held = []) : f.yielded = produced.map .ok := by
  unfold Flow at h
  rw [← h, hbuffer, hheld]
  simp [passed, hf, ForwardPc.held]

end Flow

end OpenWorkers.Streams
