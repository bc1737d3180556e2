import Mathlib.Logic.Function.Basic
import OpenWorkers.Scheduler.Loop

/-!
# The stream manager

`StreamManager` of `src/runtime/stream_manager.rs`: three maps by stream id, and the next id
to hand out.  A channel is named by the order of creation of the streams, so a stream that
gets the id of an earlier one is still told from it: `senders` and `receivers` say whose ends
the manager holds under an id.  What is in a channel, and the ends that tasks hold, is the
matter of `OpenWorkers.Streams.Tasks`.

A function here is what the source does under its locks, without an `await`; `write_chunk`
and `read_chunk` are each two of them, with the channel in between.
-/

namespace OpenWorkers.Streams

open Function
open Scheduler (StreamId)

abbrev Bytes := List UInt8

/-- The channel of a stream, by the order of creation. -/
abbrev Channel := Nat

inductive StreamChunk where
  | data (bytes : Bytes)
  | done
  | error (message : String)
deriving DecidableEq, Repr

/-- The chunk is a terminal marker. -/
def StreamChunk.terminal : StreamChunk → Bool
  | .data _ => false
  | .done => true
  | .error _ => true

def defaultHighWaterMark : Nat := 16

structure StreamManager where
  senders : StreamId → Option Channel
  receivers : StreamId → Option Channel
  metadata : StreamId → Option String
  nextId : StreamId
  highWaterMark : Nat

namespace StreamManager

variable (m : StreamManager) (id : StreamId) (c : Channel)

def withHighWaterMark (highWaterMark : Nat) : StreamManager where
  senders := fun _ => none
  receivers := fun _ => none
  metadata := fun _ => none
  nextId := 1
  highWaterMark := highWaterMark

def new : StreamManager := withHighWaterMark defaultHighWaterMark

/-- The size of the channel of a new stream. -/
def capacity : Nat := m.highWaterMark + 1

/-- The new stream has the id `m.nextId`; `c` is its channel. -/
def createStream (url : String) : StreamManager where
  senders := update m.senders m.nextId (some c)
  receivers := update m.receivers m.nextId (some c)
  metadata := update m.metadata m.nextId (some url)
  nextId := m.nextId + 1
  highWaterMark := m.highWaterMark

/-- The sender of a stream, to wait for room in it; also the look-up of `write_chunk` and of
`try_write_chunk`. -/
def sender : Option Channel := m.senders id

def hasSender : Bool := (m.senders id).isSome

/-- What `write_chunk` and `try_write_chunk` do when the receiver is gone. -/
def removeSender : StreamManager := { m with senders := update m.senders id none }

/-- The manager without the receiver; also the first part of `read_chunk`. -/
def takeReceiver : StreamManager := { m with receivers := update m.receivers id none }

/-- The last part of `read_chunk`: the receiver is put back for the next read. -/
def putBack : StreamManager := { m with receivers := update m.receivers id (some c) }

def closeStream : StreamManager :=
  { m with
    senders := update m.senders id none
    receivers := update m.receivers id none
    metadata := update m.metadata id none }

/-- All streams go, and the ids start again. -/
def clear : StreamManager := withHighWaterMark m.highWaterMark

/-- An entry that is there after a removal was there before. -/
theorem eq_some_of_update_none {f : StreamId → Option Channel} {i : StreamId}
    (h : update f id none i = some c) : f i = some c := by
  by_cases hi : i = id
  · subst hi
    simp at h
  · rwa [update_of_ne hi] at h

theorem receivers_putBack {i : StreamId} {d : Channel}
    (h : (m.putBack id c).receivers i = some d) : m.receivers i = some d ∨ i = id ∧ d = c := by
  by_cases hi : i = id
  · subst hi
    simp only [putBack, update_self, Option.some.injEq] at h
    exact .inr ⟨rfl, h.symm⟩
  · simp only [putBack, update_of_ne hi] at h
    exact .inl h

end StreamManager

end OpenWorkers.Streams
