import OpenWorkers.Scheduler.Loop
import Mathlib.Data.List.Basic
import Mathlib.Data.List.Pairwise

/-!
# From a message of the guest to the host

What the guest of a Durable Object sends goes through two channels: the channel of the
event loop, and the queue of the object behind it.  A `Pipeline` is the two channels with
their readers.  A channel is kept as the list of everything that was ever put in it and the
number of items its reader has taken, so that positions name messages for good: `MsgId` is
a position in the first channel, and every item of the queue carries the message it is of.

`Pipeline.Inv` ties the two together, and `ClearBefore n` is what an open gate stands for:
every storage write sent before message `n` was ended by the host without an error.
-/

namespace OpenWorkers.Object

open List Scheduler

/-- A position in the channel of the event loop. -/
abbrev MsgId := Nat

structure Pipeline where
  /-- Everything sent to the event loop. -/
  sent : List SchedulerMessage
  /-- How many messages the loop has taken. -/
  handled : Nat
  loop : EventLoop
  /-- The loop has not ended. -/
  running : Bool
  /-- Everything put in the queue, with its message. -/
  queued : List (MsgId × Queued)
  /-- How many items the queue task has taken. -/
  taken : Nat
  /-- The host works on the last item taken. -/
  busy : Bool
  failed : Bool
  /-- The queue task has not panicked. -/
  alive : Bool
  opened : List GateId
  /-- The gates whose sender was dropped. -/
  shut : List GateId
  /-- The storage ops the host has ended, and whether without an error. -/
  answered : List (MsgId × Bool)
deriving DecidableEq, Repr

namespace Pipeline

def init : Pipeline := ⟨[], 0, .init, true, [], 0, false, false, true, [], [], []⟩

/-! ## Operations -/

/-- Send a message, and the gate behind it if it is a barrier.  A message to a loop that has
ended is dropped, and a barrier with it. -/
def send (p : Pipeline) (msg : SchedulerMessage) : Pipeline × Gate :=
  if p.running then
    ({ p with sent := p.sent ++ [msg] }, .behind p.sent.length)
  else
    (p, .closed)

/-- What an effect of the loop does to the queue and to the gates. -/
def perform (n : MsgId) (p : Pipeline) : Effect → Pipeline
  | .enqueue work =>
    if p.alive then
      { p with queued := p.queued ++ [(n, work)] }
    else
      { p with shut := work.gate.toList ++ p.shut }
  | .openGate => { p with opened := n :: p.opened }
  | .spawn _ | .command _ _ | .hangUp _ | .closeStream _ | .cancel _ => p

/-- The loop takes the next message.  The effects are also answered, with the message, for
what they do outside. -/
def handle (p : Pipeline) : Option (List Effect × Pipeline) :=
  if p.running then
    p.sent[p.handled]?.map fun msg =>
      let out := p.loop.handle p.alive p.handled msg
      (out.2,
        out.2.foldl (perform p.handled) { p with handled := p.handled + 1, loop := out.1 })
  else
    none

/-- The queue task takes the next item.  The item is also answered, with what was done. -/
def take (p : Pipeline) : Option ((MsgId × Queued) × List QueueEvent × Pipeline) :=
  if p.alive && !p.busy then
    p.queued[p.taken]?.map fun item =>
      let (events, busy) := Object.take p.failed item.2
      (item, events,
        { p with
          taken := p.taken + 1
          busy
          opened := openedGates events ++ p.opened
          shut := (item.2.gate.toList.filter (· ∉ openedGates events)) ++ p.shut })
  else
    none

/-- The host ends the op it works on. -/
def finish (p : Pipeline) (result : OperationResult) : Option Pipeline :=
  if p.busy then
    p.queued[p.taken - 1]?.map fun item =>
      { p with
        busy := false
        failed := (Object.finish item.2 result).2
        answered := p.answered ++
          item.2.callback.toList.map fun _ => (item.1, !result.toStorage.isError) }
  else
    none

/-- The queue task panics: what is left in the queue is dropped. -/
def panic (p : Pipeline) : Pipeline :=
  { p with
    alive := false
    busy := false
    shut := (p.queued.drop p.taken).filterMap (fun item => item.2.gate) ++ p.shut }

/-- The event loop ends: the messages it has not taken are dropped. -/
def stop (p : Pipeline) : Pipeline := { p with running := false }

/-- A gate that lets through. -/
def IsOpen (p : Pipeline) : Gate → Prop
  | .free => True
  | .behind n => n ∈ p.opened
  | .closed => False

/-- A gate that never will. -/
def IsShut (p : Pipeline) : Gate → Prop
  | .free => False
  | .behind n => n ∈ p.shut ∨ p.running = false ∧ p.handled ≤ n
  | .closed => True

instance (p : Pipeline) (gate : Gate) : Decidable (p.IsOpen gate) :=
  match gate with
  | .free => inferInstanceAs (Decidable True)
  | .behind n => inferInstanceAs (Decidable (n ∈ p.opened))
  | .closed => inferInstanceAs (Decidable False)

instance (p : Pipeline) (gate : Gate) : Decidable (p.IsShut gate) :=
  match gate with
  | .free => inferInstanceAs (Decidable False)
  | .behind n => inferInstanceAs (Decidable (n ∈ p.shut ∨ p.running = false ∧ p.handled ≤ n))
  | .closed => inferInstanceAs (Decidable True)

/-! ## What a message puts in the queue -/

/-- The work that message `n` puts in the queue of a living queue task. -/
def work (l : EventLoop) (n : MsgId) : SchedulerMessage → Option Queued
  | .objectStorage callback op => some (.storage callback op)
  | .objectSocket op => some (.socket op)
  | .objectUpgrade socket => if socket ∈ l.relays then none else some (.socket (.attach socket))
  | .fetchStreaming _ | .bindingFetch _ _ | .bindingWorker _ _ | .bindingDurableObject _ _ _
  | .outputBarrier => if l.queue then some (.barrier n) else none
  | .scheduleTimeout _ _ | .scheduleWritable _ _ | .scheduleInterval _ _ | .clearTimer _
  | .bindingStorage _ _ | .bindingKv _ _ | .bindingDatabase _ _ | .bindingD1 _ _
  | .bindingInvoke _ | .streamRead _ _ | .streamCancel _ | .webSocketConnect _ _ _
  | .webSocketPair _ | .webSocketUpgrade _ | .webSocketAccept _ | .webSocketSend _ _
  | .webSocketClose _ _ _ | .beginRequest _ | .shutdown => none

/-- The gates that message `n` opens at once. -/
def opens (l : EventLoop) (n : MsgId) : SchedulerMessage → List GateId
  | .outputBarrier => if l.queue then [] else [n]
  | _ => []

/-- Inversion of `take`. -/
theorem take_eq_some {p p' : Pipeline} {item : MsgId × Queued} {events : List QueueEvent}
    (h : p.take = some (item, events, p')) :
    p.alive = true ∧ p.busy = false ∧ p.queued[p.taken]? = some item ∧
      events = (Object.take p.failed item.2).1 ∧
      p' = { p with
        taken := p.taken + 1
        busy := (Object.take p.failed item.2).2
        opened := openedGates events ++ p.opened
        shut := (item.2.gate.toList.filter (· ∉ openedGates events)) ++ p.shut } := by
  unfold take at h
  split at h
  · next hcond =>
      rw [Bool.and_eq_true, Bool.not_eq_true'] at hcond
      obtain ⟨item', hitem, heq⟩ := Option.map_eq_some_iff.mp h
      obtain ⟨rfl, hrest⟩ := Prod.mk.inj heq
      obtain ⟨rfl, hp'⟩ := Prod.mk.inj hrest
      exact ⟨hcond.1, hcond.2, hitem, rfl, hp'.symm⟩
  · next => cases h

section Handle

variable {p : Pipeline} (l : EventLoop) (n : MsgId)

/-- Effects that touch neither the queue nor a gate. -/
theorem foldl_perform_of_inert {effects : List Effect}
    (h : ∀ effect ∈ effects, perform n p effect = p) : effects.foldl (perform n) p = p := by
  induction effects with
  | nil => rfl
  | cons effect effects ih =>
      rw [foldl_cons, h effect mem_cons_self]
      exact ih fun e he => h e (mem_cons_of_mem effect he)

theorem foldl_perform_upgrade (socket : Option WebSocketId) :
    (l.upgrade socket).2.foldl (perform n) p = p := by
  refine foldl_perform_of_inert n fun effect heffect => ?_
  simp only [EventLoop.upgrade, mem_append, mem_map] at heffect
  rcases heffect with heffect | ⟨ws, -, rfl⟩
  · split at heffect
    · cases heffect
    · split at heffect
      · rw [mem_singleton.mp heffect, perform]
      · split at heffect
        · rw [mem_singleton.mp heffect, perform]
        · cases heffect
  · rfl

theorem foldl_perform_beginRequest (alive : Bool) (abort : Option Nat) :
    (l.handle alive n (.beginRequest abort)).2.foldl (perform n) p = p := by
  refine foldl_perform_of_inert n fun effect heffect => ?_
  simp only [EventLoop.handle, mem_append, mem_map, mem_singleton] at heffect
  rcases heffect with (rfl | ⟨ws, -, rfl⟩) | ⟨token, -, rfl⟩ <;> rfl

/-- **What a message does to the queue and the gates**, while the queue task lives. -/
theorem foldl_perform_handle (hp : p.alive = true) (msg : SchedulerMessage) :
    (l.handle true n msg).2.foldl (perform n) p =
      { p with
        queued := p.queued ++ (work l n msg).toList.map (n, ·)
        opened := opens l n msg ++ p.opened } := by
  cases msg with
  | webSocketUpgrade socket =>
      rw [EventLoop.handle, foldl_perform_upgrade]
      simp [work, opens]
  | beginRequest abort =>
      rw [foldl_perform_beginRequest]
      simp [work, opens]
  | outputBarrier =>
      cases hq : l.queue with
      | false => simp [EventLoop.handle, work, opens, perform, hq]
      | true => simp [EventLoop.handle, work, opens, perform, hq, hp]
  | objectUpgrade socket =>
      by_cases hrelay : socket ∈ l.relays
      · simp [EventLoop.handle, work, opens, perform, hrelay]
      · simp [EventLoop.handle, EventLoop.enqueue, work, opens, perform, hrelay, hp]
  | fetchStreaming | bindingFetch | bindingWorker | bindingDurableObject =>
      cases hq : l.queue with
      | false =>
          simp [EventLoop.handle, EventLoop.gatedCall, EventLoop.outputGate, work, opens, perform,
            hq]
      | true =>
          simp [EventLoop.handle, EventLoop.gatedCall, EventLoop.outputGate, work, opens, perform,
            hq, hp]
  | objectStorage | objectSocket =>
      simp [EventLoop.handle, EventLoop.enqueue, work, opens, perform, hp]
  | webSocketPair socket =>
      cases hpairs : l.pairs <;> simp [EventLoop.handle, work, opens, perform, hpairs]
  | webSocketAccept socket =>
      by_cases hws : socket ∈ l.wsCommands <;>
        simp [EventLoop.handle, EventLoop.command, work, opens, perform, hws]
  | webSocketSend socket message =>
      by_cases hws : socket ∈ l.wsCommands <;>
        simp [EventLoop.handle, EventLoop.command, work, opens, perform, hws]
  | webSocketClose socket code reason =>
      by_cases hws : socket ∈ l.wsCommands <;>
        simp [EventLoop.handle, work, opens, perform, hws]
  | scheduleTimeout | scheduleWritable | scheduleInterval | clearTimer | bindingStorage
  | bindingKv | bindingDatabase | bindingD1 | bindingInvoke | streamRead | streamCancel
  | webSocketConnect | shutdown =>
      simp [EventLoop.handle, EventLoop.freeCall, work, opens, perform]

/-- The queue exists once something was put in it. -/
theorem queue_handle (msg : SchedulerMessage) :
    (l.handle true n msg).1.queue = (l.queue || (work l n msg).isSome) := by
  cases msg with
  | objectUpgrade socket =>
      by_cases hrelay : socket ∈ l.relays <;>
        simp [EventLoop.handle, EventLoop.enqueue, work, hrelay]
  | webSocketPair socket => cases hpairs : l.pairs <;> simp [EventLoop.handle, work, hpairs]
  | fetchStreaming | bindingFetch | bindingWorker | bindingDurableObject | outputBarrier =>
      cases hq : l.queue <;> simp [EventLoop.handle, EventLoop.gatedCall, work, hq]
  | objectStorage | objectSocket => simp [EventLoop.handle, EventLoop.enqueue, work]
  | webSocketUpgrade | beginRequest | webSocketAccept | webSocketSend | webSocketClose
  | scheduleTimeout | scheduleWritable | scheduleInterval | clearTimer | bindingStorage
  | bindingKv | bindingDatabase | bindingD1 | bindingInvoke | streamRead | streamCancel
  | webSocketConnect | shutdown =>
      simp [EventLoop.handle, EventLoop.freeCall, EventLoop.upgrade, EventLoop.command, work]

/-- Inversion of `handle`, while the queue task lives. -/
theorem handle_eq_some {p' : Pipeline} {effects : List Effect} (hp : p.alive = true)
    (h : p.handle = some (effects, p')) :
    p.running = true ∧ ∃ msg, p.sent[p.handled]? = some msg ∧
      effects = (p.loop.handle true p.handled msg).2 ∧
      p' = { p with
        handled := p.handled + 1
        loop := (p.loop.handle true p.handled msg).1
        queued := p.queued ++ (work p.loop p.handled msg).toList.map (p.handled, ·)
        opened := opens p.loop p.handled msg ++ p.opened } := by
  unfold handle at h
  split at h
  · next hrunning =>
      obtain ⟨msg, hmsg, heq⟩ := Option.map_eq_some_iff.mp h
      obtain ⟨heffects, hp'⟩ := Prod.mk.inj heq
      rw [hp] at heffects hp'
      refine ⟨hrunning, msg, hmsg, heffects.symm, ?_⟩
      rw [← hp', hp]
      exact foldl_perform_handle p.loop p.handled rfl msg
  · next => cases h

end Handle

end Pipeline

end OpenWorkers.Object
