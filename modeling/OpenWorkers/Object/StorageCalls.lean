import OpenWorkers.Lib.Erase
import OpenWorkers.Lib.Machine
import OpenWorkers.Object.Order
import OpenWorkers.Object.Storage

/-!
# The storage calls of a Durable Object

A call of `storage` in `src/js/durable_object.js` is sent at once and answered much later: it goes
through the channel of the event loop and the queue of the object to the host, and a guest need not
await one call before it makes the next.

The host is any storage that runs one op after the other (`Host`), and may fail an op.  `Serves`
says what the answers of such a storage are, with no channel and no queue.  The result is that the
guest sees just that: the answers come in the order of the calls, and one that is not an error is
that of the storage after all the calls before it.

A call that the check of the backlog or the clone of a value refuses sends nothing.  A queue task
that panics answers nothing any more (`FailClosed`), so there is no panic here.
-/

namespace OpenWorkers.Object.StorageCalls

open List Option Scheduler

variable {σ : Type}

/-! ## The host -/

/-- A storage that runs its ops one after the other. -/
structure Host (σ : Type) where
  handle : σ → ObjectStorageOp → σ × ObjectStorageResult
  read_keeps : ∀ store op, op.writes = false → (handle store op).1 = store

/-- How the host ends an op. -/
inductive Reply (σ : Type) where
  | performs
  /-- With a message, or with a result of another type.  A write that fails may have changed the
  storage in any way. -/
  | fails (message : Option String) (store : σ)

namespace Host

variable (h : Host σ) (store : σ)

/-- The storage after some ops. -/
def after (ops : List ObjectStorageOp) : σ :=
  ops.foldl (fun store op => (h.handle store op).1) store

def reply (op : ObjectStorageOp) : Reply σ → σ × OperationResult
  | .performs => ((h.handle store op).1, .objectStorage (h.handle store op).2)
  | .fails message store' =>
    (if op.writes then store' else store, message.elim .other fun m => .objectStorage (.error m))

theorem after_append (ops ops' : List ObjectStorageOp) :
    h.after store (ops ++ ops') = h.after (h.after store ops) ops' :=
  foldl_append

theorem after_concat (ops : List ObjectStorageOp) (op : ObjectStorageOp) :
    h.after store (ops ++ [op]) = (h.handle (h.after store ops) op).1 :=
  h.after_append store ops [op]

end Host

/-- A call with its answer. -/
structure Answer where
  callback : CallbackId
  op : ObjectStorageOp
  result : ObjectStorageResult
deriving DecidableEq, Repr

namespace Answer

def call (a : Answer) : CallbackId × ObjectStorageOp := (a.callback, a.op)

/-- A write that was answered with an error. -/
def failed (a : Answer) : Bool := a.op.writes && a.result.isError

end Answer

/-- The answers of a host that starts with `store`, with the storage it has then and whether a
write has failed. -/
inductive Serves (h : Host σ) (store : σ) : List Answer → σ → Bool → Prop where
  | nil : Serves h store [] store false
  | performed {answers : List Answer} {now : σ} (callback : CallbackId) (op : ObjectStorageOp) :
      Serves h store answers now false →
      Serves h store (answers ++ [⟨callback, op, (h.handle now op).2⟩]) (h.handle now op).1
        (op.writes && (h.handle now op).2.isError)
  | failed {answers : List Answer} {now now' : σ} (callback : CallbackId) {op : ObjectStorageOp}
      {result : ObjectStorageResult} (herror : result.isError = true)
      (hkeeps : op.writes = false → now' = now) :
      Serves h store answers now false →
      Serves h store (answers ++ [⟨callback, op, result⟩]) now' (op.writes && result.isError)
  /-- After a failed write no op reaches the host. -/
  | refused {answers : List Answer} {now : σ} (callback : CallbackId) (op : ObjectStorageOp) :
      Serves h store answers now true →
      Serves h store (answers ++ [⟨callback, op, .error storageFailed⟩]) now true

namespace Serves

variable {h : Host σ} {store now : σ} {answers : List Answer} {failed : Bool}

/-- The flag tells of a failed write. -/
theorem failed_eq (hserves : Serves h store answers now failed) :
    failed = answers.any Answer.failed := by
  induction hserves with
  | nil => rfl
  | performed callback op _ ih | failed callback _ _ _ ih =>
      rw [any_append, ← ih, Bool.false_or, any_cons, any_nil, Bool.or_false]
      rfl
  | refused callback op _ ih => rw [any_append, ← ih, Bool.true_or]

/-- Until a write fails, the storage is what the ops make of it. -/
theorem eq_after (hserves : Serves h store answers now failed) (hfailed : failed = false) :
    now = h.after store (answers.map Answer.op) := by
  induction hserves with
  | nil => rfl
  | performed callback op _ ih =>
      rw [map_append, map_singleton, h.after_concat, ← ih rfl]
  | failed callback herror hkeeps _ ih =>
      rw [herror, Bool.and_true] at hfailed
      rw [map_append, map_singleton, h.after_concat, ← ih rfl, hkeeps hfailed,
        h.read_keeps _ _ hfailed]
  | refused => cases hfailed

/-- An answer that is not an error is that of the storage after the ops before it, and behind a
failed write every call is refused. -/
theorem result_eq (hserves : Serves h store answers now failed) {i : Nat} {a : Answer}
    (ha : answers[i]? = some a) :
    (a.result.isError = false →
      a.result = (h.handle (h.after store ((answers.take i).map Answer.op)) a.op).2) ∧
    ((answers.take i).any Answer.failed = true → a.result = .error storageFailed) := by
  induction hserves with
  | nil => cases ha
  | performed callback op hbefore ih =>
      rcases take_of_getElem?_concat ha with ⟨rfl, htake⟩ | ⟨ha, htake⟩
      · rw [htake, ← hbefore.eq_after rfl, ← hbefore.failed_eq]
        exact ⟨fun _ => rfl, nofun⟩
      · rw [htake]
        exact ih ha
  | failed callback herror _ hbefore ih =>
      rcases take_of_getElem?_concat ha with ⟨rfl, htake⟩ | ⟨ha, htake⟩
      · rw [htake, ← hbefore.failed_eq, herror]
        exact ⟨nofun, nofun⟩
      · rw [htake]
        exact ih ha
  | refused callback op _ ih =>
      rcases take_of_getElem?_concat ha with ⟨rfl, htake⟩ | ⟨ha, htake⟩
      · exact ⟨nofun, fun _ => rfl⟩
      · rw [htake]
        exact ih ha

end Serves

/-! ## The machine -/

structure State (σ : Type) where
  pipeline : Pipeline
  store : σ
  /-- The calls that the queue has answered, in the order of the answers. -/
  served : List Answer

inductive Action (σ : Type) where
  /-- The guest sends a message, a storage call or another. -/
  | send (msg : SchedulerMessage)
  | handle
  | take
  | finish (reply : Reply σ)
  | stop

def callOf : SchedulerMessage → Option (CallbackId × ObjectStorageOp)
  | .objectStorage callback op => some (callback, op)
  | _ => none

def callIn : Queued → Option (CallbackId × ObjectStorageOp)
  | .storage callback op => some (callback, op)
  | .socket _ | .barrier _ => none

/-- The calls, in the order in which the guest has made them. -/
def State.calls (s : State σ) : List (CallbackId × ObjectStorageOp) :=
  s.pipeline.sent.filterMap callOf

/-- The answers among the events of an item. -/
def answersOf (work : Queued) (events : List QueueEvent) : List Answer :=
  (callIn work).toList.flatMap fun call =>
    (answers events).map fun answer => ⟨answer.1, call.2, answer.2⟩

section

variable (h : Host σ)

/-- What the host makes of an item. -/
def endItem (store : σ) (reply : Reply σ) : Queued → σ × OperationResult
  | .storage _ op => h.reply store op reply
  | .socket _ | .barrier _ => (store, .other)

def step (s : State σ) : Action σ → Option (State σ)
  | .send msg => some { s with pipeline := (s.pipeline.send msg).1 }
  | .handle => s.pipeline.handle.map fun out => { s with pipeline := out.2 }
  | .take => s.pipeline.take.map fun out =>
      { s with pipeline := out.2.2, served := s.served ++ answersOf out.1.2 out.2.1 }
  | .finish reply =>
    (s.pipeline.queued[s.pipeline.taken - 1]?).bind fun item =>
      let ended := endItem h s.store reply item.2
      (s.pipeline.finish ended.2).map fun pipeline =>
        ⟨pipeline, ended.1, s.served ++ answersOf item.2 (Object.finish item.2 ended.2).1⟩
  | .stop => some { s with pipeline := s.pipeline.stop }

def machine (store : σ) : Machine (State σ) (Action σ) where
  init := ⟨.init, store, []⟩
  step := step h

end

/-! ## One item -/

variable {h : Host σ} {store : σ} {s s' : State σ} {a : Action σ}

/-- A message puts its call in the queue, and no other. -/
theorem callIn_work (l : EventLoop) (n : MsgId) (msg : SchedulerMessage) :
    (Pipeline.work l n msg).bind callIn = callOf msg := by
  cases msg with
  | objectUpgrade | fetchStreaming | bindingFetch | bindingWorker | bindingDurableObject
  | outputBarrier =>
      rw [Pipeline.work]
      split <;> rfl
  | _ => rfl

section Items

variable {served : List Answer} {now : σ} {failed : Bool} (work : Queued)

theorem answersOf_of_callIn_eq_none {work : Queued} (hwork : callIn work = none)
    (events : List QueueEvent) : answersOf work events = [] := by
  rw [answersOf, hwork]
  rfl

/-- An item that is not handed to the host is done with. -/
theorem call_answersOf_take (hbusy : (Object.take failed work).2 = false) :
    (answersOf work (Object.take failed work).1).map Answer.call = (callIn work).toList := by
  cases failed <;> cases work <;> first | rfl | cases hbusy

theorem answersOf_take_of_busy (hbusy : (Object.take failed work).2 = true) :
    answersOf work (Object.take failed work).1 = [] := by
  cases failed <;> cases work <;> first | rfl | cases hbusy

theorem call_answersOf_finish (result : OperationResult) :
    (answersOf work (Object.finish work result).1).map Answer.call = (callIn work).toList := by
  cases work <;> rfl

theorem Serves.take (hserves : Serves h store served now failed) :
    Serves h store (served ++ answersOf work (Object.take failed work).1) now failed := by
  cases failed with
  | false =>
      have hnone : answersOf work (Object.take false work).1 = [] := by cases work <;> rfl
      rw [hnone, append_nil]
      exact hserves
  | true =>
      cases work with
      | storage callback op => exact hserves.refused callback op
      | socket | barrier =>
          rw [answersOf_of_callIn_eq_none rfl, append_nil]
          exact hserves

/-- The host ends an item. -/
theorem Serves.finish (hserves : Serves h store served now false) (reply : Reply σ) :
    Serves h store (served ++ answersOf work (Object.finish work (endItem h now reply work).2).1)
      (endItem h now reply work).1 (Object.finish work (endItem h now reply work).2).2 := by
  cases work with
  | storage callback op =>
      cases reply with
      | performs => exact hserves.performed callback op
      | fails message now' =>
          refine hserves.failed callback ?_ fun hop => ?_
          · cases message <;> rfl
          · exact if_neg (by rw [hop]; exact Bool.false_ne_true)
  | socket | barrier =>
      rw [answersOf_of_callIn_eq_none rfl, append_nil]
      exact hserves

end Items

/-! ## The order -/

/-- The calls in the queue. -/
def callsIn (queued : List (MsgId × Queued)) : List (CallbackId × ObjectStorageOp) :=
  queued.flatMap fun item => (callIn item.2).toList

structure Ordered (h : Host σ) (store : σ) (s : State σ) : Prop where
  inv : s.pipeline.Inv
  queued : callsIn s.pipeline.queued =
    (s.pipeline.sent.take s.pipeline.handled).filterMap callOf
  served : s.served.map Answer.call = callsIn (s.pipeline.queued.take s.pipeline.done)
  host : Serves h store s.served s.store s.pipeline.failed

namespace Ordered

variable {p : Pipeline}

theorem send (hs : Ordered h store s) (msg : SchedulerMessage) :
    Ordered h store { s with pipeline := (s.pipeline.send msg).1 } := by
  have hinv := hs.inv.send msg
  rw [Pipeline.send] at hinv ⊢
  split at hinv
  · next hrunning =>
      rw [if_pos hrunning]
      refine ⟨hinv, ?_, hs.served, hs.host⟩
      show _ = ((s.pipeline.sent ++ [msg]).take s.pipeline.handled).filterMap callOf
      rw [take_append_of_le_length hs.inv.handled_le]
      exact hs.queued
  · next hrunning =>
      rw [if_neg hrunning]
      exact hs

theorem handle (hs : Ordered h store s) {effects : List Effect}
    (hhandle : s.pipeline.handle = some (effects, p)) :
    Ordered h store { s with pipeline := p } := by
  have hinv := hs.inv.handle hhandle
  obtain ⟨-, msg, hmsg, -, rfl⟩ := Pipeline.handle_eq_some hs.inv.alive hhandle
  refine ⟨hinv, ?_, ?_, hs.host⟩
  · show callsIn (s.pipeline.queued ++ _) =
      (s.pipeline.sent.take (s.pipeline.handled + 1)).filterMap callOf
    rw [callsIn, flatMap_append, take_add_one, hmsg, filterMap_append, ← hs.queued,
      callsIn]
    congr 1
    rw [toList_some, filterMap_cons, filterMap_nil,
      ← callIn_work s.pipeline.loop s.pipeline.handled msg]
    cases hwork : Pipeline.work s.pipeline.loop s.pipeline.handled msg with
    | none => rfl
    | some work => cases hcall : callIn work <;> simp [hcall]
  · show _ = callsIn ((s.pipeline.queued ++ _).take s.pipeline.done)
    rw [take_append_of_le_length (s.pipeline.done_le_taken.trans hs.inv.taken_le)]
    exact hs.served

theorem take (hs : Ordered h store s) {item : MsgId × Queued} {events : List QueueEvent}
    (htake : s.pipeline.take = some (item, events, p)) :
    Ordered h store { s with pipeline := p, served := s.served ++ answersOf item.2 events } := by
  have hinv := hs.inv.take htake
  obtain ⟨-, hbusy, hitem, rfl, rfl⟩ := Pipeline.take_eq_some htake
  refine ⟨hinv, hs.queued, ?_, hs.host.take item.2⟩
  have hdone : s.pipeline.done = s.pipeline.taken :=
    if_neg (by rw [hbusy]; exact Bool.false_ne_true)
  show (s.served ++ answersOf item.2 (Object.take s.pipeline.failed item.2).1).map Answer.call =
    callsIn (s.pipeline.queued.take (if (Object.take s.pipeline.failed item.2).2 then
      s.pipeline.taken + 1 - 1 else s.pipeline.taken + 1))
  rw [map_append, hs.served, hdone]
  cases hwork : (Object.take s.pipeline.failed item.2).2 with
  | true =>
      rw [answersOf_take_of_busy item.2 hwork, map_nil, append_nil]
      rfl
  | false =>
      rw [call_answersOf_take item.2 hwork, if_neg Bool.false_ne_true,
        Pipeline.take_succ_of_getElem? hitem, callsIn, callsIn, flatMap_append,
        flatMap_singleton]

theorem finish (hs : Ordered h store s) {reply : Reply σ} {item : MsgId × Queued}
    (hitem : s.pipeline.queued[s.pipeline.taken - 1]? = some item)
    (hfinish : s.pipeline.finish (endItem h s.store reply item.2).2 = some p) :
    Ordered h store ⟨p, (endItem h s.store reply item.2).1, s.served ++
      answersOf item.2 (Object.finish item.2 (endItem h s.store reply item.2).2).1⟩ := by
  have hinv := hs.inv.finish hfinish
  obtain ⟨hbusy, item', hitem', rfl⟩ := Pipeline.finish_eq_some hfinish
  cases hitem.symm.trans hitem'
  obtain ⟨hfailed, hpos⟩ := hs.inv.busy hbusy
  have hserves := hs.host
  rw [hfailed] at hserves
  refine ⟨hinv, hs.queued, ?_, hserves.finish item.2 reply⟩
  have hdone : s.pipeline.done = s.pipeline.taken - 1 := if_pos hbusy
  have htake := Pipeline.take_succ_of_getElem? hitem
  rw [Nat.sub_add_cancel hpos] at htake
  show (s.served ++ _).map Answer.call = callsIn (s.pipeline.queued.take s.pipeline.taken)
  rw [map_append, hs.served, hdone, call_answersOf_finish, htake, callsIn, callsIn,
    flatMap_append, flatMap_singleton]

theorem step (hs : Ordered h store s) (hstep : step h s a = some s') : Ordered h store s' := by
  cases a with
  | send msg =>
      cases hstep
      exact hs.send msg
  | handle =>
      obtain ⟨⟨effects, p⟩, hhandle, rfl⟩ := map_eq_some_iff.mp hstep
      exact hs.handle hhandle
  | take =>
      obtain ⟨⟨item, events, p⟩, htake, rfl⟩ := map_eq_some_iff.mp hstep
      exact hs.take htake
  | finish reply =>
      obtain ⟨item, hitem, hstep⟩ := bind_eq_some_iff.mp hstep
      obtain ⟨p, hfinish, rfl⟩ := map_eq_some_iff.mp hstep
      exact hs.finish hitem hfinish
  | stop =>
      cases hstep
      exact ⟨hs.inv.stop, hs.queued, hs.served, hs.host⟩

theorem of_run {actions : List (Action σ)} (hrun : (machine h store).run actions = some s) :
    Ordered h store s :=
  Machine.invariant ⟨Pipeline.Inv.init, rfl, rfl, .nil⟩ (fun _ _ _ hs hstep => hs.step hstep) hrun

/-- The calls that were answered are the first ones. -/
theorem served_isPrefix (hs : Ordered h store s) : s.served.map Answer.call <+: s.calls := by
  have htake : callsIn (s.pipeline.queued.take s.pipeline.done) <+: callsIn s.pipeline.queued := by
    refine ⟨callsIn (s.pipeline.queued.drop s.pipeline.done), ?_⟩
    rw [callsIn, callsIn, ← flatMap_append, take_append_drop, callsIn]
  rw [hs.queued] at htake
  rw [hs.served]
  exact htake.trans (( take_prefix _ _).filterMap _)

theorem ops_served (hs : Ordered h store s) {i : Nat} {a : Answer} (ha : s.served[i]? = some a) :
    (s.served.take i).map Answer.op = (s.calls.take i).map Prod.snd := by
  obtain ⟨later, hcalls⟩ := hs.served_isPrefix
  have hlt : i < (s.served.map Answer.call).length := by
    rw [length_map]
    exact (List.getElem?_eq_some_iff.mp ha).1
  rw [← hcalls, take_append_of_le_length hlt.le, ← map_take, List.map_map]
  rfl

end Ordered

/-! ## What the guest sees -/

/-- **A storage that runs the calls in the order in which they were made**, whether the guest has
awaited them or not: the calls are answered in that order, an answer that is not an error is that of
the storage after all the calls before it, and behind a failed write every call fails. -/
theorem calls_are_sequential (h : Host σ) (store : σ) {actions : List (Action σ)} {s : State σ}
    (hrun : (machine h store).run actions = some s) :
    s.served.map Answer.call <+: s.calls ∧
      ∀ i a, s.served[i]? = some a →
        (a.result.isError = false →
          a.result = (h.handle (h.after store ((s.calls.take i).map Prod.snd)) a.op).2) ∧
        ((s.served.take i).any Answer.failed = true → a.result = .error storageFailed) := by
  have hs := Ordered.of_run hrun
  refine ⟨hs.served_isPrefix, fun i a ha => ?_⟩
  rw [← hs.ops_served ha]
  exact hs.host.result_eq ha

/-- A host that holds values under keys, and no alarm. -/
def contentHost : Host Content where
  handle content op :=
    (content.apply op, match op with
      | .get keys => .values (keys.map content)
      | .list _ _ _ _ _ _ => .entries []
      | .write _ _ _ | .setAlarm _ => .written 0
      | .getAlarm => .alarm none)
  read_keeps content op hop := by cases op <;> first | rfl | cases hop

/-- Two times a `put` and a `get`, none of them awaited; the second `put` fails. -/
def unawaited : List (Action Content) :=
  [.send (.objectStorage 1 (.write [("a", [1, 7])] [] false)),
    .send (.objectStorage 2 (.get ["a"])),
    .handle, .send (.objectStorage 3 (.write [("a", [1, 9])] [] false)), .take,
    .send (.objectStorage 4 (.get ["a"])), .finish .performs, .handle, .handle, .take,
    .finish .performs, .take, .finish (.fails (some "disk full") fun _ => none), .handle, .take]

theorem calls_are_sequential_unawaited :
    ∃ s, (machine contentHost fun _ => none).run unawaited = some s ∧
      s.served[1]? = some ⟨2, .get ["a"], .values [some [1, 7]]⟩ ∧
      s.served[3]? = some ⟨4, .get ["a"], .error storageFailed⟩ ∧
      s.served.map Answer.call <+: s.calls := by
  have hrun : (machine contentHost fun _ => none).run unawaited = some _ := rfl
  exact ⟨_, hrun, rfl, rfl, (calls_are_sequential contentHost _ hrun).1⟩

end OpenWorkers.Object.StorageCalls
