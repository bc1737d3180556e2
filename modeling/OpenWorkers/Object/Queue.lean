import Mathlib.Data.List.Basic

/-!
# The queue of a Durable Object

`run_object_queue` of `src/runtime/scheduler.rs`: the storage ops, the socket ops and the
barriers of an object are taken one at a time, in the order in which they were queued, and
after a failed write nothing more is handed to the host.

The loop is cut at its only await.  `take` is what happens to an item up to the call of
the host, `finish` what happens when the host ends the op.  `runObjectQueue` puts the two
together for a given sequence of host results; a machine in which items arrive meanwhile
uses `take` and `finish` directly.

A sender of a oneshot channel is a number, the *gate* that it opens.
-/

namespace OpenWorkers.Object

open List

abbrev CallbackId := Nat

abbrev WebSocketId := Nat

/-- The sending end of a barrier. -/
abbrev GateId := Nat

inductive ObjectStorageOp where
  | get (keys : List String)
  | list (start startAfter stop keyPrefix : Option String) (reverse : Bool) (limit : Option Nat)
  | write (puts : List (String × List UInt8)) (deletes : List String) (deleteAll : Bool)
  | getAlarm
  | setAlarm (time : Option Int)
deriving DecidableEq, Repr

/-- `matches!(op, Write { .. } | SetAlarm(_))`. -/
def ObjectStorageOp.writes : ObjectStorageOp → Bool
  | .write _ _ _ | .setAlarm _ => true
  | .get _ | .list _ _ _ _ _ _ | .getAlarm => false

inductive ObjectStorageResult where
  | error (message : String)
  | values (values : List (Option (List UInt8)))
  | entries (entries : List (String × List UInt8))
  | written (deleted : Nat)
  | alarm (time : Option Int)
deriving DecidableEq, Repr

def ObjectStorageResult.isError : ObjectStorageResult → Bool
  | .error _ => true
  | .values _ | .entries _ | .written _ | .alarm _ => false

inductive WebSocketOutgoing where
  | text (text : String)
  | binary (bytes : List UInt8)
  | close (code : Nat) (reason : String)
deriving DecidableEq, Repr

inductive ObjectSocketOp where
  | accept (socket : WebSocketId) (tags : List String) (hibernatable : Bool)
  | send (socket : WebSocketId) (message : WebSocketOutgoing)
  | attachment (socket : WebSocketId) (value : Option (List UInt8))
  /-- The socket of an upgrade goes to the object. -/
  | attach (socket : WebSocketId)
deriving DecidableEq, Repr

/-- Work of a Durable Object that runs in the order the guest made it. -/
inductive Queued where
  | storage (callback : CallbackId) (op : ObjectStorageOp)
  | socket (op : ObjectSocketOp)
  /-- An outbound call waits here for the writes made before it. -/
  | barrier (gate : GateId)
deriving DecidableEq, Repr

/-- What the queue asks of the host. -/
inductive Operation where
  | durableObjectStorage (op : ObjectStorageOp)
  | durableObjectSocket (op : ObjectSocketOp)
deriving DecidableEq, Repr

/-- What the host answers: a storage result, or something else. -/
inductive OperationResult where
  | objectStorage (result : ObjectStorageResult)
  | other
deriving DecidableEq, Repr

/-- What an outbound call of a Durable Object fails with once one of its writes failed. -/
def storageFailed : String := "a storage write of the Durable Object failed"

/-- What the queue does, in order. -/
inductive QueueEvent where
  /-- `ops.handle` is called. -/
  | handed (op : Operation)
  /-- The host has ended the op. -/
  | returned (result : OperationResult)
  /-- `CallbackMessage::ObjectStorage` is sent. -/
  | answer (callback : CallbackId) (result : ObjectStorageResult)
  /-- The gate of a barrier opens. -/
  | opened (gate : GateId)
deriving DecidableEq, Repr

/-! ## The loop -/

/-- What the queue makes of the answer of the host to a storage op. -/
def OperationResult.toStorage : OperationResult → ObjectStorageResult
  | .objectStorage result => result
  | .other => .error "Unexpected result type for object storage"

/-- The part of an iteration before its await: what is done, and whether the host now
works on the item. -/
def take (failed : Bool) : Queued → List QueueEvent × Bool
  | .storage callback op =>
    if failed then
      ([.answer callback (.error storageFailed)], false)
    else
      ([.handed (.durableObjectStorage op)], true)
  | .socket op => if failed then ([], false) else ([.handed (.durableObjectSocket op)], true)
  | .barrier gate => if failed then ([], false) else ([.opened gate], false)

/-- The part of an iteration after its await: what is done, and `failed` afterwards. -/
def finish (work : Queued) (result : OperationResult) : List QueueEvent × Bool :=
  match work with
  | .storage callback op =>
    ([.returned result, .answer callback result.toStorage], op.writes && result.toStorage.isError)
  | .socket _ => ([.returned result], false)
  | .barrier _ => ([], false)

/-- One iteration, with the answer of the host if it is asked. -/
def handle (failed : Bool) (work : Queued) (result : OperationResult) : List QueueEvent × Bool :=
  let (before, busy) := take failed work
  if busy then
    let (after, failed) := finish work result
    (before ++ after, failed)
  else
    (before, failed)

/-- The whole loop over the items of a closed queue.  `host n` is the answer of the host to
the item at position `n`, when it is asked. -/
def runObjectQueue (host : Nat → OperationResult) : Nat → Bool → List Queued → List QueueEvent
  | _, _, [] => []
  | n, failed, work :: queue =>
    let done := handle failed work (host n)
    done.1 ++ runObjectQueue host (n + 1) done.2 queue

/-! ## What the items and the events say -/

/-- The op of an item. -/
def Queued.op : Queued → Option Operation
  | .storage _ op => some (.durableObjectStorage op)
  | .socket op => some (.durableObjectSocket op)
  | .barrier _ => none

/-- The callback that waits for an item. -/
def Queued.callback : Queued → Option CallbackId
  | .storage callback _ => some callback
  | .socket _ | .barrier _ => none

/-- The gate of an item. -/
def Queued.gate : Queued → Option GateId
  | .barrier gate => some gate
  | .storage _ _ | .socket _ => none

/-- The item is a write that the host answers with an error. -/
def Queued.fails (result : OperationResult) : Queued → Bool
  | .storage _ op => op.writes && result.toStorage.isError
  | .socket _ | .barrier _ => false

/-- The ops handed to the host, in order. -/
def handedOps (events : List QueueEvent) : List Operation :=
  events.filterMap fun
    | .handed op => some op
    | .returned _ | .answer _ _ | .opened _ => none

/-- The answers sent, in order. -/
def answers (events : List QueueEvent) : List (CallbackId × ObjectStorageResult) :=
  events.filterMap fun
    | .answer callback result => some (callback, result)
    | .returned _ | .handed _ | .opened _ => none

/-- The gates opened, in order. -/
def openedGates (events : List QueueEvent) : List GateId :=
  events.filterMap fun
    | .opened gate => some gate
    | .returned _ | .answer _ _ | .handed _ => none

/-- The host works on one op at a time: from a moment at which it works on an op (`busy`) or
on none, no op is handed over and nothing else happens until it has ended the op. -/
def OneAtATime : Bool → List QueueEvent → Bool
  | busy, [] => !busy
  | false, .handed _ :: events => OneAtATime true events
  | true, .returned _ :: events => OneAtATime false events
  | false, .answer _ _ :: events => OneAtATime false events
  | false, .opened _ :: events => OneAtATime false events
  | true, .handed _ :: _ | true, .answer _ _ :: _ | true, .opened _ :: _ => false
  | false, .returned _ :: _ => false

theorem oneAtATime_append {busy : Bool} {events events' : List QueueEvent}
    (h : OneAtATime busy events) (h' : OneAtATime false events') :
    OneAtATime busy (events ++ events') := by
  fun_induction OneAtATime busy events <;> simp_all [OneAtATime]

section Projections

variable (events events' : List QueueEvent)

@[simp] theorem handedOps_append :
    handedOps (events ++ events') = handedOps events ++ handedOps events' :=
  filterMap_append

@[simp] theorem answers_append :
    answers (events ++ events') = answers events ++ answers events' :=
  filterMap_append

@[simp] theorem openedGates_append :
    openedGates (events ++ events') = openedGates events ++ openedGates events' :=
  filterMap_append

end Projections

/-! ## One iteration -/

section Iteration

variable (work : Queued) (result : OperationResult)

/-- Before the first failed write, an item sets the flag exactly if it is one. -/
theorem handle_false_failed : (handle false work result).2 = work.fails result := by
  cases work <;> rfl

theorem handle_true_failed : (handle true work result).2 = true := by
  cases work <;> rfl

theorem handedOps_handle_false : handedOps (handle false work result).1 = work.op.toList := by
  cases work <;> rfl

theorem openedGates_handle_false :
    openedGates (handle false work result).1 = work.gate.toList := by
  cases work <;> rfl

/-- With the flag set, an item is not handed to the host, opens nothing, and is answered
with an error if it waits for an answer. -/
theorem handle_true_events : (handle true work result).1 =
    work.callback.toList.map fun callback => .answer callback (.error storageFailed) := by
  cases work <;> rfl

theorem answers_handle_fst (failed : Bool) :
    (answers (handle failed work result).1).map Prod.fst = work.callback.toList := by
  cases failed <;> cases work <;> rfl

/-- An iteration waits for the op it hands over. -/
theorem oneAtATime_handle (failed : Bool) : OneAtATime false (handle failed work result).1 := by
  cases failed <;> cases work <;> rfl

end Iteration

/-! ## The whole loop -/

section Loop

variable (host : Nat → OperationResult)

/-- The flag after the items of a queue. -/
def failedAfter : Nat → Bool → List Queued → Bool
  | _, failed, [] => failed
  | n, failed, work :: queue => failedAfter (n + 1) (handle failed work (host n)).2 queue

/-- No item of the queue, from position `n` on, is a failed write. -/
def NoneFails (n : Nat) (queue : List Queued) : Prop :=
  ∀ (i : Nat) (work : Queued), queue[i]? = some work → work.fails (host (n + i)) = false

variable {host}

theorem noneFails_cons {n : Nat} {work : Queued} {queue : List Queued} :
    NoneFails host n (work :: queue) ↔
      work.fails (host n) = false ∧ NoneFails host (n + 1) queue := by
  constructor
  · intro h
    refine ⟨h 0 work rfl, fun i work' hget => ?_⟩
    rw [Nat.add_assoc, Nat.add_comm 1 i]
    exact h (i + 1) work' hget
  · rintro ⟨hwork, hqueue⟩ i work' hget
    cases i with
    | zero =>
        cases hget
        exact hwork
    | succ i =>
        rw [← Nat.add_assoc, Nat.add_right_comm]
        exact hqueue i work' hget

/-- The loop over a queue that is cut in two. -/
theorem runObjectQueue_append (n : Nat) (failed : Bool) (queue queue' : List Queued) :
    runObjectQueue host n failed (queue ++ queue') =
      runObjectQueue host n failed queue ++
        runObjectQueue host (n + queue.length) (failedAfter host n failed queue) queue' := by
  induction queue generalizing n failed with
  | nil => rfl
  | cons work queue ih =>
      rw [cons_append, runObjectQueue, runObjectQueue, ih, append_assoc, failedAfter,
        length_cons, Nat.add_assoc, Nat.add_comm 1]

theorem failedAfter_of_noneFails {n : Nat} {queue : List Queued} (h : NoneFails host n queue) :
    failedAfter host n false queue = false := by
  induction queue generalizing n with
  | nil => rfl
  | cons work queue ih =>
      obtain ⟨hwork, hqueue⟩ := noneFails_cons.mp h
      rw [failedAfter, handle_false_failed, hwork]
      exact ih hqueue

/-- Without a failed write, every op is handed over and every gate opened, in order. -/
theorem runObjectQueue_of_noneFails {n : Nat} {queue : List Queued} (h : NoneFails host n queue) :
    handedOps (runObjectQueue host n false queue) = queue.filterMap Queued.op ∧
      openedGates (runObjectQueue host n false queue) = queue.filterMap Queued.gate := by
  induction queue generalizing n with
  | nil => exact ⟨rfl, rfl⟩
  | cons work queue ih =>
      obtain ⟨hwork, hqueue⟩ := noneFails_cons.mp h
      obtain ⟨hops, hgates⟩ := ih hqueue
      rw [runObjectQueue, handle_false_failed, hwork, handedOps_append, openedGates_append, hops,
        hgates, handedOps_handle_false, openedGates_handle_false]
      constructor
      · cases hop : work.op <;> simp [hop]
      · cases hgate : work.gate <;> simp [hgate]

/-- After a failed write, the only thing that happens is an error for every storage op. -/
theorem runObjectQueue_true (n : Nat) (queue : List Queued) :
    runObjectQueue host n true queue = (queue.filterMap Queued.callback).map fun callback =>
      .answer callback (.error storageFailed) := by
  induction queue generalizing n with
  | nil => rfl
  | cons work queue ih =>
      rw [runObjectQueue, handle_true_failed, ih, handle_true_events]
      cases hcallback : work.callback <;> simp [hcallback]

/-- Every storage op gets one answer, in order. -/
theorem answers_runObjectQueue (n : Nat) (failed : Bool) (queue : List Queued) :
    (answers (runObjectQueue host n failed queue)).map Prod.fst =
      queue.filterMap Queued.callback := by
  induction queue generalizing n failed with
  | nil => rfl
  | cons work queue ih =>
      rw [runObjectQueue, answers_append, map_append, answers_handle_fst, ih]
      cases hcallback : work.callback <;> simp [hcallback]

theorem oneAtATime_runObjectQueue (n : Nat) (failed : Bool) (queue : List Queued) :
    OneAtATime false (runObjectQueue host n failed queue) := by
  induction queue generalizing n failed with
  | nil => rfl
  | cons work queue ih =>
      rw [runObjectQueue]
      exact oneAtATime_append (oneAtATime_handle work (host n) failed) (ih _ _)

/-- The events of a queue up to and including its first failed write, and after it. -/
theorem runObjectQueue_of_fails {before after : List Queued} {work : Queued}
    (hbefore : NoneFails host 0 before) (hwork : work.fails (host before.length) = true) :
    runObjectQueue host 0 false (before ++ work :: after) =
      runObjectQueue host 0 false before ++ (handle false work (host before.length)).1 ++
        (after.filterMap Queued.callback).map fun callback =>
          .answer callback (.error storageFailed) := by
  rw [runObjectQueue_append, failedAfter_of_noneFails hbefore, runObjectQueue, Nat.zero_add,
    handle_false_failed, hwork, runObjectQueue_true, append_assoc]

theorem runObjectQueue_barrier {before after : List Queued} {gate : GateId}
    (hbefore : NoneFails host 0 before) :
    runObjectQueue host 0 false (before ++ .barrier gate :: after) =
      runObjectQueue host 0 false before ++
        .opened gate :: runObjectQueue host (before.length + 1) false after := by
  rw [runObjectQueue_append, failedAfter_of_noneFails hbefore, runObjectQueue, Nat.zero_add]
  rfl

/-- A write is not a barrier. -/
theorem gate_of_fails {work : Queued} {result : OperationResult} (h : work.fails result = true) :
    work.gate = none := by
  cases work with
  | storage callback op => rfl
  | socket op => rfl
  | barrier gate => cases h

theorem handedOps_answers (callbacks : List CallbackId) (result : ObjectStorageResult) :
    handedOps (callbacks.map fun callback => .answer callback result) = [] := by
  simp [handedOps, filterMap_map]

theorem openedGates_answers (callbacks : List CallbackId) (result : ObjectStorageResult) :
    openedGates (callbacks.map fun callback => .answer callback result) = [] := by
  simp [openedGates, filterMap_map]

/-- The ops handed to the host are the first ops of the queue. -/
theorem handedOps_runObjectQueue_isPrefix (n : Nat) (failed : Bool) (queue : List Queued) :
    handedOps (runObjectQueue host n failed queue) <+: queue.filterMap Queued.op := by
  induction queue generalizing n failed with
  | nil => exact nil_prefix
  | cons work queue ih =>
      cases failed with
      | true =>
          rw [runObjectQueue_true, handedOps_answers]
          exact nil_prefix
      | false =>
          rw [runObjectQueue, handedOps_append, handedOps_handle_false]
          cases hop : work.op with
          | none => simpa [hop] using ih _ _
          | some op => simpa [hop] using ih _ _

end Loop

/-- **The object queue.**  For every queue and every host: ops go to the host one at a time
and in order; every storage op is answered exactly once, in order; without a failed write
every item is handled; from the first failed write on nothing is handed over, nothing is
opened and every storage op gets an error; a barrier with no failed write before it is
opened once everything before it was handled; and a failed read does not set the flag. -/
theorem object_queue (host : Nat → OperationResult) (queue : List Queued) :
    (handedOps (runObjectQueue host 0 false queue) <+: queue.filterMap Queued.op ∧
      OneAtATime false (runObjectQueue host 0 false queue)) ∧
    (answers (runObjectQueue host 0 false queue)).map Prod.fst =
      queue.filterMap Queued.callback ∧
    (NoneFails host 0 queue →
      handedOps (runObjectQueue host 0 false queue) = queue.filterMap Queued.op ∧
      openedGates (runObjectQueue host 0 false queue) = queue.filterMap Queued.gate) ∧
    (∀ before work after, queue = before ++ work :: after → NoneFails host 0 before →
      work.fails (host before.length) = true →
      handedOps (runObjectQueue host 0 false queue) = (before ++ [work]).filterMap Queued.op ∧
      openedGates (runObjectQueue host 0 false queue) = before.filterMap Queued.gate ∧
      ∃ events, runObjectQueue host 0 false queue =
        events ++ (after.filterMap Queued.callback).map fun callback =>
          .answer callback (.error storageFailed)) ∧
    (∀ before gate after, queue = before ++ .barrier gate :: after → NoneFails host 0 before →
      runObjectQueue host 0 false queue = runObjectQueue host 0 false before ++
        .opened gate :: runObjectQueue host (before.length + 1) false after) ∧
    ∀ callback op result, op.writes = false →
      (handle false (.storage callback op) result).2 = false := by
  refine ⟨⟨handedOps_runObjectQueue_isPrefix 0 false queue,
      oneAtATime_runObjectQueue 0 false queue⟩,
    answers_runObjectQueue 0 false queue, runObjectQueue_of_noneFails, ?_, ?_, ?_⟩
  · rintro before work after rfl hbefore hwork
    obtain ⟨hops, hgates⟩ := runObjectQueue_of_noneFails hbefore
    rw [runObjectQueue_of_fails hbefore hwork]
    refine ⟨?_, ?_, _, rfl⟩
    · rw [handedOps_append, handedOps_append, handedOps_answers, hops, handedOps_handle_false,
        append_nil, filterMap_append]
      cases hop : work.op <;> simp [hop]
    · rw [openedGates_append, openedGates_append, openedGates_answers, hgates,
        openedGates_handle_false, gate_of_fails hwork]
      simp
  · rintro before gate after rfl hbefore
    exact runObjectQueue_barrier hbefore
  · intro callback op result hop
    rw [handle_false_failed, Queued.fails, hop, Bool.false_and]

/-- A read that fails leaves the queue going; a write that fails ends it. -/
example : handedOps (runObjectQueue (fun _ => .other) 0 false
    [.storage 1 .getAlarm, .barrier 7, .storage 2 (.setAlarm none), .barrier 8,
      .storage 3 .getAlarm]) =
    [.durableObjectStorage .getAlarm, .durableObjectStorage (.setAlarm none)] := rfl

end OpenWorkers.Object
