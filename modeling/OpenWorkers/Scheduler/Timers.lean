import OpenWorkers.Lib.Erase
import OpenWorkers.Lib.Log
import OpenWorkers.Object.Serve
import OpenWorkers.Scheduler.Loop

/-!
# Timers

The timers of the guest (`src/runtime/bindings/timers.rs`) and of the event loop.  The guest
keeps the callbacks in a map under the id of the timer and sends the loop a message; the loop
arms the timer and sends the id back when it expires.  The messages of the two directions
cross: an expiry can be on its way when the guest clears the timer, and when the context is
reset for another request, with the old timers still armed.

The wait of a response body for room (`writable` of `src/js/stream_body.js`) takes an id and an
entry of the same map, and is answered as a timeout is.

A callback is known by the number of its registration.  The log says which callback a delivered
expiry ran, and `Timely` is what it has to look like.
-/

namespace OpenWorkers.Scheduler

open List Object

/-- The timer at position `k` has expired.  A cancelled one sends nothing and is not armed
again. -/
def EventLoop.expire (l : EventLoop) (k : Nat) : Option (EventLoop × Option CallbackMessage) :=
  match l.timers[k]? with
  | none => none
  | some timer =>
    if timer.id ∈ l.cancelled then
      some ({ l with
        timers := l.timers.eraseIdx k
        cancelled := l.cancelled.filter (· ≠ timer.id) }, none)
    else if timer.isInterval then
      some ({ l with timers := l.timers.eraseIdx k ++ [timer] },
        some (.executeInterval timer.id))
    else
      some ({ l with timers := l.timers.eraseIdx k }, some (.executeTimeout timer.id))

/-- What becomes of the timer at position `k` when it expires. -/
inductive EventLoop.Expires (l : EventLoop) (k : Nat) : EventLoop → Option CallbackMessage → Prop
  | cancelled {timer : Timer} (htimer : l.timers[k]? = some timer)
      (hcancelled : timer.id ∈ l.cancelled) : Expires l k
        { l with
          timers := l.timers.eraseIdx k
          cancelled := l.cancelled.filter (· ≠ timer.id) } none
  | interval {timer : Timer} (htimer : l.timers[k]? = some timer)
      (hcancelled : timer.id ∉ l.cancelled) (hinterval : timer.isInterval = true) :
      Expires l k { l with timers := l.timers.eraseIdx k ++ [timer] }
        (some (.executeInterval timer.id))
  | timeout {timer : Timer} (htimer : l.timers[k]? = some timer)
      (hcancelled : timer.id ∉ l.cancelled) (hinterval : timer.isInterval = false) :
      Expires l k { l with timers := l.timers.eraseIdx k } (some (.executeTimeout timer.id))

theorem EventLoop.expires_of_expire {l l' : EventLoop} {k : Nat}
    {message : Option CallbackMessage} (h : l.expire k = some (l', message)) :
    l.Expires k l' message := by
  simp only [EventLoop.expire] at h
  split at h
  · cases h
  next timer htimer =>
  split at h
  · next hcancelled =>
    cases h
    exact .cancelled htimer hcancelled
  next hcancelled =>
  split at h
  · next hinterval =>
    cases h
    exact .interval htimer hcancelled hinterval
  · next hinterval =>
    cases h
    exact .timeout htimer hcancelled (eq_false_of_ne_true hinterval)

/-- The loop has left: it was told to shut down and no timer is armed. -/
def EventLoop.left (l : EventLoop) : Bool := l.shutdown && l.timers.isEmpty

namespace Timers

/-- Who registered a callback in the map of timers. -/
inductive Kind where
  | timeout
  | interval
  /-- The wait of a response body for room. -/
  | writable
deriving DecidableEq, Repr

/-- `setInterval` or `setTimeout`. -/
def Kind.of (interval : Bool) : Kind := if interval then .interval else .timeout

structure State where
  /-- `__nextTimerId`. -/
  nextTimerId : CallbackId
  /-- How many callbacks were registered; a callback is named by its number. -/
  registered : Nat
  /-- `__timerCallbacks`. -/
  timerCallbacks : CallbackId → Option Nat
  /-- `__intervalIds`. -/
  intervalIds : List CallbackId
  /-- The calls of `setTimeout` and `setInterval` (`true`) that have registered their callback
  and are at the conversion of the delay, which can run guest code. -/
  calls : List (CallbackId × Bool)
  /-- The timer whose callback `__executeTimer` has called. -/
  executing : Option CallbackId
  toScheduler : List SchedulerMessage
  handled : Nat
  loop : EventLoop
  /-- The tasks of `ScheduleWritable`. -/
  writables : List CallbackId
  toGuest : List CallbackMessage

/-- The message is not one of a timer or a wait. -/
def unrelated : SchedulerMessage → Bool
  | .scheduleTimeout _ _ | .scheduleInterval _ _ | .scheduleWritable _ _ | .clearTimer _ => false
  | _ => true

/-- The timer that a message to the guest is the expiry of. -/
def expired : CallbackMessage → Option CallbackId
  | .executeTimeout id | .executeInterval id => some id
  | _ => none

/-- The task of `ScheduleWritable`, among what the loop does with a message. -/
def waits : Effect → Option CallbackId
  | .spawn (.writable id _ _) => some id
  | _ => none

inductive Op where
  /-- `setTimeout` or `setInterval`, up to the conversion of the delay. -/
  | set (interval : Bool)
  /-- The delay is known. -/
  | schedule (id : CallbackId) (delayMs : Nat)
  /-- The conversion of the delay threw. -/
  | abandon (id : CallbackId)
  /-- `writable`: a response body waits for room. -/
  | wait (stream : StreamId)
  /-- `clearTimeout` and `clearInterval`, with any id. -/
  | clear (id : CallbackId)
  /-- Another message of the context to its loop. -/
  | send (message : SchedulerMessage)
  | handle (alive : Bool)
  | expire (k : Nat)
  /-- The wait for room ends. -/
  | writable (id : CallbackId)
  /-- Another message to the guest. -/
  | answer (message : CallbackMessage)
  /-- The guest gets the message at position `k`; a Durable Object takes some out of order. -/
  | deliver (k : Nat)
  /-- The callback of a timer returns, or throws. -/
  | finish (threw : Bool)
  | reset
deriving DecidableEq, Repr

/-- A callback is entered in the map under a new id. -/
def State.register (s : State) : State :=
  { s with
    nextTimerId := s.nextTimerId + 1
    registered := s.registered + 1
    timerCallbacks := Function.update s.timerCallbacks s.nextTimerId (some s.registered) }

/-- `__timerCallbacks.delete`. -/
def State.delete (s : State) (id : CallbackId) : State :=
  { s with timerCallbacks := Function.update s.timerCallbacks id none }

def step (s : State) : Op → Option State
  | .set interval =>
    some { s.register with
      intervalIds := if interval then s.nextTimerId :: s.intervalIds else s.intervalIds
      calls := (s.nextTimerId, interval) :: s.calls }
  | .schedule id delayMs =>
    match s.calls with
    -- Guest code that the conversion runs returns before the conversion does.
    | (id', interval) :: calls =>
      if id = id' then
        some { s with
          calls
          toScheduler := s.toScheduler ++
            [if interval then .scheduleInterval id delayMs else .scheduleTimeout id delayMs] }
      else
        none
    | [] => none
  | .abandon id =>
    match s.calls with
    | (id', _) :: calls => if id = id' then some { s with calls } else none
    | [] => none
  | .wait stream =>
    some { s.register with
      toScheduler := s.toScheduler ++ [.scheduleWritable s.nextTimerId stream] }
  | .clear id =>
    some { s.delete id with
      intervalIds := s.intervalIds.filter (· ≠ id)
      toScheduler := s.toScheduler ++ [.clearTimer id] }
  | .send message =>
    if unrelated message then some { s with toScheduler := s.toScheduler ++ [message] } else none
  | .handle alive =>
    match s.toScheduler with
    | message :: toScheduler =>
      if s.loop.left then none
      else
        let (loop, effects) := s.loop.handle alive s.handled message
        some { s with
          toScheduler, loop
          handled := s.handled + 1
          writables := s.writables ++ effects.filterMap waits }
    | [] => none
  | .expire k =>
    if s.loop.left then none
    else
      match s.loop.expire k with
      | some (loop, message) => some { s with loop, toGuest := s.toGuest ++ message.toList }
      | none => none
  | .writable id =>
    if id ∈ s.writables then
      some { s with
        writables := s.writables.erase id, toGuest := s.toGuest ++ [.executeTimeout id] }
    else
      none
  | .answer message =>
    if expired message = none then some { s with toGuest := s.toGuest ++ [message] } else none
  | .deliver k =>
    match s.toGuest[k]?, s.executing, s.calls with
    | some message, none, [] =>
      some { s with
        toGuest := s.toGuest.eraseIdx k
        executing := (expired message).filter fun id => (s.timerCallbacks id).isSome }
    | _, _, _ => none
  | .finish threw =>
    match s.executing, s.calls with
    | some id, [] =>
      some { (if threw || id ∈ s.intervalIds then s else s.delete id) with executing := none }
    | _, _ => none
  | .reset =>
    match s.executing, s.calls with
    | none, [] =>
      some { s with timerCallbacks := fun _ => none, intervalIds := [], toGuest := [] }
    | _, _ => none

def machine : Machine State Op where
  init := ⟨1, 0, fun _ => none, [], [], none, [], 0, EventLoop.init, [], []⟩
  step := step

/-- What a step does, and when it is possible. -/
inductive Stepped (s : State) : Op → State → Prop
  | set {interval : Bool} : Stepped s (.set interval) { s.register with
      intervalIds := if interval then s.nextTimerId :: s.intervalIds else s.intervalIds
      calls := (s.nextTimerId, interval) :: s.calls }
  | schedule {id : CallbackId} {interval : Bool} {delayMs : Nat} {calls : List (CallbackId × Bool)}
      (hcalls : s.calls = (id, interval) :: calls) : Stepped s (.schedule id delayMs) { s with
        calls
        toScheduler := s.toScheduler ++
          [if interval then .scheduleInterval id delayMs else .scheduleTimeout id delayMs] }
  | abandon {id : CallbackId} {interval : Bool} {calls : List (CallbackId × Bool)}
      (hcalls : s.calls = (id, interval) :: calls) : Stepped s (.abandon id) { s with calls }
  | wait {stream : StreamId} : Stepped s (.wait stream) { s.register with
      toScheduler := s.toScheduler ++ [.scheduleWritable s.nextTimerId stream] }
  | clear {id : CallbackId} : Stepped s (.clear id) { s.delete id with
      intervalIds := s.intervalIds.filter (· ≠ id)
      toScheduler := s.toScheduler ++ [.clearTimer id] }
  | send {message : SchedulerMessage} (hunrelated : unrelated message = true) :
      Stepped s (.send message) { s with toScheduler := s.toScheduler ++ [message] }
  | handle {alive : Bool} {message : SchedulerMessage} {toScheduler : List SchedulerMessage}
      (hqueue : s.toScheduler = message :: toScheduler) : Stepped s (.handle alive) { s with
        toScheduler
        loop := (s.loop.handle alive s.handled message).1
        handled := s.handled + 1
        writables := s.writables ++ (s.loop.handle alive s.handled message).2.filterMap waits }
  | expire {k : Nat} {loop : EventLoop} {message : Option CallbackMessage}
      (hexpire : s.loop.expire k = some (loop, message)) :
      Stepped s (.expire k) { s with loop, toGuest := s.toGuest ++ message.toList }
  | writable {id : CallbackId} (hmem : id ∈ s.writables) : Stepped s (.writable id) { s with
      writables := s.writables.erase id, toGuest := s.toGuest ++ [.executeTimeout id] }
  | answer {message : CallbackMessage} (hexpired : expired message = none) :
      Stepped s (.answer message) { s with toGuest := s.toGuest ++ [message] }
  | deliver {k : Nat} {message : CallbackMessage} (hmessage : s.toGuest[k]? = some message)
      (hexecuting : s.executing = none) : Stepped s (.deliver k) { s with
        toGuest := s.toGuest.eraseIdx k
        executing := (expired message).filter fun id => (s.timerCallbacks id).isSome }
  | finish {threw : Bool} {id : CallbackId} (hexecuting : s.executing = some id) :
      Stepped s (.finish threw)
        { (if threw || id ∈ s.intervalIds then s else s.delete id) with executing := none }
  | reset (hexecuting : s.executing = none) (hcalls : s.calls = []) : Stepped s .reset { s with
      timerCallbacks := fun _ => none, intervalIds := [], toGuest := [] }

theorem stepped_of_step {s s' : State} {op : Op} (h : step s op = some s') : Stepped s op s' := by
  cases op with
  | set interval =>
      cases h
      exact .set
  | schedule id delayMs =>
      simp only [step] at h
      split at h
      · next hcalls =>
        split at h
        · next heq =>
          cases h
          exact .schedule (heq ▸ hcalls)
        · cases h
      · cases h
  | abandon id =>
      simp only [step] at h
      split at h
      · next hcalls =>
        split at h
        · next heq =>
          cases h
          exact .abandon (heq ▸ hcalls)
        · cases h
      · cases h
  | wait stream =>
      cases h
      exact .wait
  | clear id =>
      cases h
      exact .clear
  | send message =>
      simp only [step] at h
      split at h
      · next hunrelated =>
        cases h
        exact .send hunrelated
      · cases h
  | handle alive =>
      simp only [step] at h
      split at h
      · next hqueue =>
        split at h
        · cases h
        · cases h
          exact .handle hqueue
      · cases h
  | expire k =>
      simp only [step] at h
      split at h
      · cases h
      · split at h
        · next hexpire =>
          cases h
          exact .expire hexpire
        · cases h
  | writable id =>
      simp only [step] at h
      split at h
      · next hmem =>
        cases h
        exact .writable hmem
      · cases h
  | answer message =>
      simp only [step] at h
      split at h
      · next hexpired =>
        cases h
        exact .answer hexpired
      · cases h
  | deliver k =>
      simp only [step] at h
      split at h
      · next hmessage hexecuting _ =>
        cases h
        exact .deliver hmessage hexecuting
      · cases h
  | finish threw =>
      simp only [step] at h
      split at h
      · next hexecuting _ =>
        cases h
        exact .finish hexecuting
      · cases h
  | reset =>
      simp only [step] at h
      split at h
      · next hexecuting hcalls =>
        cases h
        exact .reset hexecuting hcalls
      · cases h

/-! ## What is seen of a run -/

inductive Event where
  | set (kind : Kind) (id : CallbackId) (callback : Nat)
  | cleared (id : CallbackId)
  | reset
  /-- The expiry of a timer is delivered, and runs this callback, if any. -/
  | delivered (id : CallbackId) (ran : Option Nat)
deriving DecidableEq, Repr

def observe (s : State) : Op → List Event
  | .set interval => [.set (Kind.of interval) s.nextTimerId s.registered]
  | .wait _ => [.set .writable s.nextTimerId s.registered]
  | .clear id => [.cleared id]
  | .reset => [.reset]
  | .deliver k =>
    (s.toGuest[k]?.bind expired).toList.map fun id => .delivered id (s.timerCallbacks id)
  | .schedule _ _ | .abandon _ | .send _ | .handle _ | .expire _ | .writable _ | .answer _
  | .finish _ => []

/-- The callback that an event runs. -/
def Event.ran : Event → Option Nat
  | .delivered _ ran => ran
  | _ => none

/-- What is delivered runs the callback of its own timer, or nothing. -/
structure Faithful (log : List Event) : Prop where
  /-- Once its id is cleared, a callback does not run any more. -/
  cleared : ∀ kind id callback id',
    ¬ [.set kind id callback, .cleared id, .delivered id' (some callback)].Sublist log
  /-- Once the context is reset, no callback of before runs any more. -/
  reset : ∀ kind id callback id',
    ¬ [.set kind id callback, .reset, .delivered id' (some callback)].Sublist log
  /-- An expiry runs the callback that was registered under its id, if the id was not cleared
  and the context not reset since. -/
  own : ∀ before id ran after, log = before ++ .delivered id ran :: after →
    ∀ kind callback first since, before = first ++ .set kind id callback :: since →
      .cleared id ∉ since → .reset ∉ since → ran = some callback
  /-- An expiry runs no callback of another id. -/
  noOther : ∀ id callback, .delivered id (some callback) ∈ log →
    ∃ kind, [.set kind id callback, .delivered id (some callback)].Sublist log

/-- Timers fire as their handles say. -/
structure Timely (log : List Event) : Prop extends Faithful log where
  /-- The callback of a timeout, or of a wait, runs at most once. -/
  once : ∀ kind id callback, .set kind id callback ∈ log → kind ≠ .interval →
    (log.filterMap Event.ran).count callback ≤ 1

/-! ## The expiries to come -/

/-- The timer that a message arms, for the timers of one sort. -/
def arms (interval : Bool) : SchedulerMessage → Option CallbackId
  | .scheduleTimeout id _ | .scheduleWritable id _ => if interval then none else some id
  | .scheduleInterval id _ => if interval then some id else none
  | _ => none

def armed (interval : Bool) (timer : Timer) : Option CallbackId :=
  if timer.isInterval = interval then some timer.id else none

def fires (interval : Bool) : CallbackMessage → Option CallbackId
  | .executeTimeout id => if interval then none else some id
  | .executeInterval id => if interval then some id else none
  | _ => none

def called (interval : Bool) (call : CallbackId × Bool) : Option CallbackId :=
  if call.2 = interval then some call.1 else none

/-- The intervals, or the timeouts and waits, that can still send an expiry or have one under
way. -/
def State.due (s : State) (interval : Bool) : List CallbackId :=
  s.calls.filterMap (called interval) ++ s.toScheduler.filterMap (arms interval) ++
    s.loop.timers.filterMap (armed interval) ++ (if interval then [] else s.writables) ++
    s.toGuest.filterMap (fires interval)

variable {s s' : State} {log : List Event} {interval : Bool}

theorem arms_of_unrelated {message : SchedulerMessage} (h : unrelated message = true) :
    arms interval message = none := by
  cases message <;> first | rfl | cases h

theorem fires_of_expired {message : CallbackMessage} (h : expired message = none) :
    fires interval message = none := by
  cases message <;> first | rfl | cases h

/-- The loop arms timers only for the messages of timers. -/
theorem handle_timers {l l' : EventLoop} {message : SchedulerMessage}
    (hl : l.Becomes message l') (h : unrelated message = true) : l'.timers = l.timers := by
  cases hl with
  | timeout => cases h
  | interval => cases h
  | _ => rfl

/-- The loop starts a task that waits for room only for the message of a wait. -/
theorem handle_waits (l : EventLoop) (alive : Bool) (n : Nat) {message : SchedulerMessage}
    (h : unrelated message = true) : ∀ e ∈ (l.handle alive n message).2, waits e = none := by
  intro e he
  cases EventLoop.does_of_mem_handle he with
  | spawn htask => cases message <;> cases htask <;> first | rfl | cases h
  | _ => rfl

/-- What a message arms is armed, or waited for, once the loop has handled it. -/
theorem handle_due (l : EventLoop) (alive : Bool) (n : Nat) (message : SchedulerMessage)
    (interval : Bool) :
    (l.handle alive n message).1.timers.filterMap (armed interval) ++
        (if interval then [] else (l.handle alive n message).2.filterMap waits) =
      l.timers.filterMap (armed interval) ++ (arms interval message).toList := by
  by_cases h : unrelated message = true
  · rw [handle_timers (l.becomes_handle alive n message) h,
      filterMap_eq_nil_iff.mpr (handle_waits l alive n h),
      arms_of_unrelated h, ite_self]
    rfl
  · cases message <;> first | exact absurd rfl h | skip
    all_goals cases interval <;> simp [EventLoop.handle, arms, armed, waits]

theorem count_due (s : State) (interval : Bool) (id : CallbackId) :
    (s.due interval).count id =
      (s.calls.filterMap (called interval)).count id +
      (s.toScheduler.filterMap (arms interval)).count id +
      (s.loop.timers.filterMap (armed interval) ++
        if interval then [] else s.writables).count id +
      (s.toGuest.filterMap (fires interval)).count id := by
  simp only [State.due, count_append]
  omega

/-- A step that the guest does not see: it registers nothing, and no timer gets another
expiry but an interval. -/
structure Quiet (s s' : State) : Prop where
  next : s'.nextTimerId = s.nextTimerId
  registered : s'.registered = s.registered
  callbacks : s'.timerCallbacks = s.timerCallbacks
  intervals : s'.intervalIds = s.intervalIds
  executing : s'.executing = s.executing
  once : ∀ id, (s'.due false).count id ≤ (s.due false).count id
  repeating : s'.due true ⊆ s.due true

theorem Quiet.of_count (hnext : s'.nextTimerId = s.nextTimerId)
    (hregistered : s'.registered = s.registered)
    (hcallbacks : s'.timerCallbacks = s.timerCallbacks)
    (hintervals : s'.intervalIds = s.intervalIds) (hexecuting : s'.executing = s.executing)
    (h : ∀ interval id, (s'.due interval).count id ≤ (s.due interval).count id) : Quiet s s' where
  next := hnext
  registered := hregistered
  callbacks := hcallbacks
  intervals := hintervals
  executing := hexecuting
  once := h false
  repeating id hmem :=
    count_pos_iff.mp (Nat.lt_of_lt_of_le (count_pos_iff.mpr hmem) (h true id))

theorem quiet_schedule {id : CallbackId} {delayMs : Nat} {calls : List (CallbackId × Bool)}
    (h : s.calls = (id, interval) :: calls) :
    Quiet s { s with
      calls
      toScheduler := s.toScheduler ++
        [if interval then .scheduleInterval id delayMs else .scheduleTimeout id delayMs] } := by
  refine .of_count rfl rfl rfl rfl rfl fun b id' => ?_
  have harms : arms b (if interval then .scheduleInterval id delayMs
      else .scheduleTimeout id delayMs) = called b (id, interval) := by
    cases interval <;> cases b <;> rfl
  simp only [count_due, h, filterMap_append, count_append, count_filterMap_cons, harms,
    filterMap_nil, count_nil]
  omega

theorem quiet_abandon {id : CallbackId} {calls : List (CallbackId × Bool)}
    (h : s.calls = (id, interval) :: calls) : Quiet s { s with calls } := by
  refine .of_count rfl rfl rfl rfl rfl fun b id' => ?_
  simp only [count_due, h, count_filterMap_cons]
  omega

theorem quiet_send {message : SchedulerMessage} (h : unrelated message = true) :
    Quiet s { s with toScheduler := s.toScheduler ++ [message] } := by
  refine .of_count rfl rfl rfl rfl rfl fun b id' => Nat.le_of_eq ?_
  simp [State.due, arms_of_unrelated h]

theorem quiet_answer {message : CallbackMessage} (h : expired message = none) :
    Quiet s { s with toGuest := s.toGuest ++ [message] } := by
  refine .of_count rfl rfl rfl rfl rfl fun b id' => Nat.le_of_eq ?_
  simp [State.due, fires_of_expired h]

theorem quiet_handle {message : SchedulerMessage} {toScheduler : List SchedulerMessage}
    (alive : Bool) (h : s.toScheduler = message :: toScheduler) :
    Quiet s { s with
      toScheduler
      loop := (s.loop.handle alive s.handled message).1
      handled := s.handled + 1
      writables := s.writables ++
        (s.loop.handle alive s.handled message).2.filterMap waits } := by
  refine .of_count rfl rfl rfl rfl rfl fun b id' => Nat.le_of_eq ?_
  have hdue := congrArg (List.count id') (handle_due s.loop alive s.handled message b)
  simp only [count_append] at hdue
  simp only [count_due, h, count_filterMap_cons, count_append]
  cases b <;>
    simp only [count_append, count_nil, Bool.false_eq_true, if_true, if_false]
      at hdue ⊢ <;>
    omega

theorem quiet_writable {id : CallbackId} (h : id ∈ s.writables) :
    Quiet s { s with
      writables := s.writables.erase id, toGuest := s.toGuest ++ [.executeTimeout id] } := by
  refine .of_count rfl rfl rfl rfl rfl fun b id' => Nat.le_of_eq ?_
  have herase := (perm_cons_erase h).count_eq id'
  rw [count_cons] at herase
  cases b <;>
    simp [count_due, fires, count_append, count_singleton, herase, Nat.add_assoc,
      Nat.add_comm, Nat.add_left_comm]

/-- An expired timer has left the loop, and only an interval comes back. -/
theorem quiet_expire {k : Nat} {loop : EventLoop} {message : Option CallbackMessage}
    (h : s.loop.expire k = some (loop, message)) :
    Quiet s { s with loop, toGuest := s.toGuest ++ message.toList } := by
  cases EventLoop.expires_of_expire h with
  | @cancelled timer htimer =>
      refine .of_count rfl rfl rfl rfl rfl fun b id' => ?_
      simp only [count_due, count_append, count_filterMap_eraseIdx (armed b) htimer,
        Option.toList_none, append_nil]
      omega
  | @interval timer htimer _ hinterval =>
      have hcount := fun b => count_filterMap_eraseIdx (armed b) htimer
      refine ⟨rfl, rfl, rfl, rfl, rfl, fun id' => ?_, ?_⟩
      · simp [count_due, hcount, armed, fires, hinterval]
      · intro id' hmem
        rw [← count_pos_iff] at hmem ⊢
        by_cases heq : timer.id = id'
        · simp only [count_due, hcount, armed, hinterval, heq, if_true, Option.toList_some,
            count_append, count_singleton_self]
          omega
        · simpa [count_due, hcount, armed, fires, hinterval, heq, count_singleton] using hmem
  | @timeout timer htimer _ hinterval =>
      refine .of_count rfl rfl rfl rfl rfl fun b id' => ?_
      cases b <;>
        simp [count_due, count_filterMap_eraseIdx (armed _) htimer, armed, fires, hinterval]
      omega

end Timers

end OpenWorkers.Scheduler
