import OpenWorkers.Lib.Erase
import OpenWorkers.Lib.Machine

/-!
# The fair queue of an isolate

`AsyncWaiter` of `src/async_waiter.rs`, with the requests that call it.  A request asks for the
turn where it is polled; if it does not get it, its waker goes to the end of a queue, and every
`unlock` wakes the first one there.

The callers may be on any threads, so `try_lock` and `unlock` are two steps each: the exchange
and the push, the store and the pop.  Between two calls a request may be woken by anything else
it waits for, be polled without having been woken, and end: its deadline is looked at before
`try_lock`, and its future may be dropped.

A waker of the queue that is popped is of use if its request still waits for the turn.  `Inv`
says that all of them are, and that a request which waits is in the queue or has been woken.  It
holds in a run that is `Orderly`.
-/

namespace OpenWorkers.Pool.FairQueue

open List Option

/-! ## The queue and its operations -/

/-- The place of a request in the list of requests; its waker wakes its task. -/
abbrev Waker := Nat

structure AsyncWaiter where
  queue : List Waker
  locked : Bool
deriving DecidableEq, Repr

namespace AsyncWaiter

def new : AsyncWaiter := ⟨[], false⟩

/-- `compare_exchange(false, true)`, and whether it is `Ok`. -/
def compareExchange (w : AsyncWaiter) : Bool × AsyncWaiter :=
  if w.locked then (false, w) else (true, { w with locked := true })

def pushBack (w : AsyncWaiter) (waker : Waker) : AsyncWaiter :=
  { w with queue := w.queue ++ [waker] }

def store (w : AsyncWaiter) : AsyncWaiter := { w with locked := false }

def popFront (w : AsyncWaiter) : Option Waker × AsyncWaiter :=
  match w.queue with
  | [] => (none, w)
  | waker :: queue => (some waker, { w with queue })

end AsyncWaiter

/-! ## The requests -/

/-- Where a request stands. -/
inductive Pc where
  /-- It has not asked yet, or its last `try_lock` returned true and it has called `unlock`. -/
  | out
  /-- In `try_lock`, after an exchange that failed. -/
  | pushing
  /-- Its last `try_lock` returned false. -/
  | waiting
  | holding
  /-- In `unlock`, after the store. -/
  | releasing
  | ended
deriving DecidableEq, Repr

namespace Pc

/-- A request that can be polled. -/
def polls : Pc → Bool
  | .out | .waiting => true
  | .pushing | .holding | .releasing | .ended => false

/-- A request that has the lock or is releasing it. -/
def busy : Pc → Bool
  | .holding | .releasing => true
  | .out | .pushing | .waiting | .ended => false

theorem ne_holding_of_polls {pc : Pc} (h : pc.polls = true) : pc ≠ .holding := by
  rintro rfl
  cases h

theorem busy_of_polls {pc : Pc} (h : pc.polls = true) : pc.busy = false := by
  cases pc <;> first | rfl | cases h

end Pc

structure Request where
  pc : Pc
  /-- It has been woken, and not been polled since. -/
  woken : Bool
deriving DecidableEq, Repr

structure State where
  waiter : AsyncWaiter
  requests : List Request
deriving DecidableEq, Repr

namespace State

def put (s : State) (r : Nat) (q : Request) : State :=
  { s with requests := s.requests.modify r fun _ => q }

def wake (s : State) (r : Nat) : State :=
  { s with requests := s.requests.modify r fun q => { q with woken := true } }

/-- Somebody holds the lock or is releasing it. -/
def Busy (s : State) : Prop := ∃ q ∈ s.requests, q.pc.busy = true

instance (s : State) : Decidable s.Busy := inferInstanceAs (Decidable (∃ q ∈ s.requests, _))

end State

inductive Action where
  | arrive
  /-- The request is polled and calls `try_lock`. -/
  | compareExchange (r : Nat)
  | push (r : Nat)
  | store (r : Nat)
  | popWake (r : Nat)
  /-- A waker of a timer or of a channel. -/
  | wake (r : Nat)
  /-- A poll that ends before `try_lock`, or the future is dropped. -/
  | finish (r : Nat)
deriving DecidableEq, Repr

def step (s : State) : Action → Option State
  | .arrive => some { s with requests := s.requests ++ [⟨.out, false⟩] }
  | .compareExchange r =>
    (s.requests[r]?).bind fun q =>
      if q.pc.polls then
        match s.waiter.compareExchange with
        | (true, waiter) => some { s.put r ⟨.holding, false⟩ with waiter }
        | (false, waiter) => some { s.put r ⟨.pushing, false⟩ with waiter }
      else
        none
  | .push r =>
    (s.requests[r]?).bind fun q =>
      if q.pc = .pushing then
        some { s.put r { q with pc := .waiting } with waiter := s.waiter.pushBack r }
      else
        none
  | .store r =>
    (s.requests[r]?).bind fun q =>
      if q.pc = .holding then
        some { s.put r { q with pc := .releasing } with waiter := s.waiter.store }
      else
        none
  | .popWake r =>
    (s.requests[r]?).bind fun q =>
      if q.pc = .releasing then
        match s.waiter.popFront with
        | (none, waiter) => some { s.put r { q with pc := .out } with waiter }
        | (some waker, waiter) => some { (s.put r { q with pc := .out }).wake waker with waiter }
      else
        none
  | .wake r => some (s.wake r)
  | .finish r =>
    (s.requests[r]?).bind fun q =>
      if q.pc.polls then some (s.put r { q with pc := .ended }) else none

/-- The steps, one constructor for each way a step can go. -/
inductive Step (s : State) : Action → State → Prop where
  | arrive : Step s .arrive { s with requests := s.requests ++ [⟨.out, false⟩] }
  | lock {r : Nat} {q : Request} (hq : s.requests[r]? = some q) (hpolls : q.pc.polls = true)
      (hfree : s.waiter.locked = false) : Step s (.compareExchange r)
      { s.put r ⟨.holding, false⟩ with waiter := { s.waiter with locked := true } }
  | fail {r : Nat} {q : Request} (hq : s.requests[r]? = some q) (hpolls : q.pc.polls = true)
      (hlocked : s.waiter.locked = true) : Step s (.compareExchange r) (s.put r ⟨.pushing, false⟩)
  | push {r : Nat} {q : Request} (hq : s.requests[r]? = some q) (hpc : q.pc = .pushing) :
      Step s (.push r) { s.put r { q with pc := .waiting } with waiter := s.waiter.pushBack r }
  | store {r : Nat} {q : Request} (hq : s.requests[r]? = some q) (hpc : q.pc = .holding) :
      Step s (.store r) { s.put r { q with pc := .releasing } with waiter := s.waiter.store }
  | popNone {r : Nat} {q : Request} (hq : s.requests[r]? = some q) (hpc : q.pc = .releasing)
      (hqueue : s.waiter.queue = []) : Step s (.popWake r) (s.put r { q with pc := .out })
  | pop {r w : Nat} {q : Request} {queue : List Waker} (hq : s.requests[r]? = some q)
      (hpc : q.pc = .releasing) (hqueue : s.waiter.queue = w :: queue) : Step s (.popWake r)
      { (s.put r { q with pc := .out }).wake w with waiter := { s.waiter with queue } }
  | wake (r : Nat) : Step s (.wake r) (s.wake r)
  | finish {r : Nat} {q : Request} (hq : s.requests[r]? = some q) (hpolls : q.pc.polls = true) :
      Step s (.finish r) (s.put r { q with pc := .ended })

theorem of_step {s s' : State} {a : Action} (h : step s a = some s') : Step s a s' := by
  cases a with
  | arrive =>
      cases h
      exact .arrive
  | compareExchange r =>
      obtain ⟨q, hq, h⟩ := bind_eq_some_iff.mp h
      obtain ⟨hpolls, h⟩ := ite_none_right_eq_some.mp h
      unfold AsyncWaiter.compareExchange at h
      cases hlocked : s.waiter.locked with
      | true =>
          rw [if_pos hlocked] at h
          cases h
          exact .fail hq hpolls hlocked
      | false =>
          rw [if_neg (by rw [hlocked]; exact Bool.false_ne_true)] at h
          cases h
          exact .lock hq hpolls hlocked
  | push r =>
      obtain ⟨q, hq, h⟩ := bind_eq_some_iff.mp h
      obtain ⟨hpc, ⟨⟩⟩ := ite_none_right_eq_some.mp h
      exact .push hq hpc
  | store r =>
      obtain ⟨q, hq, h⟩ := bind_eq_some_iff.mp h
      obtain ⟨hpc, ⟨⟩⟩ := ite_none_right_eq_some.mp h
      exact .store hq hpc
  | popWake r =>
      obtain ⟨q, hq, h⟩ := bind_eq_some_iff.mp h
      obtain ⟨hpc, h⟩ := ite_none_right_eq_some.mp h
      unfold AsyncWaiter.popFront at h
      cases hqueue : s.waiter.queue with
      | nil =>
          rw [hqueue] at h
          cases h
          exact .popNone hq hpc hqueue
      | cons w queue =>
          rw [hqueue] at h
          cases h
          exact .pop hq hpc hqueue
  | wake r =>
      cases h
      exact .wake r
  | finish r =>
      obtain ⟨q, hq, h⟩ := bind_eq_some_iff.mp h
      obtain ⟨hpolls, ⟨⟩⟩ := ite_none_right_eq_some.mp h
      exact .finish hq hpolls

def machine : Machine State Action where
  init := ⟨.new, []⟩
  step := step

/-! ## Runs without a wake-up that is lost -/

/-- No flag is cleared between a failed exchange and its push; a request whose waker is queued is
not polled and does not end; and one that has been woken for the turn does not end without
asking for it, unless the lock is taken or nobody else waits. -/
def Orderly (s : State) : Action → Prop
  | .compareExchange r => r ∉ s.waiter.queue
  | .store _ => ∀ q ∈ s.requests, q.pc ≠ .pushing
  | .finish r => r ∉ s.waiter.queue ∧
    (s.requests[r]?.map Request.pc = some .waiting →
      s.Busy ∨ ∀ q ∈ s.requests.eraseIdx r, q.pc ≠ .waiting)
  | .arrive | .push _ | .popWake _ | .wake _ => True

instance (s : State) (a : Action) : Decidable (Orderly s a) := by
  cases a <;> dsimp only [Orderly] <;> infer_instance

variable {s s' : State} {r w : Nat} {q q' x : Request}

namespace State

/-- Somebody holds the lock. -/
def Held (s : State) : Prop := ∃ q ∈ s.requests, q.pc = .holding

theorem Held.busy (h : s.Held) : s.Busy := by
  obtain ⟨q, hmem, hpc⟩ := h
  refine ⟨q, hmem, ?_⟩
  rw [hpc]
  rfl

theorem getElem?_put_self (hq : s.requests[r]? = some q) :
    (s.put r q').requests[r]? = some q' := by
  show (s.requests.modify r fun _ => q')[r]? = some q'
  rw [getElem?_modify_eq, hq]
  rfl

theorem getElem?_put_ne (hne : w ≠ r) : (s.put r q').requests[w]? = s.requests[w]? :=
  getElem?_modify_ne _ _ (Ne.symm hne)

theorem of_getElem?_put (h : (s.put r q').requests[w]? = some x) :
    w = r ∧ x = q' ∨ w ≠ r ∧ s.requests[w]? = some x := by
  rcases of_getElem?_modify h with ⟨rfl, q, -, rfl⟩ | h
  · exact .inl ⟨rfl, rfl⟩
  · exact .inr h

theorem mem_put (hq : s.requests[r]? = some q) : q' ∈ (s.put r q').requests :=
  mem_of_getElem? (getElem?_put_self hq)

/-- A request that did not hold the lock changes. -/
theorem Held.put (h : s.Held) (hq : s.requests[r]? = some q) (hpc : q.pc ≠ .holding) :
    (s.put r q').Held :=
  exists_mem_modify hq (fun hpc' => absurd hpc' hpc) h

theorem of_getElem?_wake (h : (s.wake r).requests[w]? = some x) :
    ∃ y, s.requests[w]? = some y ∧ x.pc = y.pc ∧ (y.woken = true ∨ w = r → x.woken = true) := by
  rcases of_getElem?_modify h with ⟨rfl, y, hy, rfl⟩ | ⟨hne, h⟩
  · exact ⟨y, hy, rfl, fun _ => rfl⟩
  · exact ⟨x, h, rfl, fun hor => hor.resolve_right hne⟩

theorem getElem?_wake (h : s.requests[w]? = some x) :
    ∃ y, (s.wake r).requests[w]? = some y ∧ y.pc = x.pc ∧
      (x.woken = true ∨ w = r → y.woken = true) := by
  by_cases heq : w = r
  · subst heq
    refine ⟨{ x with woken := true }, ?_, rfl, fun _ => rfl⟩
    show (s.requests.modify w _)[w]? = _
    rw [getElem?_modify_eq, h]
    rfl
  · refine ⟨x, ?_, rfl, fun hor => hor.resolve_right heq⟩
    show (s.requests.modify r _)[w]? = _
    rw [getElem?_modify_ne _ _ (Ne.symm heq), h]

/-- To be woken changes nobody's place. -/
theorem exists_wake (P : Pc → Prop) :
    (∃ q ∈ (s.wake r).requests, P q.pc) ↔ ∃ q ∈ s.requests, P q.pc := by
  constructor
  · rintro ⟨q, hmem, hP⟩
    obtain ⟨w, hw⟩ := mem_iff_getElem?.mp hmem
    obtain ⟨y, hy, hpc, -⟩ := of_getElem?_wake hw
    exact ⟨y, mem_of_getElem? hy, hpc ▸ hP⟩
  · rintro ⟨q, hmem, hP⟩
    obtain ⟨w, hw⟩ := mem_iff_getElem?.mp hmem
    obtain ⟨y, hy, hpc, -⟩ := getElem?_wake hw
    exact ⟨y, mem_of_getElem? hy, hpc ▸ hP⟩

end State

structure Inv (s : State) : Prop where
  holder : s.waiter.locked = true → s.Held
  /-- Who has failed to get the lock has not been passed over by an `unlock`. -/
  pushing : (∃ q ∈ s.requests, q.pc = .pushing) → s.Held
  queued : ∀ w ∈ s.waiter.queue, ∃ q, s.requests[w]? = some q ∧ q.pc = .waiting
  heard : ∀ w q, s.requests[w]? = some q → q.pc = .waiting → w ∈ s.waiter.queue ∨ q.woken = true

theorem inv_init : Inv machine.init where
  holder := by rintro ⟨⟩
  pushing := by
    rintro ⟨q, hmem, -⟩
    cases hmem
  queued _ hmem := absurd hmem not_mem_nil
  heard _ _ hq := absurd (mem_of_getElem? hq) not_mem_nil

namespace Inv

/-- A request is not in the queue where it does not wait. -/
theorem notMem_queue (h : Inv s) (hq : s.requests[r]? = some q) (hpc : q.pc ≠ .waiting) :
    r ∉ s.waiter.queue := by
  intro hmem
  obtain ⟨x, hx, hwaiting⟩ := h.queued r hmem
  cases hq.symm.trans hx
  exact hpc hwaiting

/-- A request that is not in the queue comes to a place where it does not wait. -/
theorem put (h : Inv s) (hr : r ∉ s.waiter.queue) (hpc : q'.pc ≠ .waiting) {locked : Bool}
    (hholder : locked = true → (s.put r q').Held)
    (hpushing : (∃ q ∈ (s.put r q').requests, q.pc = .pushing) → (s.put r q').Held) :
    Inv { s.put r q' with waiter := { s.waiter with locked } } where
  holder := hholder
  pushing := hpushing
  queued w hw := by
    have hne : w ≠ r := by
      rintro rfl
      exact hr hw
    obtain ⟨x, hx, hwaiting⟩ := h.queued w hw
    exact ⟨x, (State.getElem?_put_ne hne).trans hx, hwaiting⟩
  heard w x hx hwaiting := by
    rcases State.of_getElem?_put hx with ⟨-, rfl⟩ | ⟨-, hx⟩
    · exact absurd hwaiting hpc
    · exact h.heard w x hx hwaiting

/-- A request neither gets the lock nor releases it, nor begins to push. -/
theorem put_aside (h : Inv s) (hq : s.requests[r]? = some q) (hr : r ∉ s.waiter.queue)
    (hpc : q.pc ≠ .holding) (hpc' : q'.pc ≠ .waiting) (hpushing : q'.pc ≠ .pushing) :
    Inv (s.put r q') := by
  refine h.put hr hpc' (fun hlocked => (h.holder hlocked).put hq hpc) ?_
  rintro ⟨x, hmem, hx⟩
  refine (h.pushing ⟨x, ?_, hx⟩).put hq hpc
  rcases (mem_modify_iff hq).mp hmem with rfl | hmem
  · exact absurd hx hpushing
  · exact (mem_iff_mem_eraseIdx hq).mpr (.inr hmem)

/-- The end of `unlock`. -/
theorem out (h : Inv s) (hq : s.requests[r]? = some q) (hpc : q.pc = .releasing) :
    Inv (s.put r { q with pc := .out }) := by
  have hr := h.notMem_queue hq (by rw [hpc]; rintro ⟨⟩)
  exact h.put_aside hq hr (by rw [hpc]; rintro ⟨⟩) (by rintro ⟨⟩) (by rintro ⟨⟩)

/-- Somebody else holds the lock while a request pushes. -/
theorem held_of_pushing (h : Inv s) (hq : s.requests[r]? = some q) (hpc : q.pc = .pushing) :
    (s.put r q').Held := by
  refine (h.pushing ⟨q, mem_of_getElem? hq, hpc⟩).put hq ?_
  rw [hpc]
  rintro ⟨⟩

theorem push (h : Inv s) (hq : s.requests[r]? = some q) (hpc : q.pc = .pushing) :
    Inv { s.put r { q with pc := .waiting } with waiter := s.waiter.pushBack r } := by
  have hheld : (s.put r { q with pc := .waiting }).Held := h.held_of_pushing hq hpc
  refine ⟨fun _ => hheld, fun _ => hheld, fun w hw => ?_, fun w x hx hwaiting => ?_⟩
  · by_cases heq : w = r
    · subst heq
      exact ⟨_, State.getElem?_put_self hq, rfl⟩
    · have hw : w ∈ s.waiter.queue :=
        (mem_append.mp hw).resolve_right fun hw => heq (mem_singleton.mp hw)
      obtain ⟨x, hx, hwaiting⟩ := h.queued w hw
      exact ⟨x, (State.getElem?_put_ne heq).trans hx, hwaiting⟩
  · rcases State.of_getElem?_put hx with ⟨rfl, -⟩ | ⟨-, hx⟩
    · exact .inl (mem_append_right _ mem_cons_self)
    · exact (h.heard w x hx hwaiting).imp_left (mem_append_left _)

theorem wake (h : Inv s) (r : Nat) : Inv (s.wake r) where
  holder hlocked := (State.exists_wake (· = .holding)).mpr (h.holder hlocked)
  pushing hpushing :=
    (State.exists_wake (· = .holding)).mpr
      (h.pushing ((State.exists_wake (· = .pushing)).mp hpushing))
  queued w hw := by
    obtain ⟨x, hx, hwaiting⟩ := h.queued w hw
    obtain ⟨y, hy, hpc, -⟩ := State.getElem?_wake hx
    exact ⟨y, hy, hpc.trans hwaiting⟩
  heard w x hx hwaiting := by
    obtain ⟨y, hy, hpc, hwoken⟩ := State.of_getElem?_wake hx
    exact (h.heard w y hy (hpc.symm.trans hwaiting)).imp_right fun hy => hwoken (.inl hy)

/-- The first waker of the queue is woken. -/
theorem pop (h : Inv s) {queue : List Waker} (hqueue : s.waiter.queue = w :: queue) :
    Inv { s.wake w with waiter := { s.waiter with queue } } := by
  have hw := h.wake w
  refine ⟨hw.holder, hw.pushing, fun w' hw' => hw.queued w' ?_, fun w' x hx hwaiting => ?_⟩
  · show w' ∈ s.waiter.queue
    rw [hqueue]
    exact mem_cons_of_mem _ hw'
  · rcases hw.heard w' x hx hwaiting with hmem | hwoken
    · have hmem : w' ∈ s.waiter.queue := hmem
      rw [hqueue] at hmem
      rcases mem_cons.mp hmem with rfl | hmem
      · obtain ⟨y, -, -, hwoken⟩ := State.of_getElem?_wake hx
        exact .inr (hwoken (.inr rfl))
      · exact .inl hmem
    · exact .inr hwoken

theorem arrive (h : Inv s) : Inv { s with requests := s.requests ++ [⟨.out, false⟩] } where
  holder hlocked := by
    obtain ⟨q, hmem, hpc⟩ := h.holder hlocked
    exact ⟨q, mem_append_left _ hmem, hpc⟩
  pushing := by
    rintro ⟨q, hmem, hpc⟩
    rcases mem_append.mp hmem with hmem | hmem
    · obtain ⟨q, hmem, hpc⟩ := h.pushing ⟨q, hmem, hpc⟩
      exact ⟨q, mem_append_left _ hmem, hpc⟩
    · cases mem_singleton.mp hmem
      cases hpc
  queued w hw := by
    obtain ⟨x, hx, hwaiting⟩ := h.queued w hw
    refine ⟨x, ?_, hwaiting⟩
    show (s.requests ++ _)[w]? = _
    rw [getElem?_append_left (List.getElem?_eq_some_iff.mp hx).1, hx]
  heard w x hx hwaiting := by
    rcases of_getElem?_concat hx with ⟨-, rfl⟩ | hx
    · cases hwaiting
    · exact h.heard w x hx hwaiting

end Inv

/-! ## What one step keeps -/

/-- Somebody has the lock, nobody waits for it, or somebody who waits has been woken. -/
def Fair (s : State) : Prop :=
  s.Busy ∨ (∀ q ∈ s.requests, q.pc ≠ .waiting) ∨ ∃ q ∈ s.requests, q.pc = .waiting ∧ q.woken = true

namespace Fair

theorem arrive (h : Fair s) : Fair { s with requests := s.requests ++ [⟨.out, false⟩] } := by
  rcases h with ⟨q, hmem, hbusy⟩ | hnone | ⟨q, hmem, hwoken⟩
  · exact .inl ⟨q, mem_append_left _ hmem, hbusy⟩
  · refine .inr (.inl fun q hmem => ?_)
    rcases mem_append.mp hmem with hmem | hmem
    · exact hnone q hmem
    · cases mem_singleton.mp hmem
      rintro ⟨⟩
  · exact .inr (.inr ⟨q, mem_append_left _ hmem, hwoken⟩)

theorem wake (h : Fair s) (r : Nat) : Fair (s.wake r) := by
  rcases h with hbusy | hnone | ⟨q, hmem, hwaiting, hwoken⟩
  · exact .inl ((State.exists_wake (·.busy = true)).mpr hbusy)
  · refine .inr (.inl fun q hmem hwaiting => ?_)
    obtain ⟨x, hmem, hwaiting⟩ := (State.exists_wake (· = .waiting)).mp ⟨q, hmem, hwaiting⟩
    exact hnone x hmem hwaiting
  · obtain ⟨w, hw⟩ := mem_iff_getElem?.mp hmem
    obtain ⟨y, hy, hpc, hstill⟩ := State.getElem?_wake (r := r) hw
    exact .inr (.inr ⟨y, mem_of_getElem? hy, hpc.trans hwaiting, hstill (.inl hwoken)⟩)

/-- Whoever waits is not in an empty queue, so it has been woken. -/
theorem of_queue_nil (h : Inv s) (hqueue : s.waiter.queue = []) : Fair s := by
  by_cases hwaits : ∃ x ∈ s.requests, x.pc = .waiting
  · obtain ⟨x, hmem, hwaiting⟩ := hwaits
    obtain ⟨w, hw⟩ := mem_iff_getElem?.mp hmem
    refine .inr (.inr ⟨x, hmem, hwaiting, (h.heard w x hw hwaiting).resolve_left fun hin => ?_⟩)
    rw [hqueue] at hin
    cases hin
  · exact .inr (.inl fun x hmem hwaiting => hwaits ⟨x, hmem, hwaiting⟩)

/-- Whoever is taken from the queue is woken. -/
theorem pop (h : Inv s) {queue : List Waker} (hqueue : s.waiter.queue = w :: queue) :
    Fair { s.wake w with waiter := { s.waiter with queue } } := by
  obtain ⟨x, hx, hwaiting⟩ := h.queued w (hqueue ▸ mem_cons_self)
  obtain ⟨y, hy, hpc, hwoken⟩ := State.getElem?_wake (r := w) hx
  exact .inr (.inr ⟨y, mem_of_getElem? hy, hpc.trans hwaiting, hwoken (.inr rfl)⟩)

/-- A request ends that has not got the lock; if it waits, the lock is taken or nobody else
waits. -/
theorem finish (h : Fair s) (hq : s.requests[r]? = some q) (hpolls : q.pc.polls = true)
    (hends : q.pc = .waiting → s.Busy ∨ ∀ x ∈ s.requests.eraseIdx r, x.pc ≠ .waiting) :
    Fair (s.put r { q with pc := .ended }) := by
  have hbusy : s.Busy → (s.put r { q with pc := .ended }).Busy := by
    refine exists_mem_modify hq fun hbusy => ?_
    rw [Pc.busy_of_polls hpolls] at hbusy
    cases hbusy
  have hnone : (∀ x ∈ s.requests.eraseIdx r, x.pc ≠ .waiting) →
      ∀ x ∈ (s.put r { q with pc := .ended }).requests, x.pc ≠ .waiting := by
    intro hothers x hmem
    rcases (mem_modify_iff hq).mp hmem with rfl | hmem
    · rintro ⟨⟩
    · exact hothers x hmem
  by_cases hwaiting : q.pc = .waiting
  · exact (hends hwaiting).imp hbusy fun hothers => .inl (hnone hothers)
  · rcases h with hs | hall | hwoken
    · exact .inl (hbusy hs)
    · exact .inr (.inl (hnone fun x hx => hall x ((mem_iff_mem_eraseIdx hq).mpr (.inr hx))))
    · exact .inr (.inr (exists_mem_modify hq (fun hq' => absurd hq'.1 hwaiting) hwoken))

end Fair

theorem inv_step (s : State) (a : Action) (s' : State) (h : Inv s ∧ Fair s) (hG : Orderly s a)
    (hstep : step s a = some s') : Inv s' ∧ Fair s' := by
  obtain ⟨h, hfair⟩ := h
  cases of_step hstep with
  | arrive => exact ⟨h.arrive, hfair.arrive⟩
  | @fail r q hq hpolls hlocked =>
      have hheld : (s.put r ⟨.pushing, false⟩).Held :=
        (h.holder hlocked).put hq (Pc.ne_holding_of_polls hpolls)
      exact ⟨h.put hG (by rintro ⟨⟩) (fun _ => hheld) (fun _ => hheld), .inl hheld.busy⟩
  | @lock r q hq hpolls hfree =>
      have hheld : (s.put r ⟨.holding, false⟩).Held := ⟨_, State.mem_put hq, rfl⟩
      exact ⟨h.put hG (by rintro ⟨⟩) (fun _ => hheld) (fun _ => hheld), .inl hheld.busy⟩
  | push hq hpc => exact ⟨h.push hq hpc, .inl (State.Held.busy (h.held_of_pushing hq hpc))⟩
  | store hq hpc =>
      have hr := h.notMem_queue hq (by rw [hpc]; rintro ⟨⟩)
      refine ⟨h.put hr (by rintro ⟨⟩) (by rintro ⟨⟩) ?_, .inl ⟨_, State.mem_put hq, rfl⟩⟩
      rintro ⟨x, hmem, hx⟩
      rcases (mem_modify_iff hq).mp hmem with rfl | hmem
      · cases hx
      · exact absurd hx (hG x ((mem_iff_mem_eraseIdx hq).mpr (.inr hmem)))
  | popNone hq hpc hqueue => exact ⟨h.out hq hpc, .of_queue_nil (h.out hq hpc) hqueue⟩
  | pop hq hpc hqueue => exact ⟨(h.out hq hpc).pop hqueue, .pop (h.out hq hpc) hqueue⟩
  | wake r => exact ⟨h.wake r, hfair.wake r⟩
  | @finish r q hq hpolls =>
      obtain ⟨hr, hends⟩ := hG
      refine ⟨h.put_aside hq hr (Pc.ne_holding_of_polls hpolls) (by rintro ⟨⟩) (by rintro ⟨⟩), ?_⟩
      refine hfair.finish hq hpolls fun hwaiting => hends ?_
      rw [hq]
      exact congrArg some hwaiting

/-- In an orderly run, whenever nobody holds the lock or is releasing it and a request waits for
it, some request that waits has been woken since it last asked, and gets the lock if it is
polled. -/
theorem waiting_request_is_woken {as : List Action} {t : State}
    (horderly : machine.Meets Orderly machine.init as) (hrun : machine.run as = some t)
    (hidle : ¬ t.Busy) (hwaits : ∃ q ∈ t.requests, q.pc = .waiting) :
    ∃ r q, t.requests[r]? = some q ∧ q.pc = .waiting ∧ q.woken = true ∧
      ∃ t', step t (.compareExchange r) = some t' ∧ t'.requests[r]? = some ⟨.holding, false⟩ := by
  have hinit : Inv machine.init ∧ Fair machine.init := ⟨inv_init, .inr (.inl (by rintro _ ⟨⟩))⟩
  obtain ⟨hinv, hfair⟩ := Machine.invariant_of_meets hinit inv_step horderly hrun
  obtain ⟨x, hmem, hx⟩ := hwaits
  rcases hfair with hbusy | hnone | ⟨q, hmem, hwaiting, hwoken⟩
  · exact absurd hbusy hidle
  · exact absurd hx (hnone x hmem)
  · obtain ⟨r, hr⟩ := mem_iff_getElem?.mp hmem
    have hfree : ¬ t.waiter.locked = true := fun hlocked => hidle (hinv.holder hlocked).busy
    refine ⟨r, q, hr, hwaiting, hwoken,
      { t.put r ⟨.holding, false⟩ with waiter := { t.waiter with locked := true } }, ?_,
      State.getElem?_put_self hr⟩
    simp only [step, hr, bind_some, hwaiting, AsyncWaiter.compareExchange, if_neg hfree]
    rfl

/-- Two requests wait for the lock; the holder releases it, and the first of them is woken. -/
def handsOver : List Action :=
  [.arrive, .arrive, .arrive, .compareExchange 0, .compareExchange 1, .push 1, .compareExchange 2,
    .push 2, .store 0, .popWake 0]

theorem waiting_request_is_woken_handsOver :
    ∃ t, machine.run handsOver = some t ∧ machine.Meets Orderly machine.init handsOver ∧
      ¬ t.Busy ∧ t.waiter.queue = [2] ∧
      ∃ r q, t.requests[r]? = some q ∧ q.pc = .waiting ∧ q.woken = true ∧
        ∃ t', step t (.compareExchange r) = some t' ∧ t'.requests[r]? = some ⟨.holding, false⟩ := by
  have hrun : machine.run handsOver = some _ := rfl
  have horderly : machine.Meets Orderly machine.init handsOver := by decide
  refine ⟨_, hrun, horderly, ?_, rfl, waiting_request_is_woken horderly hrun ?_ ?_⟩
  · decide
  · decide
  · decide

/-- A request waits, the lock is free, and nobody who waits has been woken. -/
def Lost (s : State) : Prop :=
  ¬ s.Busy ∧ (∃ q ∈ s.requests, q.pc = .waiting) ∧
    ∀ q ∈ s.requests, q.pc = .waiting → q.woken = false

instance (s : State) : Decidable (Lost s) := inferInstanceAs (Decidable (_ ∧ _ ∧ _))

/-- Three ways to lose a wake-up: the push comes after the pop that should have seen it; a
request that is polled twice is in the queue twice, and its second waker is popped when it no
longer waits; a request that was woken ends without asking again. -/
theorem waiting_request_is_lost :
    (∃ t, machine.run [.arrive, .arrive, .compareExchange 0, .compareExchange 1, .store 0,
      .popWake 0, .push 1] = some t ∧ Lost t) ∧
    (∃ t, machine.run [.arrive, .arrive, .arrive, .compareExchange 0, .compareExchange 1, .push 1,
      .wake 1, .compareExchange 1, .push 1, .compareExchange 2, .push 2, .store 0, .popWake 0,
      .compareExchange 1, .store 1, .popWake 1, .finish 1] = some t ∧ Lost t) ∧
    ∃ t, machine.run [.arrive, .arrive, .arrive, .compareExchange 0, .compareExchange 1, .push 1,
      .compareExchange 2, .push 2, .store 0, .popWake 0, .finish 1] = some t ∧ Lost t :=
  ⟨⟨_, rfl, by decide⟩, ⟨_, rfl, by decide⟩, ⟨_, rfl, by decide⟩⟩

end OpenWorkers.Pool.FairQueue
