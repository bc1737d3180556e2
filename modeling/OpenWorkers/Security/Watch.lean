import OpenWorkers.Lib.Erase
import OpenWorkers.Lib.Log
import OpenWorkers.Security.Watchdog

/-!
# The sleep of the watchdog

`watch` of `src/security/timeout_guard.rs`, step by step, with the guards that other threads
make and drop.  `Security.Watchdog` is about what happens at a deadline; here it is when.

The thread looks at the clock and takes what is due with the mutex held.  If nothing is, it waits
for as long as the first deadline was away when it looked; a guard notifies it when it inserts a
new first deadline.  It wakes up when that time is over, when it is notified, or for no reason.

`wait_timeout` takes a duration, and it is counted from the start of the wait, not from the look
at the clock.  Whatever passes between the two is added to the sleep: `Thread.drift`.

A guard computes its key before it has the mutex, so its deadline may be over when it is
inserted.  Times are in nanoseconds.  Numbers of keys do not wrap, so no key is
`(now, u64::MAX)`, and what `split_off` leaves in the map is what is later than `now`.
-/

namespace OpenWorkers.Security.Watch

open List Machine
open Watchdog (Key)

/-! ## The map of deadlines -/

instance : Std.Total Key.le where
  total a b := by
    simp only [Key.le]
    omega

instance : IsTrans Key Key.le where
  trans a b c hab hbc := by
    simp only [Key.le] at *
    omega

/-- `BTreeMap<Key, Entry>`, by its keys. -/
structure Deadlines where
  keys : List Key
  sorted : keys.Pairwise Key.le
deriving DecidableEq

namespace Deadlines

def empty : Deadlines := ⟨[], .nil⟩

def insert (m : Deadlines) (key : Key) : Deadlines :=
  ⟨m.keys.orderedInsert Key.le key, m.sorted.orderedInsert _ _⟩

def remove (m : Deadlines) (key : Key) : Deadlines :=
  ⟨m.keys.filter fun other => other ≠ key, m.sorted.filter _⟩

/-- `keys().next()`. -/
def first (m : Deadlines) : Option Key := m.keys.head?

/-- What `split_off(&(now, u64::MAX))` leaves, in the order of the map. -/
def due (m : Deadlines) (now : Nat) : List Key := m.keys.filter fun key => key.1 ≤ now

/-- What it splits off. -/
def later (m : Deadlines) (now : Nat) : Deadlines :=
  ⟨m.keys.filter fun key => ¬ key.1 ≤ now, m.sorted.filter _⟩

variable {m : Deadlines} {key other : Key} {now : Nat}

theorem mem_insert : other ∈ (m.insert key).keys ↔ other = key ∨ other ∈ m.keys :=
  mem_orderedInsert _

theorem mem_of_mem_remove (h : other ∈ (m.remove key).keys) : other ∈ m.keys ∧ other ≠ key := by
  obtain ⟨hmem, hne⟩ := mem_filter.mp h
  exact ⟨hmem, of_decide_eq_true hne⟩

theorem mem_of_mem_later (h : key ∈ (m.later now).keys) : key ∈ m.keys ∧ now < key.1 := by
  obtain ⟨hmem, hlt⟩ := mem_filter.mp h
  exact ⟨hmem, Nat.lt_of_not_le (of_decide_eq_true hlt)⟩

theorem first_le (h : m.first = some key) (hmem : other ∈ m.keys) : key.1 ≤ other.1 := by
  obtain ⟨keys, hkeys⟩ := head?_eq_some_iff.mp h
  have hsorted := m.sorted
  rw [hkeys] at hmem hsorted
  rcases mem_cons.mp hmem with rfl | hmem
  · exact Nat.le_refl _
  · have hle := rel_of_pairwise_cons hsorted hmem
    simp only [Key.le] at hle
    omega

theorem keys_eq_nil_of_first (h : m.first = none) : m.keys = [] := head?_eq_none_iff.mp h

/-- A key that does not become the first is behind one that was there. -/
theorem le_of_first_insert (h : (m.insert key).first ≠ some key) :
    ∃ other ∈ m.keys, other.1 ≤ key.1 := by
  cases hfirst : (m.insert key).first with
  | none =>
      have hmem : key ∈ (m.insert key).keys := mem_insert.mpr (.inl rfl)
      rw [keys_eq_nil_of_first hfirst] at hmem
      cases hmem
  | some other =>
      refine ⟨other, ?_, first_le hfirst (mem_insert.mpr (.inl rfl))⟩
      rcases mem_insert.mp (mem_of_mem_head? hfirst) with rfl | hmem
      · exact absurd hfirst h
      · exact hmem

end Deadlines

/-! ## Guards and the thread -/

inductive GuardState where
  /-- In `TimeoutGuard::new`, with its key, before the insertion. -/
  | made
  | live
  | dropped
deriving DecidableEq, Repr

/-- A `TimeoutGuard` that is not disabled; guards are numbered by their keys. -/
structure TimeoutGuard where
  deadline : Nat
  state : GuardState
deriving DecidableEq, Repr

inductive Thread where
  /-- It asks for the mutex: at its start, after it has acted, and where it wakes up. -/
  | locking
  /-- It has the mutex, at the top of its loop. -/
  | locked
  /-- It has the mutex; nothing was due. -/
  | looked (now : Nat)
  /-- It waits, since `started`, for a time computed from the look at `lookedAt`. -/
  | waiting (lookedAt started : Nat) (wakeUp : Option Nat) (notified : Bool)
  /-- It acts on what it has taken; `flagged` if it has set the flag of the first. -/
  | acting (due : List Nat) (flagged : Bool)
deriving DecidableEq, Repr

namespace Thread

def hasMutex : Thread → Bool
  | .locked | .looked _ => true
  | .locking | .waiting _ _ _ _ | .acting _ _ => false

/-- `notify_one`; it is lost if the thread does not wait. -/
def notify : Thread → Thread
  | .waiting lookedAt started wakeUp _ => .waiting lookedAt started wakeUp true
  | .locking => .locking
  | .locked => .locked
  | .looked now => .looked now
  | .acting due flagged => .acting due flagged

/-- What the watchdog has taken and not acted on. -/
def taken : Thread → List Nat
  | .acting due _ => due
  | .locking | .locked | .looked _ | .waiting _ _ _ _ => []

/-- The entry whose flag is set and that is not terminated yet. -/
def halfDone : Thread → List Nat
  | .acting (guard :: _) true => [guard]
  | .acting _ _ | .locking | .locked | .looked _ | .waiting _ _ _ _ => []

/-- What the wait adds to the sleep. -/
def drift (clock : Nat) : Thread → Nat
  | .looked now => clock - now
  | .waiting lookedAt started _ _ => started - lookedAt
  | .locking | .locked | .acting _ _ => 0

/-- What goes on after one entry. -/
def next : List Nat → Thread
  | [] => .locking
  | due => .acting due false

end Thread

structure State where
  clock : Nat
  guards : List TimeoutGuard
  deadlines : Deadlines
  thread : Thread
deriving DecidableEq

inductive Action where
  | tick (time : Nat)
  /-- The first part of `TimeoutGuard::new`. -/
  | make (timeoutMs : Nat)
  /-- Its second part, under the mutex. -/
  | insert (guard : Nat)
  | drop (guard : Nat)
  | lock
  | look
  | sleep
  /-- The wait ends, for whatever reason. -/
  | wake
  | flag
  | terminate
deriving DecidableEq, Repr

def State.setGuard (s : State) (guard : Nat) (state : GuardState) : List TimeoutGuard :=
  s.guards.modify guard fun g => { g with state }

def step (s : State) : Action → Option State
  | .tick time => some { s with clock := s.clock + time }
  | .make timeoutMs =>
    if timeoutMs = 0 then some s
    else some { s with guards := s.guards ++ [⟨s.clock + timeoutMs * 1000000, .made⟩] }
  | .insert guard =>
    if s.thread.hasMutex then none
    else
      match s.guards[guard]? with
      | some ⟨deadline, .made⟩ =>
        let deadlines := s.deadlines.insert (deadline, guard)
        some { s with
          guards := s.setGuard guard .live
          deadlines
          thread := if deadlines.first = some (deadline, guard) then s.thread.notify else s.thread }
      | _ => none
  | .drop guard =>
    if s.thread.hasMutex then none
    else
      match s.guards[guard]? with
      | some ⟨deadline, .live⟩ =>
        some { s with
          guards := s.setGuard guard .dropped
          deadlines := s.deadlines.remove (deadline, guard) }
      | _ => none
  | .lock =>
    match s.thread with
    | .locking => some { s with thread := .locked }
    | _ => none
  | .look =>
    match s.thread with
    | .locked =>
      match s.deadlines.due s.clock with
      | [] => some { s with thread := .looked s.clock }
      | due => some { s with
          deadlines := s.deadlines.later s.clock
          thread := .acting (due.map Prod.snd) false }
    | _ => none
  | .sleep =>
    match s.thread with
    | .looked now =>
      let wakeUp := s.deadlines.first.map fun key => s.clock + (key.1 - now)
      some { s with thread := .waiting now s.clock wakeUp false }
    | _ => none
  | .wake =>
    match s.thread with
    | .waiting _ _ _ _ => some { s with thread := .locking }
    | _ => none
  | .flag =>
    match s.thread with
    | .acting (guard :: due) false => some { s with thread := .acting (guard :: due) true }
    | _ => none
  | .terminate =>
    match s.thread with
    | .acting (_ :: due) true => some { s with thread := .next due }
    | _ => none

def machine : Machine State Action where
  init := ⟨0, [], .empty, .locking⟩
  step := step

/-! ## What is seen -/

inductive Seen where
  /-- The watchdog sets the flag of a guard. -/
  | flagged (guard time : Nat)
  /-- It calls `terminate` for the request of a guard. -/
  | cut (guard time : Nat)
  /-- A guard that drops removes its entry. -/
  | withdrawn (guard : Nat)
deriving DecidableEq, Repr

namespace Seen

def flags : Seen → Option Nat
  | .flagged guard _ => some guard
  | .cut _ _ | .withdrawn _ => none

def cuts : Seen → Option Nat
  | .cut guard _ => some guard
  | .flagged _ _ | .withdrawn _ => none

/-- The entry that is gone. -/
def gone : Seen → Option Nat
  | .cut guard _ | .withdrawn guard => some guard
  | .flagged _ _ => none

end Seen

def observe (s : State) : Action → List Seen
  | .drop guard =>
    match s.guards[guard]? with
    | some g => if (g.deadline, guard) ∈ s.deadlines.keys then [.withdrawn guard] else []
    | none => []
  | .flag =>
    match s.thread with
    | .acting (guard :: _) false => [.flagged guard s.clock]
    | _ => []
  | .terminate =>
    match s.thread with
    | .acting (guard :: _) true => [.cut guard s.clock]
    | _ => []
  | .tick _ | .make _ | .insert _ | .lock | .look | .sleep | .wake => []

/-! ## The invariant -/

variable {s s' : State} {log new : List Seen} {guard time : Nat} {g : TimeoutGuard}

@[simp] theorem Thread.taken_notify (thread : Thread) : thread.notify.taken = thread.taken := by
  cases thread <;> rfl

@[simp] theorem Thread.halfDone_notify (thread : Thread) :
    thread.notify.halfDone = thread.halfDone := by
  cases thread <;> rfl

@[simp] theorem Thread.taken_next (due : List Nat) : (Thread.next due).taken = due := by
  cases due <;> rfl

@[simp] theorem Thread.halfDone_next (due : List Nat) : (Thread.next due).halfDone = [] := by
  cases due <;> rfl

/-- Whether the entry of a guard has been inserted. -/
def State.inserted (s : State) (guard : Nat) : Bool :=
  s.guards[guard]?.any fun g => g.state ≠ .made

/-- The guard has this deadline. -/
def State.DueAt (s : State) (guard deadline : Nat) : Prop :=
  ∃ g, s.guards[guard]? = some g ∧ g.deadline = deadline

/-- A thread that has nothing to do has looked at every deadline of the map; one that sleeps will
be woken for each of them; one that acts has something to act on. -/
def Wakeful (clock : Nat) (deadlines : Deadlines) : Thread → Prop
  | .looked now => now ≤ clock ∧ ∀ key ∈ deadlines.keys, now < key.1
  | .waiting lookedAt started wakeUp notified => notified = true ∨
    ∀ key ∈ deadlines.keys, ∃ time, wakeUp = some time ∧ time ≤ key.1 + (started - lookedAt)
  | .acting due _ => due ≠ []
  | .locking | .locked => True

namespace Wakeful

variable {clock clock' : Nat} {m m' : Deadlines} {thread : Thread}

/-- Time passes, and deadlines are withdrawn. -/
theorem mono (h : Wakeful clock m thread) (hclock : clock ≤ clock')
    (hkeys : ∀ key ∈ m'.keys, key ∈ m.keys) : Wakeful clock' m' thread := by
  cases thread with
  | looked now =>
      obtain ⟨hnow, hall⟩ := h
      exact ⟨Nat.le_trans hnow hclock, fun key hkey => hall key (hkeys key hkey)⟩
  | waiting lookedAt started wakeUp notified =>
      exact h.imp_right fun hall key hkey => hall key (hkeys key hkey)
  | acting due flagged => exact h
  | locking => trivial
  | locked => trivial

/-- A new first deadline notifies the thread; it wakes up in time for any other. -/
theorem insert (h : Wakeful clock m thread) (hmutex : ¬ thread.hasMutex = true) (key : Key) :
    Wakeful clock (m.insert key)
      (if (m.insert key).first = some key then thread.notify else thread) := by
  cases thread with
  | looked now => exact absurd rfl hmutex
  | waiting lookedAt started wakeUp notified =>
      split
      · exact .inl rfl
      · next hfirst =>
          refine h.imp_right fun hall other hother => ?_
          rcases Deadlines.mem_insert.mp hother with rfl | hother
          · obtain ⟨before, hbefore, hle⟩ := Deadlines.le_of_first_insert hfirst
            obtain ⟨time, hwakeUp, htime⟩ := hall before hbefore
            exact ⟨time, hwakeUp, Nat.le_trans htime (Nat.add_le_add_right hle _)⟩
          · exact hall other hother
  | acting due flagged => split <;> exact h
  | locking => split <;> trivial
  | locked => exact absurd rfl hmutex

/-- What the thread sleeps is what the first deadline was away when it looked. -/
theorem sleep {now : Nat} (h : Wakeful clock m (.looked now)) :
    Wakeful clock m
      (.waiting now clock (m.first.map fun key => clock + (key.1 - now)) false) := by
  obtain ⟨hnow, hall⟩ := h
  refine .inr fun key hkey => ?_
  cases hfirst : m.first with
  | none =>
      rw [Deadlines.keys_eq_nil_of_first hfirst] at hkey
      cases hkey
  | some first =>
      refine ⟨_, rfl, ?_⟩
      have hle := Deadlines.first_le hfirst hkey
      have hlt := hall first (mem_of_mem_head? hfirst)
      show clock + (first.1 - now) ≤ key.1 + (clock - now)
      omega

end Wakeful

structure Inv (s : State) (log : List Seen) : Prop where
  entry : ∀ key ∈ s.deadlines.keys,
    ∃ g, s.guards[key.2]? = some g ∧ g.deadline = key.1 ∧ g.state = .live
  taken : ∀ guard ∈ s.thread.taken, ∃ deadline ≤ s.clock, s.DueAt guard deadline
  seen : ∀ guard time, .flagged guard time ∈ log ∨ .cut guard time ∈ log →
    ∃ deadline ≤ time, s.DueAt guard deadline
  withdrawn : ∀ guard, .withdrawn guard ∈ log →
    ∃ g, s.guards[guard]? = some g ∧ g.state = .dropped
  /-- Every entry that was inserted is in one place. -/
  place : ∀ guard, (s.deadlines.keys.map Prod.snd).count guard + s.thread.taken.count guard +
    (log.filterMap Seen.gone).count guard = if s.inserted guard then 1 else 0
  flags : ∀ guard, (log.filterMap Seen.flags).count guard =
    (log.filterMap Seen.cuts).count guard + s.thread.halfDone.count guard
  awake : Wakeful s.clock s.deadlines s.thread

theorem inv_init : Inv machine.init [] where
  entry _ h := absurd h not_mem_nil
  taken _ h := absurd h not_mem_nil
  seen _ _ h := absurd h (by simp)
  withdrawn _ h := absurd h not_mem_nil
  place _ := rfl
  flags _ := rfl
  awake := trivial

/-- What a step of a guard leaves of the others. -/
structure Kept (s s' : State) : Prop where
  dueAt : ∀ guard deadline, s.DueAt guard deadline → s'.DueAt guard deadline
  dropped : ∀ (guard : Nat) (g : TimeoutGuard), s.guards[guard]? = some g → g.state = .dropped →
    ∃ g', s'.guards[guard]? = some g' ∧ g'.state = .dropped

theorem Kept.setGuard {state : GuardState} (hg : s.guards[guard]? = some g)
    (hstate : g.state ≠ .dropped) (hguards : s'.guards = s.setGuard guard state) : Kept s s' where
  dueAt other deadline := by
    rintro ⟨x, hx, hdeadline⟩
    rw [State.DueAt, hguards, State.setGuard, List.getElem?_modify]
    rw [hx]
    refine ⟨_, rfl, ?_⟩
    split <;> exact hdeadline
  dropped other x hx hdropped := by
    have hne : guard ≠ other := by
      rintro rfl
      cases hg.symm.trans hx
      exact hstate hdropped
    rw [hguards, State.setGuard, getElem?_modify_ne _ _ hne]
    exact ⟨x, hx, hdropped⟩

theorem Kept.exists_dueAt (hkept : Kept s s') {time : Nat}
    (h : ∃ deadline ≤ time, s.DueAt guard deadline) :
    ∃ deadline ≤ time, s'.DueAt guard deadline := by
  obtain ⟨deadline, hle, hdue⟩ := h
  exact ⟨deadline, hle, hkept.dueAt guard deadline hdue⟩

namespace Inv

/-- The thread goes on, with the same entries in its hands. -/
theorem thread (h : Inv s log) {thread : Thread} (htaken : thread.taken = s.thread.taken)
    (hhalf : thread.halfDone = s.thread.halfDone) (hawake : Wakeful s.clock s.deadlines thread) :
    Inv { s with thread } log where
  entry := h.entry
  taken := by
    rw [htaken]
    exact h.taken
  seen := h.seen
  withdrawn := h.withdrawn
  place := by
    rw [htaken]
    exact h.place
  flags := by
    rw [hhalf]
    exact h.flags
  awake := hawake

theorem tick (h : Inv s log) (time : Nat) : Inv { s with clock := s.clock + time } log where
  entry := h.entry
  taken guard hguard := by
    obtain ⟨deadline, hle, hdue⟩ := h.taken guard hguard
    exact ⟨deadline, Nat.le_add_right_of_le hle, hdue⟩
  seen := h.seen
  withdrawn := h.withdrawn
  place := h.place
  flags := h.flags
  awake := h.awake.mono (Nat.le_add_right _ _) fun _ hkey => hkey

theorem make (h : Inv s log) (deadline : Nat) :
    Inv { s with guards := s.guards ++ [⟨deadline, .made⟩] } log := by
  have hget : ∀ {guard : Nat} {g}, s.guards[guard]? = some g →
      (s.guards ++ [⟨deadline, .made⟩])[guard]? = some g := by
    intro guard g hg
    rw [getElem?_append_left (List.getElem?_eq_some_iff.mp hg).1, hg]
  have hkept : Kept s { s with guards := s.guards ++ [⟨deadline, .made⟩] } :=
    ⟨fun _ _ ⟨g, hg, heq⟩ => ⟨g, hget hg, heq⟩, fun _ g hg hdropped => ⟨g, hget hg, hdropped⟩⟩
  refine ⟨fun key hkey => ?_, fun guard hguard => hkept.exists_dueAt (h.taken guard hguard),
    fun guard time hmem => hkept.exists_dueAt (h.seen guard time hmem), fun guard hmem => ?_,
    fun guard => ?_, h.flags, h.awake⟩
  · obtain ⟨g, hg, hrest⟩ := h.entry key hkey
    exact ⟨g, hget hg, hrest⟩
  · obtain ⟨g, hg, hdropped⟩ := h.withdrawn guard hmem
    exact hkept.dropped guard g hg hdropped
  · have hinserted : State.inserted { s with guards := s.guards ++ [⟨deadline, .made⟩] } guard =
        s.inserted guard := by
      unfold State.inserted
      cases hg : s.guards[guard]? with
      | some g => rw [hget hg]
      | none =>
          cases hnew : (s.guards ++ [⟨deadline, .made⟩])[guard]? with
          | none => rfl
          | some g =>
              rcases of_getElem?_concat hnew with ⟨-, rfl⟩ | hold
              · rfl
              · rw [hg] at hold
                cases hold
    rw [hinserted]
    exact h.place guard

/-- A guard whose entry is nowhere yet. -/
theorem place_of_made (h : Inv s log) (hg : s.guards[guard]? = some g) (hmade : g.state = .made) :
    (s.deadlines.keys.map Prod.snd).count guard + s.thread.taken.count guard +
      (log.filterMap Seen.gone).count guard = 0 := by
  have hplace := h.place guard
  rw [State.inserted, hg] at hplace
  simpa [hmade] using hplace

theorem notMem_keys_of_ne (h : Inv s log) (hg : s.guards[guard]? = some g)
    (hstate : g.state ≠ .live)
    {key : Key} (hkey : key ∈ s.deadlines.keys) : guard ≠ key.2 := by
  rintro rfl
  obtain ⟨x, hx, -, hlive⟩ := h.entry key hkey
  cases hg.symm.trans hx
  exact hstate hlive

/-- The deadline of a guard is its only key in the map. -/
theorem eq_of_mem_keys (h : Inv s log) (hg : s.guards[guard]? = some g) {key : Key}
    (hkey : key ∈ s.deadlines.keys) (heq : key.2 = guard) : key = (g.deadline, guard) := by
  obtain ⟨x, hx, hdeadline, -⟩ := h.entry key hkey
  rw [heq, hg] at hx
  cases hx
  exact Prod.ext hdeadline.symm heq

theorem inserted_setGuard (hg : s.guards[guard]? = some g) {state : GuardState}
    (hstate : state ≠ .made) (hguards : s'.guards = s.setGuard guard state) (other : Nat) :
    s'.inserted other = (other == guard || s.inserted other) := by
  rw [State.inserted, State.inserted, hguards, State.setGuard, List.getElem?_modify]
  by_cases heq : guard = other
  · subst heq
    rw [hg]
    simp [hstate]
  · have hne : (other == guard) = false := beq_eq_false_iff_ne.mpr (Ne.symm heq)
    rw [hne, Bool.false_or]
    cases s.guards[other]? with
    | none => rfl
    | some x => simp [heq]

theorem insert (h : Inv s log) {deadline : Nat} (hg : s.guards[guard]? = some ⟨deadline, .made⟩)
    {thread : Thread} (htaken : thread.taken = s.thread.taken)
    (hhalf : thread.halfDone = s.thread.halfDone)
    (hawake : Wakeful s.clock (s.deadlines.insert (deadline, guard)) thread) :
    Inv { s with
      guards := s.setGuard guard .live
      deadlines := s.deadlines.insert (deadline, guard)
      thread } log := by
  have hkept : Kept s { s with
      guards := s.setGuard guard .live
      deadlines := s.deadlines.insert (deadline, guard)
      thread } := .setGuard hg (by rintro ⟨⟩) rfl
  refine ⟨fun key hkey => ?_, fun other hother => ?_, fun other time hmem => ?_,
    fun other hmem => ?_,
    fun other => ?_, fun other => ?_, hawake⟩
  · rcases Deadlines.mem_insert.mp hkey with rfl | hkey
    · refine ⟨⟨deadline, .live⟩, ?_, rfl, rfl⟩
      show (s.setGuard guard .live)[guard]? = _
      rw [State.setGuard, getElem?_modify_eq, hg]
      rfl
    · have hne := h.notMem_keys_of_ne hg (by rintro ⟨⟩) hkey
      show ∃ g, (s.setGuard guard .live)[key.2]? = some g ∧ _
      rw [State.setGuard, getElem?_modify_ne _ _ hne]
      exact h.entry key hkey
  · rw [htaken] at hother
    exact hkept.exists_dueAt (h.taken other hother)
  · exact hkept.exists_dueAt (h.seen other time hmem)
  · obtain ⟨x, hx, hdropped⟩ := h.withdrawn other hmem
    exact hkept.dropped other x hx hdropped
  · rw [inserted_setGuard hg (by rintro ⟨⟩) rfl, htaken]
    have hperm := (s.deadlines.keys.perm_orderedInsert Key.le (deadline, guard)).map Prod.snd
    show ((s.deadlines.keys.orderedInsert Key.le (deadline, guard)).map Prod.snd).count other +
      _ + _ = _
    rw [hperm.count_eq, map_cons, count_cons]
    have hplace := h.place other
    by_cases heq : guard = other
    · subst heq
      have hnone := h.place_of_made hg rfl
      simp only [beq_self_eq_true, Bool.true_or, if_true]
      omega
    · have hne : (other == guard) = false := beq_eq_false_iff_ne.mpr (Ne.symm heq)
      have hne' : (guard == other) = false := beq_eq_false_iff_ne.mpr heq
      simp only [hne, hne', Bool.false_or, Bool.false_eq_true, if_false, Nat.add_zero]
      exact hplace
  · rw [hhalf]
    exact h.flags other

/-- What is left in the map of a guard that drops, and of the others. -/
theorem count_remove (h : Inv s log) (hg : s.guards[guard]? = some g) (other : Nat) :
    ((s.deadlines.remove (g.deadline, guard)).keys.map Prod.snd).count other =
      if other = guard then 0 else (s.deadlines.keys.map Prod.snd).count other := by
  split
  · next heq =>
      subst heq
      refine count_eq_zero.mpr fun hmem => ?_
      obtain ⟨key, hkey, heq⟩ := mem_map.mp hmem
      obtain ⟨hkey, hne⟩ := Deadlines.mem_of_mem_remove hkey
      exact hne (h.eq_of_mem_keys hg hkey heq)
  · next hne =>
      show ((s.deadlines.keys.filter _).map Prod.snd).count other = _
      rw [count_eq_countP, count_eq_countP, countP_map, countP_map,
        countP_filter]
      refine countP_congr fun key _ => ?_
      simp only [Function.comp_apply, Bool.and_eq_true, beq_iff_eq, decide_eq_true_eq,
        and_iff_left_iff_imp]
      rintro heq rfl
      exact hne heq.symm

/-- What a guard that drops takes out of the map is what it withdraws. -/
theorem count_withdrawn (h : Inv s log) {deadline : Nat}
    (hg : s.guards[guard]? = some ⟨deadline, .live⟩) (other : Nat) :
    ((s.deadlines.remove (deadline, guard)).keys.map Prod.snd).count other +
      ((if (deadline, guard) ∈ s.deadlines.keys then [Seen.withdrawn guard]
        else []).filterMap Seen.gone).count other =
      (s.deadlines.keys.map Prod.snd).count other := by
  rw [h.count_remove hg]
  by_cases heq : other = guard
  · subst heq
    rw [if_pos rfl, Nat.zero_add]
    split
    · next hmem =>
        -- the entry is in one place, so it is in the map once
        have hpos : 0 < (s.deadlines.keys.map Prod.snd).count other :=
          count_pos_iff.mpr (mem_map.mpr ⟨_, hmem, rfl⟩)
        have hplace := h.place other
        have hone : ([Seen.withdrawn other].filterMap Seen.gone).count other = 1 := by
          simp [Seen.gone]
        have hle : (if s.inserted other then 1 else 0) ≤ 1 := by split <;> decide
        omega
    · next hmem =>
        refine (count_eq_zero.mpr fun hin => ?_).symm
        obtain ⟨key, hkey, heq⟩ := mem_map.mp hin
        exact hmem (h.eq_of_mem_keys hg hkey heq ▸ hkey)
  · have hnew : ((if (deadline, guard) ∈ s.deadlines.keys then [Seen.withdrawn guard]
        else []).filterMap Seen.gone).count other = 0 := by
      split <;> simp [Seen.gone, Ne.symm heq]
    rw [if_neg heq, hnew, Nat.add_zero]

theorem drop (h : Inv s log) {deadline : Nat} (hg : s.guards[guard]? = some ⟨deadline, .live⟩) :
    Inv { s with
      guards := s.setGuard guard .dropped
      deadlines := s.deadlines.remove (deadline, guard) }
      (log ++ if (deadline, guard) ∈ s.deadlines.keys then [.withdrawn guard] else []) := by
  have hkept : Kept s { s with
      guards := s.setGuard guard .dropped
      deadlines := s.deadlines.remove (deadline, guard) } := .setGuard hg (by rintro ⟨⟩) rfl
  have hold : ∀ {x : Seen}, (∀ other, x ≠ .withdrawn other) →
      x ∈ (log ++ if (deadline, guard) ∈ s.deadlines.keys then [Seen.withdrawn guard] else []) →
        x ∈ log := by
    intro x hne hmem
    refine (mem_append.mp hmem).resolve_right fun hmem => ?_
    split at hmem
    · exact hne guard (mem_singleton.mp hmem)
    · cases hmem
  refine ⟨fun key hkey => ?_, fun other hother => ?_, fun other time hmem => ?_,
    fun other hmem => ?_,
    fun other => ?_, fun other => ?_, ?_⟩
  · obtain ⟨hkey, hne⟩ := Deadlines.mem_of_mem_remove hkey
    have hne : guard ≠ key.2 := fun heq => hne (h.eq_of_mem_keys hg hkey heq.symm)
    show ∃ g, (s.setGuard guard .dropped)[key.2]? = some g ∧ _
    rw [State.setGuard, getElem?_modify_ne _ _ hne]
    exact h.entry key hkey
  · exact hkept.exists_dueAt (h.taken other hother)
  · refine hkept.exists_dueAt (h.seen other time ?_)
    exact hmem.imp (hold (by rintro _ ⟨⟩)) (hold (by rintro _ ⟨⟩))
  · rcases mem_append.mp hmem with hmem | hmem
    · obtain ⟨x, hx, hdropped⟩ := h.withdrawn other hmem
      exact hkept.dropped other x hx hdropped
    · split at hmem
      · cases mem_singleton.mp hmem
        refine ⟨⟨deadline, .dropped⟩, ?_, rfl⟩
        show (s.setGuard guard .dropped)[guard]? = _
        rw [State.setGuard, getElem?_modify_eq, hg]
        rfl
      · cases hmem
  · have hplace := h.place other
    have hwithdrawn := h.count_withdrawn hg other
    have hinserted : State.inserted { s with
        guards := s.setGuard guard .dropped
        deadlines := s.deadlines.remove (deadline, guard) } other = s.inserted other := by
      rw [inserted_setGuard hg (by rintro ⟨⟩) rfl, Bool.or_eq_right_iff_imp]
      intro heq
      rw [eq_of_beq heq, State.inserted, hg]
      rfl
    rw [hinserted, filterMap_append, count_append]
    show ((s.deadlines.remove (deadline, guard)).keys.map Prod.snd).count other +
      s.thread.taken.count other + _ = _
    omega
  · have hflags : (if (deadline, guard) ∈ s.deadlines.keys then [Seen.withdrawn guard]
        else []).filterMap Seen.flags = [] := by split <;> rfl
    have hcuts : (if (deadline, guard) ∈ s.deadlines.keys then [Seen.withdrawn guard]
        else []).filterMap Seen.cuts = [] := by split <;> rfl
    rw [filterMap_append, filterMap_append, hflags, hcuts, append_nil, append_nil]
    exact h.flags other
  · exact h.awake.mono (Nat.le_refl _) fun _ hkey => (Deadlines.mem_of_mem_remove hkey).1

theorem take (h : Inv s log) (hthread : s.thread = .locked) (hdue : s.deadlines.due s.clock ≠ []) :
    Inv { s with
      deadlines := s.deadlines.later s.clock
      thread := .acting ((s.deadlines.due s.clock).map Prod.snd) false } log where
  entry key hkey := h.entry key (Deadlines.mem_of_mem_later hkey).1
  taken guard hguard := by
    obtain ⟨key, hkey, rfl⟩ := mem_map.mp hguard
    obtain ⟨hkey, hle⟩ := mem_filter.mp hkey
    obtain ⟨g, hg, hdeadline, -⟩ := h.entry key hkey
    exact ⟨key.1, of_decide_eq_true hle, g, hg, hdeadline⟩
  seen := h.seen
  withdrawn := h.withdrawn
  place guard := by
    have hplace := h.place guard
    rw [hthread] at hplace
    have hsplit : (s.deadlines.due s.clock ++ (s.deadlines.later s.clock).keys).Perm
        s.deadlines.keys := by
      have hperm := filter_append_perm (fun key : Key => decide (key.1 ≤ s.clock)) s.deadlines.keys
      simpa only [Deadlines.due, Deadlines.later, decide_not] using hperm
    have hcount := (hsplit.map Prod.snd).count_eq guard
    rw [map_append, count_append] at hcount
    show ((s.deadlines.later s.clock).keys.map Prod.snd).count guard +
      ((s.deadlines.due s.clock).map Prod.snd).count guard + _ = _
    have hzero : Thread.locked.taken.count guard = 0 := rfl
    show _ = if s.inserted guard then 1 else 0
    omega
  flags guard := by
    have hflags := h.flags guard
    rw [hthread] at hflags
    rw [hflags]
    cases (s.deadlines.due s.clock).map Prod.snd <;> rfl
  awake := fun hnil => hdue (map_eq_nil_iff.mp hnil)

/-- The watchdog acts on an entry that it has taken. -/
theorem seen_concat (h : Inv s log) (htaken : guard ∈ s.thread.taken) {x : Seen}
    (hx : x = .flagged guard s.clock ∨ x = .cut guard s.clock) (other time : Nat)
    (hmem : .flagged other time ∈ log ++ [x] ∨ .cut other time ∈ log ++ [x]) :
    ∃ deadline ≤ time, s.DueAt other deadline := by
  rw [mem_append, mem_append, mem_singleton, mem_singleton] at hmem
  rcases hmem with (hmem | rfl) | (hmem | rfl)
  · exact h.seen other time (.inl hmem)
  · rcases hx with ⟨⟨⟩⟩ | ⟨⟨⟩⟩
    exact h.taken guard htaken
  · exact h.seen other time (.inr hmem)
  · rcases hx with ⟨⟨⟩⟩ | ⟨⟨⟩⟩
    exact h.taken guard htaken

theorem flag (h : Inv s log) {due : List Nat} (hthread : s.thread = .acting (guard :: due) false) :
    Inv { s with thread := .acting (guard :: due) true } (log ++ [.flagged guard s.clock]) where
  entry := h.entry
  taken := by
    have htaken := h.taken
    rw [hthread] at htaken
    exact htaken
  seen := h.seen_concat (by rw [hthread]; exact mem_cons_self) (.inl rfl)
  withdrawn other hmem := by
    rcases mem_append.mp hmem with hmem | hmem
    · exact h.withdrawn other hmem
    · cases mem_singleton.mp hmem
  place other := by
    have hplace := h.place other
    rw [hthread] at hplace
    rw [filterMap_append]
    show _ + _ + (log.filterMap Seen.gone ++ []).count other = _
    rw [append_nil]
    exact hplace
  flags other := by
    have hflags := h.flags other
    rw [hthread] at hflags
    have hnone : (Thread.acting (guard :: due) false).halfDone.count other = 0 := rfl
    rw [filterMap_append, filterMap_append, count_append]
    show _ + [guard].count other = (log.filterMap Seen.cuts ++ []).count other + [guard].count other
    rw [append_nil]
    omega
  awake := cons_ne_nil _ _

theorem terminate (h : Inv s log) {due : List Nat}
    (hthread : s.thread = .acting (guard :: due) true) :
    Inv { s with thread := .next due } (log ++ [.cut guard s.clock]) where
  entry := h.entry
  taken other hother := by
    rw [Thread.taken_next] at hother
    exact h.taken other (by rw [hthread]; exact mem_cons_of_mem _ hother)
  seen := h.seen_concat (by rw [hthread]; exact mem_cons_self) (.inr rfl)
  withdrawn other hmem := by
    rcases mem_append.mp hmem with hmem | hmem
    · exact h.withdrawn other hmem
    · cases mem_singleton.mp hmem
  place other := by
    have hplace := h.place other
    rw [hthread] at hplace
    have htaken : (Thread.acting (guard :: due) true).taken.count other =
        due.count other + [guard].count other := by
      show (guard :: due).count other = _
      rw [count_cons, count_singleton]
    rw [Thread.taken_next, filterMap_append, count_append]
    show (s.deadlines.keys.map Prod.snd).count other + due.count other +
      (_ + [guard].count other) = if s.inserted other then 1 else 0
    omega
  flags other := by
    have hflags := h.flags other
    rw [hthread] at hflags
    rw [Thread.halfDone_next, filterMap_append, filterMap_append, count_append,
      count_append]
    show _ + 0 = _ + [guard].count other + 0
    exact hflags
  awake := by
    cases due with
    | nil => trivial
    | cons first due => exact cons_ne_nil _ _

end Inv

theorem inv_step (s : State) (log : List Seen) (a : Action) (s' : State) (h : Inv s log)
    (hstep : step s a = some s') : Inv s' (log ++ observe s a) := by
  cases a with
  | tick time =>
      cases hstep
      rw [observe, append_nil]
      exact h.tick time
  | make timeoutMs =>
      rw [observe, append_nil]
      simp only [step] at hstep
      split at hstep
      · cases hstep
        exact h
      · cases hstep
        exact h.make _
  | insert guard =>
      rw [observe, append_nil]
      obtain ⟨hmutex, hstep⟩ := Option.ite_none_left_eq_some.mp hstep
      split at hstep
      · next deadline hg =>
          cases hstep
          refine h.insert hg ?_ ?_ (h.awake.insert hmutex _)
          · split
            · exact Thread.taken_notify _
            · rfl
          · split
            · exact Thread.halfDone_notify _
            · rfl
      · cases hstep
  | drop guard =>
      obtain ⟨-, hstep⟩ := Option.ite_none_left_eq_some.mp hstep
      split at hstep
      · next deadline hg =>
          cases hstep
          simp only [observe, hg]
          exact h.drop hg
      · cases hstep
  | lock =>
      rw [observe, append_nil]
      simp only [step] at hstep
      split at hstep
      · next hthread =>
          cases hstep
          exact h.thread (by rw [hthread]; rfl) (by rw [hthread]; rfl) trivial
      · cases hstep
  | look =>
      rw [observe, append_nil]
      simp only [step] at hstep
      split at hstep
      · next hthread =>
          split at hstep
          · next hdue =>
              cases hstep
              refine h.thread (by rw [hthread]; rfl) (by rw [hthread]; rfl) ⟨Nat.le_refl _, ?_⟩
              intro key hkey
              have hlater := filter_eq_nil_iff.mp hdue key hkey
              exact Nat.lt_of_not_le fun hle => hlater (decide_eq_true hle)
          · next hdue =>
              cases hstep
              exact h.take hthread hdue
      · cases hstep
  | sleep =>
      rw [observe, append_nil]
      simp only [step] at hstep
      split at hstep
      · next now hthread =>
          cases hstep
          have hawake := h.awake
          rw [hthread] at hawake
          exact h.thread (by rw [hthread]; rfl) (by rw [hthread]; rfl) hawake.sleep
      · cases hstep
  | wake =>
      rw [observe, append_nil]
      simp only [step] at hstep
      split at hstep
      · next hthread =>
          cases hstep
          exact h.thread (by rw [hthread]; rfl) (by rw [hthread]; rfl) trivial
      · cases hstep
  | flag =>
      simp only [step] at hstep
      split at hstep
      · next guard due hthread =>
          cases hstep
          simp only [observe, hthread]
          exact h.flag hthread
      · cases hstep
  | terminate =>
      simp only [step] at hstep
      split at hstep
      · next guard due hthread =>
          cases hstep
          simp only [observe, hthread]
          exact h.terminate hthread
      · cases hstep

/-! ## The watchdog goes on -/

/-- The steps of the watchdog while no time passes, and no wake-up without a reason. -/
def Watchful (s : State) : Action → Prop
  | .wake =>
    match s.thread with
    | .waiting _ _ wakeUp notified => notified = true ∨ ∃ time ∈ wakeUp, time ≤ s.clock
    | .locking | .locked | .looked _ | .acting _ _ => False
  | .lock | .look | .flag | .terminate => True
  | .tick _ | .make _ | .insert _ | .drop _ | .sleep => False

/-- The next steps of the watchdog act on an entry. -/
def Acts (s : State) (guard : Nat) : Prop :=
  ∃ as t, machine.runFrom s as = some t ∧ machine.Meets Watchful s as ∧
    .cut guard s.clock ∈ machine.logFrom observe s as

namespace Acts

theorem cons {a : Action} (hstep : step s a = some s') (hG : Watchful s a)
    (hclock : s'.clock = s.clock) (h : Acts s' guard) : Acts s guard := by
  obtain ⟨as, t, hrun, hmeets, hmem⟩ := h
  refine ⟨a :: as, t, ?_, (meets_cons hstep).mpr ⟨hG, hmeets⟩, ?_⟩
  · exact runFrom_cons_eq_some.mpr ⟨s', hstep, hrun⟩
  · rw [logFrom_cons hstep]
    exact mem_append_right _ (hclock ▸ hmem)

/-- An entry that is taken is acted on. -/
theorem of_flagged {due : List Nat} (hthread : s.thread = .acting due true) (hmem : guard ∈ due) :
    Acts s guard := by
  induction due generalizing s with
  | nil => cases hmem
  | cons first due ih =>
      have hstep : step s .terminate = some { s with thread := .next due } := by
        rw [step, hthread]
      by_cases heq : guard = first
      · subst heq
        refine ⟨[.terminate], _, runFrom_cons_eq_some.mpr ⟨_, hstep, rfl⟩,
          (meets_cons hstep).mpr ⟨trivial, trivial⟩, ?_⟩
        rw [logFrom_cons hstep, observe, hthread]
        exact mem_cons_self
      · have hmem : guard ∈ due := (mem_cons.mp hmem).resolve_left heq
        obtain ⟨second, rest, rfl⟩ := exists_cons_of_ne_nil (ne_nil_of_mem hmem)
        exact .cons hstep trivial rfl (.cons (a := .flag) rfl trivial rfl (ih rfl hmem))

theorem of_taken {due : List Nat} {flagged : Bool} (hthread : s.thread = .acting due flagged)
    (hmem : guard ∈ due) : Acts s guard := by
  cases flagged with
  | true => exact of_flagged hthread hmem
  | false =>
      obtain ⟨first, rest, rfl⟩ := exists_cons_of_ne_nil (ne_nil_of_mem hmem)
      have hstep : step s .flag = some { s with thread := .acting (first :: rest) true } := by
        rw [step, hthread]
      exact .cons hstep trivial rfl (of_flagged rfl hmem)

/-- A thread that comes to the mutex takes what is due. -/
theorem of_locked {key : Key} (hthread : s.thread = .locked) (hkey : key ∈ s.deadlines.keys)
    (hle : key.1 ≤ s.clock) : Acts s key.2 := by
  have hdue : key ∈ s.deadlines.due s.clock := mem_filter.mpr ⟨hkey, decide_eq_true hle⟩
  have hstep : step s .look = some { s with
      deadlines := s.deadlines.later s.clock
      thread := .acting ((s.deadlines.due s.clock).map Prod.snd) false } := by
    simp only [step, hthread]
    split
    · next hnil =>
        rw [hnil] at hdue
        cases hdue
    · rfl
  exact .cons hstep trivial rfl (of_taken rfl (mem_map_of_mem hdue))

theorem of_locking {key : Key} (hthread : s.thread = .locking) (hkey : key ∈ s.deadlines.keys)
    (hle : key.1 ≤ s.clock) : Acts s key.2 := by
  have hstep : step s .lock = some { s with thread := .locked } := by rw [step, hthread]
  exact .cons hstep trivial rfl (of_locked rfl hkey hle)

/-- A thread that acts on other entries comes to the mutex after them. -/
theorem of_acting {key : Key} {due : List Nat} (hthread : s.thread = .acting due true)
    (hkey : key ∈ s.deadlines.keys) (hle : key.1 ≤ s.clock) (hdue : due ≠ []) : Acts s key.2 := by
  induction due generalizing s with
  | nil => exact absurd rfl hdue
  | cons first due ih =>
      have hstep : step s .terminate = some { s with thread := .next due } := by
        rw [step, hthread]
      cases due with
      | nil => exact .cons hstep trivial rfl (of_locking rfl hkey hle)
      | cons second rest =>
          refine .cons hstep trivial rfl (.cons (a := .flag) rfl trivial rfl ?_)
          exact ih rfl hkey hle (by rintro ⟨⟩)

/-- The watchdog acts on what is in the map once its deadline is over, and what it has slept too
long. -/
theorem of_mem_keys (h : Inv s log) {key : Key} (hkey : key ∈ s.deadlines.keys)
    (hle : key.1 + s.thread.drift s.clock ≤ s.clock) : Acts s key.2 := by
  have hawake := h.awake
  have hdue : key.1 ≤ s.clock := Nat.le_trans (Nat.le_add_right _ _) hle
  cases hthread : s.thread with
  | locking => exact of_locking hthread hkey hdue
  | locked => exact of_locked hthread hkey hdue
  | looked now =>
      -- Nothing was due at `now`, so the deadline and the time since then are not over.
      rw [hthread] at hawake hle
      obtain ⟨hnow, hall⟩ := hawake
      have hlt := hall key hkey
      simp only [Thread.drift] at hle
      omega
  | waiting lookedAt started wakeUp notified =>
      rw [hthread] at hawake hle
      have hstep : step s .wake = some { s with thread := .locking } := by rw [step, hthread]
      refine .cons hstep ?_ rfl (of_locking rfl hkey hdue)
      rw [Watchful, hthread]
      refine hawake.imp_right fun hall => ?_
      obtain ⟨time, hwakeUp, htime⟩ := hall key hkey
      exact ⟨time, hwakeUp, Nat.le_trans htime hle⟩
  | acting due flagged =>
      rw [hthread] at hawake
      cases flagged with
      | true => exact of_acting hthread hkey hdue hawake
      | false =>
          obtain ⟨first, rest, rfl⟩ := exists_cons_of_ne_nil hawake
          have hstep : step s .flag = some { s with thread := .acting (first :: rest) true } := by
            rw [step, hthread]
          exact .cons hstep trivial rfl (of_acting rfl hkey hdue hawake)

end Acts

/-- Entries are acted on at most once. -/
theorem Inv.acted_once (h : Inv s log) (guard : Nat) :
    (log.filterMap Seen.flags).count guard ≤ 1 ∧ (log.filterMap Seen.cuts).count guard ≤ 1 := by
  have hplace := h.place guard
  have hflags := h.flags guard
  have hle : (if s.inserted guard then 1 else 0) ≤ 1 := by split <;> decide
  have hcuts : (log.filterMap Seen.cuts).count guard ≤ (log.filterMap Seen.gone).count guard := by
    rw [count_filterMap, count_filterMap]
    refine countP_mono_left fun x _ hx => ?_
    cases x with
    | cut other time => exact hx
    | flagged other time => cases hx
    | withdrawn other => cases hx
  have hhalf : s.thread.halfDone.count guard ≤ s.thread.taken.count guard := by
    cases s.thread with
    | acting due flagged =>
        cases due with
        | nil => cases flagged <;> exact Nat.le_refl _
        | cons first due =>
            cases flagged with
            | false => exact Nat.zero_le _
            | true => exact (singleton_sublist.mpr mem_cons_self).count_le guard
    | locking => exact Nat.le_refl _
    | locked => exact Nat.le_refl _
    | looked now => exact Nat.le_refl _
    | waiting lookedAt started wakeUp notified => exact Nat.le_refl _
  omega

/-- In every run: the watchdog sets the flag of a guard and terminates its request at most once,
and not before its deadline; every entry is in the map, taken by the watchdog or gone, and only
one of them; while the watchdog waits, it wakes up at the earliest deadline of the map or later
by no more than what passed between its look at the clock and its wait, or is notified.  So the
entry of a guard that lives has been acted on, or its next steps act on it, once its deadline
and that time are over. -/
theorem watchdog_misses_no_deadline {as : List Action} {t : State}
    (hrun : machine.run as = some t) :
    let log := machine.log observe as
    (∀ guard, (log.filterMap Seen.flags).count guard ≤ 1 ∧
        (log.filterMap Seen.cuts).count guard ≤ 1) ∧
      (∀ guard time, .flagged guard time ∈ log ∨ .cut guard time ∈ log →
        ∃ deadline ≤ time, t.DueAt guard deadline) ∧
      (∀ guard, t.inserted guard = true →
        (t.deadlines.keys.map Prod.snd).count guard + t.thread.taken.count guard +
          (log.filterMap Seen.gone).count guard = 1) ∧
      (∀ guard, .withdrawn guard ∈ log → ∃ g, t.guards[guard]? = some g ∧ g.state = .dropped) ∧
      (∀ lookedAt started wakeUp notified,
        t.thread = .waiting lookedAt started wakeUp notified →
          notified = true ∨ ∀ key ∈ t.deadlines.keys,
            ∃ time, wakeUp = some time ∧ time ≤ key.1 + (started - lookedAt)) ∧
      ∀ (guard : Nat) (g : TimeoutGuard), t.guards[guard]? = some g → g.state = .live →
        g.deadline + t.thread.drift t.clock ≤ t.clock →
          (∃ time, .cut guard time ∈ log) ∨ Acts t guard := by
  have h := invariant_log inv_init inv_step hrun
  have hplace : ∀ guard, t.inserted guard = true → _ := fun guard hinserted =>
    (h.place guard).trans (if_pos hinserted)
  refine ⟨h.acted_once, h.seen, hplace, h.withdrawn,
    fun lookedAt started wakeUp notified hthread => ?_,
    fun guard g hg hlive hle => ?_⟩
  · have hawake := h.awake
    rw [hthread] at hawake
    exact hawake
  · have hinserted : t.inserted guard = true := by
      rw [State.inserted, hg]
      simp [hlive]
    have hone := hplace guard hinserted
    -- The entry is in one of the three places.
    by_cases hmap : guard ∈ t.deadlines.keys.map Prod.snd
    · obtain ⟨key, hkey, rfl⟩ := mem_map.mp hmap
      obtain ⟨x, hx, hdeadline, -⟩ := h.entry key hkey
      cases hg.symm.trans hx
      exact .inr (.of_mem_keys h hkey (hdeadline ▸ hle))
    · by_cases htaken : guard ∈ t.thread.taken
      · cases hthread : t.thread with
        | acting due flagged =>
            rw [hthread] at htaken
            exact .inr (.of_taken hthread htaken)
        | locking | locked | looked | waiting =>
            rw [hthread] at htaken
            cases htaken
      · rw [count_eq_zero.mpr hmap, count_eq_zero.mpr htaken, Nat.zero_add] at hone
        have hgone : guard ∈ (machine.log observe as).filterMap Seen.gone :=
          count_pos_iff.mp (by omega)
        obtain ⟨x, hmem, hx⟩ := mem_filterMap.mp hgone
        cases x with
        | cut other time =>
            cases hx
            exact .inl ⟨time, hmem⟩
        | withdrawn other =>
            cases hx
            obtain ⟨y, hy, hdropped⟩ := h.withdrawn guard hmem
            cases hg.symm.trans hy
            rw [hlive] at hdropped
            cases hdropped
        | flagged other time => cases hx

/-- The watchdog sleeps for a guard of 5 ms when one of 2 ms is made. -/
def shorter : List Action :=
  [.make 5, .insert 0, .lock, .look, .sleep, .make 2, .insert 1, .wake, .lock, .look, .sleep,
    .tick 2000000]

theorem watchdog_misses_no_deadline_shorter :
    ∃ t, machine.run shorter = some t ∧ t.thread = .waiting 0 0 (some 2000000) false ∧
      t.deadlines.keys = [(2000000, 1), (5000000, 0)] ∧ t.clock = 2000000 ∧ Acts t 1 := by
  have hrun : machine.run shorter = some _ := rfl
  have hacts := (watchdog_misses_no_deadline hrun).2.2.2.2.2 1 ⟨2000000, .live⟩ rfl rfl (by decide)
  refine ⟨_, hrun, by decide +kernel, by decide +kernel, by decide +kernel, hacts.resolve_left ?_⟩
  rintro ⟨time, hmem⟩
  cases hmem

/-- Time passes between the look at the clock and the wait: the deadline is there, and the
watchdog sleeps on, with no notification pending. -/
theorem watchdog_oversleeps :
    ∃ t, machine.run [.make 5, .insert 0, .lock, .look, .tick 1, .sleep, .tick 4999999] = some t ∧
      t.guards = [⟨5000000, .live⟩] ∧ t.deadlines.keys = [(5000000, 0)] ∧ t.clock = 5000000 ∧
      t.thread = .waiting 0 1 (some 5000001) false ∧ ¬ Watchful t .wake := by
  refine ⟨_, rfl, rfl, rfl, rfl, rfl, ?_⟩
  rintro (⟨⟨⟩⟩ | ⟨time, hwakeUp, hle⟩)
  cases hwakeUp
  have hle : 5000001 ≤ 5000000 := hle
  omega

end OpenWorkers.Security.Watch
