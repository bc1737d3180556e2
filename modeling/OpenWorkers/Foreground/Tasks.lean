import OpenWorkers.Lib.SwapRemove
import Mathlib.Data.List.Infix
import Mathlib.Tactic.Tauto

/-!
# The foreground tasks of an isolate

`ForegroundTasks` of `src/platform.rs`.  V8 posts tasks for an isolate from any thread; the
thread that holds the lock of the isolate runs them.  A task without a delay wakes every
event loop that waits on the isolate, one with a delay wakes nobody.

A `v8::Task` is opaque, so the type of the tasks is a variable.  Two facts carry the results
about polls.  `Owed` says that of the tasks that waited at some moment, in their order, those
that have not been run yet are still at the front of the queue; every operation keeps it, and
a queue that has run empty turns it into "all of them have been run".  `Heard` says that a
waker which was registered is in the list or has been woken.
-/

universe u

namespace OpenWorkers.Foreground

open List Option

variable {α : Type u} {τ : Type u}

/-- A waker; two that wake the same task are equal (`will_wake`). -/
abbrev Waker := Nat

/-- `Queue`. -/
structure Queue (τ : Type u) where
  ready : List τ
  /-- When each delayed task is due. -/
  delayed : List (Nat × τ)
  wakers : List Waker
deriving DecidableEq, Repr

/-- The queue of an isolate, with the wakers that it has woken. -/
structure ForegroundTasks (τ : Type u) where
  queue : Queue τ
  woken : List Waker
deriving DecidableEq, Repr

namespace ForegroundTasks

def new : ForegroundTasks τ := ⟨⟨[], [], []⟩, []⟩

/-- `post`.  A delay may be negative and is then none at all. -/
def post (f : ForegroundTasks τ) (now : Nat) (task : τ) : Option Int → ForegroundTasks τ
  | none =>
    { queue := { f.queue with ready := f.queue.ready ++ [task], wakers := [] }
      woken := f.woken ++ f.queue.wakers }
  | some delay =>
    { f with queue := { f.queue with delayed := f.queue.delayed ++ [(now + delay.toNat, task)] } }

/-- `Waiter::register`. -/
def register (f : ForegroundTasks τ) (waker : Waker) : ForegroundTasks τ :=
  if waker ∈ f.queue.wakers then f
  else { f with queue := { f.queue with wakers := f.queue.wakers ++ [waker] } }

/-- An event loop is polled: what woke it is over, and it registers again. -/
def poll (f : ForegroundTasks τ) (waker : Waker) : ForegroundTasks τ :=
  { f with woken := f.woken.filter (· ≠ waker) }.register waker

/-- `Drop for Waiter`, with the waker it registered last. -/
def dropWaiter (f : ForegroundTasks τ) (mine : Option Waker) : ForegroundTasks τ :=
  { f with
    queue := { f.queue with wakers := f.queue.wakers.filter fun waker => mine ≠ some waker } }

/-- `next`: the task to run, and what is left. -/
def next (f : ForegroundTasks τ) (now : Nat) : Option (τ × ForegroundTasks τ) :=
  match f.queue.ready with
  | task :: ready => some (task, { f with queue := { f.queue with ready } })
  | [] =>
    (f.queue.delayed.findIdx? fun entry => decide (entry.1 ≤ now)).bind fun due =>
      f.queue.delayed[due]?.map fun entry =>
        (entry.2, { f with queue := { f.queue with delayed := swapRemove f.queue.delayed due } })

/-! ## What the operations do -/

section Operations

variable {f f' : ForegroundTasks τ} {now : Nat} {task : τ} {waker : Waker}

@[simp] theorem register_ready : (f.register waker).queue.ready = f.queue.ready := by
  unfold register
  split <;> rfl

@[simp] theorem poll_ready : (f.poll waker).queue.ready = f.queue.ready := register_ready

theorem mem_register_wakers : waker ∈ (f.register waker).queue.wakers := by
  unfold register
  split
  · assumption
  · exact mem_append_right _ mem_cons_self

/-- A task that waits without a delay is the next one; otherwise the next one is delayed. -/
theorem of_next (h : f.next now = some (task, f')) :
    (f.queue.ready = task :: f'.queue.ready ∨ f.queue.ready = [] ∧ f'.queue.ready = []) ∧
      f'.queue.wakers = f.queue.wakers ∧ f'.woken = f.woken := by
  unfold next at h
  split at h
  · next task' ready hready =>
      cases h
      exact ⟨.inl hready, rfl, rfl⟩
  · next hready =>
      obtain ⟨due, -, h⟩ := bind_eq_some_iff.mp h
      obtain ⟨entry, -, h⟩ := map_eq_some_iff.mp h
      cases h
      exact ⟨.inr ⟨hready, hready⟩, rfl, rfl⟩

/-- `run` ends when no task is due. -/
theorem ready_of_next (h : f.next now = none) : f.queue.ready = [] := by
  unfold next at h
  split at h
  · cases h
  · assumption

end Operations

/-! ## Tasks that wait -/

/-- The tasks that wait, delayed or not. -/
def queued (f : ForegroundTasks τ) : List τ := f.queue.ready ++ f.queue.delayed.map Prod.snd

section Queued

variable {f f' : ForegroundTasks τ} {now : Nat} {task other : τ} {waker : Waker}

theorem queued_poll : (f.poll waker).queued = f.queued := by
  unfold poll register queued
  split <;> rfl

theorem mem_queued_of_post {delay : Option Int} (h : other ∈ (f.post now task delay).queued) :
    other ∈ f.queued ∨ other = task := by
  cases delay with
  | none =>
      simp only [post, queued, mem_append, mem_singleton] at h ⊢
      tauto
  | some delay =>
      simp only [post, queued, map_append, mem_append, map_cons, map_nil,
        mem_singleton] at h ⊢
      tauto

/-- What is run had waited, and what still waits had waited too. -/
theorem queued_of_next (h : f.next now = some (task, f')) :
    task ∈ f.queued ∧ ∀ other ∈ f'.queued, other ∈ f.queued := by
  unfold next at h
  split at h
  · next task' ready hready =>
      cases h
      rw [queued, hready]
      refine ⟨mem_append_left _ mem_cons_self, fun other hmem => ?_⟩
      rcases mem_append.mp hmem with hmem | hmem
      · exact mem_append_left _ (mem_cons_of_mem _ hmem)
      · exact mem_append_right _ hmem
  · obtain ⟨due, -, h⟩ := bind_eq_some_iff.mp h
    obtain ⟨entry, hentry, h⟩ := map_eq_some_iff.mp h
    cases h
    refine ⟨mem_append_right _ ?_, fun other hmem => ?_⟩
    · exact List.mem_map_of_mem (mem_of_getElem? hentry)
    · rcases mem_append.mp hmem with hmem | hmem
      · exact mem_append_left _ hmem
      · obtain ⟨entry', hentry', rfl⟩ := List.mem_map.mp hmem
        exact mem_append_right _ (List.mem_map_of_mem (mem_of_mem_swapRemove hentry'))

end Queued

/-! ## Tasks that are owed -/

/-- The tasks `owed`, in their order, have been run, or are at the front of the queue. -/
def Owed (owed ran : List τ) (f : ForegroundTasks τ) : Prop := owed <+: ran ++ f.queue.ready

namespace Owed

variable {f f' : ForegroundTasks τ} {owed ran : List τ} {now : Nat} {task : τ} {waker : Waker}

/-- What waits is owed. -/
theorem refl (f : ForegroundTasks τ) : Owed f.queue.ready [] f := prefix_rfl

theorem congr (h : Owed owed ran f) (hready : f'.queue.ready = f.queue.ready) :
    Owed owed ran f' := by
  rw [Owed, hready]
  exact h

theorem post (h : Owed owed ran f) (task : τ) (delay : Option Int) :
    Owed owed ran (f.post now task delay) := by
  cases delay with
  | none =>
      show owed <+: ran ++ (f.queue.ready ++ [task])
      rw [← append_assoc]
      exact h.trans (prefix_append _ _)
  | some delay => exact h

theorem run (h : Owed owed ran f) (hnext : f.next now = some (task, f')) :
    Owed owed (ran ++ [task]) f' := by
  rcases (of_next hnext).1 with hready | ⟨hready, hready'⟩
  · rw [Owed, hready] at h
    rw [Owed, append_assoc]
    exact h
  · rw [Owed, hready, append_nil] at h
    rw [Owed, hready', append_nil]
    exact h.trans (prefix_append _ _)

/-- Once the queue has run empty, what was owed has been run. -/
theorem done (h : Owed owed ran f) (hnext : f.next now = none) : owed <+: ran := by
  rw [Owed, ready_of_next hnext, append_nil] at h
  exact h

end Owed

/-! ## Wakers that are heard -/

/-- The next task without a delay wakes `waker`, or one has woken it. -/
def Heard (waker : Waker) (f : ForegroundTasks τ) : Prop :=
  waker ∈ f.queue.wakers ∨ waker ∈ f.woken

namespace Heard

variable {f f' : ForegroundTasks τ} {now : Nat} {task : τ} {waker other : Waker}

theorem of_poll (f : ForegroundTasks τ) (waker : Waker) : Heard waker (f.poll waker) :=
  .inl mem_register_wakers

theorem post (h : Heard waker f) (task : τ) (delay : Option Int) :
    Heard waker (f.post now task delay) := by
  cases delay with
  | none =>
      right
      rcases h with h | h
      · exact mem_append_right _ h
      · exact mem_append_left _ h
  | some delay => exact h

theorem run (h : Heard waker f) (hnext : f.next now = some (task, f')) : Heard waker f' := by
  obtain ⟨-, hwakers, hwoken⟩ := of_next hnext
  rw [Heard, hwakers, hwoken]
  exact h

/-- A waker that is heard and has not been woken is woken by the next task without a delay. -/
theorem woken_of_post (h : Heard waker f) (task : τ) :
    waker ∈ (f.post now task none).woken := by
  rcases h with h | h
  · exact mem_append_right _ h
  · exact mem_append_left _ h

end Heard

end ForegroundTasks

end OpenWorkers.Foreground
