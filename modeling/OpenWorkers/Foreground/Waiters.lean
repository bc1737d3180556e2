import OpenWorkers.Foreground.Tasks
import OpenWorkers.Lib.Erase
import OpenWorkers.Lib.Machine
import Mathlib.Data.List.Nodup

/-!
# The waiters of an isolate

`Waiter` of `src/platform.rs`, any number of them on one `ForegroundTasks`.  Registration looks
for the waker in the list of all waiters, while each waiter remembers the last waker of its own;
its drop takes that one out of the list, whoever else it stands for.

`Tidy` is what the list is for.  It is kept exactly by the steps that are `Alone`: a waiter that
registers another waker leaves none behind that is its own only, and a waiter that goes takes no
waker away that another one needs.
-/

universe u

namespace OpenWorkers.Foreground.Waiters

open List Option

variable {τ : Type u}

structure Waiter where
  live : Bool
  waker : Option Waker
  /-- It has registered since the last task without a delay.  The code does not keep this. -/
  fresh : Bool
deriving DecidableEq, Repr

namespace Waiter

def new : Waiter := ⟨true, none, false⟩

/-- `register`, apart from the list. -/
def register (x : Waiter) (waker : Waker) : Waiter :=
  { x with waker := if x.waker = some waker then x.waker else some waker, fresh := true }

@[simp] theorem register_live (x : Waiter) (waker : Waker) :
    (x.register waker).live = x.live := rfl

@[simp] theorem register_waker (x : Waiter) (waker : Waker) :
    (x.register waker).waker = some waker := by
  unfold register
  split
  · assumption
  · rfl

end Waiter

structure State (τ : Type u) where
  tasks : ForegroundTasks τ
  waiters : List Waiter

inductive Op (τ : Type u) where
  /-- `waiter`: an event loop begins. -/
  | waiter
  | register (i : Nat) (waker : Waker)
  | post (now : Nat) (task : τ) (delay : Option Int)
  /-- A task is run. -/
  | next (now : Nat)
  /-- The event loop ends. -/
  | drop (i : Nat)

def step (s : State τ) : Op τ → Option (State τ)
  | .waiter => some { s with waiters := s.waiters ++ [.new] }
  | .register i waker =>
    (s.waiters[i]?).bind fun x =>
      if x.live then some ⟨s.tasks.register waker, s.waiters.modify i (·.register waker)⟩ else none
  | .post now task delay =>
    some
      { tasks := s.tasks.post now task delay
        waiters := match delay with
          | none => s.waiters.map fun x => { x with fresh := false }
          | some _ => s.waiters }
  | .next now => (s.tasks.next now).map fun next => { s with tasks := next.2 }
  | .drop i =>
    (s.waiters[i]?).bind fun x =>
      if x.live then
        some ⟨s.tasks.dropWaiter x.waker, s.waiters.modify i ({ · with live := false })⟩
      else
        none

/-- The steps, one constructor for each way a step can go. -/
inductive Step (s : State τ) : Op τ → State τ → Prop where
  | waiter : Step s .waiter { s with waiters := s.waiters ++ [.new] }
  | register {i : Nat} {waker : Waker} {x : Waiter} (hx : s.waiters[i]? = some x)
      (hlive : x.live = true) : Step s (.register i waker)
      ⟨s.tasks.register waker, s.waiters.modify i (·.register waker)⟩
  | postReady {now : Nat} {task : τ} : Step s (.post now task none)
      ⟨s.tasks.post now task none, s.waiters.map fun x => { x with fresh := false }⟩
  | postDelayed {now : Nat} {task : τ} {delay : Int} : Step s (.post now task (some delay))
      ⟨s.tasks.post now task (some delay), s.waiters⟩
  | next {now : Nat} {task : τ} {tasks : ForegroundTasks τ}
      (hnext : s.tasks.next now = some (task, tasks)) : Step s (.next now) { s with tasks }
  | drop {i : Nat} {x : Waiter} (hx : s.waiters[i]? = some x) (hlive : x.live = true) :
      Step s (.drop i) ⟨s.tasks.dropWaiter x.waker, s.waiters.modify i ({ · with live := false })⟩

theorem of_step {s s' : State τ} {a : Op τ} (h : step s a = some s') : Step s a s' := by
  cases a with
  | waiter =>
      cases h
      exact .waiter
  | register i waker =>
      obtain ⟨x, hx, h⟩ := bind_eq_some_iff.mp h
      obtain ⟨hlive, ⟨⟩⟩ := ite_none_right_eq_some.mp h
      exact .register hx hlive
  | post now task delay =>
      cases h
      cases delay with
      | none => exact .postReady
      | some delay => exact .postDelayed
  | next now =>
      obtain ⟨⟨task, tasks⟩, hnext, rfl⟩ := map_eq_some_iff.mp h
      exact .next hnext
  | drop i =>
      obtain ⟨x, hx, h⟩ := bind_eq_some_iff.mp h
      obtain ⟨hlive, ⟨⟩⟩ := ite_none_right_eq_some.mp h
      exact .drop hx hlive

def machine : Machine (State τ) (Op τ) where
  init := ⟨.new, []⟩
  step := step

/-! ## What the list is for -/

namespace State

variable (s : State τ)

/-- A waiter that waits for a task has its waker in the list. -/
def Listed : Prop :=
  ∀ x ∈ s.waiters, x.live = true → x.fresh = true →
    ∃ waker ∈ s.tasks.queue.wakers, x.waker = some waker

/-- A waker of the list is the last one of a waiter. -/
def Latest : Prop :=
  ∀ waker ∈ s.tasks.queue.wakers, ∃ x ∈ s.waiters, x.live = true ∧ x.waker = some waker

end State

structure Tidy (s : State τ) : Prop where
  listed : s.Listed
  /-- The next task without a delay wakes every waiter that has registered. -/
  woken : ∀ x ∈ s.waiters, x.live = true → x.fresh = true →
    ∃ waker, x.waker = some waker ∧ ∀ now task, waker ∈ (s.tasks.post now task none).woken
  latest : s.Latest
  bounded : s.tasks.queue.wakers.length ≤ (s.waiters.filter Waiter.live).length

variable {s s' : State τ} {a : Op τ}

/-- A list without repetitions whose wakers are those of waiters is no longer than theirs. -/
theorem tidy_iff (hnodup : s.tasks.queue.wakers.Nodup) : Tidy s ↔ s.Listed ∧ s.Latest := by
  refine ⟨fun h => ⟨h.listed, h.latest⟩, fun ⟨hlisted, hlatest⟩ => ⟨hlisted, ?_, hlatest, ?_⟩⟩
  · intro x hx hlive hfresh
    obtain ⟨waker, hmem, hwaker⟩ := hlisted x hx hlive hfresh
    exact ⟨waker, hwaker, fun now task => mem_append_right _ hmem⟩
  · have hsub : s.tasks.queue.wakers ⊆ (s.waiters.filter Waiter.live).filterMap Waiter.waker := by
      intro waker hmem
      obtain ⟨x, hx, hlive, hwaker⟩ := hlatest waker hmem
      exact mem_filterMap.mpr ⟨x, mem_filter.mpr ⟨hx, hlive⟩, hwaker⟩
    exact (hnodup.subperm hsub).length_le.trans (length_filterMap_le _ _)

/-- Nobody is in the list twice. -/
theorem nodup_step (s : State τ) (a : Op τ) (s' : State τ) (h : s.tasks.queue.wakers.Nodup)
    (hstep : step s a = some s') : s'.tasks.queue.wakers.Nodup := by
  cases of_step hstep with
  | waiter => exact h
  | @register i waker x hx hlive =>
      show (s.tasks.register waker).queue.wakers.Nodup
      unfold ForegroundTasks.register
      split
      · exact h
      · next hnot => exact h.append (nodup_singleton waker) (disjoint_singleton.mpr hnot)
  | postReady => exact nodup_nil
  | postDelayed => exact h
  | next hnext =>
      rw [(ForegroundTasks.of_next hnext).2.1]
      exact h
  | drop hx hlive => exact h.filter _

/-! ## One step -/

/-- A waiter that registers another waker shares its last one, or that one is not in the list any
more; and a waiter that goes shares its waker with none that waits for a task. -/
def Alone (s : State τ) : Op τ → Prop
  | .register i waker => ∀ old ∈ s.tasks.queue.wakers,
      s.waiters[i]?.bind Waiter.waker = some old → old ≠ waker →
        ∃ x ∈ s.waiters.eraseIdx i, x.live = true ∧ x.waker = some old
  | .drop i => ∀ x ∈ s.waiters.eraseIdx i, x.live = true → x.fresh = true →
      x.waker ≠ s.waiters[i]?.bind Waiter.waker
  | .waiter | .post _ _ _ | .next _ => True

instance (s : State τ) (a : Op τ) : Decidable (Alone s a) := by
  cases a <;> dsimp only [Alone] <;> infer_instance

section Register

variable {i : Nat} {waker : Waker} {x : Waiter}

theorem mem_register {old : Waker} :
    old ∈ (s.tasks.register waker).queue.wakers ↔ old ∈ s.tasks.queue.wakers ∨ old = waker := by
  unfold ForegroundTasks.register
  split
  · next hin =>
    refine (or_iff_left_of_imp ?_).symm
    rintro rfl
    exact hin
  · exact mem_append.trans (or_congr_right mem_singleton)

theorem listed_register (h : s.Listed) (hx : s.waiters[i]? = some x) :
    State.Listed ⟨s.tasks.register waker, s.waiters.modify i (·.register waker)⟩ := by
  intro y hy hlive hfresh
  rcases (mem_modify_iff hx).mp hy with rfl | hy
  · exact ⟨waker, ForegroundTasks.mem_register_wakers, x.register_waker waker⟩
  · obtain ⟨old, hmem, hold⟩ := h y ((mem_iff_mem_eraseIdx hx).mpr (.inr hy)) hlive hfresh
    exact ⟨old, mem_register.mpr (.inl hmem), hold⟩

theorem latest_register_iff (h : s.Latest) (hx : s.waiters[i]? = some x) (hlive : x.live = true) :
    State.Latest ⟨s.tasks.register waker, s.waiters.modify i (·.register waker)⟩ ↔
      Alone s (.register i waker) := by
  constructor
  · intro hlatest old hmem hold hne
    obtain ⟨y, hy, hylive, hyold⟩ := hlatest old (mem_register.mpr (.inl hmem))
    rcases (mem_modify_iff hx).mp hy with rfl | hy
    · rw [Waiter.register_waker] at hyold
      exact absurd (Option.some.inj hyold).symm hne
    · exact ⟨y, hy, hylive, hyold⟩
  · intro halone old hmem
    by_cases heq : old = waker
    · subst heq
      refine ⟨x.register old, (mem_modify_iff hx).mpr (.inl rfl), hlive, ?_⟩
      exact x.register_waker old
    · have hin := (mem_register.mp hmem).resolve_right heq
      have hothers : ∃ y ∈ s.waiters.eraseIdx i, y.live = true ∧ y.waker = some old := by
        obtain ⟨y, hy, hylive, hyold⟩ := h old hin
        rcases (mem_iff_mem_eraseIdx hx).mp hy with rfl | hy
        · exact halone old hin (by rw [hx]; exact hyold) heq
        · exact ⟨y, hy, hylive, hyold⟩
      obtain ⟨y, hy, hyold⟩ := hothers
      exact ⟨y, (mem_modify_iff hx).mpr (.inr hy), hyold⟩

end Register

section Drop

variable {i : Nat} {x : Waiter}

theorem mem_dropWaiter {mine : Option Waker} {waker : Waker} :
    waker ∈ (s.tasks.dropWaiter mine).queue.wakers ↔
      waker ∈ s.tasks.queue.wakers ∧ mine ≠ some waker := by
  show waker ∈ s.tasks.queue.wakers.filter _ ↔ _
  rw [mem_filter, decide_eq_true_iff]

theorem listed_drop_iff (h : s.Listed) (hx : s.waiters[i]? = some x) :
    State.Listed ⟨s.tasks.dropWaiter x.waker, s.waiters.modify i ({ · with live := false })⟩ ↔
      Alone s (.drop i) := by
  have hmine : s.waiters[i]?.bind Waiter.waker = x.waker := by
    rw [hx]
    rfl
  constructor
  · intro hlisted y hy hlive hfresh heq
    obtain ⟨waker, hmem, hwaker⟩ :=
      hlisted y ((mem_modify_iff hx).mpr (.inr hy)) hlive hfresh
    exact (mem_dropWaiter.mp hmem).2 (by rw [← hmine, ← heq, hwaker])
  · intro halone y hy hlive hfresh
    rcases (mem_modify_iff hx).mp hy with rfl | hy
    · cases hlive
    · obtain ⟨waker, hmem, hwaker⟩ := h y ((mem_iff_mem_eraseIdx hx).mpr (.inr hy)) hlive hfresh
      refine ⟨waker, mem_dropWaiter.mpr ⟨hmem, fun heq => ?_⟩, hwaker⟩
      exact halone y hy hlive hfresh (by rw [hmine, heq, hwaker])

theorem latest_drop (h : s.Latest) (hx : s.waiters[i]? = some x) :
    State.Latest ⟨s.tasks.dropWaiter x.waker, s.waiters.modify i ({ · with live := false })⟩ := by
  intro waker hmem
  obtain ⟨hmem, hne⟩ := mem_dropWaiter.mp hmem
  obtain ⟨y, hy, hylive, hywaker⟩ := h waker hmem
  rcases (mem_iff_mem_eraseIdx hx).mp hy with rfl | hy
  · exact absurd hywaker hne
  · exact ⟨y, (mem_modify_iff hx).mpr (.inr hy), hylive, hywaker⟩

end Drop

theorem tidy_step (s : State τ) (a : Op τ) (s' : State τ) (hnodup : s.tasks.queue.wakers.Nodup)
    (h : Tidy s) (hstep : step s a = some s') : Tidy s' ↔ Alone s a := by
  rw [tidy_iff (nodup_step s a s' hnodup hstep)]
  cases of_step hstep with
  | waiter =>
      refine iff_of_true ⟨fun x hx hlive hfresh => ?_, fun waker hmem => ?_⟩ trivial
      · rcases mem_append.mp hx with hx | hx
        · exact h.listed x hx hlive hfresh
        · cases mem_singleton.mp hx
          cases hfresh
      · obtain ⟨x, hx, hwaker⟩ := h.latest waker hmem
        exact ⟨x, mem_append_left _ hx, hwaker⟩
  | register hx hlive =>
      rw [and_iff_right (listed_register h.listed hx)]
      exact latest_register_iff h.latest hx hlive
  | postReady =>
      refine iff_of_true ⟨fun x hx _ hfresh => ?_, fun _ hmem => absurd hmem not_mem_nil⟩ trivial
      obtain ⟨y, -, rfl⟩ := List.mem_map.mp hx
      cases hfresh
  | postDelayed => exact iff_of_true ⟨h.listed, h.latest⟩ trivial
  | next hnext =>
      refine iff_of_true ?_ trivial
      rw [State.Listed, State.Latest, (ForegroundTasks.of_next hnext).2.1]
      exact ⟨h.listed, h.latest⟩
  | drop hx hlive =>
      rw [and_iff_left (latest_drop h.latest hx)]
      exact listed_drop_iff h.listed hx

/-! ## Runs -/

/-- A run keeps the list tidy exactly if all its steps are `Alone`. -/
theorem waiters_share_no_waker_iff {as : List (Op τ)} {t : State τ}
    (hrun : machine.run as = some t) :
    machine.Always Tidy machine.init as ↔ machine.Meets Alone machine.init as :=
  Machine.always_iff_meets (m := machine) (I := fun s => s.tasks.queue.wakers.Nodup)
    nodup_nil
    ⟨by rintro _ ⟨⟩, by rintro _ ⟨⟩, by rintro _ ⟨⟩, Nat.le_refl 0⟩ nodup_step tidy_step hrun

/-- Two event loops with a waker each, of which one changes its waker after a task has taken the
old one, and a task that wakes both. -/
theorem waiters_share_no_waker_two :
    ∃ t : State Nat, machine.run [.waiter, .waiter, .register 0 7, .post 0 10 none, .register 0 8,
        .register 1 9, .post 0 11 none, .drop 0] = some t ∧
      t.tasks.woken = [7, 8, 9] ∧
      machine.Always Tidy machine.init [.waiter, .waiter, .register 0 7, .post 0 10 none,
        .register 0 8, .register 1 9, .post 0 11 none, .drop 0] :=
  ⟨_, rfl, rfl, (waiters_share_no_waker_iff rfl).mpr (by decide)⟩

/-- Two event loops share a waker, as two polled by one task do: the one that ends takes the waker
of the other, which no task wakes then.  An event loop that changes its waker leaves the old one in
the list, also after it has ended. -/
theorem waiter_takes_or_leaves_a_waker :
    (∃ t : State Nat, machine.run [.waiter, .waiter, .register 0 7, .register 1 7, .drop 0] =
        some t ∧ ¬ t.Listed ∧
      t.waiters = [⟨false, some 7, true⟩, ⟨true, some 7, true⟩] ∧
      (t.tasks.post 0 10 none).woken = []) ∧
    ∃ t : State Nat, machine.run [.waiter, .register 0 7, .register 0 8, .drop 0] = some t ∧
      ¬ t.Latest ∧ t.tasks.queue.wakers = [7] ∧ t.waiters.filter Waiter.live = [] := by
  refine ⟨⟨_, rfl, fun hlisted => ?_, rfl, rfl⟩, ⟨_, rfl, fun hlatest => ?_, rfl, rfl⟩⟩
  · obtain ⟨waker, hmem, -⟩ :=
      hlisted ⟨true, some 7, true⟩ (mem_cons_of_mem _ mem_cons_self) rfl rfl
    cases hmem
  · obtain ⟨x, hx, hlive, -⟩ := hlatest 7 mem_cons_self
    cases mem_singleton.mp hx
    cases hlive

end OpenWorkers.Foreground.Waiters
