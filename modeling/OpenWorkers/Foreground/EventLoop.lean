import OpenWorkers.Foreground.Tasks
import OpenWorkers.Lib.Log

/-!
# The polls of the event loop of a worker event

`await_event_loop` and `drain_and_process` of `src/execution_context.rs`.

A poll registers its waker for the foreground tasks, looks at the deadline of the event and
asks for its turn.  If it gets the turn and no guard has stopped the event, it makes up to
`MAX_COALESCE_ROUNDS` rounds: it takes every callback that has arrived and runs them, runs the
foreground tasks, performs a microtask checkpoint and looks at the exit condition.

The machine makes the calls of a poll its steps, so that V8 may post tasks and callbacks may
arrive between any two of them.  What the poll asks others for (whether the deadline is over,
whether the fair queue lets it in, whether a guard has fired, whether the exit condition
holds) is part of the action.
-/

universe u

namespace OpenWorkers.Foreground.EventLoop

open List Option Machine

variable {τ : Type u}

def maxCoalesceRounds : Nat := 4

/-- How a poll returned. -/
inductive Polled where
  /-- The deadline of the event is over. -/
  | expired
  /-- Another request has the turn. -/
  | notLocked
  /-- A guard has stopped the event, before the rounds or in them. -/
  | terminated
  /-- The channel of the callbacks was found closed in this round. -/
  | closed (round : Nat)
  | exit
  | pending
deriving DecidableEq, Repr

inductive Phase where
  /-- Between two polls, or after the last one. -/
  | idle (last : Option Polled)
  /-- A round takes the callbacks that have arrived. -/
  | draining (round : Nat)
  /-- A round runs the callbacks it took, `count` in all. -/
  | processing (round count : Nat)
  /-- In `ForegroundTasks::run`. -/
  | pumping (round count : Nat)
  /-- After the microtask checkpoint. -/
  | checking (round count : Nat)
  /-- After the rounds; the turn has ended. -/
  | settling
deriving DecidableEq, Repr

/-- The loop is over. -/
def Polled.ends : Polled → Bool
  | .expired | .terminated | .closed _ | .exit => true
  | .notLocked | .pending => false

/-- The loop may go on. -/
def Phase.lives : Phase → Bool
  | .idle (some polled) => !polled.ends
  | .idle none | .draining _ | .processing _ _ | .pumping _ _ | .checking _ _ | .settling => true

structure State (τ : Type u) where
  now : Nat
  tasks : ForegroundTasks τ
  /-- The waker that the `Waiter` of the loop registered last. -/
  waiter : Option Waker
  /-- How many callbacks wait in the channel. -/
  arrived : Nat
  channelOpen : Bool
  /-- `pending_callbacks`. -/
  pending : Nat
  phase : Phase
deriving DecidableEq, Repr

inductive Action (τ : Type u) where
  | tick (time : Nat)
  /-- V8 posts a task, from any thread. -/
  | post (task : τ) (delay : Option Int)
  | arrive
  | closeChannel
  | poll (waker : Waker) (expired locked terminated : Bool)
  | drain
  | process
  | endProcess
  | runTask
  | endPump
  | check (exit : Bool)
  | settle (terminated : Bool)
  /-- The loop is over, and its `Waiter` drops. -/
  | finish
deriving DecidableEq, Repr

/-- The beginning of a poll. -/
def State.poll (s : State τ) (waker : Waker) (expired locked terminated : Bool) : State τ :=
  { s with
    tasks := s.tasks.poll waker
    waiter := some waker
    phase :=
      if expired then .idle (some .expired)
      else if !locked then .idle (some .notLocked)
      else if terminated then .idle (some .terminated)
      else .draining 0 }

/-- The first loop of `drain_and_process`. -/
def State.drain (s : State τ) (round : Nat) : State τ :=
  let pending := s.pending + s.arrived
  { s with
    pending
    arrived := 0
    phase :=
      if s.channelOpen then .processing round pending else .idle (some (.closed round)) }

/-- The end of a round. -/
def State.check (s : State τ) (round count : Nat) (exit : Bool) : State τ :=
  { s with
    phase :=
      if exit then .idle (some .exit)
      else if count = 0 ∨ round + 1 = maxCoalesceRounds then .settling
      else .draining (round + 1) }

def step (s : State τ) : Action τ → Option (State τ)
  | .tick time => some { s with now := s.now + time }
  | .post task delay => some { s with tasks := s.tasks.post s.now task delay }
  | .arrive => if s.channelOpen then some { s with arrived := s.arrived + 1 } else none
  | .closeChannel => some { s with channelOpen := false }
  | .poll waker expired locked terminated =>
    match s.phase with
    | .idle last =>
      if (last.map Polled.ends).getD false then none
      else some (s.poll waker expired locked terminated)
    | _ => none
  | .drain =>
    match s.phase with
    | .draining round => some (s.drain round)
    | _ => none
  | .process =>
    match s.phase, s.pending with
    | .processing _ _, pending + 1 => some { s with pending }
    | _, _ => none
  | .endProcess =>
    match s.phase, s.pending with
    | .processing round count, 0 => some { s with phase := .pumping round count }
    | _, _ => none
  | .runTask =>
    match s.phase with
    | .pumping _ _ => (s.tasks.next s.now).map fun next => { s with tasks := next.2 }
    | _ => none
  | .endPump =>
    match s.phase, s.tasks.next s.now with
    | .pumping round count, none => some { s with phase := .checking round count }
    | _, _ => none
  | .check exit =>
    match s.phase with
    | .checking round count => some (s.check round count exit)
    | _ => none
  | .settle terminated =>
    match s.phase with
    | .settling =>
      some { s with phase := .idle (some (if terminated then .terminated else .pending)) }
    | _ => none
  | .finish =>
    if s.phase.lives then none
    else some { s with tasks := s.tasks.dropWaiter s.waiter, waiter := none }

/-- The steps of the event loop, one constructor for each way a step can go. -/
inductive Step (s : State τ) : Action τ → State τ → Prop where
  | tick (time : Nat) : Step s (.tick time) { s with now := s.now + time }
  | post (task : τ) (delay : Option Int) :
      Step s (.post task delay) { s with tasks := s.tasks.post s.now task delay }
  | arrive (hopen : s.channelOpen = true) : Step s .arrive { s with arrived := s.arrived + 1 }
  | closeChannel : Step s .closeChannel { s with channelOpen := false }
  | poll {last : Option Polled} (waker : Waker) (expired locked terminated : Bool)
      (hphase : s.phase = .idle last) (hlive : ¬ (last.map Polled.ends).getD false = true) :
      Step s (.poll waker expired locked terminated) (s.poll waker expired locked terminated)
  | drain {round : Nat} (hphase : s.phase = .draining round) : Step s .drain (s.drain round)
  | process {round count pending : Nat} (hphase : s.phase = .processing round count)
      (hpending : s.pending = pending + 1) : Step s .process { s with pending }
  | endProcess {round count : Nat} (hphase : s.phase = .processing round count)
      (hpending : s.pending = 0) : Step s .endProcess { s with phase := .pumping round count }
  | runTask {round count : Nat} {task : τ} {tasks : ForegroundTasks τ}
      (hphase : s.phase = .pumping round count)
      (hnext : s.tasks.next s.now = some (task, tasks)) : Step s .runTask { s with tasks }
  | endPump {round count : Nat} (hphase : s.phase = .pumping round count)
      (hnext : s.tasks.next s.now = none) :
        Step s .endPump { s with phase := .checking round count }
  | check {round count : Nat} (exit : Bool) (hphase : s.phase = .checking round count) :
      Step s (.check exit) (s.check round count exit)
  | settle (terminated : Bool) (hphase : s.phase = .settling) : Step s (.settle terminated)
      { s with phase := .idle (some (if terminated then .terminated else .pending)) }
  | finish (hdead : ¬ s.phase.lives = true) :
      Step s .finish { s with tasks := s.tasks.dropWaiter s.waiter, waiter := none }

theorem of_step {s s' : State τ} {a : Action τ} (h : step s a = some s') : Step s a s' := by
  cases a with
  | tick time =>
      cases h
      exact .tick time
  | post task delay =>
      cases h
      exact .post task delay
  | arrive =>
      obtain ⟨hopen, ⟨⟩⟩ := ite_none_right_eq_some.mp h
      exact .arrive hopen
  | closeChannel =>
      cases h
      exact .closeChannel
  | poll waker expired locked terminated =>
      simp only [step] at h
      split at h
      · next hphase =>
          obtain ⟨hlive, ⟨⟩⟩ := ite_none_left_eq_some.mp h
          exact .poll waker expired locked terminated hphase hlive
      · cases h
  | drain =>
      simp only [step] at h
      split at h
      · next hphase =>
          cases h
          exact .drain hphase
      · cases h
  | process =>
      simp only [step] at h
      split at h
      · next hphase hpending =>
          cases h
          exact .process hphase hpending
      · cases h
  | endProcess =>
      simp only [step] at h
      split at h
      · next hphase hpending =>
          cases h
          exact .endProcess hphase hpending
      · cases h
  | runTask =>
      simp only [step] at h
      split at h
      · next hphase =>
          obtain ⟨⟨task, tasks⟩, hnext, rfl⟩ := map_eq_some_iff.mp h
          exact .runTask hphase hnext
      · cases h
  | endPump =>
      simp only [step] at h
      split at h
      · next hphase hnext =>
          cases h
          exact .endPump hphase hnext
      · cases h
  | check exit =>
      simp only [step] at h
      split at h
      · next hphase =>
          cases h
          exact .check exit hphase
      · cases h
  | settle terminated =>
      simp only [step] at h
      split at h
      · next hphase =>
          cases h
          exact .settle terminated hphase
      · cases h
  | finish =>
      obtain ⟨hdead, ⟨⟩⟩ := ite_none_left_eq_some.mp h
      exact .finish hdead

def machine : Machine (State τ) (Action τ) where
  init := ⟨0, .new, none, 0, true, 0, .idle none⟩
  step := step

/-- The tasks that are run. -/
def observe (s : State τ) : Action τ → List τ
  | .runTask => ((s.tasks.next s.now).map Prod.fst).toList
  | .tick _ | .post _ _ | .arrive | .closeChannel | .poll _ _ _ _ | .drain | .process | .endProcess
  | .endPump | .check _ | .settle _ | .finish => []

def Action.isPoll : Action τ → Bool
  | .poll _ _ _ _ => true
  | _ => false

/-! ## One poll -/

/-- The rounds have come past a pump. -/
def Phase.pumped : Phase → Bool
  | .draining round | .processing round _ | .pumping round _ => 0 < round
  | .checking _ _ | .settling => true
  | .idle (some (.closed round)) => 0 < round
  | .idle (some .exit) | .idle (some .pending) => true
  | .idle none | .idle (some .expired) | .idle (some .notLocked) | .idle (some .terminated) => false

/-- The rounds have not come to a pump. -/
def Phase.fresh : Phase → Bool
  | .draining round | .processing round _ | .idle (some (.closed round)) => round = 0
  | .idle (some .expired) | .idle (some .notLocked) => true
  | .idle _ | .pumping _ _ | .checking _ _ | .settling => false

/-- What holds in a poll that began with the tasks `owed`, and that has run the tasks `ran`. -/
structure PollInv (waker : Waker) (owed : List τ) (s : State τ) (ran : List τ) : Prop where
  inOrder : ForegroundTasks.Owed owed ran s.tasks
  heard : s.phase.lives = true → ForegroundTasks.Heard waker s.tasks
  pumped : s.phase.pumped = true → owed <+: ran
  fresh : s.phase.fresh = true → ran = []

section Poll

variable {s s' : State τ} {waker : Waker} {owed ran : List τ}

theorem PollInv.of_poll (s : State τ) (waker : Waker) (expired locked terminated : Bool) :
    PollInv waker s.tasks.queue.ready (s.poll waker expired locked terminated) [] where
  inOrder := (ForegroundTasks.Owed.refl s.tasks).congr ForegroundTasks.poll_ready
  heard _ := .of_poll s.tasks waker
  pumped h := by
    cases expired <;> cases locked <;> cases terminated <;> cases h
  fresh _ := rfl

/-- A step that runs no task and leaves the queue alone. -/
theorem PollInv.quiet (h : PollInv waker owed s ran) (htasks : s'.tasks = s.tasks)
    (hlives : s'.phase.lives = true → s.phase.lives = true)
    (hpumped : s'.phase.pumped = true → s.phase.pumped = true)
    (hfresh : s'.phase.fresh = true → s.phase.fresh = true) : PollInv waker owed s' ran where
  inOrder := by
    rw [htasks]
    exact h.inOrder
  heard hl := by
    rw [htasks]
    exact h.heard (hlives hl)
  pumped := fun hp => h.pumped (hpumped hp)
  fresh := fun hf => h.fresh (hfresh hf)

theorem PollInv.post (h : PollInv waker owed s ran) (task : τ) (delay : Option Int) :
    PollInv waker owed { s with tasks := s.tasks.post s.now task delay } ran where
  inOrder := h.inOrder.post task delay
  heard hl := (h.heard hl).post task delay
  pumped := h.pumped
  fresh := h.fresh

theorem PollInv.runTask {task : τ} {tasks : ForegroundTasks τ} {round count : Nat}
    (h : PollInv waker owed s ran) (hphase : s.phase = .pumping round count)
    (hnext : s.tasks.next s.now = some (task, tasks)) :
    PollInv waker owed { s with tasks } (ran ++ [task]) where
  inOrder := h.inOrder.run hnext
  heard hl := (h.heard hl).run hnext
  pumped hp := (h.pumped hp).trans (prefix_append _ _)
  fresh hf := by
    rw [hphase] at hf
    cases hf

/-- A pump that has ended leaves nothing that was owed. -/
theorem PollInv.endPump {round count : Nat} (h : PollInv waker owed s ran)
    (hphase : s.phase = .pumping round count) (hnext : s.tasks.next s.now = none) :
    PollInv waker owed { s with phase := .checking round count } ran where
  inOrder := h.inOrder
  heard _ := h.heard (by rw [hphase]; rfl)
  pumped _ := h.inOrder.done hnext
  fresh hf := by cases hf

theorem PollInv.step {a : Action τ} (h : PollInv waker owed s ran) (ha : a.isPoll = false)
    (hstep : step s a = some s') : PollInv waker owed s' (ran ++ observe s a) := by
  cases of_step hstep with
  | poll => cases ha
  | tick | arrive | closeChannel | process =>
      rw [observe, append_nil]
      exact h.quiet rfl id id id
  | post task delay =>
      rw [observe, append_nil]
      exact h.post task delay
  | drain hphase =>
      rw [observe, append_nil]
      refine h.quiet rfl ?_ ?_ ?_
      · rw [hphase]
        exact fun _ => rfl
      · rw [hphase]
        unfold State.drain
        cases s.channelOpen <;> exact id
      · rw [hphase]
        unfold State.drain
        cases s.channelOpen <;> exact id
  | endProcess hphase =>
      rw [observe, append_nil]
      refine h.quiet rfl ?_ ?_ nofun
      · rw [hphase]
        exact id
      · rw [hphase]
        exact id
  | runTask hphase hnext =>
      rw [observe, hnext]
      exact h.runTask hphase hnext
  | endPump hphase hnext =>
      rw [observe, append_nil]
      exact h.endPump hphase hnext
  | check exit hphase =>
      rw [observe, append_nil]
      -- Every way on from here is past the pump of this round.
      refine ⟨h.inOrder, fun _ => h.heard (by rw [hphase]; rfl),
        fun _ => h.pumped (by rw [hphase]; rfl), fun hf => ?_⟩
      unfold State.check at hf
      cases exit with
      | true => cases hf
      | false =>
          simp only [Bool.false_eq_true, if_false] at hf
          split at hf
          · cases hf
          · simp [Phase.fresh] at hf
  | settle terminated hphase =>
      rw [observe, append_nil]
      refine h.quiet rfl ?_ ?_ ?_
      · rw [hphase]
        exact fun _ => rfl
      · rw [hphase]
        exact fun _ => rfl
      · cases terminated <;> rintro ⟨⟩
  | finish hdead =>
      rw [observe, append_nil]
      exact ⟨h.inOrder, fun hl => absurd hl hdead, h.pumped, h.fresh⟩

/-- A poll, from the state before it to a state after it. -/
theorem pollInv_of_run {expired locked terminated : Bool} {ops : List (Action τ)}
    (hops : ∀ a ∈ ops, a.isPoll = false)
    (hrun : machine.runFrom s (.poll waker expired locked terminated :: ops) = some s') :
    PollInv waker s.tasks.queue.ready s'
      (machine.logFrom observe s (.poll waker expired locked terminated :: ops)) := by
  obtain ⟨s₁, hstep, hrest⟩ := runFrom_cons_eq_some.mp hrun
  rw [logFrom_cons hstep]
  have hs₁ : s₁ = s.poll waker expired locked terminated := by
    change step s (.poll waker expired locked terminated) = some s₁ at hstep
    cases of_step hstep with
    | poll => rfl
  rw [hs₁] at hrest ⊢
  exact invariant_logFrom_of_meets (G := fun _ a => a.isPoll = false)
    (fun _ _ _ _ h ha hstep => h.step ha hstep) (.of_poll s waker expired locked terminated)
    (meets_of_forall_mem _ fun _ => hops) hrest

/-! ### A closed channel -/

/-- The first round of a poll finds the channel of the callbacks open. -/
def OpenAtDrain (s : State τ) : Action τ → Prop
  | .drain => s.phase = .draining 0 → s.channelOpen = true
  | .tick _ | .post _ _ | .arrive | .closeChannel | .poll _ _ _ _ | .process | .endProcess
  | .runTask | .endPump | .check _ | .settle _ | .finish => True

instance (s : State τ) (a : Action τ) : Decidable (OpenAtDrain s a) := by
  cases a <;> dsimp only [OpenAtDrain] <;> infer_instance

/-- A step that leaves the phase alone, or leaves a phase of a poll for another one. -/
theorem notClosed_of_phase (hphase : s'.phase = s.phase ∨
    s.phase ≠ .idle (some (.closed 0)) ∧ s'.phase ≠ .idle (some (.closed 0))) :
    s'.phase ≠ .idle (some (.closed 0)) ↔ s.phase ≠ .idle (some (.closed 0)) := by
  rcases hphase with hphase | ⟨h, h'⟩
  · rw [hphase]
  · exact iff_of_true h' h

theorem notClosed_step (s : State τ) (a : Action τ) (s' : State τ) (hstep : step s a = some s') :
    s'.phase ≠ .idle (some (.closed 0)) ↔
      s.phase ≠ .idle (some (.closed 0)) ∧ OpenAtDrain s a := by
  cases of_step hstep with
  | tick | post | arrive | closeChannel | process | runTask | finish =>
      exact (and_iff_left trivial).symm
  | drain hphase =>
      rw [OpenAtDrain, hphase]
      -- Only a closed channel makes the drain return.
      cases hopen : s.channelOpen <;> simp [State.drain, hopen]
  | poll waker expired locked terminated hphase hlive =>
      rw [OpenAtDrain, and_iff_left trivial]
      refine notClosed_of_phase (.inr ⟨?_, ?_⟩)
      · rintro hclosed
        rw [hphase] at hclosed
        cases hclosed
        exact hlive rfl
      · cases expired <;> cases locked <;> cases terminated <;> simp [State.poll]
  | endProcess hphase | endPump hphase =>
      rw [OpenAtDrain, and_iff_left trivial, hphase]
      exact iff_of_true nofun nofun
  | check exit hphase =>
      rw [OpenAtDrain, and_iff_left trivial, hphase]
      refine iff_of_true ?_ nofun
      unfold State.check
      cases exit with
      | true => exact nofun
      | false =>
          simp only [Bool.false_eq_true, if_false]
          split <;> exact nofun
  | settle terminated hphase =>
      rw [OpenAtDrain, and_iff_left trivial, hphase]
      refine iff_of_true ?_ nofun
      cases terminated <;> exact nofun

/-- A poll that got its turn and was not stopped has run the tasks that waited when it began,
unless there were some and its first round found the channel closed. -/
theorem runs_owed_iff {expired locked terminated : Bool} {ops : List (Action τ)}
    {polled : Polled} (hops : ∀ a ∈ ops, a.isPoll = false)
    (hrun : machine.runFrom s (.poll waker expired locked terminated :: ops) = some s')
    (hreturned : s'.phase = .idle (some polled))
    (hpolled : polled ∉ [.expired, .notLocked, .terminated]) :
    s.tasks.queue.ready <+:
        machine.logFrom observe s (.poll waker expired locked terminated :: ops) ↔
      s.tasks.queue.ready = [] ∨
        machine.Meets OpenAtDrain s (.poll waker expired locked terminated :: ops) := by
  have hinv := pollInv_of_run hops hrun
  have hclosed := iff_meets_from notClosed_step hrun
  rw [hreturned] at hclosed
  constructor
  · intro hran
    by_cases hpolled : polled = .closed 0
    · left
      rw [hinv.fresh (by rw [hreturned, hpolled]; rfl)] at hran
      exact prefix_nil.mp hran
    · right
      refine (hclosed.mp ?_).2
      rintro ⟨⟩
      exact hpolled rfl
  · rintro (hnil | hmeets)
    · rw [hnil]
      exact nil_prefix
    · have hlive : s.phase ≠ .idle (some (.closed 0)) := by
        obtain ⟨t, hstep, -⟩ := runFrom_cons_eq_some.mp hrun
        intro hphase
        simp [machine, step, hphase, Polled.ends] at hstep
      have hopen := hclosed.mpr ⟨hlive, hmeets⟩
      refine hinv.pumped ?_
      rw [hreturned]
      cases polled with
      | expired => exact absurd mem_cons_self hpolled
      | notLocked => exact absurd (by simp) hpolled
      | terminated => exact absurd (by simp) hpolled
      | closed round =>
          refine decide_eq_true (Nat.pos_of_ne_zero ?_)
          rintro rfl
          exact hopen rfl
      | exit => rfl
      | pending => rfl

end Poll

end OpenWorkers.Foreground.EventLoop
