import OpenWorkers.Foreground.EventLoop
import OpenWorkers.Object.Serve

/-!
# Foreground tasks and polls

An event loop registers for the foreground tasks of its isolate on every poll, so a task
without a delay wakes it.  The loop of a worker event pumps the tasks in every round.  The loop
of a Durable Object (`serve`, `src/execution_context/durable_object.rs`) pumps them only in
`drain_gated`, after each callback that it delivers: a poll that delivers none leaves them
where they are.

The machine of this module is the one of `OpenWorkers.Object.Serve` with the tasks of its
isolate.  The delivery of a callback is cut open into the callback itself, the tasks that the
pump after it runs and the microtask checkpoint; the step of `serve` is taken when it is over,
with all that the guest has done in it.  Other threads go on meanwhile.
-/

universe u

namespace OpenWorkers.Foreground

open List Option OpenWorkers.Object Machine

namespace Instance

variable {τ : Type u}

structure State (τ : Type u) where
  serve : Serve.State
  tasks : ForegroundTasks τ
  /-- The waker that the `Waiter` of `serve` registered last. -/
  waiter : Option Waker
  /-- A callback is being delivered, and what the guest has done in it. -/
  pumping : Option (List Serve.GlueOp)
deriving DecidableEq, Repr

inductive Action (τ : Type u) where
  /-- Anything but a poll and a delivery. -/
  | serve (action : Serve.Action)
  | poll (waker : Waker)
  /-- V8 posts a task, from any thread. -/
  | post (task : τ) (delay : Option Int)
  /-- `process_single_callback`. -/
  | deliver (effects : List Serve.GlueOp)
  /-- A task of `ForegroundTasks::run`. -/
  | runTask (effects : List Serve.GlueOp)
  /-- The microtask checkpoint of `pump_and_checkpoint`. -/
  | endPump (effects : List Serve.GlueOp)
  /-- `serve` has ended, and its `Waiter` drops. -/
  | finish
deriving DecidableEq, Repr

end Instance

/-- What other threads do, and the clock. -/
def outside : Serve.Action → Bool
  | .tick _ | .mail _ | .closeMailbox | .arrive _ | .closeChannel => true
  | .poll | .admitEvent _ _ | .endAdmission | .deliver _ | .endDrain | .answer _ _ _
  | .settle _ _ _ _ _ => false

/-- What a poll does, apart from its beginning and its deliveries. -/
def inside : Serve.Action → Bool
  | .admitEvent _ _ | .endAdmission | .endDrain | .answer _ _ _ | .settle _ _ _ _ _ => true
  | .poll | .deliver _ | .tick _ | .mail _ | .closeMailbox | .arrive _ | .closeChannel => false

namespace Instance

variable {τ : Type u}

def step (cfg : Serve.Config) (s : State τ) : Action τ → Option (State τ)
  | .serve action =>
    if outside action || (s.pumping.isNone && inside action) then
      (Serve.step cfg s.serve action).map fun serve => { s with serve }
    else
      none
  | .poll waker =>
    match s.pumping with
    | none =>
      (Serve.step cfg s.serve .poll).map fun serve =>
        { s with serve, tasks := s.tasks.poll waker, waiter := some waker }
    | some _ => none
  | .post task delay => some { s with tasks := s.tasks.post s.serve.now task delay }
  | .deliver effects =>
    match s.pumping with
    | none =>
      (Serve.step cfg s.serve (.deliver effects)).map fun _ => { s with pumping := some effects }
    | some _ => none
  | .runTask effects =>
    s.pumping.bind fun before => (s.tasks.next s.serve.now).map fun next =>
      { s with tasks := next.2, pumping := some (before ++ effects) }
  | .endPump effects =>
    match s.pumping, s.tasks.next s.serve.now with
    | some before, none =>
      (Serve.step cfg s.serve (.deliver (before ++ effects))).map fun serve =>
        { s with serve, pumping := none }
    | _, _ => none
  | .finish =>
    match s.serve.phase with
    | .ended _ => some { s with tasks := s.tasks.dropWaiter s.waiter, waiter := none }
    | .idle | .admitting _ _ | .draining _ _ _ | .answering _ _ _ | .settling _ => none

def machine (cfg : Serve.Config) (glue : Serve.Glue) (first : Serve.ObjectEvent) :
    Machine (State τ) (Action τ) where
  init := ⟨Serve.init cfg glue first, .new, none, none⟩
  step := step cfg

/-- What is seen of a poll. -/
inductive Seen (τ : Type u) where
  | delivered
  | ran (task : τ)
deriving DecidableEq, Repr

def observe (s : State τ) : Action τ → List (Seen τ)
  | .deliver _ => [.delivered]
  | .runTask _ => ((s.tasks.next s.serve.now).map fun next => .ran next.1).toList
  | .serve _ | .poll _ | .post _ _ | .endPump _ | .finish => []

/-- The tasks that were run. -/
def ran (log : List (Seen τ)) : List τ :=
  log.filterMap fun
    | .ran task => some task
    | .delivered => none

def Action.isPoll : Action τ → Bool
  | .poll _ => true
  | .serve _ | .post _ _ | .deliver _ | .runTask _ | .endPump _ | .finish => false

/-- `drain_gated` looks for a callback, and finds one that the gate lets in. -/
structure State.HasCallback (s : State τ) : Prop where
  idle : s.pumping = none
  draining : ∃ round admitted count, s.serve.phase = .draining round admitted count
  next : s.serve.nextCallback ≠ none

/-- The poll has returned. -/
def returned : Serve.Phase → Bool
  | .idle | .ended _ => true
  | .admitting _ _ | .draining _ _ _ | .answering _ _ _ | .settling _ => false

/-! ## The steps of `serve` -/

section Serve

variable {cfg : Serve.Config} {r r' : Serve.State}

theorem of_deliver {effects : List Serve.GlueOp}
    (h : Serve.step cfg r (.deliver effects) = some r') :
    (∃ round admitted count, r.phase = .draining round admitted count) ∧ r.nextCallback ≠ none := by
  cases Serve.of_step h with
  | @deliver round admitted count index _ _ _ hphase hindex =>
      refine ⟨⟨round, admitted, count, hphase⟩, ?_⟩
      rw [hindex]
      exact some_ne_none index

/-- What other threads do is not seen by `drain_gated`. -/
theorem of_outside {action : Serve.Action} (houtside : outside action = true)
    (h : Serve.step cfg r action = some r') :
    r'.phase = r.phase ∧ r'.nextCallback = r.nextCallback := by
  cases Serve.of_step h with
  | tick | mail | closeMailbox | arrive | closeChannel => exact ⟨rfl, rfl⟩
  | poll | admitEvent | endAdmission | deliver | endDrain | answer | settle => cases houtside

/-- A drain that finds a callback goes on with its delivery. -/
theorem not_inside {action : Serve.Action} {round admitted count : Nat}
    (hinside : inside action = true) (hphase : r.phase = .draining round admitted count)
    (hnext : r.nextCallback ≠ none) : Serve.step cfg r action = none := by
  cases action with
  | admitEvent | endAdmission | answer | settle =>
      simp only [Serve.step, hphase]
  | endDrain =>
      simp only [Serve.step, hphase, if_neg hnext]
  | tick | mail | closeMailbox | arrive | closeChannel | poll | deliver => cases hinside

/-- Nothing runs after the end. -/
theorem ended_of_step {action : Serve.Action} {outcome : Outcome}
    (h : Serve.step cfg r action = some r') (hphase : r.phase = .ended outcome) :
    r'.phase = .ended outcome := by
  cases action with
  | tick | mail | closeMailbox | arrive | closeChannel =>
      rw [(of_outside rfl h).1]
      exact hphase
  | poll | admitEvent | endAdmission | deliver | endDrain | answer | settle =>
      simp only [Serve.step, hphase] at h
      cases h

end Serve

/-! ## One poll -/

/-- What holds in a poll that began with the tasks `owed`. -/
structure PollInv (waker : Waker) (owed : List τ) (s : State τ) (log : List (Seen τ)) : Prop where
  inOrder : ForegroundTasks.Owed owed (ran log) s.tasks
  heard : (∀ outcome, s.serve.phase ≠ .ended outcome) → ForegroundTasks.Heard waker s.tasks
  /-- A delivery that is over has pumped the tasks. -/
  pumped : .delivered ∈ log → s.pumping = none → owed <+: ran log
  fresh : .delivered ∉ log → s.pumping = none ∧ ran log = []
  /-- A delivery is over before the poll returns. -/
  within : s.pumping ≠ none → returned s.serve.phase = false

section Poll

variable {cfg : Serve.Config} {glue : Serve.Glue} {first : Serve.ObjectEvent}
variable {s s' : State τ} {waker : Waker} {owed : List τ} {log : List (Seen τ)}

theorem ran_delivered : ran (log ++ [.delivered]) = ran log := by
  simp [ran]

theorem ran_concat (task : τ) : ran (log ++ [.ran task]) = ran log ++ [task] := by
  simp [ran]

theorem PollInv.of_poll {serve : Serve.State} (hpumping : s.pumping = none) :
    PollInv waker s.tasks.queue.ready
      { s with serve, tasks := s.tasks.poll waker, waiter := some waker } [] where
  inOrder := (ForegroundTasks.Owed.refl s.tasks).congr ForegroundTasks.poll_ready
  heard _ := .of_poll s.tasks waker
  pumped h := absurd h not_mem_nil
  fresh _ := ⟨hpumping, rfl⟩
  within h := absurd hpumping h

/-- A step that runs no task and neither begins nor ends a delivery. -/
theorem PollInv.quiet {serve : Serve.State} (h : PollInv waker owed s log)
    (hended : ∀ outcome, s.serve.phase = .ended outcome → serve.phase = .ended outcome)
    (hphase : s.pumping ≠ none → serve.phase = s.serve.phase) :
    PollInv waker owed { s with serve } log where
  inOrder := h.inOrder
  heard hl := h.heard fun outcome he => hl outcome (hended outcome he)
  pumped := h.pumped
  fresh := h.fresh
  within hpumping := by
    rw [hphase hpumping]
    exact h.within hpumping

theorem PollInv.post (h : PollInv waker owed s log) (task : τ) (delay : Option Int) :
    PollInv waker owed { s with tasks := s.tasks.post s.serve.now task delay } log where
  inOrder := h.inOrder.post task delay
  heard hl := (h.heard hl).post task delay
  pumped := h.pumped
  fresh := h.fresh
  within := h.within

theorem PollInv.deliver {effects : List Serve.GlueOp} (h : PollInv waker owed s log)
    (hdraining : ∃ round admitted count, s.serve.phase = .draining round admitted count) :
    PollInv waker owed { s with pumping := some effects } (log ++ [.delivered]) where
  inOrder := by
    rw [ran_delivered]
    exact h.inOrder
  heard := h.heard
  pumped _ hnone := by cases hnone
  fresh hmem := absurd (mem_append_right _ mem_cons_self) hmem
  within _ := by
    obtain ⟨round, admitted, count, hphase⟩ := hdraining
    rw [hphase]
    rfl

theorem PollInv.runTask {task : τ} {tasks : ForegroundTasks τ} {before effects : List Serve.GlueOp}
    (h : PollInv waker owed s log) (hpumping : s.pumping = some before)
    (hnext : s.tasks.next s.serve.now = some (task, tasks)) :
    PollInv waker owed { s with tasks, pumping := some (before ++ effects) }
      (log ++ [.ran task]) where
  inOrder := by
    rw [ran_concat]
    exact h.inOrder.run hnext
  heard hl := (h.heard hl).run hnext
  pumped _ hnone := by cases hnone
  fresh hmem := by
    -- A delivery is under way, so it has been seen.
    have hlog : .delivered ∉ log := fun hlog => hmem (mem_append_left _ hlog)
    have hnone := (h.fresh hlog).1
    rw [hpumping] at hnone
    cases hnone
  within _ := h.within (by rw [hpumping]; exact some_ne_none before)

/-- A pump that has ended leaves nothing that was owed. -/
theorem PollInv.endPump {serve : Serve.State} (h : PollInv waker owed s log)
    (hended : ∀ outcome, s.serve.phase = .ended outcome → serve.phase = .ended outcome)
    (hpumping : s.pumping ≠ none) (hnext : s.tasks.next s.serve.now = none) :
    PollInv waker owed { s with serve, pumping := none } log where
  inOrder := h.inOrder
  heard hl := h.heard fun outcome he => hl outcome (hended outcome he)
  pumped _ _ := h.inOrder.done hnext
  fresh hmem := absurd (h.fresh hmem).1 hpumping
  within hnone := absurd rfl hnone

theorem PollInv.step {a : Action τ} (h : PollInv waker owed s log) (ha : a.isPoll = false)
    (hstep : step cfg s a = some s') : PollInv waker owed s' (log ++ observe s a) := by
  cases a with
  | serve action =>
      simp only [Instance.step] at hstep
      split at hstep
      · next hallowed =>
          obtain ⟨serve, hserve, rfl⟩ := map_eq_some_iff.mp hstep
          rw [observe, append_nil]
          refine h.quiet (fun outcome => ended_of_step hserve) fun hpumping => ?_
          rcases Bool.or_eq_true_iff.mp hallowed with houtside | hinside
          · exact (of_outside houtside hserve).1
          · exact absurd (isNone_iff_eq_none.mp (Bool.and_eq_true_iff.mp hinside).1) hpumping
      · cases hstep
  | poll _ => cases ha
  | post task delay =>
      cases hstep
      rw [observe, append_nil]
      exact h.post task delay
  | deliver effects =>
      simp only [Instance.step] at hstep
      split at hstep
      · obtain ⟨serve, hserve, rfl⟩ := map_eq_some_iff.mp hstep
        exact h.deliver (of_deliver hserve).1
      · cases hstep
  | runTask effects =>
      obtain ⟨before, hpumping, hstep⟩ := bind_eq_some_iff.mp hstep
      obtain ⟨⟨task, tasks⟩, hnext, rfl⟩ := map_eq_some_iff.mp hstep
      rw [observe, hnext]
      exact h.runTask hpumping hnext
  | endPump effects =>
      simp only [Instance.step] at hstep
      split at hstep
      · next before hpumping hnext =>
          obtain ⟨serve, hserve, rfl⟩ := map_eq_some_iff.mp hstep
          rw [observe, append_nil]
          refine h.endPump (fun outcome => ended_of_step hserve) ?_ hnext
          rw [hpumping]
          exact some_ne_none before
      · cases hstep
  | finish =>
      simp only [Instance.step] at hstep
      split at hstep
      · next outcome hphase =>
          cases hstep
          rw [observe, append_nil]
          exact ⟨h.inOrder, fun hl => absurd hphase (hl outcome), h.pumped, h.fresh, h.within⟩
      all_goals cases hstep

/-- A poll, from the state before it to a state after it. -/
theorem pollInv_of_run {ops : List (Action τ)} (hops : ∀ a ∈ ops, a.isPoll = false)
    (hrun : (machine cfg glue first).runFrom s (.poll waker :: ops) = some s') :
    PollInv waker s.tasks.queue.ready s'
      ((machine cfg glue first).logFrom observe s (.poll waker :: ops)) := by
  obtain ⟨s₁, hstep, hrest⟩ := runFrom_cons_eq_some.mp hrun
  rw [logFrom_cons hstep]
  have hs₁ : PollInv waker s.tasks.queue.ready s₁ [] := by
    simp only [machine, Instance.step] at hstep
    split at hstep
    · next hpumping =>
        obtain ⟨serve, -, rfl⟩ := map_eq_some_iff.mp hstep
        exact .of_poll hpumping
    · cases hstep
  exact invariant_logFrom_of_meets (G := fun _ a => a.isPoll = false)
    (fun _ _ _ _ h ha hstep => h.step ha hstep) hs₁
    (meets_of_forall_mem _ fun _ => hops) hrest

/-! ### Deliveries -/

/-- A callback that `drain_gated` has found is delivered before anything else. -/
theorem State.HasCallback.step {a : Action τ} (h : s.HasCallback) (hstep : step cfg s a = some s') :
    .delivered ∈ observe s a ∨ s'.HasCallback := by
  obtain ⟨hidle, ⟨round, admitted, count, hphase⟩, hnext⟩ := h
  cases a with
  | serve action =>
      simp only [Instance.step] at hstep
      split at hstep
      · next hallowed =>
          obtain ⟨serve, hserve, rfl⟩ := map_eq_some_iff.mp hstep
          rcases Bool.or_eq_true_iff.mp hallowed with houtside | hinside
          · obtain ⟨hphase', hnext'⟩ := of_outside houtside hserve
            exact .inr ⟨hidle, ⟨round, admitted, count, hphase'.trans hphase⟩, hnext' ▸ hnext⟩
          · rw [not_inside (Bool.and_eq_true_iff.mp hinside).2 hphase hnext] at hserve
            cases hserve
      · cases hstep
  | poll waker =>
      simp only [Instance.step, hidle, Serve.step, hphase, map_none] at hstep
      cases hstep
  | post task delay =>
      cases hstep
      exact .inr ⟨hidle, ⟨round, admitted, count, hphase⟩, hnext⟩
  | deliver effects => exact .inl mem_cons_self
  | runTask effects =>
      simp only [Instance.step, hidle, bind_none] at hstep
      cases hstep
  | endPump effects =>
      simp only [Instance.step, hidle] at hstep
      cases hstep
  | finish =>
      simp only [Instance.step, hphase] at hstep
      cases hstep

theorem State.HasCallback.delivered {ops : List (Action τ)} (h : s.HasCallback)
    (hrun : (machine cfg glue first).runFrom s ops = some s')
    (hreturned : returned s'.serve.phase = true) :
    .delivered ∈ (machine cfg glue first).logFrom observe s ops := by
  induction ops generalizing s with
  | nil =>
      cases hrun
      obtain ⟨round, admitted, count, hphase⟩ := h.draining
      rw [hphase] at hreturned
      cases hreturned
  | cons a ops ih =>
      obtain ⟨t, hstep, hrest⟩ := runFrom_cons_eq_some.mp hrun
      rw [logFrom_cons hstep, mem_append]
      exact (h.step hstep).imp_right fun h => ih h hrest

/-- A poll delivers a callback if `drain_gated` finds one in it. -/
theorem delivered_iff_visits {ops : List (Action τ)}
    (hrun : (machine cfg glue first).runFrom s ops = some s')
    (hreturned : returned s'.serve.phase = true) :
    .delivered ∈ (machine cfg glue first).logFrom observe s ops ↔
      (machine cfg glue first).Visits State.HasCallback s ops := by
  constructor
  · intro hmem
    obtain ⟨before, a, after, r, r', rfl, hbefore, hstep, hseen⟩ :=
      exists_of_mem_logFrom hrun hmem
    refine ⟨before, a :: after, r, rfl, hbefore, ?_⟩
    cases a with
    | deliver effects =>
        simp only [machine, Instance.step] at hstep
        split at hstep
        · next hidle =>
            obtain ⟨serve, hserve, -⟩ := map_eq_some_iff.mp hstep
            obtain ⟨hdraining, hnext⟩ := of_deliver hserve
            exact ⟨hidle, hdraining, hnext⟩
        · cases hstep
    | runTask effects =>
        obtain ⟨next, -, hnext⟩ := map_eq_some_iff.mp (mem_toList.mp hseen)
        cases hnext
    | serve | poll | post | endPump | finish => cases hseen
  · rintro ⟨before, after, t, rfl, hbefore, ht⟩
    rw [runFrom_append hbefore] at hrun
    rw [logFrom_append hbefore]
    exact mem_append_right _ (ht.delivered hrun hreturned)

/-- A poll has run the tasks that waited when it began, unless there were some and
`drain_gated` found no callback in it. -/
theorem runs_owed_iff {ops : List (Action τ)} (hops : ∀ a ∈ ops, a.isPoll = false)
    (hrun : (machine cfg glue first).runFrom s (.poll waker :: ops) = some s')
    (hreturned : returned s'.serve.phase = true) :
    s.tasks.queue.ready <+:
        ran ((machine cfg glue first).logFrom observe s (.poll waker :: ops)) ↔
      s.tasks.queue.ready = [] ∨
        (machine cfg glue first).Visits State.HasCallback s (.poll waker :: ops) := by
  have hinv := pollInv_of_run hops hrun
  rw [← delivered_iff_visits hrun hreturned]
  constructor
  · intro hran
    by_cases hmem : .delivered ∈ (machine cfg glue first).logFrom observe s (.poll waker :: ops)
    · exact .inr hmem
    · left
      rw [(hinv.fresh hmem).2] at hran
      exact prefix_nil.mp hran
  · rintro (hnil | hmem)
    · rw [hnil]
      exact nil_prefix
    · refine hinv.pumped hmem (not_not.mp fun hpumping => ?_)
      rw [hinv.within hpumping] at hreturned
      cases hreturned

end Poll

end Instance

/-! ## Polls of either loop -/

/-- **Foreground tasks and polls.**  A poll of the loop of a worker event that gets its turn
and is not stopped runs the tasks that waited when it began, in their order, exactly if there
were none or its first round finds the channel of the callbacks open.  A poll of the loop of a
Durable Object runs them exactly if there were none or `drain_gated` finds a callback that the
gate lets in.  After either, the next task without a delay wakes the loop. -/
theorem poll_runs_posted_tasks {τ : Type u} :
    (∀ (s s' : EventLoop.State τ) (waker : Waker) (expired locked terminated : Bool)
        (ops : List (EventLoop.Action τ)) (polled : EventLoop.Polled),
      (∀ a ∈ ops, a.isPoll = false) →
      EventLoop.machine.runFrom s (.poll waker expired locked terminated :: ops) = some s' →
      s'.phase = .idle (some polled) → polled ∉ [.expired, .notLocked, .terminated] →
        (s.tasks.queue.ready <+: EventLoop.machine.logFrom EventLoop.observe s
              (.poll waker expired locked terminated :: ops) ↔
          s.tasks.queue.ready = [] ∨ EventLoop.machine.Meets EventLoop.OpenAtDrain s
              (.poll waker expired locked terminated :: ops)) ∧
        (polled = .pending → ∀ now task, waker ∈ (s'.tasks.post now task none).woken)) ∧
    (∀ (cfg : Serve.Config) (glue : Serve.Glue) (first : Serve.ObjectEvent)
        (s s' : Instance.State τ) (waker : Waker) (ops : List (Instance.Action τ)),
      (∀ a ∈ ops, a.isPoll = false) →
      (Instance.machine cfg glue first).runFrom s (.poll waker :: ops) = some s' →
      Instance.returned s'.serve.phase = true →
        (s.tasks.queue.ready <+: Instance.ran ((Instance.machine cfg glue first).logFrom
              Instance.observe s (.poll waker :: ops)) ↔
          s.tasks.queue.ready = [] ∨ (Instance.machine cfg glue first).Visits
              Instance.State.HasCallback s (.poll waker :: ops)) ∧
        (s'.serve.phase = .idle → ∀ now task, waker ∈ (s'.tasks.post now task none).woken)) := by
  constructor
  · intro s s' waker expired locked terminated ops polled hops hrun hreturned hpolled
    refine ⟨EventLoop.runs_owed_iff hops hrun hreturned hpolled, fun hpending now task => ?_⟩
    refine ((EventLoop.pollInv_of_run hops hrun).heard ?_).woken_of_post task
    rw [hreturned, hpending]
    rfl
  · intro cfg glue first s s' waker ops hops hrun hreturned
    refine ⟨Instance.runs_owed_iff hops hrun hreturned, fun hidle now task => ?_⟩
    refine ((Instance.pollInv_of_run hops hrun).heard fun outcome hended => ?_).woken_of_post task
    rw [hidle] at hended
    cases hended

/-- The loop of a worker event waits for nothing but a task, and the task comes. -/
def compiling : List (EventLoop.Action Nat) :=
  [.poll 1 false true false, .drain, .endProcess, .endPump, .check false, .settle false,
    .post 7 none]

/-- The poll that the task causes, after its beginning. -/
def compiled : List (EventLoop.Action Nat) :=
  [.drain, .endProcess, .runTask, .endPump, .check false, .settle false]

/-- A Durable Object has an event in flight that waits for nothing but a task, and the task
comes. -/
def serving : List (Instance.Action Nat) :=
  [.poll 1, .serve (.admitEvent [] none), .serve .endAdmission, .serve .endDrain,
    .serve (.answer false [] []), .serve .endAdmission, .serve .endDrain,
    .serve (.answer false [] []), .serve (.settle false false false false []), .post 7 none]

/-- The poll that the task and a callback cause, after its beginning. -/
def served : List (Instance.Action Nat) :=
  [.serve .endAdmission, .deliver [], .runTask [], .endPump [], .serve .endDrain,
    .serve (.answer false [] []), .serve .endAdmission, .serve .endDrain,
    .serve (.answer false [] []), .serve (.settle false false false false [])]

theorem poll_runs_posted_tasks_compiled :
    (∃ s, EventLoop.machine.run compiling = some s ∧ s.tasks.woken = [1] ∧
      s.tasks.queue.ready = [7] ∧
      s.tasks.queue.ready <+: EventLoop.machine.logFrom EventLoop.observe s
        (.poll 1 false true false :: compiled)) ∧
    (∃ s, (Instance.machine ⟨1000, 1000⟩ ⟨0, 0, none⟩ .fetch).run
        (serving ++ [.serve (.arrive (.executeTimeout 3))]) = some s ∧ s.tasks.woken = [1] ∧
      s.tasks.queue.ready = [7] ∧
      s.tasks.queue.ready <+: Instance.ran
        ((Instance.machine ⟨1000, 1000⟩ ⟨0, 0, none⟩ .fetch).logFrom Instance.observe s
          (.poll 1 :: served))) := by
  constructor
  · refine ⟨_, rfl, rfl, rfl, ?_⟩
    refine (poll_runs_posted_tasks.1 _ ?t 1 false true false compiled .pending ?_ ?_ ?_ ?_).1.mpr
      (.inr ?_)
    rotate_left
    · decide
    · rfl
    · rfl
    · decide
    · decide
  · refine ⟨_, rfl, rfl, rfl, ?_⟩
    refine (poll_runs_posted_tasks.2 ⟨1000, 1000⟩ ⟨0, 0, none⟩ .fetch _ ?u 1 served ?_ ?_ ?_).1.mpr
      (.inr ?_)
    rotate_left
    · decide
    · rfl
    · rfl
    · refine ⟨[.poll 1, .serve .endAdmission], _, _, rfl, rfl, rfl, ⟨0, 0, 0, rfl⟩, ?_⟩
      decide

/-- Without the callback, the poll that the task has caused returns, the object waits again,
and the task has not been run. -/
theorem idle_object_leaves_task :
    let ops : List (Instance.Action Nat) := [.poll 1, .serve .endAdmission, .serve .endDrain,
      .serve (.answer false [] []), .serve (.settle false false false false [])]
    ∃ s s', (Instance.machine ⟨1000, 1000⟩ ⟨0, 0, none⟩ .fetch).run serving = some s ∧
      s.tasks.queue.ready = [7] ∧ s.tasks.woken = [1] ∧
      (Instance.machine ⟨1000, 1000⟩ ⟨0, 0, none⟩ .fetch).runFrom s ops = some s' ∧
      s'.serve.phase = .idle ∧ s'.tasks.queue.ready = [7] ∧ s'.tasks.woken = [] ∧
      ¬ s.tasks.queue.ready <+: Instance.ran
        ((Instance.machine ⟨1000, 1000⟩ ⟨0, 0, none⟩ .fetch).logFrom Instance.observe s ops) := by
  refine ⟨_, _, rfl, rfl, rfl, rfl, rfl, rfl, rfl, ?_⟩
  decide

end OpenWorkers.Foreground
