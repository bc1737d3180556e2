import OpenWorkers.Lib.Log
import OpenWorkers.Security.Cpu
import OpenWorkers.Security.Turn

/-!
# The turns of an event

`exec`, `trigger_fetch_event`, `trigger_task_event`, `await_event_loop` and `drain_waituntil`
of `src/execution_context.rs`, as the turns that they make for one event.

An event runs its JavaScript in the turn that triggers its handler, in the polls of up to four
event loops, and in the turn that reads its answer: the `status` of a Response and the data of
a task result are properties of guest objects, so getters and `toJSON` methods of the guest run
there.  An event loop looks at the guards where a poll begins and after its rounds, but not when
its exit condition holds; the turns that trigger and read do not look at all.

Each turn takes some CPU time from the enforcer of the event.  Other requests run between the
turns.  What the guards other than the CPU limit say, what the guest does and how the rounds of
a poll end is part of the action.
-/

namespace OpenWorkers.Security.Budget

open List Machine

inductive EventLoopExit where
  | responseReady
  | handlerComplete
  | streamsComplete
  | socketClosed
  | fullyComplete
deriving DecidableEq, Repr

inductive Event where
  | fetch
  | task
deriving DecidableEq, Repr

inductive Phase where
  /-- Before the turn that triggers the handler. -/
  | triggering
  /-- In `await_event_loop`. -/
  | awaiting (exit : EventLoopExit)
  /-- Before the turn that reads the answer. -/
  | reading
  /-- `exec`, or `drain_waituntil`, has a result and looks at the guards. -/
  | returning (draining : Bool) (result : Except String Unit)
  | ended (outcome : Outcome)
deriving DecidableEq

/-- How the rounds of a poll end. -/
inductive Rounds where
  | closed
  /-- The exit condition holds; `socketOpen` is what `exec` asks after its last loop. -/
  | exit (socketOpen : Bool)
  /-- Another guard may have cut the turn. -/
  | pending (stopped : Bool)
deriving DecidableEq, Repr

inductive Poll where
  /-- The deadline of the event is over. -/
  | expired
  | notLocked
  /-- A turn of this CPU time; another guard may have stopped the event before. -/
  | turn (time : Nat) (stopped guest : Bool) (rounds : Rounds)
deriving DecidableEq, Repr

inductive Action where
  /-- The thread does other work. -/
  | tick (time : Nat)
  | trigger (time : Nat) (guest : Bool) (result : Except String Unit)
  | poll (poll : Poll)
  | read (time : Nat) (guest : Bool) (result : Except String Unit)
  /-- `check_termination_reason`. -/
  | check (wall : Bool) (hit : List Hit) (aborted : Bool)
deriving DecidableEq

structure State where
  clock : Nat
  /-- `cpu_guard`. -/
  cpu : Option CpuEnforcer
  phase : Phase
deriving DecidableEq

namespace State

/-- The CPU budget is spent. -/
def spent (s : State) : Bool := s.cpu.any CpuEnforcer.terminated

/-- A turn, from `TurnGuard::begin` to its drop. -/
def turn (s : State) (time : Nat) : State :=
  { s with
    clock := s.clock + time
    cpu := s.cpu.map fun e => (e.beginTurn s.clock).endTurn (s.clock + time) }

/-- An open socket gets a whole budget for each turn. -/
def refill (s : State) (exit : EventLoopExit) : State :=
  if exit = .socketClosed then { s with cpu := s.cpu.map CpuEnforcer.refill } else s

def goto (s : State) (phase : Phase) : State := { s with phase }

end State

/-- What follows an event loop whose exit condition holds. -/
def EventLoopExit.next (socketOpen : Bool) : EventLoopExit → Phase
  | .responseReady | .handlerComplete => .reading
  | .streamsComplete => if socketOpen then .awaiting .socketClosed else .returning false (.ok ())
  | .socketClosed => .returning false (.ok ())
  | .fullyComplete => .returning true (.ok ())

/-- An event loop that fails. -/
def EventLoopExit.fail (message : String) (exit : EventLoopExit) : Phase :=
  .returning (exit == .fullyComplete) (.error message)

/-- A poll that got its turn. -/
def State.pollTurn (s : State) (exit : EventLoopExit) (time : Nat) (stopped : Bool)
    (rounds : Rounds) : State :=
  let s := s.refill exit
  let s' := s.turn time
  if stopped || s.spent then
    s'.goto (exit.fail "Execution terminated")
  else
    match rounds with
    | .closed => s'.goto (exit.fail "Event loop channel closed")
    | .exit socketOpen => s'.goto (exit.next socketOpen)
    | .pending stopped =>
      if stopped || s'.spent then s'.goto (exit.fail "Execution terminated") else s'

/-- What follows the turn that reads the answer. -/
def afterRead (result : Except String Unit) : Event → Phase
  | .fetch =>
    match result with
    | .ok () => .awaiting .streamsComplete
    | .error message => .returning false (.error message)
  | .task => .returning false (.ok ())

/-- The event loop that waits for the answer. -/
def firstExit : Event → EventLoopExit
  | .fetch => .responseReady
  | .task => .handlerComplete

def step (event : Event) (s : State) : Action → Option State
  | .tick time => some { s with clock := s.clock + time }
  | .trigger time _ result =>
    match s.phase with
    | .triggering =>
      some ((s.turn time).goto (match result with
        | .ok () => .awaiting (firstExit event)
        | .error message => .returning false (.error message)))
    | _ => none
  | .poll poll =>
    match s.phase, poll with
    | .awaiting .socketClosed, .expired => none
    | .awaiting exit, .expired => some (s.goto (exit.fail "Execution terminated"))
    | .awaiting _, .notLocked => some s
    | .awaiting exit, .turn time stopped _ rounds => some (s.pollTurn exit time stopped rounds)
    | _, _ => none
  | .read time _ result =>
    match s.phase with
    | .reading => some ((s.turn time).goto (afterRead result event))
    | _ => none
  | .check wall hit aborted =>
    match s.phase with
    | .returning draining result =>
      match checkTerminationReason s.spent wall hit aborted result, draining with
      -- the work of `waitUntil` runs on what is left
      | .ok (), false => some (s.goto (.awaiting .fullyComplete))
      | outcome, _ => some (s.goto (.ended outcome))
    | _ => none

/-- The steps, one constructor for each way a step can go. -/
inductive Step (event : Event) (s : State) : Action → State → Prop where
  | tick (time : Nat) : Step event s (.tick time) { s with clock := s.clock + time }
  | trigger (time : Nat) (guest : Bool) (result : Except String Unit)
      (hphase : s.phase = .triggering) : Step event s (.trigger time guest result)
      ((s.turn time).goto (match result with
        | .ok () => .awaiting (firstExit event)
        | .error message => .returning false (.error message)))
  | expired {exit : EventLoopExit} (hphase : s.phase = .awaiting exit)
      (hexit : exit ≠ .socketClosed) :
      Step event s (.poll .expired) (s.goto (exit.fail "Execution terminated"))
  | notLocked {exit : EventLoopExit} (hphase : s.phase = .awaiting exit) :
      Step event s (.poll .notLocked) s
  | pollTurn {exit : EventLoopExit} (time : Nat) (stopped guest : Bool) (rounds : Rounds)
      (hphase : s.phase = .awaiting exit) :
      Step event s (.poll (.turn time stopped guest rounds)) (s.pollTurn exit time stopped rounds)
  | read (time : Nat) (guest : Bool) (result : Except String Unit) (hphase : s.phase = .reading) :
      Step event s (.read time guest result) ((s.turn time).goto (afterRead result event))
  | drain {wall aborted : Bool} {hit : List Hit} {result : Except String Unit}
      (hphase : s.phase = .returning false result)
      (hok : checkTerminationReason s.spent wall hit aborted result = .ok ()) :
      Step event s (.check wall hit aborted) (s.goto (.awaiting .fullyComplete))
  | finish {wall aborted draining : Bool} {hit : List Hit} {result : Except String Unit}
      (hphase : s.phase = .returning draining result)
      (hlast : checkTerminationReason s.spent wall hit aborted result = .ok () →
        draining = true) : Step event s (.check wall hit aborted)
      (s.goto (.ended (checkTerminationReason s.spent wall hit aborted result)))

theorem of_step {event : Event} {s s' : State} {a : Action} (h : step event s a = some s') :
    Step event s a s' := by
  cases a with
  | tick time =>
      cases h
      exact .tick time
  | trigger time guest result =>
      simp only [step] at h
      split at h
      · next hphase =>
          cases h
          exact .trigger time guest result hphase
      · cases h
  | poll poll =>
      simp only [step] at h
      split at h
      · cases h
      · next exit hexit hphase =>
          cases h
          exact .expired hphase hexit
      · next exit hphase =>
          cases h
          exact .notLocked hphase
      · next exit time stopped guest rounds hphase =>
          cases h
          exact .pollTurn time stopped guest rounds hphase
      · cases h
  | read time guest result =>
      simp only [step] at h
      split at h
      · next hphase =>
          cases h
          exact .read time guest result hphase
      · cases h
  | check wall hit aborted =>
      simp only [step] at h
      split at h
      · next draining result hphase =>
          split at h
          · next hok =>
              cases h
              exact .drain hphase hok
          · next hlast =>
              cases h
              refine .finish hphase fun hok => ?_
              exact (Bool.not_eq_false _).mp (hlast hok)
      · cases h

def machine (event : Event) (maxCpuTimeMs : Nat) : Machine State Action where
  init := ⟨0, CpuEnforcer.new maxCpuTimeMs, .triggering⟩
  step := step event

/-! ## What is seen of a run -/

inductive Seen where
  /-- A turn ran JavaScript of the guest. -/
  | ran
  /-- A turn ended with the budget spent. -/
  | spent
deriving DecidableEq, Repr

/-- What is seen of a turn, with the state after it. -/
def seen (guest : Bool) (s : State) : List Seen :=
  (if guest then [.ran] else []) ++ if s.spent then [.spent] else []

def observe (s : State) : Action → List Seen
  | .trigger time guest _ | .read time guest _ => seen guest (s.turn time)
  | .poll (.turn time stopped guest _) =>
    match s.phase with
    | .awaiting exit =>
      seen (!stopped && !(s.refill exit).spent && guest) ((s.refill exit).turn time)
    | _ => []
  | .poll .expired | .poll .notLocked | .tick _ | .check _ _ _ => []

/-- JavaScript ran in no turn after one that ended with the budget spent. -/
def NoneAfterSpent (log : List Seen) : Prop := ¬ [.spent, .ran].Sublist log

/-- The poll that finds the answer leaves some of the budget. -/
def Guard (s : State) : Action → Prop
  | .poll (.turn time stopped _ (.exit _)) =>
    (s.phase = .awaiting .responseReady ∨ s.phase = .awaiting .handlerComplete) →
      stopped = false → s.spent = false → ∀ e ∈ s.cpu, time < e.remaining
  | _ => True

instance (s : State) (a : Action) : Decidable (Guard s a) := by
  cases a <;> dsimp only [Guard] <;> try split
  all_goals infer_instance

/-! ## Spent budgets -/

variable {event : Event} {s s' : State} {a : Action} {log : List Seen}

theorem spent_turn (s : State) (time : Nat) :
    (s.turn time).spent = true ↔ s.spent = true ∨ ∃ e ∈ s.cpu, e.remaining ≤ time := by
  unfold State.spent State.turn
  cases s.cpu with
  | none => simp
  | some e =>
      have hend : (e.beginTurn s.clock).endTurn (s.clock + time) = { e with
          turnStarted := none
          remaining := e.remaining - (s.clock + time - s.clock)
          terminated := e.terminated || e.remaining - (s.clock + time - s.clock) == 0 } :=
        CpuEnforcer.endTurn_of_started rfl
      rw [Option.map_some, Option.any_some, Option.any_some, hend, Nat.add_sub_cancel_left]
      simp [Nat.sub_eq_zero_iff_le]

theorem spent_refill (s : State) (exit : EventLoopExit) : (s.refill exit).spent = s.spent := by
  unfold State.refill
  split
  · cases hcpu : s.cpu with
    | none => rw [State.spent, State.spent, hcpu]; rfl
    | some e =>
        rw [State.spent, State.spent, hcpu]
        exact CpuEnforcer.terminated_refill
  · rfl

theorem spent_pollTurn (s : State) (exit : EventLoopExit) (time : Nat) (stopped : Bool)
    (rounds : Rounds) :
    (s.pollTurn exit time stopped rounds).spent = ((s.refill exit).turn time).spent := by
  simp only [State.pollTurn]
  split
  · rfl
  · cases rounds with
    | closed | exit => rfl
    | pending stopped =>
        show (if _ then _ else _ : State).spent = _
        split <;> rfl

theorem ran_mem_seen {guest : Bool} {t : State} : .ran ∈ seen guest t ↔ guest = true := by
  cases guest <;> cases ht : t.spent <;> simp [seen, ht]

theorem spent_mem_seen {guest : Bool} {t : State} : .spent ∈ seen guest t ↔ t.spent = true := by
  cases guest <;> cases ht : t.spent <;> simp [seen, ht]

/-- A spent budget stays spent, and a turn that ends with it is seen to. -/
theorem spent_step (hstep : step event s a = some s')
    (h : s.spent = true ∨ .spent ∈ observe s a) : s'.spent = true := by
  cases of_step hstep with
  | tick | expired | notLocked | drain | finish => exact h.resolve_right not_mem_nil
  | trigger time | read time =>
      rcases h with h | h
      · exact (spent_turn s time).mpr (.inl h)
      · exact spent_mem_seen.mp h
  | @pollTurn exit time stopped guest rounds hphase =>
      rw [spent_pollTurn]
      rcases h with h | h
      · exact (spent_turn _ time).mpr (.inl ((spent_refill s exit).trans h))
      · simp only [observe, hphase] at h
        exact spent_mem_seen.mp h

/-- Where an event may stand whose budget is spent. -/
def Stopping : Phase → Prop
  | .triggering | .reading => False
  | .awaiting _ | .returning _ _ => True
  | .ended outcome => outcome = .error .cpuTimeLimit

/-- An event loop whose exit condition holds is followed by the turn that reads only if it waited
for the answer. -/
theorem stopping_next (exit : EventLoopExit) (socketOpen : Bool) :
    Stopping (exit.next socketOpen) ∨ exit = .responseReady ∨ exit = .handlerComplete := by
  cases exit with
  | responseReady => exact .inr (.inl rfl)
  | handlerComplete => exact .inr (.inr rfl)
  | streamsComplete => cases socketOpen <;> exact .inl trivial
  | socketClosed | fullyComplete => exact .inl trivial

theorem stopping_pollTurn {exit : EventLoopExit} {time : Nat} {stopped guest : Bool}
    {rounds : Rounds} (hphase : s.phase = .awaiting exit)
    (hguard : Guard s (.poll (.turn time stopped guest rounds)))
    (hspent : (s.pollTurn exit time stopped rounds).spent = true) :
    Stopping (s.pollTurn exit time stopped rounds).phase := by
  have hawaiting : ((s.refill exit).turn time).phase = .awaiting exit := by
    unfold State.refill
    split <;> exact hphase
  rw [spent_pollTurn] at hspent
  simp only [State.pollTurn]
  split
  · exact trivial
  · next hlive =>
      obtain ⟨hstopped, hunspent⟩ := Bool.or_eq_false_iff.mp ((Bool.not_eq_true _).mp hlive)
      cases rounds with
      | closed => exact trivial
      | exit socketOpen =>
          refine (stopping_next exit socketOpen).resolve_right fun hexit => ?_
          have hrefill : s.refill exit = s := by
            rcases hexit with rfl | rfl <;> rfl
          rw [hrefill] at hspent hunspent
          -- The poll finds the answer, so it has left some of the budget.
          have hanswer := hexit.imp (fun heq => heq ▸ hphase) (fun heq => heq ▸ hphase)
          have hleft := hguard hanswer hstopped hunspent
          rcases (spent_turn s time).mp hspent with h | ⟨e, he, hle⟩
          · rw [hunspent] at h
            cases h
          · exact absurd (hleft e he) (Nat.not_lt.mpr hle)
      | pending stopped =>
          show Stopping (if _ then _ else _ : State).phase
          split
          · exact trivial
          · rw [hawaiting]
            exact trivial

/-- An event whose budget is spent does not come to a turn that triggers or reads, and it ends
with the limit. -/
theorem stopping_step (hstep : step event s a = some s') (hguard : Guard s a)
    (h : s.spent = true → Stopping s.phase) (hspent : s'.spent = true) : Stopping s'.phase := by
  cases of_step hstep with
  | tick | notLocked => exact h hspent
  | trigger time guest result => cases result <;> exact trivial
  | expired | drain => exact trivial
  | pollTurn time stopped guest rounds hphase => exact stopping_pollTurn hphase hguard hspent
  | read time guest result =>
      cases event with
      | fetch => cases result <;> exact trivial
      | task => exact trivial
  | @finish wall aborted _ hit result =>
      have hs : s.spent = true := hspent
      show checkTerminationReason s.spent wall hit aborted result = .error .cpuTimeLimit
      rw [hs]
      rfl

/-- JavaScript runs in no turn of an event whose budget is spent. -/
theorem not_spent_of_ran (hstep : step event s a = some s') (h : s.spent = true → Stopping s.phase)
    (hran : .ran ∈ observe s a) : s.spent = false := by
  cases of_step hstep with
  | tick | expired | notLocked | drain | finish => cases hran
  | trigger _ _ _ hphase | read _ _ _ hphase =>
      refine (Bool.not_eq_true _).mp fun hspent => ?_
      have hstopping := h hspent
      rw [hphase] at hstopping
      exact hstopping
  | pollTurn time stopped guest rounds hphase =>
      simp only [observe, hphase] at hran
      rw [ran_mem_seen, spent_refill] at hran
      refine (Bool.not_eq_true _).mp fun hspent => ?_
      rw [hspent] at hran
      simp at hran

/-! ## Runs -/

structure Inv (s : State) (log : List Seen) : Prop where
  spent : .spent ∈ log → s.spent = true
  stopping : s.spent = true → Stopping s.phase
  order : NoneAfterSpent log

/-- What one turn adds keeps the order, if it runs nothing after a spent budget. -/
theorem noneAfterSpent_append {guest : Bool} {t : State} (h : NoneAfterSpent log)
    (hran : guest = true → .spent ∉ log) : NoneAfterSpent (log ++ seen guest t) := by
  have hguest : NoneAfterSpent (log ++ if guest then [.ran] else []) := by
    cases guest with
    | false => simpa using h
    | true =>
        intro hsub
        rcases sublist_concat (p := [Seen.spent]) hsub with hsub | ⟨hsub, -⟩
        · exact h hsub
        · exact hran rfl (hsub.subset mem_cons_self)
  rw [seen, ← append_assoc]
  cases t.spent with
  | false => simpa using hguest
  | true =>
      intro hsub
      exact hguest (sublist_of_concat_ne (p := [Seen.spent]) hsub (by rintro ⟨⟩))

theorem observe_eq_seen (s : State) (a : Action) :
    observe s a = [] ∨ ∃ guest t, observe s a = seen guest t := by
  cases a with
  | tick | check => exact .inl rfl
  | trigger time guest result => exact .inr ⟨guest, _, rfl⟩
  | read time guest result => exact .inr ⟨guest, _, rfl⟩
  | poll poll =>
      cases poll with
      | expired | notLocked => exact .inl rfl
      | turn time stopped guest rounds =>
          simp only [observe]
          split
          · exact .inr ⟨_, _, rfl⟩
          · exact .inl rfl

theorem inv_step (s : State) (log : List Seen) (a : Action) (s' : State) (h : Inv s log)
    (hguard : Guard s a) (hstep : step event s a = some s') : Inv s' (log ++ observe s a) where
  spent hmem := by
    refine spent_step hstep ?_
    exact (mem_append.mp hmem).imp_left h.spent
  stopping := stopping_step hstep hguard h.stopping
  order := by
    rcases observe_eq_seen s a with hnil | ⟨guest, t, hseen⟩
    · rw [hnil, append_nil]
      exact h.order
    · rw [hseen]
      refine noneAfterSpent_append h.order fun hguest hmem => ?_
      have hspent := h.spent hmem
      rw [not_spent_of_ran hstep h.stopping (hseen ▸ ran_mem_seen.mpr hguest)] at hspent
      cases hspent

/-! ## The end of an event whose budget is spent -/

/-- The event goes on: a turn that it gets, a deadline that is over, or the look at its guards. -/
def Action.advances : Action → Bool
  | .tick _ | .poll .notLocked => false
  | .trigger _ _ _ | .poll .expired | .poll (.turn _ _ _ _) | .read _ _ _ | .check _ _ _ => true

/-- How many steps an event has before it, once its budget is spent. -/
def Phase.left : Phase → Nat
  | .ended _ => 0
  | .returning _ _ => 1
  | .awaiting _ | .triggering | .reading => 2

/-- The budget is spent, and the event is on its way to its end. -/
structure Ending (s : State) : Prop where
  spent : s.spent = true
  stopping : Stopping s.phase

theorem guard_of_spent (h : s.spent = true) (a : Action) : Guard s a := by
  unfold Guard
  split
  · intro _ _ hunspent
    rw [h] at hunspent
    cases hunspent
  · trivial

theorem Ending.kept (h : Ending s) (hstep : step event s a = some s') : Ending s' := by
  have hspent := spent_step hstep (.inl h.spent)
  exact ⟨hspent, stopping_step hstep (guard_of_spent h.spent a) (fun _ => h.stopping) hspent⟩

theorem Ending.left_lt (h : Ending s) (ha : a.advances = true) (hstep : step event s a = some s') :
    s'.phase.left < s.phase.left := by
  obtain ⟨hspent, hstopping⟩ := h
  cases of_step hstep with
  | tick | notLocked => cases ha
  | trigger _ _ _ hphase | read _ _ _ hphase =>
      rw [hphase] at hstopping
      exact hstopping.elim
  | expired hphase | finish hphase =>
      rw [hphase]
      exact Nat.lt_succ_self _
  | @pollTurn exit time stopped guest rounds hphase =>
      rw [hphase]
      -- The poll sees the spent budget and does nothing else.
      have hstop : (stopped || (s.refill exit).spent) = true := by
        rw [spent_refill, hspent, Bool.or_true]
      simp only [State.pollTurn, if_pos hstop]
      exact Nat.lt_succ_self _
  | drain hphase hok =>
      rw [hspent] at hok
      cases hok

/-- Unless it has ended, the event can go on. -/
theorem Ending.progress (h : Ending s) (event : Event) : s.phase = .ended (.error .cpuTimeLimit) ∨
    ∃ a s', step event s a = some s' ∧ a.advances = true := by
  cases hphase : s.phase with
  | triggering | reading =>
      have hstopping := h.stopping
      rw [hphase] at hstopping
      exact hstopping.elim
  | awaiting exit =>
      refine .inr ⟨.poll (.turn 0 false false .closed), s.pollTurn exit 0 false .closed, ?_, rfl⟩
      simp only [step, hphase]
  | returning draining result =>
      refine .inr ⟨.check false [] false, s.goto (.ended (.error .cpuTimeLimit)), ?_, rfl⟩
      simp only [step, hphase, h.spent]
      rfl
  | ended outcome =>
      have hstopping := h.stopping
      rw [hphase] at hstopping
      exact .inl (congrArg Phase.ended hstopping)

/-- **A spent budget.**  In every run of an event in which the poll that finds the answer leaves
some of the CPU budget, no turn after one that ended with the budget spent runs JavaScript of
the guest.  An event whose budget is spent has at most two steps before it: it ends, and with
the CPU limit. -/
theorem spent_budget_runs_no_more_js (event : Event) (maxCpuTimeMs : Nat) (ops : List Action)
    (s : State) (hrun : (machine event maxCpuTimeMs).run ops = some s)
    (hmeets : (machine event maxCpuTimeMs).Meets Guard (machine event maxCpuTimeMs).init ops) :
    NoneAfterSpent ((machine event maxCpuTimeMs).log observe ops) ∧
    (.spent ∈ (machine event maxCpuTimeMs).log observe ops →
      (∀ outcome, s.phase = .ended outcome → outcome = .error .cpuTimeLimit) ∧
      (∃ t, (machine event maxCpuTimeMs).Reaches (fun _ a => a.advances = true) s t ∧
        t.phase = .ended (.error .cpuTimeLimit)) ∧
      ∀ more t, (machine event maxCpuTimeMs).runFrom s more = some t →
        (∀ a ∈ more, a.advances = true) → more.length ≤ 2) := by
  have hinit : Inv (machine event maxCpuTimeMs).init [] := by
    refine ⟨fun h => absurd h not_mem_nil, fun h => ?_, fun h => by cases h⟩
    cases hnew : CpuEnforcer.new maxCpuTimeMs with
    | none => simp [machine, State.spent, hnew] at h
    | some e => simp [machine, State.spent, hnew, (CpuEnforcer.of_new hnew).2.2] at h
  have hinv := invariant_log_of_meets hinit inv_step hmeets hrun
  refine ⟨hinv.order, fun hmem => ?_⟩
  have hending : Ending s := ⟨hinv.spent hmem, hinv.stopping (hinv.spent hmem)⟩
  refine ⟨fun outcome hphase => ?_, ?_, fun more t hmore hadvances => ?_⟩
  · have hstopping := hending.stopping
    rw [hphase] at hstopping
    exact hstopping
  · obtain ⟨t, hreaches, -, ht⟩ := reaches_of_measure (m := machine event maxCpuTimeMs)
      (G := fun _ a => a.advances = true) (I := Ending) (fun s => s.phase.left) (fun s hs => by
        rcases hs.progress event with hended | ⟨a, s', hstep, ha⟩
        · exact .inl hended
        · exact .inr ⟨a, s', ha, hstep, hs.kept hstep, hs.left_lt ha hstep⟩) hending
    exact ⟨t, hreaches, ht⟩
  · refine Nat.le_trans (length_le_measure (fun s : State => s.phase.left)
      (fun s a s' hs ha hstep => ⟨hs.kept hstep, hs.left_lt ha hstep⟩) hending
      (meets_of_forall_mem s fun _ => hadvances) hmore) ?_
    cases s.phase <;> simp [Phase.left]

/-- The event is within its limit up to the last poll of its `waitUntil` work, which takes the rest
of the budget: it ends there. -/
def waited : List Action :=
  [.trigger 400000 true (.ok ()), .tick 70, .poll (.turn 300000 false true (.exit false)),
    .read 100000 true (.ok ()), .poll (.turn 50000 false true (.exit false)),
    .check false [] false, .poll .notLocked, .poll (.turn 200000 false true (.pending false)),
    .check false [] false]

theorem spent_budget_runs_no_more_js_waited :
    ∃ s, (machine .fetch 1).run waited = some s ∧ s.phase = .ended (.error .cpuTimeLimit) ∧
      .spent ∈ (machine .fetch 1).log observe waited ∧
      NoneAfterSpent ((machine .fetch 1).log observe waited) := by
  have hrun : (machine .fetch 1).run waited = some _ := rfl
  refine ⟨_, hrun, rfl, by decide, ?_⟩
  exact (spent_budget_runs_no_more_js .fetch 1 waited _ hrun (by decide)).1

/-- A task handler spends its whole budget in the turn that completes it.  The turn that reads
its result still runs the `toJSON` method of what it returned. -/
theorem spent_budget_reads_answer :
    let ops := [.trigger 100 true (.ok ()), .poll (.turn 1000000 false true (.exit false)),
      .read 500 true (.ok ()), .check false [] false]
    (∃ s, (machine .task 1).run ops = some s ∧ s.phase = .ended (.error .cpuTimeLimit)) ∧
      (machine .task 1).log observe ops = [.ran, .ran, .spent, .ran, .spent] ∧
      ¬ NoneAfterSpent ((machine .task 1).log observe ops) := by
  refine ⟨⟨_, rfl, rfl⟩, rfl, ?_⟩
  unfold NoneAfterSpent
  decide

end OpenWorkers.Security.Budget
