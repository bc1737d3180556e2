import OpenWorkers.Object.InputGate

/-!
# No event is dropped

`serve` takes its first event before it looks at the gate, and holds it in `queue` until the
gate lets it in; every other event it takes from the mailbox only to admit it at once.  So
the events taken are those admitted, perhaps one whose admission failed, and the first one
while it waits.

`serve` decides that it is idle by the events in flight and the idle timer, and the queue is
neither.  A run that returns `Ok` admitted every event it took exactly if, in no poll, the
idle timer had run out while the first event was still waiting (`events_admitted`); otherwise
the event is gone with the instance (`first_event_dropped`).
-/

namespace OpenWorkers.Object.Serve

open List Option

/-! ## While the first event waits -/

/-- The events admitted so far in the round. -/
def Phase.admittedCount : Phase → Nat
  | .admitting _ admitted | .draining _ admitted _ | .answering _ admitted _ => admitted
  | .idle | .settling _ | .ended _ => 0

/-- While the first event waits in the queue, nothing keeps the object. -/
structure WaitInv (s : State) : Prop where
  inflight : s.queue ≠ [] → s.inflight = []
  active : s.queue ≠ [] → s.active = false
  took : s.queue ≠ [] → s.took = false
  count : s.queue ≠ [] → s.phase.admittedCount = 0
  closed : s.queue ≠ [] → s.closed = false
  /-- It is alone. -/
  queue : s.queue.length ≤ 1

variable {cfg : Config} {s s' : State}

/-- An event was taken from the queue, or there was none. -/
theorem nextEvent_queue {next : State} {id : EventId} (hlen : s.queue.length ≤ 1)
    (h : s.nextEvent = some (id, next)) : next.queue = [] := by
  rcases nextEvent_eq_some h with ⟨hqueue, -⟩ | ⟨-, -, hnil, -⟩
  · rw [hqueue, length_cons] at hlen
    exact length_eq_zero_iff.mp (by omega)
  · exact hnil

namespace WaitInv

theorem init {glue : Glue} {first : ObjectEvent} : WaitInv (Serve.init cfg glue first) :=
  ⟨fun _ => rfl, fun _ => rfl, fun _ => rfl, fun _ => rfl, fun _ => rfl, le_rfl⟩

/-- A state without a waiting event. -/
theorem of_nil (h : s.queue = []) : WaitInv s :=
  ⟨fun hne => absurd h hne, fun hne => absurd h hne, fun hne => absurd h hne,
    fun hne => absurd h hne,
    fun hne => absurd h hne, by simp [h]⟩

theorem admitEvent (h : WaitInv s) {round admitted : Nat} {effects : List GlueOp}
    {error : Option String} (hstep : s.admitEvent round admitted effects error = some s') :
    WaitInv s' := by
  obtain ⟨-, hstep⟩ := ite_none_right_eq_some.mp hstep
  obtain ⟨⟨id, next⟩, hnext, hstep⟩ := bind_eq_some_iff.mp hstep
  obtain ⟨glue, -, rfl⟩ := map_eq_some_iff.mp hstep
  have hnil : next.queue = [] := nextEvent_queue h.queue hnext
  cases error <;> exact of_nil hnil

theorem endAdmission (h : WaitInv s) {round admitted : Nat}
    (hphase : s.phase = .admitting round admitted)
    (hstep : s.endAdmission round admitted = some s') : WaitInv s' := by
  obtain ⟨hcond, heq⟩ := ite_none_left_eq_some.mp hstep
  cases heq
  refine ⟨h.inflight, h.active, h.took, fun hne => ?_, fun hne => ?_, h.queue⟩
  · have hcount := h.count hne
    rw [hphase] at hcount
    simp only
    split
    · exact hcount
    · rfl
  · -- With an event in the queue, only a closed gate ends the admission.
    have hsome : s.nextEvent.isSome = true := by
      have hwaits : s.queue ≠ [] := hne
      obtain ⟨id, queue, hqueue⟩ := exists_cons_of_ne_nil hwaits
      simp [State.nextEvent, hqueue]
    have hgate : s.glue.gate.isOpen = false := by
      simpa [hsome] using hcond
    simp [h.closed hne, hgate]

theorem answer (h : WaitInv s) {round admitted count : Nat} {answered : Bool}
    {finished : List EventId} {effects : List GlueOp}
    (hphase : s.phase = .answering round admitted count)
    (hstep : s.answer round admitted count answered finished effects = some s') : WaitInv s' := by
  unfold State.answer at hstep
  split at hstep
  · cases hstep
    exact ⟨h.inflight, h.active, h.took, fun _ => rfl, h.closed, h.queue⟩
  · obtain ⟨-, hstep⟩ := ite_none_left_eq_some.mp hstep
    obtain ⟨glue, -, rfl⟩ := map_eq_some_iff.mp hstep
    have hinflight : s.queue ≠ [] → s.inflight.filter (· ∉ finished) = [] := fun hne => by
      rw [h.inflight hne]
      rfl
    have htook : s.queue ≠ [] → (s.took || decide (0 < admitted)) = false := fun hne => by
      have hcount := h.count hne
      rw [hphase] at hcount
      simp [h.took hne, show admitted = 0 from hcount]
    simp only
    split
    · exact ⟨hinflight, h.active, htook, fun _ => rfl, h.closed, h.queue⟩
    · split
      · exact ⟨hinflight, h.active, htook, fun _ => rfl, h.closed, h.queue⟩
      · exact ⟨hinflight, h.active, htook, fun _ => rfl, h.closed, h.queue⟩

theorem checkIdle (h : WaitInv s) : WaitInv (s.checkIdle cfg) := by
  unfold State.checkIdle
  split
  · exact ⟨h.inflight, h.active, h.took, fun _ => rfl, h.closed, h.queue⟩
  · split
    · simp only
      split
      · exact ⟨h.inflight, h.active, h.took, fun _ => rfl, h.closed, h.queue⟩
      · exact ⟨h.inflight, h.active, h.took, fun _ => rfl, h.closed, h.queue⟩
    · exact ⟨h.inflight, h.active, h.took, fun _ => rfl, h.closed, h.queue⟩

theorem settle (h : WaitInv s) {error : Option String} {limit : Option TerminationReason}
    {pinned : Bool} {left : List EventId} : WaitInv (s.settle cfg error limit pinned left) := by
  unfold State.settle
  split
  · exact ⟨h.inflight, h.active, h.took, fun _ => rfl, h.closed, h.queue⟩
  · exact ⟨h.inflight, h.active, h.took, fun _ => rfl, h.closed, h.queue⟩
  · split
    · exact ⟨h.inflight, h.active, h.took, fun _ => rfl, h.closed, h.queue⟩
    · next s₁ hgate =>
        rw [State.checkGate_eq_ok hgate]
        refine checkIdle ⟨fun hne => ?_, h.active, h.took, h.count, h.closed, h.queue⟩
        show s.inflight.filter (· ∉ left) = []
        rw [h.inflight hne]
        rfl

theorem step (s : State) (a : Action) (s' : State) (h : WaitInv s)
    (hstep : Serve.step cfg s a = some s') : WaitInv s' := by
  cases of_step hstep with
  | tick | closeMailbox | closeChannel | mail | arrive => exact { h with }
  | poll =>
      exact ⟨h.inflight, fun hne => by simp [h.inflight hne], fun _ => rfl, fun _ => rfl, h.closed,
        h.queue⟩
  | admitEvent hphase hadmit => exact h.admitEvent hadmit
  | endAdmission hphase hend => exact h.endAdmission hphase hend
  | deliver hphase =>
      refine { h with count := fun hne => ?_ }
      have hcount := h.count hne
      rw [hphase] at hcount
      exact hcount
  | endDrain hphase =>
      refine { h with count := fun hne => ?_ }
      have hcount := h.count hne
      rw [hphase] at hcount
      exact hcount
  | answer hphase hanswer => exact h.answer hphase hanswer
  | settle => exact h.settle

end WaitInv

/-! ## The end of a run -/

/-- Once `serve` has returned, nothing of it changes. -/
theorem ended_step {outcome : Outcome} {queue : List EventId} (s : State) (a : Action) (s' : State)
    (h : s.phase = .ended outcome ∧ s.queue = queue) (hstep : step cfg s a = some s') :
    s'.phase = .ended outcome ∧ s'.queue = queue := by
  cases a with
  | tick | closeMailbox | closeChannel =>
      cases hstep
      exact h
  | mail | arrive =>
      obtain ⟨-, heq⟩ := ite_none_right_eq_some.mp hstep
      cases heq
      exact h
  | poll | admitEvent | endAdmission | deliver | endDrain | answer | settle =>
      simp only [step, h.1] at hstep
      cases hstep

/-- The idle timer as it stands after a turn that took nothing. -/
def State.idleDeadline (s : State) (cfg : Config) (pinned : Bool) : Nat :=
  if pinned then s.now + cfg.idle else s.idleTimer

/-- **The condition on a step**: after no turn has the idle timer run out with the first
event still in the queue. -/
def IdleGuard (cfg : Config) (s : State) : Action → Prop
  | .settle _ _ _ pinned _ => s.queue ≠ [] → s.now < s.idleDeadline cfg pinned
  | _ => True

instance (s : State) (a : Action) : Decidable (IdleGuard cfg s a) := by
  apply @Action.casesOn _ a <;> intros <;> dsimp only [IdleGuard] <;> infer_instance

section Settle

variable {error : Option String} {limit : Option TerminationReason} {pinned : Bool}
  {left : List EventId}

/-- With the first event waiting, a turn ends the run, and with `Ok` only if the idle timer
has run out. -/
theorem settle_of_waiting (h : WaitInv s) (hne : s.queue ≠ []) :
    (s.settle cfg error limit pinned left).queue = s.queue ∧
      ((s.settle cfg error limit pinned left).phase = .ended (.ok ()) →
        s.idleDeadline cfg pinned ≤ s.now) ∧
      (s.idleDeadline cfg pinned ≤ s.now →
        ∃ outcome, (s.settle cfg error limit pinned left).phase = .ended outcome) := by
  unfold State.settle
  split
  · refine ⟨rfl, fun hok => ?_, fun _ => ⟨_, rfl⟩⟩
    cases hok
  · refine ⟨rfl, fun hok => ?_, fun _ => ⟨_, rfl⟩⟩
    cases hok
  · split
    · refine ⟨rfl, fun hok => ?_, fun _ => ⟨_, rfl⟩⟩
      cases hok
    · next s₁ hgate =>
        rw [State.checkGate_eq_ok hgate]
        have hkeep : State.keep { s with gateTimer := s₁.gateTimer } cfg pinned left =
            { s with
              gateTimer := s₁.gateTimer
              inflight := []
              idleTimer := s.idleDeadline cfg pinned } := by
          simp [State.keep, State.idleDeadline, h.inflight hne, h.active hne, h.took hne]
        rw [hkeep, State.checkIdle]
        simp only [true_and, h.closed hne, Bool.false_eq_true, false_or, if_false]
        split
        · next hidle => exact ⟨rfl, fun _ => hidle, fun _ => ⟨_, rfl⟩⟩
        · next hidle =>
            refine ⟨rfl, fun hok => ?_, fun h => absurd h hidle⟩
            cases hok

end Settle

/-- Only what follows a turn ends a run. -/
theorem settle_of_ended {outcome : Outcome} {a : Action} (hstep : step cfg s a = some s')
    (hended : s'.phase = .ended outcome) :
    s.phase = .ended outcome ∧ s'.queue = s.queue ∨
      ∃ error cpu wall memory pinned left, a = .settle cpu wall memory pinned left ∧
        s' = s.settle cfg error (stopped cpu wall memory) pinned left := by
  cases of_step hstep with
  | tick | closeMailbox | closeChannel | mail | arrive => exact .inl ⟨hended, rfl⟩
  | poll | deliver | endDrain => cases hended
  | @admitEvent _ _ _ error _ hphase hadmit =>
      obtain ⟨-, hadmit⟩ := ite_none_right_eq_some.mp hadmit
      obtain ⟨next, -, hadmit⟩ := bind_eq_some_iff.mp hadmit
      obtain ⟨glue, -, rfl⟩ := map_eq_some_iff.mp hadmit
      cases error <;> cases hended
  | endAdmission hphase hend =>
      obtain ⟨-, heq⟩ := ite_none_left_eq_some.mp hend
      cases heq
      simp only at hended
      split at hended <;> cases hended
  | answer hphase hanswer =>
      unfold State.answer at hanswer
      split at hanswer
      · cases hanswer
        cases hended
      · obtain ⟨-, hanswer⟩ := ite_none_left_eq_some.mp hanswer
        obtain ⟨glue, -, rfl⟩ := map_eq_some_iff.mp hanswer
        simp only at hended
        split at hended
        · cases hended
        · split at hended <;> cases hended
  | @settle error cpu wall memory pinned left hphase =>
      exact .inr ⟨error, cpu, wall, memory, pinned, left, rfl, rfl⟩

/-- In a run that meets the condition, `Ok` finds no event in the queue. -/
theorem ok_step (s : State) (a : Action) (s' : State)
    (h : WaitInv s ∧ (s.phase = .ended (.ok ()) → s.queue = [])) (hguard : IdleGuard cfg s a)
    (hstep : step cfg s a = some s') :
    WaitInv s' ∧ (s'.phase = .ended (.ok ()) → s'.queue = []) := by
  refine ⟨h.1.step s a s' hstep, fun hok => ?_⟩
  rcases settle_of_ended hstep hok with
    ⟨hbefore, hqueue⟩ | ⟨error, cpu, wall, memory, pinned, left, rfl, rfl⟩
  · rw [hqueue]
    exact h.2 hbefore
  · by_contra hne
    have hsame : (s.settle cfg error (stopped cpu wall memory) pinned left).queue = s.queue := by
      cases booked_step hstep with
      | same hbooks => exact congrArg Books.queue hbooks
    rw [hsame] at hne
    exact absurd (hguard hne) (not_lt.mpr ((settle_of_waiting h.1 hne).2.1 hok))

/-- A run that ends with an empty queue meets the condition: a step that does not would
have ended it with the event in the queue. -/
theorem meets_of_admitted {m : Machine State Action} (hm : m.step = step cfg)
    {actions : List Action}
    (h : WaitInv s) (hrun : m.runFrom s actions = some s') (hqueue : s'.queue = []) :
    m.Meets (IdleGuard cfg) s actions := by
  induction actions generalizing s with
  | nil => trivial
  | cons a actions ih =>
      obtain ⟨s₁, hstep, hrest⟩ := Machine.runFrom_cons_eq_some.mp hrun
      have hstep' : step cfg s a = some s₁ := hm ▸ hstep
      refine (Machine.meets_cons hstep).mpr ⟨?_, ih (h.step s a s₁ hstep') hrest⟩
      cases a with
      | settle cpu wall memory pinned left =>
          intro hne
          by_contra hidle
          simp only [step] at hstep'
          split at hstep'
          · next error _ =>
              cases hstep'
              obtain ⟨hsame, -, hended⟩ :=
                @settle_of_waiting cfg s error (stopped cpu wall memory) pinned left h hne
              obtain ⟨outcome, hphase⟩ := hended (not_lt.mp hidle)
              have hfinal := m.invariant_from (hm ▸ ended_step) ⟨hphase, hsame⟩ hrest
              exact hne (hfinal.2.symm.trans hqueue)
          · cases hstep'
      | _ => trivial

/-- **No event is dropped.**  A run of `serve` that returns `Ok` refused no event, and the
events it took are those it admitted and those still in the queue, in the order of the
mailbox; the others are in the mailbox.  It admitted all that it took exactly if after no
turn the idle timer had run out with the first event still in the queue.  An event is
refused only in a run that returns an error. -/
theorem events_admitted (cfg : Config) (glue : Glue) (first : ObjectEvent) (actions : List Action)
    (s : State) (hrun : (machine cfg glue first).run actions = some s) :
    (s.phase = .ended (.ok ()) →
      s.refused = [] ∧ s.admitted.map Prod.fst ++ s.queue = List.range s.taken ∧
      (s.admitted.map Prod.fst = List.range s.taken ↔
        (machine cfg glue first).Meets (IdleGuard cfg) (machine cfg glue first).init actions)) ∧
    (s.refused ≠ [] → s.phase.failed = true) := by
  have hevents : EventsInv s :=
    (machine cfg glue first).invariant EventsInv.init EventsInv.step hrun
  refine ⟨fun hok => ?_, hevents.refused⟩
  have hrefused : s.refused = [] := by
    by_contra hne
    have hfailed := hevents.refused hne
    rw [hok] at hfailed
    cases hfailed
  have horder := hevents.order
  rw [hrefused, append_nil] at horder
  refine ⟨hrefused, horder, ?_, fun hmeets => ?_⟩
  · intro hall
    refine meets_of_admitted rfl WaitInv.init hrun ?_
    rw [← hall] at horder
    simpa using horder
  · have hqueue : s.queue = [] :=
      ((machine cfg glue first).invariant_of_meets
        (I := fun s => WaitInv s ∧ (s.phase = .ended (.ok ()) → s.queue = []))
        ⟨WaitInv.init, fun h => by cases h⟩ ok_step hmeets hrun).2 hok
    rw [← horder, hqueue, append_nil]

/-- A round in which nothing happens, and what follows it. -/
def quietPoll : List Action :=
  [.poll, .endAdmission, .endDrain, .answer false [] [], .settle false false false false []]

/-- The constructor holds the gate for less than the idle time. -/
def shortBlockRun : List Action :=
  quietPoll ++ [.tick 500, .arrive (.executeTimeout 1), .poll, .endAdmission, .deliver [.unblock],
    .endDrain, .answer false [] [], .admitEvent [] none, .endAdmission, .endDrain,
    .answer true [0] [], .endAdmission, .endDrain, .answer false [] [],
    .settle false false false false []] ++ [.tick 1000] ++ quietPoll

theorem events_admitted_short_block :
    ∃ s, (machine ⟨1000, 1000⟩ ⟨1, 0, none⟩ .fetch).run shortBlockRun = some s ∧
      s.phase = .ended (.ok ()) ∧ s.admitted.map Prod.fst = List.range s.taken := by
  have h := events_admitted ⟨1000, 1000⟩ ⟨1, 0, none⟩ .fetch shortBlockRun _ rfl
  exact ⟨_, rfl, rfl, (h.1 rfl).2.2.mpr (by decide)⟩

/-- The constructor holds the gate with `blockConcurrencyWhile` for longer than the idle
time, which is far below the timeout of the gate: `serve` returns `Ok`, and its first event
was never admitted. -/
theorem first_event_dropped :
    ∃ s, (machine ⟨1000, 1000⟩ ⟨1, 0, none⟩ .fetch).run
      (quietPoll ++ [.tick 1000] ++ quietPoll) = some s ∧
      s.phase = .ended (.ok ()) ∧ s.taken = 1 ∧ s.queue = [0] ∧ s.admitted = [] :=
  ⟨_, rfl, rfl, rfl, rfl, rfl⟩

end OpenWorkers.Object.Serve
