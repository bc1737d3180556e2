import OpenWorkers.Security.Turn

/-!
# The heap limit in force

`src/security/heap_limit.rs` and `LockerManagedIsolate::new` of
`src/locker_managed_isolate.rs`.

An isolate is built with a heap limit, and with a callback that V8 calls when the heap comes
near the limit.  The callback stops the JavaScript that runs and answers a limit that is
higher by a headroom, without which V8 would abort the process.  Of V8 it is assumed that what
the callback answers is the limit in force from then on, until it is changed; no line of the
source changes it.

This is a layer on the machine of turns: the same requests take the same steps, with the limit
beside them.  The pool looks at no outcome when it takes an isolate back, so an isolate whose
request was stopped for memory serves the next one.
-/

namespace OpenWorkers.Security

/-! ## The callback -/

/-- `HeapLimitState`, but for the handle and the flag, which are those of the isolate. -/
structure HeapLimitState where
  /-- Number of times the callback has been invoked. -/
  invocationCount : Nat
  /-- Maximum heap size in bytes (absolute limit). -/
  maxHeapBytes : Nat
deriving DecidableEq, Repr

def HeapLimitState.new (maxHeapBytes : Nat) : HeapLimitState := ⟨0, maxHeapBytes⟩

def terminationHeadroom : Nat := 2 * 1024 * 1024

/-- What `near_heap_limit_callback` does to its own state, and the limit that it answers.  The
flag that it sets and the termination that it asks for are in the step of the isolate. -/
def nearHeapLimitCallback (state : HeapLimitState) (currentHeapLimit _initialHeapLimit : Nat) :
    HeapLimitState × Nat :=
  ({ state with invocationCount := state.invocationCount + 1 },
    currentHeapLimit + terminationHeadroom)

/-! ## An isolate with its limit -/

structure LockerManagedIsolate where
  isolate : Isolate
  /-- The limit that V8 keeps to. -/
  heapLimit : Nat
  heapLimitState : HeapLimitState
deriving DecidableEq

namespace LockerManagedIsolate

/-- `LockerManagedIsolate::new`, with `heap_max_mb` of the limits. -/
def new (heapMaxMb : Nat) : LockerManagedIsolate :=
  let heapMax := heapMaxMb * 1024 * 1024
  ⟨Security.machine.init, heapMax, .new heapMax⟩

def step (s : LockerManagedIsolate) (op : Op) : Option LockerManagedIsolate :=
  (Security.step s.isolate op).map fun isolate =>
    match op with
    | .heapLimit _ =>
      let (heapLimitState, heapLimit) :=
        nearHeapLimitCallback s.heapLimitState s.heapLimit s.heapLimitState.maxHeapBytes
      { isolate, heapLimit, heapLimitState }
    | _ => { s with isolate }

/-- The life of an isolate. -/
def machine (heapMaxMb : Nat) : Machine LockerManagedIsolate Op where
  init := new heapMaxMb
  step := step

end LockerManagedIsolate

/-- V8 calls the callback in this step. -/
def Op.callsBack : Op → Bool
  | .heapLimit _ => true
  | .arrive _ | .setUp _ | .failSetUp _ _ | .load _ | .endLoad _ | .checkLoad _ _ _ _ | .reset _ _
  | .endReset _ _ | .exec _ _ | .begin _ | .endTurn _ | .check _ _ _ _ _ | .terminate _
  | .bufferLimit _ => false

/-- A request starts: it comes in, or takes the isolate before it has run anything there. -/
def Op.starts : Op → Bool
  | .arrive _ | .setUp _ | .reset _ _ => true
  | .failSetUp _ _ | .load _ | .endLoad _ | .checkLoad _ _ _ _ | .endReset _ _ | .exec _ _
  | .begin _ | .endTurn _ | .check _ _ _ _ _ | .terminate _ | .heapLimit _ | .bufferLimit _ => false

theorem Op.callsBack_of_starts {op : Op} (h : op.starts = true) : op.callsBack = false := by
  cases op <;> first | rfl | cases h

/-- Some request was stopped for memory. -/
def Isolate.StoppedForMemory (s : Isolate) : Prop := .ended (.error .memoryLimit) ∈ s.requests

instance (s : Isolate) : Decidable s.StoppedForMemory :=
  inferInstanceAs (Decidable (_ ∈ s.requests))

/-! ## What the callbacks add up to -/

namespace LockerManagedIsolate

variable {heapMaxMb : Nat} {s s' t : LockerManagedIsolate} {op : Op} {ops : List Op}

/-- The isolate after steps with `callbacks` callbacks among them. -/
def after (s : LockerManagedIsolate) (callbacks : Nat) (isolate : Isolate) :
    LockerManagedIsolate where
  isolate := isolate
  heapLimit := s.heapLimit + terminationHeadroom * callbacks
  heapLimitState :=
    { s.heapLimitState with
      invocationCount := s.heapLimitState.invocationCount + callbacks }

theorem after_after (s : LockerManagedIsolate) (m n : Nat) (i j : Isolate) :
    (s.after m i).after n j = s.after (m + n) j := by
  simp only [after, Nat.add_assoc, Nat.mul_add]

/-- **What a step does.**  The isolate takes its own step, and a callback moves the limit. -/
theorem step_eq (s : LockerManagedIsolate) (op : Op) :
    s.step op = (Security.step s.isolate op).map (s.after op.callsBack.toNat) := by
  cases op <;> rfl

/-- **What a run does.**  The isolate has the runs of the machine of turns, and the limit in
force says how many callbacks there were. -/
theorem runFrom_eq (s : LockerManagedIsolate) (ops : List Op) :
    (machine heapMaxMb).runFrom s ops =
      (Security.machine.runFrom s.isolate ops).map (s.after (ops.countP Op.callsBack)) := by
  induction ops generalizing s with
  | nil => rfl
  | cons op ops ih =>
      rw [Machine.runFrom_cons, Machine.runFrom_cons]
      change (s.step op).bind _ = Option.map _ ((Security.step s.isolate op).bind _)
      rw [step_eq]
      cases Security.step s.isolate op with
      | none => rfl
      | some i =>
          change (machine heapMaxMb).runFrom (s.after _ i) ops =
            Option.map _ (Security.machine.runFrom i ops)
          rw [ih]
          have hcount : op.callsBack.toNat + ops.countP Op.callsBack =
              (op :: ops).countP Op.callsBack := by
            rw [List.countP_cons, Nat.add_comm]
            cases op.callsBack <;> rfl
          rw [← hcount]
          congr 1
          funext j
          exact after_after s _ _ i j

/-- The limit in force is the configured maximum and one headroom for every callback. -/
theorem run_eq (h : (machine heapMaxMb).run ops = some s) :
    s = (new heapMaxMb).after (ops.countP Op.callsBack) s.isolate := by
  rw [Machine.run, runFrom_eq] at h
  obtain ⟨i, -, rfl⟩ := Option.map_eq_some_iff.mp h
  rfl

theorem heapLimit_of_run (h : (machine heapMaxMb).run ops = some s) :
    s.heapLimit = heapMaxMb * 1024 * 1024 +
      terminationHeadroom * s.heapLimitState.invocationCount := by
  rw [run_eq h]
  simp only [after, new, HeapLimitState.new, Nat.zero_add]

/-! ## Where the limit stays -/

/-- Only before the first callback does a callback come, and does a request start after one
that was stopped for memory. -/
def HeapLimitGuard (s : LockerManagedIsolate) (op : Op) : Prop :=
  op.callsBack = true ∨ op.starts = true ∧ s.isolate.StoppedForMemory →
    s.heapLimitState.invocationCount = 0

instance (s : LockerManagedIsolate) (op : Op) : Decidable (HeapLimitGuard s op) :=
  inferInstanceAs (Decidable (_ → _))

/-- What is asked of a step: at most one headroom is in force after it, and none if a request
starts with it after one that was stopped for memory. -/
def WithinLimit (heapMax : Nat) (s : LockerManagedIsolate) (op : Op) (s' : LockerManagedIsolate) :
    Prop :=
  s'.heapLimit ≤ heapMax + terminationHeadroom ∧
    (op.starts = true → s.isolate.StoppedForMemory → s'.heapLimit = heapMax)

theorem invocationCount_of_step (h : s.step op = some s') :
    s'.heapLimitState.invocationCount =
      s.heapLimitState.invocationCount + op.callsBack.toNat := by
  rw [step_eq] at h
  obtain ⟨i, -, rfl⟩ := Option.map_eq_some_iff.mp h
  rfl

/-- The guard lets one callback through. -/
theorem HeapLimitGuard.count_le_one (hguard : HeapLimitGuard s op)
    (hle : s.heapLimitState.invocationCount ≤ 1) :
    s.heapLimitState.invocationCount + op.callsBack.toNat ≤ 1 := by
  cases hcalls : op.callsBack with
  | false => exact hle
  | true =>
      rw [hguard (.inl hcalls)]
      exact Nat.le_refl 1

theorem invocationCount_le_one
    (hmeets : (machine heapMaxMb).Meets HeapLimitGuard (new heapMaxMb) ops)
    (hrun : (machine heapMaxMb).run ops = some s) : s.heapLimitState.invocationCount ≤ 1 := by
  refine Machine.invariant_of_meets (I := fun s => s.heapLimitState.invocationCount ≤ 1)
    (Nat.zero_le 1) ?_ hmeets hrun
  intro s op s' hle hguard hstep
  rw [invocationCount_of_step hstep]
  exact hguard.count_le_one hle

theorem heapLimit_of_step (hrun : (machine heapMaxMb).run ops = some s)
    (hstep : s.step op = some s') :
    s'.heapLimit = heapMaxMb * 1024 * 1024 +
      terminationHeadroom * (s.heapLimitState.invocationCount + op.callsBack.toNat) := by
  rw [← invocationCount_of_step hstep]
  exact heapLimit_of_run (Machine.runFrom_concat_eq_some.mpr ⟨s, hrun, hstep⟩)

/-- A step after few enough callbacks is within the limit. -/
theorem withinLimit_of_guard (hrun : (machine heapMaxMb).run ops = some s)
    (hle : s.heapLimitState.invocationCount ≤ 1) (hguard : HeapLimitGuard s op)
    (hstep : s.step op = some s') : WithinLimit (heapMaxMb * 1024 * 1024) s op s' := by
  have hlimit := heapLimit_of_step hrun hstep
  constructor
  · rw [hlimit]
    exact Nat.add_le_add_left (Nat.mul_le_mul_left terminationHeadroom (hguard.count_le_one hle)) _
  · intro hstarts hstopped
    rw [hlimit, Op.callsBack_of_starts hstarts, hguard (.inr ⟨hstarts, hstopped⟩),
      Bool.toNat_false, Nat.add_zero, Nat.mul_zero, Nat.add_zero]

/-- A step within the limit meets the guard. -/
theorem guard_of_withinLimit (hrun : (machine heapMaxMb).run ops = some s)
    (hstep : s.step op = some s') (hwithin : WithinLimit (heapMaxMb * 1024 * 1024) s op s') :
    HeapLimitGuard s op := by
  have hlimit := heapLimit_of_step hrun hstep
  rintro (hcalls | ⟨hstarts, hstopped⟩)
  · have hle := hwithin.1
    rw [hlimit, hcalls, terminationHeadroom, Bool.toNat_true] at hle
    omega
  · have heq := hwithin.2 hstarts hstopped
    rw [hlimit, Op.callsBack_of_starts hstarts, terminationHeadroom, Bool.toNat_false] at heq
    omega

/-- **The heap limit over the life of an isolate.**  It grows by one headroom with every callback
and never comes back, so it stays within one headroom of the maximum, and is at the maximum
where a request starts after one that was stopped for memory, exactly in the lives in which the
callback comes at most once and no request starts after both it and such a stop. -/
theorem heap_limit_within_iff (heapMaxMb : Nat) (ops : List Op) (t : LockerManagedIsolate)
    (hrun : (machine heapMaxMb).run ops = some t) :
    t.heapLimit = heapMaxMb * 1024 * 1024 + terminationHeadroom * ops.countP Op.callsBack ∧
    ((∀ before op after s s', ops = before ++ op :: after →
        (machine heapMaxMb).run before = some s → s.step op = some s' →
        WithinLimit (heapMaxMb * 1024 * 1024) s op s') ↔
      (machine heapMaxMb).Meets HeapLimitGuard (new heapMaxMb) ops) := by
  refine ⟨?_, ?_, ?_⟩
  · rw [run_eq hrun]
    rfl
  · intro hwithin
    refine Machine.meets_iff_forall_step.mpr fun before op after s hops hbefore => ?_
    subst hops
    rw [Machine.run_append hbefore] at hrun
    obtain ⟨s', hstep, -⟩ := Machine.runFrom_cons_eq_some.mp hrun
    exact guard_of_withinLimit hbefore hstep (hwithin before op after s s' rfl hbefore hstep)
  · intro hmeets before op after s s' hops hbefore hstep
    subst hops
    obtain ⟨hmeets, hop⟩ := (Machine.meets_append hbefore).mp hmeets
    exact withinLimit_of_guard hbefore (invocationCount_le_one hmeets hbefore) hop.1 hstep

/-- Request `r` comes in, hits the heap limit while its script is loaded, and is stopped. -/
def stopsFor (r : Nat) : List Op :=
  [.arrive false, .setUp r, .load r, .heapLimit r, .endLoad r, .checkLoad r false false (.ok ())]

theorem heap_limit_within_iff_one : ∃ t, (machine 128).run (stopsFor 0) = some t ∧
    t.isolate.StoppedForMemory ∧ t.heapLimit = 130 * 1024 * 1024 ∧
    ∀ before op after s s', stopsFor 0 = before ++ op :: after →
      (machine 128).run before = some s → s.step op = some s' →
      WithinLimit (128 * 1024 * 1024) s op s' := by
  refine ⟨_, rfl, by decide, by decide, ?_⟩
  exact (heap_limit_within_iff 128 (stopsFor 0) _ rfl).2.mpr (by decide)

/-- The second request of an isolate starts with the headroom of the first one, and leaves two. -/
theorem heap_limit_ratchets : ∃ s s' t, (machine 128).run (stopsFor 0) = some s ∧
    s.isolate.StoppedForMemory ∧ s.step (.arrive false) = some s' ∧
    s'.heapLimit = 130 * 1024 * 1024 ∧
    (machine 128).run (stopsFor 0 ++ stopsFor 1) = some t ∧ t.heapLimit = 132 * 1024 * 1024 :=
  ⟨_, _, _, rfl, by decide, rfl, by decide, rfl, by decide⟩

end LockerManagedIsolate

end OpenWorkers.Security
