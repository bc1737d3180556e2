import OpenWorkers.Lib.Erase
import OpenWorkers.Lib.Sorted
import OpenWorkers.Object.Context
import Mathlib.Data.Nat.Basic
import Mathlib.Order.Basic

/-!
# The instances of one Durable Object

`durable_object::run`: an object is built for an event, dropped when it is idle or stopped,
and built again for the next event.  Each instance has its own context, event loop and queue
task.  Dropping the context aborts the loop, but the queue task is detached: it goes on with
what was queued, and `run` does not wait for it.

Is the object one driver of its storage nonetheless?  It is in the runs in which an instance
is built only when every earlier one has finished (`one_storage_driver`), and not in general
(`read_overtakes_old_write`).
-/

namespace OpenWorkers.Object

open List Option Scheduler Machine

/-! ## A pipeline that has finished -/

namespace Pipeline

/-- The ops that the queue task still has before it. -/
def pending (p : Pipeline) : List Operation :=
  if p.alive then (p.queued.drop p.taken).filterMap fun item => item.2.op else []

/-- The event loop has ended, and no op is queued or under way. -/
def Finished (p : Pipeline) : Prop := p.running = false ∧ p.busy = false ∧ p.pending = []

instance (p : Pipeline) : Decidable p.Finished :=
  inferInstanceAs (Decidable (p.running = false ∧ p.busy = false ∧ p.pending = []))

/-- The item that a finished queue takes, if any, is a barrier. -/
theorem Finished.op_eq_none {p p' : Pipeline} (h : p.Finished) {item : MsgId × Queued}
    {events : List QueueEvent} (htake : p.take = some (item, events, p')) :
    item.2.op = none := by
  obtain ⟨halive, -, hitem, -, -⟩ := take_eq_some htake
  have hpending := h.2.2
  rw [pending, if_pos halive, filterMap_eq_nil_iff] at hpending
  refine hpending item (mem_iff_getElem?.mpr ⟨0, ?_⟩)
  rw [getElem?_drop, Nat.add_zero]
  exact hitem

theorem closed_finished : Context.Closed Finished where
  relays _ _ h := h
  send p msg h := by rwa [send, if_neg (by simp [h.1])]
  handle p effects p' hhandle h := by
    rw [handle, if_neg (by simp [h.1])] at hhandle
    cases hhandle
  take p item events p' htake h := by
    have hop := h.op_eq_none htake
    obtain ⟨-, -, -, -, rfl⟩ := take_eq_some htake
    refine ⟨h.1, ?_, ?_⟩
    · cases hwork : item.2 with
      | barrier gate => cases hfailed : p.failed <;> simp [Object.take]
      | storage | socket =>
          rw [hwork] at hop
          cases hop
    · have hpending := h.2.2
      unfold pending at hpending ⊢
      split
      · next halive =>
          rw [if_pos halive] at hpending
          have hsub : (p.queued.drop (p.taken + 1)).Sublist (p.queued.drop p.taken) := by
            rw [← drop_drop]
            exact drop_sublist _ _
          exact sublist_nil.mp (hpending ▸ hsub.filterMap _)
      · rfl
  finish p result p' hfinish h := by
    rw [finish, if_neg (by simp [h.2.1])] at hfinish
    cases hfinish
  panic _ h := ⟨h.1, rfl, rfl⟩
  stop _ h := ⟨rfl, h.2⟩

end Pipeline

namespace Instances

/-! ## The machine -/

structure State where
  /-- The instances, in the order in which they were built. -/
  instances : List Context.State
  /-- The ops handed to the host, each with its instance. -/
  log : List (Nat × Operation)
deriving DecidableEq, Repr

inductive Action where
  | build
  /-- A step of the context, of the tasks or of the host of an instance. -/
  | act (index : Nat) (action : Context.Action)
deriving DecidableEq, Repr

/-- The ops that a step of an instance hands to the host. -/
def handed (ctx : Context.State) : Context.Action → List Operation
  | .take => ctx.pipe.take.elim [] fun out => handedOps out.2.1
  | _ => []

/-- `run` builds an instance once the one before it was dropped; the tasks of all of them
go on. -/
def step (s : State) : Action → Option State
  | .build =>
    if s.instances.all (·.dropped) then
      some { s with instances := s.instances ++ [.init] }
    else
      none
  | .act i a =>
    s.instances[i]?.bind fun ctx => (Context.step ctx a).map fun ctx' =>
      { instances := s.instances.set i ctx'
        log := s.log ++ (handed ctx a).map (i, ·) }

def machine : Machine State Action where
  init := ⟨[], []⟩
  step := step

/-- **The condition on a step**: an instance is built only when every earlier one has
finished. -/
def Guard (s : State) : Action → Prop
  | .build => ∀ ctx ∈ s.instances, ctx.pipe.Finished
  | .act _ _ => True

instance (s : State) (a : Action) : Decidable (Guard s a) :=
  match a with
  | .build => inferInstanceAs (Decidable (∀ ctx ∈ s.instances, ctx.pipe.Finished))
  | .act _ _ => inferInstanceAs (Decidable True)

/-! ## The invariant -/

structure Inv (s : State) : Prop where
  /-- All instances but the last have finished. -/
  finished : ∀ i ctx, s.instances[i]? = some ctx → i + 1 < s.instances.length → ctx.pipe.Finished
  bounded : ∀ x ∈ s.log, x.1 < s.instances.length
  sorted : s.log.Pairwise fun x y => x.1 ≤ y.1

theorem handed_of_finished {ctx : Context.State} (h : ctx.pipe.Finished) (a : Context.Action) :
    handed ctx a = [] := by
  cases a with
  | take =>
      rw [handed]
      cases htake : ctx.pipe.take with
      | none => rfl
      | some out =>
          obtain ⟨item, events, p'⟩ := out
          have hop := h.op_eq_none htake
          obtain ⟨-, -, -, rfl, -⟩ := Pipeline.take_eq_some htake
          cases hwork : item.2 with
          | barrier gate =>
              cases hfailed : ctx.pipe.failed <;> simp [Object.take, handedOps]
          | storage | socket =>
              rw [hwork] at hop
              cases hop
  | _ => rfl

theorem inv_init : Inv machine.init where
  finished := by simp [machine]
  bounded := by simp [machine]
  sorted := List.Pairwise.nil

theorem inv_step (s : State) (a : Action) (s' : State) (h : Inv s) (hguard : Guard s a)
    (hstep : machine.step s a = some s') : Inv s' := by
  cases a with
  | build =>
      obtain ⟨-, heq⟩ := ite_none_right_eq_some.mp hstep
      cases heq
      refine ⟨fun i ctx hctx hi => ?_, fun x hx => ?_, h.sorted⟩
      · rw [length_append, length_singleton] at hi
        rw [getElem?_append_left (Nat.lt_of_succ_lt_succ hi)] at hctx
        exact hguard ctx (mem_of_getElem? hctx)
      · exact (h.bounded x hx).trans_le (by simp)
  | act i a =>
      obtain ⟨ctx, hctx, heq⟩ := bind_eq_some_iff.mp hstep
      obtain ⟨ctx', hnext, rfl⟩ := map_eq_some_iff.mp heq
      have hi : i < s.instances.length := (List.getElem?_eq_some_iff.mp hctx).1
      refine ⟨fun j other hother hj => ?_, fun x hx => ?_, ?_⟩
      · rw [length_set] at hj
        rcases of_getElem?_set hother with ⟨hj', rfl⟩ | ⟨-, hother⟩
        · exact Pipeline.closed_finished.step (h.finished i ctx hctx (hj' ▸ hj)) hnext
        · exact h.finished j other hother hj
      · rw [length_set]
        rcases mem_append.mp hx with hx | hx
        · exact h.bounded x hx
        · obtain ⟨op, -, rfl⟩ := List.mem_map.mp hx
          exact hi
      · refine pairwise_append.mpr ⟨h.sorted, ?_, ?_⟩
        · exact pairwise_map.mpr (pairwise_of_forall fun _ _ => le_rfl)
        · intro x hx y hy
          obtain ⟨op, hop, rfl⟩ := List.mem_map.mp hy
          -- Only the last instance hands anything to the host.
          by_cases hlast : i + 1 < s.instances.length
          · rw [handed_of_finished (h.finished i ctx hctx hlast)] at hop
            cases hop
          · have := h.bounded x hx
            show x.1 ≤ i
            omega

/-! ## One driver -/

/-- A step of the last instance. -/
theorem step_act_last {before : List Context.State} {ctx ctx' : Context.State}
    {log : List (Nat × Operation)} {a : Context.Action} (hstep : Context.step ctx a = some ctx') :
    machine.step ⟨before ++ [ctx], log⟩ (.act before.length a) =
      some ⟨before ++ [ctx'], log ++ (handed ctx a).map (before.length, ·)⟩ := by
  simp [machine, step, hstep]

/-- The steps by which a new instance hands a read to the host. -/
def firstRead (index : Nat) : List Action :=
  [.build, .act index (.send (.objectStorage 0 (.get ["k"]))), .act index .handle,
    .act index .take]

/-- A new instance can hand a read to the host at once, whatever the earlier ones are at. -/
theorem run_firstRead {s : State} (hdropped : s.instances.all (·.dropped) = true) :
    ∃ ctx, machine.runFrom s (firstRead s.instances.length) =
      some ⟨s.instances ++ [ctx],
        s.log ++ [(s.instances.length, .durableObjectStorage (.get ["k"]))]⟩ := by
  obtain ⟨instances, log⟩ := s
  have hbuild : machine.step ⟨instances, log⟩ .build = some ⟨instances ++ [.init], log⟩ := by
    simp only [machine, step, hdropped, if_true]
  have hread : ∃ c₁ c₂ c₃,
      Context.step .init (.send (.objectStorage 0 (.get ["k"]))) = some c₁ ∧
      Context.step c₁ .handle = some c₂ ∧ Context.step c₂ .take = some c₃ ∧
      handed c₂ .take = [.durableObjectStorage (.get ["k"])] := ⟨_, _, _, rfl, rfl, rfl, rfl⟩
  obtain ⟨c₁, c₂, c₃, hsend, hhandle, htake, hhanded⟩ := hread
  refine ⟨c₃, ?_⟩
  rw [firstRead, runFrom_cons, hbuild, bind_some, runFrom_cons,
    step_act_last hsend, bind_some, runFrom_cons, step_act_last hhandle,
    bind_some, runFrom_cons, step_act_last htake, bind_some, hhanded]
  simp [handed]

/-- **One storage driver.**  In the runs in which an instance is built only when every
earlier one has finished, no op of an earlier instance is queued or under way while a later
instance exists, and what the host sees is what the first instance asked, then what the
second asked, and so on.

`run` does not see to it: once all instances are dropped, a new one can hand a read to the
host in its first steps, with the earlier instances as they are. -/
theorem one_storage_driver (actions : List Action) (s : State)
    (hrun : machine.run actions = some s) (hguard : machine.Meets Guard machine.init actions) :
    (∀ i ctx, s.instances[i]? = some ctx → i + 1 < s.instances.length → ctx.pipe.Finished) ∧
    s.log = ((List.range s.instances.length).flatMap fun i => s.log.filter fun x => x.1 = i) ∧
    (s.instances.all (·.dropped) = true →
      ∃ ctx, machine.runFrom s (firstRead s.instances.length) =
        some ⟨s.instances ++ [ctx],
          s.log ++ [(s.instances.length, .durableObjectStorage (.get ["k"]))]⟩) := by
  have h : Inv s := machine.invariant_of_meets inv_init inv_step hguard hrun
  exact ⟨h.finished, eq_flatMap_filter_key Prod.fst h.sorted h.bounded, run_firstRead⟩

/-- An instance writes, its write ends, it is dropped and its loop ends; then the next
instance reads. -/
def drainedRun : List Action :=
  [.build, .act 0 (.send (.objectStorage 0 Context.put)), .act 0 .handle, .act 0 .take,
    .act 0 (.finish (.objectStorage (.written 0))), .act 0 .drop, .act 0 .stop] ++ firstRead 1

theorem one_storage_driver_drained : ∃ s, machine.run drainedRun = some s ∧
    s.log = [(0, .durableObjectStorage Context.put), (1, .durableObjectStorage (.get ["k"]))] ∧
    s.log = (List.range s.instances.length).flatMap fun i => s.log.filter fun x => x.1 = i :=
  ⟨_, rfl, rfl, (one_storage_driver drainedRun _ rfl (by decide)).2.1⟩

/-- An instance with two writes, of which the first is under way, is dropped.  The next
instance reads before the second write is handed to the host. -/
def overtakingRun : List Action :=
  [.build, .act 0 (.send (.objectStorage 0 Context.put)),
    .act 0 (.send (.objectStorage 1 Context.put)), .act 0 .handle, .act 0 .handle, .act 0 .take,
    .act 0 .drop, .act 0 .stop] ++ firstRead 1 ++
  [.act 0 (.finish (.objectStorage (.written 0))), .act 0 .take]

theorem read_overtakes_old_write : ∃ s, machine.run overtakingRun = some s ∧
    s.log = [(0, .durableObjectStorage Context.put), (1, .durableObjectStorage (.get ["k"])),
      (0, .durableObjectStorage Context.put)] ∧
    s.log ≠ (List.range s.instances.length).flatMap fun i => s.log.filter fun x => x.1 = i :=
  ⟨_, rfl, rfl, by decide⟩

end Instances

end OpenWorkers.Object
