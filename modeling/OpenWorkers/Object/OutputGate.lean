import OpenWorkers.Object.WaysOut

/-!
# The output gate

When something leaves a Durable Object, has every storage write sent before it been ended
by the host without an error?  For the ways out that take the output gate the answer is yes
(`output_gate`), unless the host acts on a request for a worker or an object in `handle`, which its
task calls before it looks at the gate (`worker_request_passes_its_gate`).  For the others
(`BindingKv` and the like, host functions, outgoing WebSockets, relayed sockets) it is yes in the
runs in which no such write happens to be open, and not in general (`free_ways_out`,
`kv_op_passes_open_write`).
-/

namespace OpenWorkers.Object.Context

open List Scheduler Pipeline

/-! ## The ways out that take the gate -/

/-- The gate stands behind message `j`, or no loop is there to open it. -/
def GateAfter (j : MsgId) : Gate → Prop
  | .free => False
  | .behind n => j < n
  | .closed => True

section Refused

variable {s : State}

/-- Once nothing moves, a barrier behind a failed write is shut. -/
theorem isShut_of_failed {p : Pipeline} (h : p.Inv) (hidle : p.Idle) {j : MsgId}
    (hwrite : p.IsWrite j) (hfailed : (j, false) ∈ p.answered) {gate : Gate}
    (hgate : BarrierGate p gate) (hafter : GateAfter j gate) :
    p.IsShut gate ∧ ¬p.IsOpen gate := by
  cases gate with
  | free => exact hafter.elim
  | closed => exact ⟨trivial, id⟩
  | behind n =>
      have hclear := h.not_clearBefore hwrite hfailed hafter
      exact ⟨h.isShut_of_idle hidle hgate hclear, fun hopen => hclear (h.opened n hopen).2⟩

/-- A waiting call whose gate is shut ends with an error at its next poll. -/
theorem step_refuse {k : Nat} {c : Call} (hc : s.calls[k]? = some c) (hpc : c.pc = .waiting)
    (hshut : s.pipe.IsShut c.gate) :
    step s (.refuseCall k) = some (s.setCall k (.ended (some storageFailed))) ∨
      step s (.cancelCall k) = some (s.setCall k (.ended (some cancelledText))) := by
  cases hcancel : s.isCancelled c.scope with
  | false => exact .inl (by simp [step, hc, stepCall, hpc, hcancel, hshut])
  | true => exact .inr (by simp [step, hc, stepCall, hpc, hcancel])

/-- A held answer whose gate is shut is dropped at its next poll. -/
theorem step_poll_of_shut {k : Nat} {e : InFlight} {gate : Gate} (he : s.inflight[k]? = some e)
    (hheld : e.held = some gate) (hshut : s.pipe.IsShut gate) (hopen : ¬s.pipe.IsOpen gate) :
    step s (.poll k) = some (s.setEvent k false none) := by
  cases gate with
  | free => exact hshut.elim
  | closed => simp [step, he, stepEvent, hheld]
  | behind n => simp [step, he, stepEvent, hheld, hopen, hshut]

/-- A body whose chunk stands behind a shut gate ends with an error at its next poll. -/
theorem step_pollChunk_of_shut {k : Nat} {gate : Gate} (delivered : Bool)
    (hb : s.bodies[k]? = some (.waiting gate)) (hshut : s.pipe.IsShut gate)
    (hopen : ¬s.pipe.IsOpen gate) :
    step s (.pollChunk k delivered) = some (s.setBody k (.ended true)) := by
  cases gate with
  | free => exact hshut.elim
  | closed => simp [step, hb, stepBody]
  | behind n => simp [step, hb, stepBody, hopen, hshut]

/-- Unless nothing moves, the loop, the queue or the host has a step to make. -/
theorem step_of_not_idle (h : s.pipe.Inv) (hidle : ¬s.pipe.Idle) :
    (step s .handle).isSome = true ∨ (step s .take).isSome = true ∨
      ∀ result, (step s (.finish result)).isSome = true := by
  by_cases hhandle : s.pipe.handle = none
  · by_cases htake : s.pipe.take = none
    · have hbusy : s.pipe.busy = true := by
        by_contra hnot
        exact hidle ⟨hhandle, htake, Bool.not_eq_true _ ▸ hnot⟩
      obtain ⟨-, hpos⟩ := h.busy hbusy
      have hlt : s.pipe.taken - 1 < s.pipe.queued.length :=
        (Nat.sub_lt hpos Nat.one_pos).trans_le h.taken_le
      refine .inr (.inr fun result => ?_)
      simp [step, stepPipe, Pipeline.finish, hbusy, getElem?_eq_getElem hlt]
    · obtain ⟨out, hout⟩ := Option.ne_none_iff_exists'.mp htake
      exact .inr (.inl (by simp [step, stepPipe, hout]))
  · obtain ⟨out, hout⟩ := Option.ne_none_iff_exists'.mp hhandle
    exact .inl (by simp [step, stepPipe, hout])

end Refused

/-- A host that does not panic, and that acts only when it is polled. -/
theorem guard_gated {s : State} {a : Action} (hpanic : a ≠ .panic) (hearly : ∀ k, a ≠ .early k) :
    Guard ExitKind.gated s a := by
  cases a with
  | handle =>
      intro msg _ kind _ hgated hnot
      cases hgated.symm.trans hnot
  | panic => exact absurd rfl hpanic
  | early k => exact absurd rfl (hearly k)
  | invoke => exact nofun
  | _ => trivial

/-- **The output gate.**  In every run in which the handler of the host does not panic, and in
which it acts on a request for a worker or an object before it is polled only if every write sent
before the request was ended without an error, in each of its states:

* what has left through the gate left behind writes that were all ended without an error;
* behind a failed write nothing leaves: a call waits or has ended with an error, and once
  the loop, the queue and the host have nothing left to do, the next poll of a waiting call
  ends it with an error, that of a held answer drops its sender, and that of a body yields
  an error in place of the chunk;
* an event is answered at most once. -/
theorem output_gate (actions : List Action) (s : State) (hrun : machine.run actions = some s)
    (hguard : machine.Meets (Guard ExitKind.gated) machine.init actions) :
    (∀ x ∈ s.left, x.kind.gated = true → s.pipe.ClearBefore x.msg) ∧
    (∀ j, s.pipe.IsWrite j → (j, false) ∈ s.pipe.answered →
      (∀ x ∈ s.left, x.kind.gated = true → x.msg ≤ j) ∧
      (∀ k c, s.calls[k]? = some c → c.kind.gated = true → j < c.msg →
        (c.pc = .waiting ∨ c.pc = .ended (some storageFailed) ∨
          c.pc = .ended (some cancelledText)) ∧
        (c.pc = .waiting → s.pipe.Idle →
          step s (.refuseCall k) = some (s.setCall k (.ended (some storageFailed))) ∨
            step s (.cancelCall k) = some (s.setCall k (.ended (some cancelledText))))) ∧
      (∀ k e gate, s.inflight[k]? = some e → e.held = some gate → GateAfter j gate →
        s.pipe.Idle → step s (.poll k) = some (s.setEvent k false none)) ∧
      ∀ k gate delivered, s.bodies[k]? = some (.waiting gate) → GateAfter j gate →
        s.pipe.Idle → step s (.pollChunk k delivered) = some (s.setBody k (.ended true))) ∧
    (¬s.pipe.Idle → (step s .handle).isSome = true ∨ (step s .take).isSome = true ∨
      ∀ result, (step s (.finish result)).isSome = true) ∧
    ∀ k, s.answers k ≤ 1 := by
  have h : Inv ExitKind.gated s := machine.invariant_of_meets Inv.init Inv.step hguard hrun
  have hpipe : s.pipe.Inv := h.pipe .socketOp rfl rfl
  refine ⟨fun x hx hgated => (h.left x hx hgated).2, fun j hwrite hfailed => ⟨?_, ?_, ?_, ?_⟩,
    step_of_not_idle hpipe, fun k => (h.once k).1⟩
  · intro x hx hgated
    by_contra hlt
    exact hpipe.not_clearBefore hwrite hfailed (not_le.mp hlt) (h.left x hx hgated).2
  · intro k c hc hgated hj
    have hok := h.calls c (mem_of_getElem? hc)
    have hclear := hpipe.not_clearBefore hwrite hfailed hj
    constructor
    · rcases hok.left with hpc | hpc | hpc | hleft
      · exact .inl hpc
      · exact .inr (.inl hpc)
      · exact .inr (.inr hpc)
      · exact absurd (h.left _ hleft hgated).2 hclear
    · intro hpc hidle
      rcases hok.gate hgated with ⟨-, hpass⟩ | ⟨-, hgate, hbarrier⟩
      · exact absurd hpass.2 hclear
      · exact step_refuse hc hpc (hgate ▸ hpipe.isShut_of_idle hidle hbarrier hclear)
  · intro k e gate he hheld hafter hidle
    obtain ⟨-, hgate⟩ := h.inflight e (mem_of_getElem? he) gate hheld
    obtain ⟨hshut, hopen⟩ := isShut_of_failed hpipe hidle hwrite hfailed hgate hafter
    exact step_poll_of_shut he hheld hshut hopen
  · intro k gate delivered hb hafter hidle
    have hgate := h.bodies _ (mem_of_getElem? hb) gate rfl
    obtain ⟨hshut, hopen⟩ := isShut_of_failed hpipe hidle hwrite hfailed hgate hafter
    exact step_pollChunk_of_shut delivered hb hshut hopen

/-- A write that succeeds and a fetch after it; then a write that fails, a fetch after it
and the response of an event. -/
def gatedRun : List Action :=
  [.admitEvent .fetch,
    .send (.objectStorage 0 put), .send (.fetchStreaming 1), .handle, .handle,
    .take, .finish (.objectStorage (.written 0)), .take, .openCall 0,
    .send (.objectStorage 2 put), .send (.fetchStreaming 3), .respond 0 none false,
    .handle, .handle, .handle, .take, .finish (.objectStorage (.error "disk full")), .take, .take,
    .refuseCall 1, .poll 0]

/-- The first fetch left behind its write; the second fetch was refused, and the response
dropped. -/
theorem output_gate_failed_write : ∃ s, machine.run gatedRun = some s ∧
    s.left = [⟨.call .fetch, 1⟩] ∧ s.pipe.answered = [(0, true), (2, false)] ∧
    s.calls.map Call.pc = [.handed, .ended (some storageFailed)] ∧
    (∀ x ∈ s.left, x.kind.gated = true → s.pipe.ClearBefore x.msg) ∧ ∀ k, s.answers k ≤ 1 := by
  have hlazy : ∀ a ∈ gatedRun, a ≠ .panic ∧ ∀ k, a ≠ .early k := by
    simp [gatedRun]
  have hguard : machine.Meets (Guard ExitKind.gated) machine.init gatedRun :=
    Machine.meets_of_forall_mem _ fun _ a ha => guard_gated (hlazy a ha).1 (hlazy a ha).2
  have h := output_gate gatedRun _ rfl hguard
  exact ⟨_, rfl, rfl, rfl, rfl, h.1, h.2.2.2⟩

/-- The host acts on a request for a worker in `handle`, while the write before it is open.  The
write fails, and the guest is told that the request was not made. -/
theorem worker_request_passes_its_gate :
    ∃ s, machine.run [.send (.objectStorage 0 put), .send (.bindingWorker 1 "W"), .handle, .handle,
        .early 0, .take, .finish (.objectStorage (.error "disk full")), .take, .refuseCall 0] =
      some s ∧ s.pipe.IsWrite 0 ∧ s.pipe.answered = [(0, false)] ∧
        s.left = [⟨.call .worker, 1⟩] ∧
        s.calls.map Call.pc = [.ended (some storageFailed)] :=
  ⟨_, rfl, by decide, rfl, rfl, rfl⟩

/-! ## The other ways out -/

/-- The ways out that do not take the gate. -/
def ungated (kind : ExitKind) : Bool := !kind.gated

/-- The messages whose call takes no gate. -/
def freeKind : SchedulerMessage → Option CallKind
  | .bindingStorage _ _ => some .storage
  | .bindingKv _ _ => some .kv
  | .bindingDatabase _ _ => some .database
  | .bindingD1 _ _ => some .d1
  | .bindingInvoke _ => some .invoke
  | _ => none

theorem handle_of_freeKind (l : EventLoop) (alive : Bool) (n : MsgId) {msg : SchedulerMessage}
    {kind : CallKind} (hkind : freeKind msg = some kind) :
    ∃ callback, l.handle alive n msg = l.freeCall kind callback := by
  cases msg with
  | bindingStorage callback | bindingKv callback | bindingDatabase callback | bindingD1 callback
  | bindingInvoke callback =>
      cases hkind
      exact ⟨callback, rfl⟩
  | _ => cases hkind

/-- A call without a gate is with the host two steps after the loop took its message, whatever is
open. -/
theorem spawned_call_leaves {s : State} {msg : SchedulerMessage} {kind : CallKind}
    {callback : CallbackId} (hrunning : s.pipe.running = true)
    (hmsg : s.pipe.sent[s.pipe.handled]? = some msg)
    (hhandle : s.pipe.loop.handle s.pipe.alive s.pipe.handled msg =
      (s.pipe.loop, [.spawn (.call kind callback .free s.pipe.loop.scope)]))
    (hcancel : s.isCancelled s.pipe.loop.scope = false) :
    ∃ s', machine.runFrom s [.handle, .openCall s.calls.length] = some s' ∧
      ⟨.call kind, s.pipe.handled⟩ ∈ s'.left ∧ s'.pipe.answered = s.pipe.answered := by
  have hpipe : s.pipe.handle = some ([.spawn (.call kind callback .free s.pipe.loop.scope)],
      { s.pipe with handled := s.pipe.handled + 1 }) := by
    simp [Pipeline.handle, hrunning, hmsg, hhandle, Pipeline.perform]
  let call : Call := ⟨s.pipe.handled, kind, .free, s.pipe.loop.scope, .waiting⟩
  let s₁ : State := { s with
    pipe := { s.pipe with handled := s.pipe.handled + 1 }
    calls := s.calls ++ [call] }
  have hfirst : machine.step s .handle = some s₁ := by
    simp [machine, step, stepPipe, hpipe, State.perform, State.withPipe, s₁, call]
  have hsecond : machine.step s₁ (.openCall s.calls.length) =
      some ((s₁.setCall s.calls.length .handed).exit (.call kind) s.pipe.handled) := by
    have hcancel₁ : s₁.isCancelled s.pipe.loop.scope = false := hcancel
    simp [machine, step, stepCall, hcancel₁, s₁, call, Pipeline.IsOpen]
  refine ⟨_, Machine.runFrom_cons_eq_some.mpr ⟨s₁, hfirst,
    Machine.runFrom_cons_eq_some.mpr ⟨_, hsecond, rfl⟩⟩, ?_, rfl⟩
  exact mem_append_right _ (mem_singleton_self _)

theorem freeCall_leaves {s : State} {msg : SchedulerMessage} {kind : CallKind}
    (hrunning : s.pipe.running = true) (hmsg : s.pipe.sent[s.pipe.handled]? = some msg)
    (hkind : freeKind msg = some kind) (hcancel : s.isCancelled s.pipe.loop.scope = false) :
    ∃ s', machine.runFrom s [.handle, .openCall s.calls.length] = some s' ∧
      ⟨.call kind, s.pipe.handled⟩ ∈ s'.left ∧ s'.pipe.answered = s.pipe.answered := by
  obtain ⟨callback, hhandle⟩ := handle_of_freeKind s.pipe.loop s.pipe.alive s.pipe.handled hkind
  exact spawned_call_leaves hrunning hmsg hhandle hcancel

/-- **The ways out that take no gate.**  In the runs in which the loop takes their messages, and
the guest calls a host function, only when every storage write sent before was ended without an
error, nothing leaves through them before a write sent before it was ended, and nothing at all
after a write that was not ended without an error.  There is no other protection: a call of such
a message is with the host two steps after the loop took it, whatever is open. -/
theorem free_ways_out (actions : List Action) (s : State) (hrun : machine.run actions = some s)
    (hguard : machine.Meets (Guard ungated) machine.init actions) :
    (∀ x ∈ s.left, x.kind.gated = false → s.pipe.ClearBefore x.msg) ∧
    (∀ j, s.pipe.IsWrite j → (j, true) ∉ s.pipe.answered →
      ∀ x ∈ s.left, x.kind.gated = false → x.msg ≤ j) ∧
    ∀ msg kind, s.pipe.running = true → s.pipe.sent[s.pipe.handled]? = some msg →
      freeKind msg = some kind → s.isCancelled s.pipe.loop.scope = false →
        ∃ s', machine.runFrom s [.handle, .openCall s.calls.length] = some s' ∧
          ⟨.call kind, s.pipe.handled⟩ ∈ s'.left ∧ s'.pipe.answered = s.pipe.answered := by
  have h : Inv ungated s := machine.invariant_of_meets Inv.init Inv.step hguard hrun
  have hclear : ∀ x ∈ s.left, x.kind.gated = false → s.pipe.ClearBefore x.msg :=
    fun x hx hkind => (h.left x hx (by simp [ungated, hkind])).2
  refine ⟨hclear, fun j hwrite hopen x hx hkind => ?_, fun msg kind => freeCall_leaves⟩
  by_contra hlt
  exact hopen (hclear x hx hkind j (not_le.mp hlt) hwrite)

/-- A KV op sent after the write was ended. -/
def kvRun : List Action :=
  [.send (.objectStorage 0 put), .handle, .take, .finish (.objectStorage (.written 0)),
    .send (.bindingKv 1 "KV"), .handle, .openCall 0]

theorem free_ways_out_ended_write : ∃ s, machine.run kvRun = some s ∧
    s.left = [⟨.call .kv, 1⟩] ∧ ∀ x ∈ s.left, x.kind.gated = false → s.pipe.ClearBefore x.msg := by
  have hguard : machine.Meets (Guard ungated) machine.init kvRun := by
    refine ⟨trivial, ?_, trivial, trivial, trivial, ?_, trivial, trivial⟩
    · intro msg hmsg kind hkind
      cases hmsg
      cases hkind
    · intro msg _ kind _ _ _
      decide
  exact ⟨_, rfl, rfl, (free_ways_out kvRun _ rfl hguard).1⟩

/-- A KV op sent after a write is with the host while the write is still open, and one sent
after a write that failed is with the host all the same; so is a host function, with no message. -/
theorem kv_op_passes_open_write :
    (∃ s, machine.run [.send (.objectStorage 0 put), .send (.bindingKv 1 "KV"), .handle, .handle,
      .openCall 0] = some s ∧ s.pipe.IsWrite 0 ∧ s.left = [⟨.call .kv, 1⟩] ∧
        s.pipe.answered = []) ∧
    (∃ s, machine.run [.send (.objectStorage 0 put), .handle, .take,
      .finish (.objectStorage (.error "disk full")), .send (.bindingKv 1 "KV"), .handle,
      .openCall 0] = some s ∧ s.pipe.IsWrite 0 ∧ s.left = [⟨.call .kv, 1⟩] ∧
        s.pipe.answered = [(0, false)]) ∧
    ∃ s, machine.run [.send (.objectStorage 0 put), .invoke] = some s ∧ s.pipe.IsWrite 0 ∧
      s.left = [⟨.call .invoke, 1⟩] ∧ s.pipe.answered = [] :=
  ⟨⟨_, rfl, by decide, rfl, rfl⟩, ⟨_, rfl, by decide, rfl, rfl⟩, ⟨_, rfl, by decide, rfl, rfl⟩⟩

end OpenWorkers.Object.Context
