import OpenWorkers.Lib.Log
import OpenWorkers.Object.OutputGate

/-!
# The queue task of an object ends

A handler of the host that panics takes the queue task with it, and the event loop keeps the
sending end of a channel that nobody reads.  What the loop then does with a message is decided
in three places.  A barrier (`OutputBarrier`) is dropped with the channel, so what waits for it
never leaves.  A call that takes the gate (`output_gate`) finds that it cannot place its barrier
and gets none, so it leaves at once.  A storage op (`enqueue`) is dropped, and nobody answers it.

`Pipeline.Sound` is what holds of the two channels whether the task lives or not.
-/

namespace OpenWorkers.Object

open List Option Scheduler Machine

namespace Pipeline

variable {p p' : Pipeline}

/-- An open gate stands for the writes before it, whatever became of the queue task. -/
structure Sound (p : Pipeline) : Prop where
  handled_le : p.handled ≤ p.sent.length
  /-- The queue exists once the loop has taken a write. -/
  noQueue : p.loop.queue = false → ∀ j < p.handled, ¬ p.IsWrite j
  opened : ∀ g ∈ p.opened, g < p.handled ∧ p.ClearBefore g
  alive : p.alive = true → p.Inv
  dead : p.alive = false → p.busy = false

theorem Inv.sound (h : p.Inv) : p.Sound where
  handled_le := h.handled_le
  noQueue hqueue j hj hwrite := by
    obtain ⟨work, hmem, -⟩ := h.complete j hj hwrite
    rw [h.noQueue hqueue] at hmem
    cases hmem
  opened := h.opened
  alive _ := h
  dead hdead := absurd (h.alive.symm.trans hdead) nofun

/-- A loop without a queue makes one for a storage op, and keeps the one it has. -/
theorem queue_of_handle {l : EventLoop} {alive : Bool} {n : Nat} {msg : SchedulerMessage}
    (h : (l.handle alive n msg).1.queue = false) : l.queue = false ∧ msg.isWrite = false := by
  constructor
  · have hbecomes := l.becomes_handle alive n msg
    revert h
    generalize (l.handle alive n msg).1 = l' at hbecomes
    cases hbecomes with
    | queue => exact nofun
    | _ => exact id
  · cases msg with
    | objectStorage => cases h
    | _ => rfl

/-- The gates that the effects of a message open, and the gates that they shut. -/
theorem opened_foldl_perform (n : MsgId) (effects : List Effect) :
    ∀ g ∈ (effects.foldl (perform n) p).opened, g ∈ p.opened ∨ g = n ∧ .openGate ∈ effects := by
  induction effects generalizing p with
  | nil => exact fun g hg => .inl hg
  | cons effect effects ih =>
      intro g hg
      rcases ih g hg with hg | ⟨rfl, hmem⟩
      · cases effect with
        | openGate =>
            rcases mem_cons.mp hg with rfl | hg
            · exact .inr ⟨rfl, mem_cons_self⟩
            · exact .inl hg
        | enqueue work =>
            rw [perform] at hg
            split at hg <;> exact .inl hg
        | spawn | command | hangUp | closeStream | cancel => exact .inl hg
      · exact .inr ⟨rfl, mem_cons_of_mem _ hmem⟩

/-- The effects of a message leave the loop and the task as they are. -/
theorem frame_foldl_perform (n : MsgId) (effects : List Effect) :
    (effects.foldl (perform n) p).loop = p.loop ∧
      (effects.foldl (perform n) p).alive = p.alive ∧
        (effects.foldl (perform n) p).busy = p.busy := by
  induction effects generalizing p with
  | nil => exact ⟨rfl, rfl, rfl⟩
  | cons effect effects ih =>
      obtain ⟨hloop, halive, hbusy⟩ := ih (p := perform n p effect)
      have hfirst : (perform n p effect).loop = p.loop ∧ (perform n p effect).alive = p.alive ∧
          (perform n p effect).busy = p.busy := by
        cases effect with
        | enqueue work =>
            rw [perform]
            split <;> exact ⟨rfl, rfl, rfl⟩
        | openGate | spawn | command | hangUp | closeStream | cancel => exact ⟨rfl, rfl, rfl⟩
      exact ⟨hloop.trans hfirst.1, halive.trans hfirst.2.1, hbusy.trans hfirst.2.2⟩

/-- Inversion of `handle`, whether the queue task lives or not. -/
theorem of_handle {effects : List Effect} (h : p.handle = some (effects, p')) :
    p.running = true ∧ ∃ msg, p.sent[p.handled]? = some msg ∧
      effects = (p.loop.handle p.alive p.handled msg).2 ∧
      p' = effects.foldl (perform p.handled)
        { p with handled := p.handled + 1, loop := (p.loop.handle p.alive p.handled msg).1 } := by
  unfold handle at h
  split at h
  · next hrunning =>
    obtain ⟨msg, hmsg, heq⟩ := map_eq_some_iff.mp h
    obtain ⟨rfl, rfl⟩ := Prod.mk.inj heq
    exact ⟨hrunning, msg, hmsg, rfl, rfl⟩
  · cases h

/-- The loop opens a gate itself only if there is no queue. -/
theorem queue_of_openGate {l : EventLoop} {alive : Bool} {n : Nat} {msg : SchedulerMessage}
    (h : .openGate ∈ (l.handle alive n msg).2) : l.queue = false := by
  cases msg with
  | outputBarrier =>
      cases hqueue : l.queue with
      | false => rfl
      | true => simp [EventLoop.handle, hqueue] at h
  | fetchStreaming | bindingFetch | bindingWorker | bindingDurableObject =>
      simp only [EventLoop.handle, EventLoop.gatedCall, EventLoop.outputGate] at h
      split at h <;> simp at h
  | webSocketUpgrade socket =>
      obtain h | ⟨socket, -, h⟩ := (mem_append.mp h).imp_right List.mem_map.mp
      · split at h
        · cases h
        · split at h
          · cases mem_singleton.mp h
          · split at h
            · cases mem_singleton.mp h
            · cases h
      · cases h
  | beginRequest abort =>
      simp [EventLoop.handle] at h
  | objectUpgrade socket =>
      simp only [EventLoop.handle, EventLoop.enqueue] at h
      split at h <;> cases mem_singleton.mp h
  | webSocketPair socket =>
      simp only [EventLoop.handle] at h
      split at h <;> cases mem_singleton.mp h
  | webSocketAccept | webSocketSend =>
      simp only [EventLoop.handle, EventLoop.command] at h
      split at h
      · cases mem_singleton.mp h
      · cases h
  | webSocketClose =>
      simp only [EventLoop.handle] at h
      split at h
      · simp at h
      · cases h
  | scheduleTimeout | scheduleInterval | clearTimer | shutdown => cases h
  | scheduleWritable | bindingStorage | bindingKv | bindingDatabase | bindingD1 | bindingInvoke
  | objectStorage | objectSocket | streamRead | streamCancel | webSocketConnect =>
      cases mem_singleton.mp h

namespace Sound

theorem init : Pipeline.init.Sound := Inv.init.sound

theorem passes (h : p.Sound) {n : MsgId} (hopen : n ∈ p.opened) : p.Passes n := by
  obtain ⟨hlt, hclear⟩ := h.opened n hopen
  exact ⟨hlt.le.trans h.handled_le, hclear⟩

theorem isWrite_iff (h : p.Sound) (hgrows : Grows p p') {j : MsgId} (hj : j < p.handled) :
    p'.IsWrite j ↔ p.IsWrite j :=
  hgrows.isWrite_iff (hj.trans_le h.handled_le)

/-- What the sender, the owner of the context and a panic change plays no part in an open gate. -/
theorem keep (h : p.Sound) (hgrows : Grows p p') (hhandled : p'.handled = p.handled)
    (hqueue : p'.loop.queue = p.loop.queue) (hopened : p'.opened = p.opened)
    (halive : p'.alive = true → p'.Inv) (hdead : p'.alive = false → p'.busy = false) :
    p'.Sound where
  handled_le := hhandled ▸ h.handled_le.trans hgrows.sent.length_le
  noQueue hnone j hj := by
    rw [hhandled] at hj
    rw [h.isWrite_iff hgrows hj]
    exact h.noQueue (hqueue ▸ hnone) j hj
  opened g hg := by
    rw [hopened] at hg
    obtain ⟨hlt, hclear⟩ := h.opened g hg
    exact ⟨hhandled ▸ hlt, hgrows.clearBefore (hlt.le.trans h.handled_le) hclear⟩
  alive := halive
  dead := hdead

theorem relays (h : p.Sound) (relays : List WebSocketId) :
    Sound { p with loop := { p.loop with relays } } :=
  h.keep (.of_eq rfl rfl rfl rfl) rfl rfl rfl
    (fun halive => (h.alive halive).relays relays) h.dead

theorem send (h : p.Sound) (msg : SchedulerMessage) : (p.send msg).1.Sound := by
  refine h.keep (grows_send p msg) (handled_send p msg) ?_ ?_ ?_ ?_
  · unfold Pipeline.send
    split <;> rfl
  · unfold Pipeline.send
    split <;> rfl
  · intro halive
    refine (h.alive ?_).send msg
    rw [← halive]
    unfold Pipeline.send
    split <;> rfl
  · unfold Pipeline.send
    split <;> exact h.dead

theorem stop (h : p.Sound) : p.stop.Sound :=
  h.keep (.of_eq rfl rfl rfl rfl) rfl rfl rfl
    (fun halive => (h.alive halive).stop) h.dead

theorem panic (h : p.Sound) : p.panic.Sound :=
  h.keep (.of_eq rfl rfl rfl rfl) rfl rfl rfl
    nofun fun _ => rfl

/-- The loop takes a message and nobody reads the queue. -/
theorem handle_dead (h : p.Sound) (hdead : p.alive = false) {effects : List Effect}
    (hhandle : p.handle = some (effects, p')) : p'.Sound := by
  obtain ⟨msg, hmsg, rfl, hgrows, hhandled⟩ := grows_handle hhandle
  obtain ⟨-, msg', hmsg', -, rfl⟩ := of_handle hhandle
  obtain rfl : msg' = msg := Option.some.inj (hmsg'.symm.trans hmsg)
  obtain ⟨hloop, halive, hbusy⟩ := frame_foldl_perform
    (p := { p with handled := p.handled + 1, loop := (p.loop.handle p.alive p.handled msg').1 })
    p.handled (p.loop.handle p.alive p.handled msg').2
  have hlt : p.handled < p.sent.length := (List.getElem?_eq_some_iff.mp hmsg).1
  refine ⟨?_, fun hqueue j hj => ?_, fun g hg => ?_, fun hnow => ?_, fun _ => ?_⟩
  · rw [hhandled]
    exact hlt.trans_le hgrows.sent.length_le
  · rw [hloop] at hqueue
    obtain ⟨hold, hwrite⟩ := queue_of_handle hqueue
    rw [hhandled] at hj
    rw [hgrows.isWrite_iff (Nat.lt_of_lt_of_le hj hlt)]
    rcases Nat.lt_succ_iff_lt_or_eq.mp hj with hj | rfl
    · exact h.noQueue hold j hj
    · rintro ⟨msg, hget, hmsgwrite⟩
      cases hget.symm.trans hmsg
      cases hwrite.symm.trans hmsgwrite
  · rw [hhandled]
    rcases opened_foldl_perform _ _ g hg with hg | ⟨rfl, hopen⟩
    · obtain ⟨hglt, hclear⟩ := h.opened g hg
      exact ⟨Nat.lt_succ_of_lt hglt, hgrows.clearBefore (hglt.le.trans h.handled_le) hclear⟩
    · -- A gate that opens at once: the loop has no queue, so it has taken no write.
      refine ⟨Nat.lt_succ_self _, fun j hj hwrite => ?_⟩
      rw [h.isWrite_iff hgrows hj] at hwrite
      exact absurd hwrite (h.noQueue (queue_of_openGate hopen) j hj)
  · rw [halive, hdead] at hnow
    cases hnow
  · rw [hbusy]
    exact h.dead hdead

end Sound

end Pipeline

namespace Context

open Pipeline

theorem closed_sound : Closed Sound where
  relays _ relays h := h.relays relays
  send _ msg h := h.send msg
  handle p effects p' hhandle h := by
    cases halive : p.alive with
    | true => exact ((h.alive halive).handle hhandle).sound
    | false => exact h.handle_dead halive hhandle
  take p item events p' htake h := by
    have halive : p.alive = true := by
      by_contra hdead
      rw [Pipeline.take, eq_false_of_ne_true hdead] at htake
      cases htake
    exact ((h.alive halive).take htake).sound
  finish p result p' hfinish h := by
    have halive : p.alive = true := by
      by_contra hdead
      obtain ⟨hbusy, -⟩ := finish_eq_some hfinish
      cases (h.dead (eq_false_of_ne_true hdead)).symm.trans hbusy
    exact ((h.alive halive).finish hfinish).sound
  panic _ h := h.panic
  stop _ h := h.stop

theorem closed_grows (q : Pipeline) : Closed (Grows q) where
  relays _ _ h := h.trans (.of_eq rfl rfl rfl rfl)
  send p msg h := h.trans (grows_send p msg)
  handle _ _ _ hhandle h := by
    obtain ⟨-, -, -, hgrows, -⟩ := grows_handle hhandle
    exact h.trans hgrows
  take _ _ _ _ htake h := h.trans (grows_take htake).1
  finish _ _ _ hfinish h := h.trans (grows_finish hfinish).1
  panic _ h := h.trans (.of_eq rfl rfl rfl rfl)
  stop _ h := h.trans (.of_eq rfl rfl rfl rfl)

/-! ## What a step does to the calls, and what leaves -/

variable {s s' : State}

/-- Something may leave by this step: a call with an open gate or one that the host acts on in
`handle`, or what waits for a barrier that is open.  Nothing is said of the ways out that take no
gate, and of the ops of sockets. -/
inductive Leaves (s : State) (a : Action) : Exit → Prop
  | call {c : Call} (hc : c ∈ s.calls) (hopen : s.pipe.IsOpen c.gate) :
      Leaves s a ⟨.call c.kind, c.msg⟩
  | early {k : Nat} {c : Call} (ha : a = .early k) (hc : s.calls[k]? = some c) :
      Leaves s a ⟨.call c.kind, c.msg⟩
  | behind {kind : ExitKind} {n : MsgId} (hopen : n ∈ s.pipe.opened) : Leaves s a ⟨kind, n⟩
  | invoke {n : MsgId} : Leaves s a ⟨.call .invoke, n⟩
  | socketOp {n : MsgId} : Leaves s a ⟨.socketOp, n⟩
  | connect {n : MsgId} : Leaves s a ⟨.connect, n⟩
  | frame {n : MsgId} : Leaves s a ⟨.frame, n⟩
  | relay {n : MsgId} : Leaves s a ⟨.relay, n⟩

/-- The loop spawns a call. -/
structure Spawns (s : State) (c : Call) : Prop where
  msg : c.msg = s.pipe.handled
  task : ∃ msg callback, s.pipe.sent[s.pipe.handled]? = some msg ∧
    .spawn (.call c.kind callback c.gate c.scope) ∈
      (s.pipe.loop.handle s.pipe.alive s.pipe.handled msg).2

/-- What a step does to the calls, what it lets out, and who takes a message. -/
structure Tracks (s : State) (a : Action) (s' : State) : Prop where
  calls : ∀ c ∈ s'.calls,
    (∃ c' ∈ s.calls, c'.msg = c.msg ∧ c'.kind = c.kind ∧ c'.gate = c.gate) ∨
      a = .handle ∧ Spawns s c
  left : ∀ x ∈ s'.left, x ∈ s.left ∨ Leaves s a x
  handled : s'.pipe.handled = s.pipe.handled ∨
    a = .handle ∧ s'.pipe.handled = s.pipe.handled + 1 ∧
      ∃ msg, s.pipe.sent[s.pipe.handled]? = some msg

namespace Tracks

variable {a : Action}

theorem same (hcalls : s'.calls = s.calls) (hleft : s'.left = s.left)
    (hhandled : s'.pipe.handled = s.pipe.handled) : Tracks s a s' where
  calls c hc := .inl ⟨c, hcalls ▸ hc, rfl, rfl, rfl⟩
  left _ hx := .inl (hleft ▸ hx)
  handled := .inl hhandled

/-- One thing leaves. -/
theorem exit {x : Exit} (hcalls : s'.calls = s.calls) (hleft : s'.left = s.left ++ [x])
    (hhandled : s'.pipe.handled = s.pipe.handled) (hx : Leaves s a x) : Tracks s a s' where
  calls c hc := .inl ⟨c, hcalls ▸ hc, rfl, rfl, rfl⟩
  left y hy := by
    rw [hleft] at hy
    rcases mem_append.mp hy with hy | hy
    · exact .inl hy
    · cases mem_singleton.mp hy
      exact .inr hx
  handled := .inl hhandled

/-- The task of a call goes on. -/
theorem call {k : Nat} {pc : CallPc} (hcalls : s'.calls = s.calls.modify k fun c => { c with pc })
    (hhandled : s'.pipe.handled = s.pipe.handled)
    (hleft : ∀ x ∈ s'.left, x ∈ s.left ∨ Leaves s a x) : Tracks s a s' where
  calls := by
    rw [hcalls]
    refine forall_mem_modify (fun c hc => .inl ⟨c, hc, rfl, rfl, rfl⟩) fun c hc => ?_
    exact .inl ⟨c, mem_of_getElem? hc, rfl, rfl, rfl⟩
  left := hleft
  handled := .inl hhandled

theorem stepCall {k : Nat} {c : Call} (hc : s.calls[k]? = some c)
    (hstep : Context.stepCall s k c a = some s') : Tracks s a s' := by
  cases a with
  | openCall i =>
      obtain ⟨⟨-, -, hopen⟩, heq⟩ := ite_none_right_eq_some.mp hstep
      cases heq
      refine .call rfl rfl fun x hx => ?_
      rcases mem_append.mp hx with hx | hx
      · exact .inl hx
      · cases mem_singleton.mp hx
        exact .inr (.call (mem_of_getElem? hc) hopen)
  | refuseCall | cancelCall =>
      obtain ⟨-, heq⟩ := ite_none_right_eq_some.mp hstep
      cases heq
      exact .call rfl rfl fun x hx => .inl hx
  | answerCall i error relay =>
      obtain ⟨-, heq⟩ := ite_none_right_eq_some.mp hstep
      cases relay with
      | none =>
          cases heq
          exact .call rfl rfl fun x hx => .inl hx
      | some socket =>
          obtain ⟨-, heq⟩ := ite_none_right_eq_some.mp heq
          cases heq
          exact .call rfl rfl fun x hx => .inl hx
  | _ => cases hstep

theorem stepOutgoing {k : Nat} {o : Outgoing}
    (hstep : Context.stepOutgoing s k o a = some s') : Tracks s a s' := by
  cases a with
  | connect i =>
      obtain ⟨-, heq⟩ := ite_none_right_eq_some.mp hstep
      cases heq
      exact .exit rfl rfl rfl .connect
  | connected i ok =>
      obtain ⟨-, heq⟩ := ite_none_right_eq_some.mp hstep
      cases heq
      exact .same rfl rfl rfl
  | closeOutgoing i =>
      cases hstep
      exact .same rfl rfl rfl
  | command i =>
      obtain ⟨-, heq⟩ := ite_none_right_eq_some.mp hstep
      split at heq
      · cases heq
      · cases heq
        exact .same rfl rfl rfl
      · cases heq
        exact .same rfl rfl rfl
      · cases heq
        exact .exit rfl rfl rfl .frame
      · cases heq
        exact .exit rfl rfl rfl .frame
  | _ => cases hstep

theorem stepEvent {k : Nat} {e : InFlight} (hstep : Context.stepEvent s k e a = some s') :
    Tracks s a s' := by
  cases a with
  | respond i socket streams =>
      obtain ⟨-, heq⟩ := ite_none_right_eq_some.mp hstep
      cases heq
      have hover : (s.handOver socket).pipe.handled = s.pipe.handled := by
        cases socket with
        | none => rfl
        | some socket => exact handled_send _ _
      cases streams <;> refine .same ?_ ?_ ((handled_send _ _).trans hover) <;>
        cases socket <;> rfl
  | failResponse =>
      obtain ⟨-, heq⟩ := ite_none_right_eq_some.mp hstep
      cases heq
      exact .same rfl rfl rfl
  | outcome =>
      obtain ⟨-, heq⟩ := ite_none_right_eq_some.mp hstep
      cases heq
      exact .same rfl rfl (handled_send _ _)
  | poll i =>
      simp only [Context.stepEvent] at hstep
      split at hstep
      · split at hstep
        · next hopen =>
          cases hstep
          exact .exit rfl rfl rfl (.behind hopen)
        · obtain ⟨-, heq⟩ := ite_none_right_eq_some.mp hstep
          cases heq
          exact .same rfl rfl rfl
      · cases hstep
        exact .same rfl rfl rfl
      · cases hstep
      · cases hstep
  | leave i =>
      cases hstep
      exact .same rfl rfl rfl
  | _ => cases hstep

theorem stepBody {k : Nat} {b : Body} (hstep : Context.stepBody s k b a = some s') :
    Tracks s a s' := by
  cases a with
  | chunk =>
      obtain ⟨-, heq⟩ := ite_none_right_eq_some.mp hstep
      cases heq
      exact .same rfl rfl (handled_send _ _)
  | endBody =>
      obtain ⟨-, heq⟩ := ite_none_right_eq_some.mp hstep
      cases heq
      exact .same rfl rfl rfl
  | pollChunk i delivered =>
      simp only [Context.stepBody] at hstep
      split at hstep
      · split at hstep
        · next hopen =>
          split at hstep
          · cases hstep
            exact .exit rfl rfl rfl (.behind hopen)
          · cases hstep
            exact .same rfl rfl rfl
        · obtain ⟨-, heq⟩ := ite_none_right_eq_some.mp hstep
          cases heq
          exact .same rfl rfl rfl
      · cases hstep
        exact .same rfl rfl rfl
      · cases hstep
      · cases hstep
      · cases hstep
  | _ => cases hstep

end Tracks

/-- The effects of a message start calls, and let nothing out. -/
theorem foldl_perform_calls (n : MsgId) (effects : List Effect) :
    (effects.foldl (State.perform n) s).left = s.left ∧
      ∀ c ∈ (effects.foldl (State.perform n) s).calls, c ∈ s.calls ∨
        c.msg = n ∧ ∃ callback, .spawn (.call c.kind callback c.gate c.scope) ∈ effects := by
  induction effects generalizing s with
  | nil => exact ⟨rfl, fun c hc => .inl hc⟩
  | cons effect effects ih =>
      obtain ⟨hleft, hcalls⟩ := ih (s := s.perform n effect)
      have hfirst : (s.perform n effect).left = s.left := by
        cases effect with
        | spawn task => cases task <;> rfl
        | _ => rfl
      have hnew : ∀ c ∈ (s.perform n effect).calls, c ∈ s.calls ∨
          c.msg = n ∧ ∃ callback, effect = .spawn (.call c.kind callback c.gate c.scope) := by
        intro c hc
        cases effect with
        | spawn task =>
            cases task with
            | call kind callback gate scope =>
                rcases mem_append.mp hc with hc | hc
                · exact .inl hc
                · cases mem_singleton.mp hc
                  exact .inr ⟨rfl, callback, rfl⟩
            | _ => exact .inl hc
        | _ => exact .inl hc
      refine ⟨hleft.trans hfirst, fun c hc => ?_⟩
      rcases hcalls c hc with hc | ⟨hmsg, callback, hmem⟩
      · rcases hnew c hc with hc | ⟨hmsg, callback, rfl⟩
        · exact .inl hc
        · exact .inr ⟨hmsg, callback, mem_cons_self⟩
      · exact .inr ⟨hmsg, callback, mem_cons_of_mem _ hmem⟩

namespace Tracks

variable {a : Action}

theorem stepPipe (hstep : Context.stepPipe s a = some s') : Tracks s a s' := by
  cases a with
  | send msg =>
      cases hstep
      exact .same rfl rfl (handled_send _ _)
  | handle =>
      obtain ⟨⟨effects, pipe⟩, hhandle, rfl⟩ := map_eq_some_iff.mp hstep
      obtain ⟨msg, hmsg, heffects, -, hhandled⟩ := grows_handle hhandle
      obtain ⟨hleft, hcalls⟩ := foldl_perform_calls (s := s.withPipe pipe) s.pipe.handled effects
      refine ⟨fun c hc => ?_, fun x hx => .inl (hleft ▸ hx), .inr ⟨rfl, ?_, msg, hmsg⟩⟩
      swap
      · rw [pipe_foldl_perform]
        exact hhandled
      rcases hcalls c hc with hc | ⟨hn, callback, hmem⟩
      · exact .inl ⟨c, hc, rfl, rfl, rfl⟩
      · exact .inr ⟨rfl, hn, msg, callback, hmsg, heffects ▸ hmem⟩
  | take =>
      obtain ⟨⟨⟨n, work⟩, events, pipe⟩, htake, rfl⟩ := map_eq_some_iff.mp hstep
      obtain ⟨-, hhandled⟩ := grows_take htake
      cases work with
      | socket op =>
          simp only
          split
          · exact .exit rfl rfl hhandled .socketOp
          · exact .same rfl rfl hhandled
      | storage | barrier => exact .same rfl rfl hhandled
  | finish result =>
      obtain ⟨pipe, hfinish, rfl⟩ := map_eq_some_iff.mp hstep
      exact .same rfl rfl (grows_finish hfinish).2
  | panic | stop | cancel =>
      obtain ⟨-, heq⟩ := ite_none_right_eq_some.mp hstep
      cases heq
      exact .same rfl rfl rfl
  | drop | admitEvent =>
      obtain ⟨-, heq⟩ := ite_none_left_eq_some.mp hstep
      cases heq
      exact .same rfl rfl rfl
  | abortScope scope =>
      cases hstep
      exact .same rfl rfl rfl
  | _ => cases hstep

theorem step (hstep : Context.step s a = some s') : Tracks s a s' := by
  cases a with
  | openCall k | refuseCall k | cancelCall k | answerCall k =>
      obtain ⟨c, hc, hstep⟩ := bind_eq_some_iff.mp hstep
      exact stepCall hc hstep
  | early k =>
      obtain ⟨c, hc, hstep⟩ := bind_eq_some_iff.mp hstep
      obtain ⟨-, ⟨⟩⟩ := ite_none_right_eq_some.mp hstep
      exact .exit rfl rfl rfl (.early rfl hc)
  | invoke =>
      obtain ⟨-, ⟨⟩⟩ := ite_none_left_eq_some.mp hstep
      exact .exit rfl rfl rfl .invoke
  | connect k | connected k | command k | closeOutgoing k =>
      obtain ⟨o, -, hstep⟩ := bind_eq_some_iff.mp hstep
      exact stepOutgoing hstep
  | respond k | failResponse k | outcome k | poll k | leave k =>
      obtain ⟨e, -, hstep⟩ := bind_eq_some_iff.mp hstep
      exact stepEvent hstep
  | chunk k | pollChunk k | endBody k =>
      obtain ⟨b, -, hstep⟩ := bind_eq_some_iff.mp hstep
      exact stepBody hstep
  | forward k ok =>
      simp only [Context.step] at hstep
      split at hstep
      · cases hstep
        cases ok with
        | true => exact .exit rfl rfl rfl .relay
        | false => exact .same rfl rfl rfl
      · cases hstep
  | send | handle | take | finish | panic | drop | cancel | stop | abortScope | admitEvent =>
      exact stepPipe hstep

end Tracks

theorem sound_step {a : Action} (h : s.pipe.Sound) (hstep : step s a = some s') : s'.pipe.Sound :=
  closed_sound.step h hstep

theorem grows_step {a : Action} (hstep : step s a = some s') : Grows s.pipe s'.pipe :=
  (closed_grows s.pipe).step (Grows.refl _) hstep

/-! ## What waits for a barrier -/

/-- The ways out that wait for an `OutputBarrier`. -/
def ExitKind.held : ExitKind → Bool
  | .response _ | .outcome _ | .chunk _ => true
  | .call _ | .socketOp | .connect | .frame | .relay => false

structure Held (s : State) : Prop where
  pipe : s.pipe.Sound
  left : ∀ x ∈ s.left, x.kind.held = true → s.pipe.Passes x.msg

theorem held_step (s : State) (a : Action) (s' : State) (h : Held s)
    (hstep : step s a = some s') : Held s' where
  pipe := sound_step h.pipe hstep
  left x hx hheld := by
    have hgrows := grows_step hstep
    rcases (Tracks.step hstep).left x hx with hx | hleaves
    · exact hgrows.passes (h.left x hx hheld)
    · cases hleaves with
      | behind hopen => exact hgrows.passes (h.pipe.passes hopen)
      | _ => cases hheld

/-- A barrier fails closed in every run: whatever became of the queue task, no response, outcome
or chunk has left before every write sent before it was ended without an error. -/
theorem held_answers_fail_closed {actions : List Action} {s : State}
    (hrun : machine.run actions = some s) {x : Exit} (hx : x ∈ s.left)
    (hheld : x.kind.held = true) : s.pipe.ClearBefore x.msg := by
  have h : Held s := machine.invariant ⟨Sound.init, fun _ h => absurd h not_mem_nil⟩
    held_step hrun
  exact (h.left x hx hheld).2

/-! ## What takes the gate -/

/-- The messages of the calls that take the gate. -/
def outbound : SchedulerMessage → Bool
  | .fetchStreaming _ | .bindingFetch _ _ | .bindingWorker _ _ | .bindingDurableObject _ _ _ => true
  | _ => false

/-- The message is a storage op. -/
def isStorage : SchedulerMessage → Bool
  | .objectStorage _ _ => true
  | _ => false

/-- **The condition on a step.**  Where the loop takes a message after the queue task has ended,
the message is no storage op, and if it is a call that takes the gate, every write sent before it
was ended without an error; and so where the host acts on such a call in `handle`. -/
def Attended (s : State) : Action → Prop
  | .handle => s.pipe.alive = false → ∀ msg ∈ s.pipe.sent[s.pipe.handled]?,
      isStorage msg = false ∧ (outbound msg = true → s.pipe.ClearBefore s.pipe.handled)
  | .early k => ∀ c ∈ s.calls[k]?, c.kind.gated = true → s.pipe.ClearBefore c.msg
  | _ => True

instance (s : State) (a : Action) : Decidable (Attended s a) := by
  cases a <;> dsimp only [Attended] <;> infer_instance

theorem outbound_of_spawn {l : EventLoop} {alive : Bool} {n : MsgId} {msg : SchedulerMessage}
    {kind : CallKind} {callback : CallbackId} {gate : Gate} {scope : Scope}
    (hgated : kind.gated = true)
    (h : .spawn (.call kind callback gate scope) ∈ (l.handle alive n msg).2) :
    outbound msg = true := by
  cases EventLoop.does_of_mem_handle h with
  | spawn htask => cases msg <;> cases htask <;> first | rfl | cases hgated

structure Gated (s : State) : Prop where
  pipe : s.pipe.Sound
  sent : ∀ c ∈ s.calls, c.msg ≤ s.pipe.sent.length
  calls : ∀ c ∈ s.calls, c.kind.gated = true →
    c.gate = .behind c.msg ∨ c.gate = .free ∧ s.pipe.Passes c.msg
  left : ∀ x ∈ s.left, ∀ kind, x.kind = .call kind → kind.gated = true → s.pipe.Passes x.msg

theorem gated_init : Gated machine.init where
  pipe := Sound.init
  sent _ h := absurd h not_mem_nil
  calls _ h := absurd h not_mem_nil
  left _ h := absurd h not_mem_nil

/-- A call that the loop spawns waits for its barrier, or has no write to wait for. -/
theorem Spawns.gate {c : Call} (h : Spawns s c) (hpipe : s.pipe.Sound)
    (hguard : Attended s .handle) (hgated : c.kind.gated = true) :
    c.gate = .behind c.msg ∨ c.gate = .free ∧ s.pipe.Passes c.msg := by
  obtain ⟨hmsg, msg, callback, hget, hspawn⟩ := h
  rw [hmsg]
  rcases way_handle hspawn rfl with ⟨hfree, hqueue⟩ | ⟨-, hbehind, -⟩
  · refine .inr ⟨hfree, hpipe.handled_le, ?_⟩
    cases halive : s.pipe.alive with
    | true =>
        intro j hj hwrite
        exact absurd hwrite (hpipe.noQueue (hqueue hgated halive) j hj)
    | false => exact (hguard halive msg hget).2 (outbound_of_spawn hgated hspawn)
  · exact .inl hbehind

theorem gated_step (s : State) (a : Action) (s' : State) (h : Gated s) (hguard : Attended s a)
    (hstep : step s a = some s') : Gated s' := by
  have hgrows := grows_step hstep
  have htracks := Tracks.step hstep
  refine ⟨sound_step h.pipe hstep, fun c hc => ?_, fun c hc hgated => ?_,
    fun x hx kind hkind hgated => ?_⟩
  · refine le_trans ?_ hgrows.sent.length_le
    rcases htracks.calls c hc with ⟨c', hc', hmsg, -⟩ | ⟨-, hspawns⟩
    · exact hmsg ▸ h.sent c' hc'
    · exact hspawns.msg ▸ h.pipe.handled_le
  · have hgate : c.gate = .behind c.msg ∨ c.gate = .free ∧ s.pipe.Passes c.msg := by
      rcases htracks.calls c hc with ⟨c', hc', hmsg, hkind, hgate⟩ | ⟨rfl, hspawns⟩
      · rw [← hmsg, ← hgate]
        exact h.calls c' hc' (hkind ▸ hgated)
      · exact hspawns.gate h.pipe hguard hgated
    exact hgate.imp_right (And.imp_right hgrows.passes)
  · refine hgrows.passes ?_
    rcases htracks.left x hx with hx | hleaves
    · exact h.left x hx kind hkind hgated
    · cases hleaves with
      | behind hopen => exact h.pipe.passes hopen
      | @call c hc hopen =>
          cases hkind
          rcases h.calls c hc hgated with hgate | ⟨-, hpasses⟩
          · rw [hgate] at hopen
            exact h.pipe.passes hopen
          · exact hpasses
      | early ha hc =>
          cases hkind
          subst ha
          exact ⟨h.sent _ (mem_of_getElem? hc), hguard _ hc hgated⟩
      | invoke =>
          cases hkind
          cases hgated
      | _ => cases hkind

/-! ## After the queue task has ended -/

theorem closed_dead : Closed fun p => p.alive = false where
  relays _ _ h := h
  send p msg h := by
    unfold Pipeline.send
    split <;> exact h
  handle p effects p' hhandle h := by
    obtain ⟨-, msg, -, -, rfl⟩ := of_handle hhandle
    exact (frame_foldl_perform _ _).2.1.trans h
  take p item events p' htake h := by
    obtain ⟨-, -, -, -, rfl⟩ := take_eq_some htake
    exact h
  finish p result p' hfinish h := by
    obtain ⟨-, item, -, rfl⟩ := finish_eq_some hfinish
    exact h
  panic _ _ := rfl
  stop _ h := h

/-- The storage ops that a step answers. -/
def answersOf (s : State) : Action → List (MsgId × CallbackId)
  | .take =>
    match s.pipe.take with
    | some (item, events, _) => (answers events).map fun answer => (item.1, answer.1)
    | none => []
  | .finish result =>
    if s.pipe.busy then
      s.pipe.queued[s.pipe.taken - 1]?.toList.flatMap fun item =>
        (answers (Object.finish item.2 result).1).map fun answer => (item.1, answer.1)
    else
      []
  | _ => []

/-- An answer is to an op that is in the queue of a task that lives. -/
theorem queued_of_mem_answersOf {a : Action} {x : MsgId × CallbackId} (h : s.pipe.Sound)
    (hx : x ∈ answersOf s a) :
    s.pipe.alive = true ∧ ∃ work, (x.1, work) ∈ s.pipe.queued := by
  cases a with
  | take =>
      rw [answersOf] at hx
      split at hx
      · next item events pipe htake =>
        obtain ⟨answer, -, rfl⟩ := List.mem_map.mp hx
        refine ⟨?_, item.2, mem_of_getElem? (take_eq_some htake).2.2.1⟩
        by_contra hdead
        rw [Pipeline.take, eq_false_of_ne_true hdead] at htake
        cases htake
      · cases hx
  | finish result =>
      rw [answersOf] at hx
      split at hx
      · next hbusy =>
        obtain ⟨item, hitem, hx⟩ := mem_flatMap.mp hx
        obtain ⟨answer, -, rfl⟩ := List.mem_map.mp hx
        refine ⟨?_, item.2, mem_of_getElem? (mem_toList.mp hitem)⟩
        by_contra hdead
        cases (h.dead (eq_false_of_ne_true hdead)).symm.trans hbusy
      · cases hx
  | _ => cases hx

/-- What was answered was sent. -/
structure Replied (s : State) (log : List (MsgId × CallbackId)) : Prop where
  pipe : s.pipe.Sound
  sent : ∀ x ∈ log, x.1 < s.pipe.sent.length

theorem replied_step (s : State) (log : List (MsgId × CallbackId)) (a : Action) (s' : State)
    (h : Replied s log) (hstep : step s a = some s') : Replied s' (log ++ answersOf s a) where
  pipe := sound_step h.pipe hstep
  sent x hx := by
    refine Nat.lt_of_lt_of_le ?_ (grows_step hstep).sent.length_le
    rcases mem_append.mp hx with hx | hx
    · exact h.sent x hx
    · obtain ⟨halive, work, hqueued⟩ := queued_of_mem_answersOf h.pipe hx
      exact ((h.pipe.alive halive).before _ hqueued).trans_le h.pipe.handled_le

/-- Nobody answers once the task has ended. -/
theorem logFrom_answersOf_of_dead {actions : List Action} (h : s.pipe.Sound)
    (hdead : s.pipe.alive = false) (hrun : machine.runFrom s actions = some s') :
    machine.logFrom answersOf s actions = [] := by
  induction actions generalizing s with
  | nil => rfl
  | cons a actions ih =>
      obtain ⟨t, hstep, hrest⟩ := runFrom_cons_eq_some.mp hrun
      rw [logFrom_cons hstep, ih (sound_step h hstep) (closed_dead.step hdead hstep) hrest,
        append_nil, eq_nil_iff_forall_not_mem]
      intro x hx
      cases hdead.symm.trans (queued_of_mem_answersOf h hx).1

/-- **A storage op sent after the end of the task is lost**: in every run it is never answered. -/
theorem storage_op_is_lost {before after : List Action} {r : State}
    (hbefore : machine.run before = some r) (hafter : machine.runFrom r after = some s)
    (hdead : r.pipe.alive = false) {j : MsgId} (hj : r.pipe.sent.length ≤ j)
    (callback : CallbackId) : (j, callback) ∉ machine.log answersOf (before ++ after) := by
  have h : Replied r (machine.log answersOf before) :=
    machine.invariant_log ⟨Sound.init, fun _ h => absurd h not_mem_nil⟩ replied_step hbefore
  rw [log_append hbefore, logFrom_answersOf_of_dead h.pipe hdead hafter, append_nil]
  intro hmem
  exact absurd (h.sent _ hmem) (not_lt.mpr hj)

theorem storage_op_is_lost_after_panic : (1, 3) ∉ machine.log answersOf
    ([.send (.objectStorage 0 put), .handle, .take, .panic] ++
      [.send (.objectStorage 3 put), .handle]) :=
  storage_op_is_lost rfl rfl rfl (by decide) 3

theorem handle_of_outbound (l : EventLoop) (alive : Bool) (n : MsgId) {msg : SchedulerMessage}
    (h : outbound msg = true) : ∃ kind callback,
      kind.gated = true ∧ l.handle alive n msg = l.gatedCall alive n kind callback := by
  cases msg with
  | fetchStreaming callback | bindingFetch callback | bindingWorker callback
  | bindingDurableObject callback => exact ⟨_, callback, rfl, rfl⟩
  | _ => cases h

/-- **A call taken after the end of the task passes the gate**: it is with the host two steps
later, whatever became of the writes before it. -/
theorem outbound_call_leaves {msg : SchedulerMessage} (hdead : s.pipe.alive = false)
    (hrunning : s.pipe.running = true) (hmsg : s.pipe.sent[s.pipe.handled]? = some msg)
    (hout : outbound msg = true) (hcancel : s.isCancelled s.pipe.loop.scope = false) :
    ∃ kind s', machine.runFrom s [.handle, .openCall s.calls.length] = some s' ∧
      kind.gated = true ∧ ⟨.call kind, s.pipe.handled⟩ ∈ s'.left ∧
        s'.pipe.answered = s.pipe.answered := by
  obtain ⟨kind, callback, hgated, hhandle⟩ :=
    handle_of_outbound s.pipe.loop s.pipe.alive s.pipe.handled hout
  have hfree : s.pipe.loop.gatedCall s.pipe.alive s.pipe.handled kind callback =
      (s.pipe.loop, [.spawn (.call kind callback .free s.pipe.loop.scope)]) := by
    rw [hdead]
    simp [EventLoop.gatedCall, EventLoop.outputGate]
  obtain ⟨s', hrun, hleft, hanswered⟩ :=
    spawned_call_leaves hrunning hmsg (hhandle.trans hfree) hcancel
  exact ⟨kind, s', hrun, hgated, hleft, hanswered⟩

/-- The task has ended, and the loop has taken no storage op since `r`. -/
structure Spared (r s : State) : Prop where
  pipe : s.pipe.Sound
  dead : s.pipe.alive = false
  none : ∀ j < s.pipe.handled, r.pipe.handled ≤ j → ∀ msg ∈ s.pipe.sent[j]?, isStorage msg = false

theorem spared_step {r : State} (s : State) (a : Action) (s' : State) (h : Spared r s)
    (hguard : Attended s a) (hstep : step s a = some s') : Spared r s' where
  pipe := sound_step h.pipe hstep
  dead := closed_dead.step h.dead hstep
  none j hj hrj msg hget := by
    have hgrows := grows_step hstep
    have old : j < s.pipe.handled → isStorage msg = false := by
      intro hj
      refine h.none j hj hrj msg ?_
      rwa [hgrows.getElem? (hj.trans_le h.pipe.handled_le)] at hget
    rcases (Tracks.step hstep).handled with hsame | ⟨rfl, hsucc, msg', hmsg'⟩
    · exact old (hsame ▸ hj)
    · rw [hsucc] at hj
      rcases Nat.lt_succ_iff_lt_or_eq.mp hj with hj | rfl
      · exact old hj
      · rw [hgrows.getElem? (List.getElem?_eq_some_iff.mp hmsg').1] at hget
        exact (hguard h.dead msg hget).1

/-! ## The gate in runs whose task may end -/

/-- **The gate fails closed.**  The queue task may end at any moment.  If the loop then takes no
storage op, and if it takes a call that waits at the gate, and the host acts on one in `handle`,
only when every write sent before it was ended without an error, then in every state of the run

* no fetch, binding fetch, worker request or object request was performed after a write that was
  not ended without an error;
* nor did a response, an outcome or a chunk leave, for which the condition is not needed
  (`held_answers_fail_closed`);
* once the loop and the queue have come to rest, every storage op sent after the end of the task
  has its answer.

Neither half of the condition can be spared, by `outbound_call_leaves` and `storage_op_is_lost`. -/
theorem gate_fails_closed (actions : List Action) (s : State)
    (hrun : machine.run actions = some s)
    (hguard : machine.Meets Attended machine.init actions) :
    (∀ x ∈ s.left, ∀ kind, x.kind = .call kind → kind.gated = true →
      s.pipe.ClearBefore x.msg) ∧
    (∀ x ∈ s.left, x.kind.held = true → s.pipe.ClearBefore x.msg) ∧
    ∀ before after r, actions = before ++ after → machine.run before = some r →
      r.pipe.alive = false → s.pipe.running = true → s.pipe.Idle →
      ∀ j callback op, r.pipe.sent.length ≤ j →
        s.pipe.sent[j]? = some (.objectStorage callback op) →
          (j, callback) ∈ machine.log answersOf actions := by
  have h : Gated s := machine.invariant_of_meets gated_init gated_step hguard hrun
  refine ⟨fun x hx kind hkind hgated => (h.left x hx kind hkind hgated).2,
    fun x hx hheld => held_answers_fail_closed hrun hx hheld, ?_⟩
  rintro before after r rfl hbefore hdead hrunning hidle j callback op hj hget
  have hafter : machine.runFrom r after = some s := by
    rw [← hrun, run_append hbefore]
  have hsound : r.pipe.Sound := machine.invariant (I := fun s => s.pipe.Sound) Sound.init
    (fun _ _ _ => sound_step) hbefore
  have hspared : Spared r s := machine.invariant_from_of_meets spared_step
    ⟨hsound, hdead, fun j hj hrj => absurd hj (not_lt.mpr hrj)⟩
    ((meets_append hbefore).mp hguard).2 hafter
  -- The loop has taken everything, so it has taken the op: the condition was not met.
  have hhandled : j < s.pipe.handled := by
    by_contra hge
    have hlt := (not_lt.mp hge).trans_lt (List.getElem?_eq_some_iff.mp hget).1
    cases hrunning.symm.trans (running_of_idle hidle hlt)
  cases hspared.none j hhandled (hsound.handled_le.trans hj) _ hget

/-- A write that succeeds; then the host panics over a message to a socket, and the object goes on
with a fetch and the response of its event. -/
def socketPanic : List Action :=
  [.admitEvent .fetch, .send (.objectStorage 0 put), .send (.objectSocket (.send 0 (.text "hi"))),
    .handle, .handle, .take, .finish (.objectStorage (.written 0)), .take, .panic,
    .send (.fetchStreaming 1), .respond 0 none false, .handle, .handle, .openCall 0, .poll 0]

/-- The fetch left behind a write that had ended; the response waited for a barrier that nobody
placed. -/
theorem gate_fails_closed_socket_panic : ∃ s, machine.run socketPanic = some s ∧
    s.pipe.alive = false ∧ s.left = [⟨.socketOp, 1⟩, ⟨.call .fetch, 2⟩] ∧
    (∀ x ∈ s.left, ∀ kind, x.kind = .call kind → kind.gated = true →
      s.pipe.ClearBefore x.msg) ∧
    ∀ x ∈ s.left, x.kind.held = true → s.pipe.ClearBefore x.msg := by
  have h := gate_fails_closed socketPanic _ rfl (by decide)
  exact ⟨_, rfl, rfl, rfl, h.1, h.2.1⟩

/-- The host panics over a write.  The object goes on with a fetch, the response of its event and
another write. -/
def writePanic : List Action :=
  [.admitEvent .fetch, .send (.objectStorage 0 put), .handle, .take, .panic,
    .send (.fetchStreaming 1), .respond 0 none false, .send (.objectStorage 3 put),
    .handle, .handle, .handle, .openCall 0, .poll 0]

/-- The fetch is performed although the write before it was never ended, while the response, in
the same state, is dropped; and the second write is not answered though nothing is left to do. -/
theorem call_passes_the_gate_after_a_panic : ∃ s, machine.run writePanic = some s ∧
    s.pipe.IsWrite 0 ∧ s.pipe.answered = [] ∧ s.left = [⟨.call .fetch, 1⟩] ∧
    s.inflight = [⟨.fetch, false, none⟩] ∧
    s.pipe.sent[3]? = some (.objectStorage 3 put) ∧ s.pipe.running = true ∧ s.pipe.Idle ∧
    machine.log answersOf writePanic = [] :=
  ⟨_, rfl, by decide, rfl, rfl, rfl, rfl, rfl, by decide, rfl⟩

end Context

end OpenWorkers.Object
