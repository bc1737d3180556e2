import OpenWorkers.Lib.Erase
import OpenWorkers.Object.Context
import OpenWorkers.Object.Order

/-!
# Ways out behind the writes before them

The invariant of a context that protects a set `P` of ways out: nothing in `P` leaves before
every storage write sent before it was ended by the host without an error.  The step lemma
asks for a condition (`Guard`) where the loop takes a message that starts an ungated way out in
`P`, and where the host acts before it is polled.  What a step does is said once for each part of
the state (`Inv.setCall`, `Inv.exit`, …), and the steps are put together from those.
-/

namespace OpenWorkers.Object.Context

open List Option Scheduler Pipeline

/-! ## The ways out that a message asks for -/

/-- A frame for the peer. -/
def isFrame : WebSocketCommand → Bool
  | .send _ | .close _ _ => true
  | .attach | .accept => false

/-- The way out that an effect starts. -/
def way : Effect → Option ExitKind
  | .spawn (.call kind _ _ _) => some (.call kind)
  | .spawn (.webSocket _ _ _) => some .connect
  | .spawn (.forward _) => some .relay
  | .command _ command => if isFrame command then some .frame else none
  | .spawn (.writable _ _ _) | .spawn (.streamRead _ _ _) | .spawn (.serverWebSocket _ _ _)
  | .spawn (.linkAbort _ _) | .enqueue _ | .openGate | .hangUp _ | .closeStream _ | .cancel _ =>
    none

/-- The gate in front of it. -/
def wayGate : Effect → Gate
  | .spawn (.call _ _ gate _) => gate
  | _ => .free

/-- The ways out that the message at position `n` starts when the loop takes it. -/
def ways (l : EventLoop) (alive : Bool) (n : MsgId) (msg : SchedulerMessage) : List ExitKind :=
  (l.handle alive n msg).2.filterMap way

section Ways

variable {l : EventLoop} {alive : Bool} {n : MsgId} {effect : Effect} {kind : ExitKind}

theorem way_upgrade {socket : Option WebSocketId} (hmem : effect ∈ (l.upgrade socket).2)
    (hway : way effect = some kind) : kind = .relay ∧ wayGate effect = .free := by
  simp only [EventLoop.upgrade, mem_append, List.mem_map] at hmem
  rcases hmem with hmem | ⟨ws, -, rfl⟩
  · split at hmem
    · cases hmem
    · split at hmem
      · rw [mem_singleton.mp hmem] at hway
        cases hway
      · split at hmem
        · rw [mem_singleton.mp hmem] at hway ⊢
          exact ⟨(Option.some.inj hway).symm, rfl⟩
        · cases hmem
  · cases hway

theorem way_beginRequest {abort : Option Nat}
    (hmem : effect ∈ (l.handle alive n (.beginRequest abort)).2) : way effect = none := by
  simp only [EventLoop.handle, mem_append, List.mem_map, mem_singleton] at hmem
  rcases hmem with (rfl | ⟨ws, -, rfl⟩) | ⟨token, -, rfl⟩ <;> rfl

/-- **Which gate a way out gets.**  A gated one waits for a barrier of its own message if
there is a living queue; the others wait for nothing. -/
theorem way_handle {msg : SchedulerMessage} (hmem : effect ∈ (l.handle alive n msg).2)
    (hway : way effect = some kind) :
    wayGate effect = .free ∧ (kind.gated = true → alive = true → l.queue = false) ∨
      kind.gated = true ∧ wayGate effect = .behind n ∧ work l n msg = some (.barrier n) := by
  cases msg with
  | webSocketUpgrade socket =>
      obtain ⟨rfl, hgate⟩ := way_upgrade hmem hway
      exact .inl ⟨hgate, fun h => by cases h⟩
  | beginRequest abort => rw [way_beginRequest hmem] at hway; cases hway
  | fetchStreaming | bindingFetch | bindingWorker | bindingDurableObject =>
      cases hq : (l.queue && alive) <;>
        simp [EventLoop.handle, EventLoop.gatedCall, EventLoop.outputGate, hq] at hmem
      · subst hmem
        cases hway
        exact .inl ⟨rfl, fun _ halive => by simpa [halive] using hq⟩
      · rcases hmem with rfl | rfl
        · cases hway
        · cases hway
          exact .inr ⟨rfl, rfl, by simp [work, (Bool.and_eq_true_iff.mp hq).1]⟩
  | bindingStorage | bindingKv | bindingDatabase | bindingD1 | bindingInvoke =>
      rw [mem_singleton.mp hmem] at hway ⊢
      cases hway
      exact .inl ⟨rfl, fun h => by cases h⟩
  | objectUpgrade socket =>
      by_cases hrelay : socket ∈ l.relays <;>
        simp [EventLoop.handle, EventLoop.enqueue, hrelay] at hmem
      · subst hmem
        cases hway
        exact .inl ⟨rfl, fun h => by cases h⟩
      · subst hmem
        cases hway
  | webSocketConnect callback socket url =>
      rw [mem_singleton.mp hmem] at hway ⊢
      cases hway
      exact .inl ⟨rfl, fun h => by cases h⟩
  | webSocketSend socket message =>
      by_cases hws : socket ∈ l.wsCommands <;>
        simp [EventLoop.handle, EventLoop.command, hws] at hmem
      subst hmem
      cases hway
      exact .inl ⟨rfl, fun h => by cases h⟩
  | webSocketClose socket code reason =>
      by_cases hws : socket ∈ l.wsCommands <;> simp [EventLoop.handle, hws] at hmem
      rcases hmem with rfl | rfl
      · cases hway
        exact .inl ⟨rfl, fun h => by cases h⟩
      · cases hway
  | webSocketAccept socket =>
      by_cases hws : socket ∈ l.wsCommands <;>
        simp [EventLoop.handle, EventLoop.command, hws] at hmem
      subst hmem
      cases hway
  | webSocketPair socket =>
      cases hpairs : l.pairs <;> simp [EventLoop.handle, hpairs] at hmem <;>
        (subst hmem; cases hway)
  | outputBarrier =>
      cases hq : l.queue <;> simp [EventLoop.handle, hq] at hmem <;> (subst hmem; cases hway)
  | objectStorage | objectSocket | scheduleWritable | streamRead | streamCancel =>
      rw [mem_singleton.mp hmem] at hway
      cases hway
  | scheduleTimeout | scheduleInterval | clearTimer | shutdown => cases hmem

end Ways

/-! ## The invariant -/

/-- The event whose answer an exit is. -/
def ExitKind.event : ExitKind → Option Nat
  | .response event | .outcome event => some event
  | .call _ | .socketOp | .chunk _ | .connect | .frame | .relay => none

/-- How often event `k` was answered. -/
def State.answers (s : State) (k : Nat) : Nat := s.left.countP fun x => x.kind.event = some k

variable (P : ExitKind → Bool)

/-- What is known of a call: its gate, and that its way out is recorded unless it waits or
was refused. -/
structure CallOk (p : Pipeline) (left : List Exit) (c : Call) : Prop where
  handled : c.msg < p.handled
  gate : P (.call c.kind) = true →
    c.gate = .free ∧ p.Passes c.msg ∨
      c.kind.gated = true ∧ c.gate = .behind c.msg ∧ p.HasBarrier c.msg
  left : c.pc = .waiting ∨ c.pc = .ended (some storageFailed) ∨ c.pc = .ended (some cancelledText) ∨
    ⟨.call c.kind, c.msg⟩ ∈ left

/-- What is known of an outgoing socket and of the commands for it. -/
structure OutgoingOk (p : Pipeline) (o : Outgoing) : Prop where
  connect : P .connect = true → p.Passes o.msg
  frames : ∀ x ∈ o.commands, isFrame x.2 = true → P .frame = true → p.Passes x.1

/-- The gate of an answer or of a chunk is a barrier that was sent, or one that no loop took. -/
def BarrierGate (p : Pipeline) : Gate → Prop
  | .free => False
  | .behind n => p.HasBarrier n
  | .closed => True

/-- **The invariant**: nothing in `P` has left, or can leave, before the writes sent before
it were ended without an error. -/
structure Inv (s : State) : Prop where
  handled_le : s.pipe.handled ≤ s.pipe.sent.length
  /-- The order of the queue matters only to the ways out that take the gate. -/
  pipe : ∀ kind, P kind = true → kind.gated = true → s.pipe.Inv
  calls : ∀ c ∈ s.calls, CallOk P s.pipe s.left c
  outgoings : ∀ o ∈ s.outgoings, OutgoingOk P s.pipe o
  forwards : ∀ f ∈ s.forwards, P .relay = true → s.pipe.Passes f.msg
  inflight : ∀ e ∈ s.inflight, ∀ gate, e.held = some gate →
    e.caller = true ∧ BarrierGate s.pipe gate
  bodies : ∀ b ∈ s.bodies, ∀ gate, b = .waiting gate → BarrierGate s.pipe gate
  left : ∀ x ∈ s.left, P x.kind = true → s.pipe.Passes x.msg
  once : ∀ k, s.answers k ≤ 1 ∧
    (s.answers k ≠ 0 → ∃ e, s.inflight[k]? = some e ∧ e.caller = false)

variable {P} {s s' : State} {p p' : Pipeline}

theorem CallOk.mono {left left' : List Exit} {c : Call} (h : CallOk P p left c) (hp : Grows p p')
    (hleft : ∀ x ∈ left, x ∈ left') : CallOk P p' left' c where
  handled := h.handled.trans_le hp.handled
  gate hP := (h.gate hP).imp (And.imp_right hp.passes)
    (And.imp_right (And.imp_right hp.hasBarrier))
  left := h.left.imp_right (Or.imp_right (Or.imp_right (hleft _)))

theorem OutgoingOk.mono {o : Outgoing} (h : OutgoingOk P p o) (hp : Grows p p') :
    OutgoingOk P p' o where
  connect hP := hp.passes (h.connect hP)
  frames x hx hframe hP := hp.passes (h.frames x hx hframe hP)

theorem BarrierGate.mono {gate : Gate} (h : BarrierGate p gate) (hp : Grows p p') :
    BarrierGate p' gate := by
  cases gate with
  | free => exact h
  | behind n => exact hp.hasBarrier h
  | closed => exact trivial

theorem barrierGate_send (p : Pipeline) :
    BarrierGate (p.send .outputBarrier).1 (p.send .outputBarrier).2 := by
  unfold send
  split
  · exact .inl getElem?_concat_length
  · exact trivial

namespace Inv

theorem init : Inv P State.init where
  handled_le := le_rfl
  pipe _ _ _ := Pipeline.Inv.init
  calls := by simp [State.init]
  outgoings := by simp [State.init]
  forwards := by simp [State.init]
  inflight := by simp [State.init]
  bodies := by simp [State.init]
  left := by simp [State.init]
  once k := by simp [State.answers, State.init]

/-! ### One part of the state changes -/

theorem withPipe (h : Inv P s) (hgrows : Grows s.pipe p) (hle : p.handled ≤ s.pipe.sent.length)
    (hp : ∀ kind, P kind = true → kind.gated = true → s.pipe.Inv → p.Inv) :
    Inv P (s.withPipe p) where
  handled_le := hle.trans hgrows.sent.length_le
  pipe kind hP hgated := hp kind hP hgated (h.pipe kind hP hgated)
  calls c hc := (h.calls c hc).mono hgrows fun _ hx => hx
  outgoings o ho := (h.outgoings o ho).mono hgrows
  forwards f hf hP := hgrows.passes (h.forwards f hf hP)
  inflight e he gate hheld := (h.inflight e he gate hheld).imp_right fun hg => hg.mono hgrows
  bodies b hb gate hwaits := (h.bodies b hb gate hwaits).mono hgrows
  left x hx hP := hgrows.passes (h.left x hx hP)
  once := h.once

theorem setCall (h : Inv P s) {k : Nat} {pc : CallPc}
    (hok : ∀ c, s.calls[k]? = some c → CallOk P s.pipe s.left { c with pc }) :
    Inv P (s.setCall k pc) :=
  { h with calls := forall_mem_modify h.calls hok }

theorem setOutgoing (h : Inv P s) {k : Nat} {f : Outgoing → Outgoing}
    (hok : ∀ o, s.outgoings[k]? = some o → OutgoingOk P s.pipe (f o)) :
    Inv P (s.setOutgoing k f) :=
  { h with outgoings := forall_mem_modify h.outgoings hok }

theorem setBody (h : Inv P s) {k : Nat} {b : Body}
    (hok : ∀ gate, b = .waiting gate → BarrierGate s.pipe gate) : Inv P (s.setBody k b) :=
  { h with bodies := forall_mem_modify h.bodies fun _ _ => hok }

/-- Something leaves that is not the answer of an event. -/
theorem exit (h : Inv P s) {kind : ExitKind} {n : MsgId} (hkind : kind.event = none)
    (hn : P kind = true → s.pipe.Passes n) : Inv P (s.exit kind n) where
  handled_le := h.handled_le
  pipe := h.pipe
  calls c hc := (h.calls c hc).mono (Grows.refl _) fun _ hx => mem_append_left _ hx
  outgoings := h.outgoings
  forwards := h.forwards
  inflight := h.inflight
  bodies := h.bodies
  left := by
    intro x hx hP
    rcases mem_append.mp hx with hx | hx
    · exact h.left x hx hP
    · rw [mem_singleton.mp hx] at hP ⊢
      exact hn hP
  once k := by
    have hcount : (s.exit kind n).answers k = s.answers k := by
      simp [State.answers, State.exit, hkind]
    rw [hcount]
    exact h.once k

theorem setEvent (h : Inv P s) {k : Nat} {caller : Bool} {held : Option Gate}
    (hcaller : caller = true → ∀ e, s.inflight[k]? = some e → e.caller = true)
    (hheld : ∀ gate, held = some gate → caller = true ∧ BarrierGate s.pipe gate) :
    Inv P (s.setEvent k caller held) where
  handled_le := h.handled_le
  pipe := h.pipe
  calls := h.calls
  outgoings := h.outgoings
  forwards := h.forwards
  inflight := forall_mem_modify h.inflight fun _ _ => hheld
  bodies := h.bodies
  left := h.left
  once i := by
    refine ⟨(h.once i).1, fun hpos => ?_⟩
    obtain ⟨e, he, hdone⟩ := (h.once i).2 hpos
    refine ⟨_, by rw [State.setEvent, List.getElem?_modify, he]; rfl, ?_⟩
    split
    · next heq =>
        subst heq
        cases hc : caller with
        | false => rfl
        | true => exact absurd (hcaller hc e he) (by simp [hdone])
    · exact hdone

/-- An event is answered, for the first time. -/
theorem answerEvent (h : Inv P s) {k : Nat} {e : InFlight} {n : MsgId}
    (he : s.inflight[k]? = some e) (hcaller : e.caller = true)
    (hn : P (e.kind.exit k) = true → s.pipe.Passes n) :
    Inv P ((s.setEvent k false none).exit (e.kind.exit k) n) := by
  have hset : Inv P (s.setEvent k false none) :=
    h.setEvent (fun hc => absurd hc Bool.false_ne_true) (fun gate hg => by cases hg)
  have hevent : (e.kind.exit k).event = some k := by cases e.kind <;> rfl
  refine ⟨hset.handled_le, hset.pipe, fun c hc => (hset.calls c hc).mono (Grows.refl _) fun _ hx =>
    mem_append_left _ hx, hset.outgoings, hset.forwards, hset.inflight, hset.bodies, ?_, ?_⟩
  · intro x hx hP
    rcases mem_append.mp hx with hx | hx
    · exact h.left x hx hP
    · rw [mem_singleton.mp hx] at hP ⊢
      exact hn hP
  · intro i
    have hcount : ((s.setEvent k false none).exit (e.kind.exit k) n).answers i =
        s.answers i + if k = i then 1 else 0 := by
      simp [State.answers, State.exit, State.setEvent, countP_singleton, hevent]
    have hzero : s.answers k = 0 := by
      by_contra hpos
      obtain ⟨e', he', hdone⟩ := (h.once k).2 hpos
      cases he.symm.trans he'
      exact absurd hcaller (by simp [hdone])
    by_cases hi : k = i
    · subst hi
      rw [hcount, hzero, if_pos rfl]
      exact ⟨le_rfl, fun _ => ⟨{ e with caller := false, held := none },
        by simp [State.exit, State.setEvent, he], rfl⟩⟩
    · rw [hcount, if_neg hi, Nat.add_zero]
      exact hset.once i

/-! ### The steps -/

theorem stepCall (h : Inv P s) {k : Nat} {c : Call} {a : Action} (hc : s.calls[k]? = some c)
    (hstep : Context.stepCall s k c a = some s') : Inv P s' := by
  have hok := h.calls c (mem_of_getElem? hc)
  have hthis : ∀ c', s.calls[k]? = some c' → c' = c := fun c' hc' =>
    Option.some.inj (hc'.symm.trans hc)
  cases a with
  | openCall i =>
      obtain ⟨hcond, heq⟩ := ite_none_right_eq_some.mp hstep
      cases heq
      have hexit : Inv P (s.exit (.call c.kind) c.msg) := by
        refine h.exit rfl fun hP => ?_
        rcases hok.gate hP with ⟨-, hpass⟩ | ⟨hgated, hgate, -⟩
        · exact hpass
        · have hopen := hcond.2.2
          rw [hgate] at hopen
          exact (h.pipe _ hP hgated).passes_of_opened hopen
      refine hexit.setCall fun c' hc' => ?_
      rw [hthis c' hc']
      exact ⟨hok.handled, hok.gate, .inr (.inr (.inr (mem_append_right _
        (mem_singleton_self _))))⟩
  | refuseCall i =>
      obtain ⟨-, heq⟩ := ite_none_right_eq_some.mp hstep
      cases heq
      refine h.setCall fun c' hc' => ?_
      rw [hthis c' hc']
      exact ⟨hok.handled, hok.gate, .inr (.inl rfl)⟩
  | cancelCall i =>
      obtain ⟨-, heq⟩ := ite_none_right_eq_some.mp hstep
      cases heq
      refine h.setCall fun c' hc' => ?_
      rw [hthis c' hc']
      exact ⟨hok.handled, hok.gate, .inr (.inr (.inl rfl))⟩
  | answerCall i error relay =>
      obtain ⟨⟨hhanded, -⟩, heq⟩ := ite_none_right_eq_some.mp hstep
      have hleft : ⟨.call c.kind, c.msg⟩ ∈ s.left := by
        rcases hok.left with hpc | hpc | hpc | hleft
        · cases hhanded.symm.trans hpc
        · cases hhanded.symm.trans hpc
        · cases hhanded.symm.trans hpc
        · exact hleft
      cases relay with
      | none =>
          cases heq
          refine h.setCall fun c' hc' => ?_
          rw [hthis c' hc']
          exact ⟨hok.handled, hok.gate, .inr (.inr (.inr hleft))⟩
      | some socket =>
          obtain ⟨-, heq⟩ := ite_none_right_eq_some.mp heq
          cases heq
          have hpipe : Inv P (s.withPipe { s.pipe with loop := { s.pipe.loop with
              relays := socket :: s.pipe.loop.relays.filter (· ≠ socket) } }) :=
            h.withPipe (.of_eq rfl rfl rfl rfl)
              h.handled_le fun _ _ _ hp => hp.relays _
          refine hpipe.setCall fun c' hc' => ?_
          rw [hthis c' hc']
          have hok' := hpipe.calls c (mem_of_getElem? hc)
          exact ⟨hok'.handled, hok'.gate, .inr (.inr (.inr hleft))⟩
  | _ => cases hstep

theorem stepOutgoing (h : Inv P s) {k : Nat} {o : Outgoing} {a : Action}
    (ho : s.outgoings[k]? = some o) (hstep : Context.stepOutgoing s k o a = some s') :
    Inv P s' := by
  have hok := h.outgoings o (mem_of_getElem? ho)
  have hkeep : ∀ pc, Inv P (s.setOutgoing k fun o => { o with pc }) := fun pc =>
    h.setOutgoing fun o' ho' => by
      have hok' := h.outgoings o' (mem_of_getElem? ho')
      exact ⟨hok'.connect, hok'.frames⟩
  cases a with
  | connect i =>
      obtain ⟨-, heq⟩ := ite_none_right_eq_some.mp hstep
      cases heq
      exact (hkeep .handed).exit rfl hok.connect
  | connected i ok =>
      obtain ⟨-, heq⟩ := ite_none_right_eq_some.mp hstep
      cases heq
      exact hkeep _
  | closeOutgoing i =>
      cases hstep
      exact hkeep .ended
  | command i =>
      obtain ⟨-, heq⟩ := ite_none_right_eq_some.mp hstep
      -- The commands left after the first one, whatever becomes of the task.
      have htail : ∀ (x : MsgId × WebSocketCommand) (commands : List (MsgId × WebSocketCommand))
          (pc : Outgoing → OutgoingPc), o.commands = x :: commands →
          Inv P (s.setOutgoing k fun o => { o with commands, pc := pc o }) := by
        intro x commands pc hcommands
        refine h.setOutgoing fun o' ho' => ?_
        cases ho'.symm.trans ho
        exact ⟨hok.connect, fun y hy => hok.frames y (hcommands ▸ mem_cons_of_mem x hy)⟩
      split at heq
      · cases heq
      · next hcommands =>
          cases heq
          exact htail _ _ Outgoing.pc hcommands
      · next hcommands =>
          cases heq
          exact htail _ _ Outgoing.pc hcommands
      · next n message commands hcommands =>
          cases heq
          exact (htail _ _ Outgoing.pc hcommands).exit rfl
            (hok.frames (n, .send message) (hcommands ▸ mem_cons_self) rfl)
      · next n code reason commands hcommands =>
          cases heq
          exact (htail _ _ (fun _ => .ended) hcommands).exit rfl
            (hok.frames (n, .close code reason) (hcommands ▸ mem_cons_self) rfl)
  | _ => cases hstep

theorem send (h : Inv P s) (msg : SchedulerMessage) : Inv P (s.withPipe (s.pipe.send msg).1) :=
  h.withPipe (grows_send s.pipe msg) ((handled_send s.pipe msg).le.trans h.handled_le)
    fun _ _ _ hp => hp.send msg

theorem handOver (h : Inv P s) (socket : Option WebSocketId) : Inv P (s.handOver socket) := by
  cases socket with
  | none => exact h
  | some ws => exact h.send _

theorem stream (h : Inv P s) (streams : Bool) : Inv P (s.stream streams) := by
  unfold State.stream
  split
  · refine { h with bodies := fun b hb gate hwaits => ?_ }
    rcases mem_append.mp hb with hb | hb
    · exact h.bodies b hb gate hwaits
    · cases (mem_singleton.mp hb).symm.trans hwaits
  · exact h

/-- An answer is held behind a new barrier. -/
theorem hold (h : Inv P s) {k : Nat} {e : InFlight} (he : s.inflight[k]? = some e)
    (hcaller : e.caller = true) : Inv P (s.hold k) := by
  refine (h.send .outputBarrier).setEvent (fun _ e' he' => ?_) fun gate hgate => ?_
  · cases he'.symm.trans he
    exact hcaller
  · cases hgate
    exact ⟨rfl, barrierGate_send s.pipe⟩

theorem dropAnswer (h : Inv P s) (k : Nat) : Inv P (s.setEvent k false none) :=
  h.setEvent (fun hc => absurd hc Bool.false_ne_true) fun gate hgate => by cases hgate

theorem stepEvent (h : Inv P s) {k : Nat} {e : InFlight} {a : Action}
    (he : s.inflight[k]? = some e) (hstep : Context.stepEvent s k e a = some s') : Inv P s' := by
  cases a with
  | respond i socket streams =>
      obtain ⟨⟨-, hcaller, -⟩, heq⟩ := ite_none_right_eq_some.mp hstep
      cases heq
      refine ((h.handOver socket).stream streams).hold (e := e) ?_ hcaller
      rw [← he, State.stream]
      cases socket <;> cases streams <;> rfl
  | failResponse i =>
      obtain ⟨-, heq⟩ := ite_none_right_eq_some.mp hstep
      cases heq
      exact h.dropAnswer k
  | outcome i =>
      obtain ⟨⟨-, hcaller, -⟩, heq⟩ := ite_none_right_eq_some.mp hstep
      cases heq
      exact h.hold he hcaller
  | poll i =>
      simp only [Context.stepEvent] at hstep
      split at hstep
      · next n hheld =>
          have hcaller := (h.inflight e (mem_of_getElem? he) _ hheld).1
          split at hstep
          · next hopen =>
              cases hstep
              refine h.answerEvent he hcaller fun hP => ?_
              exact (h.pipe _ hP (by cases e.kind <;> rfl)).passes_of_opened hopen
          · obtain ⟨-, heq⟩ := ite_none_right_eq_some.mp hstep
            cases heq
            exact h.dropAnswer k
      · cases hstep
        exact h.dropAnswer k
      · cases hstep
      · cases hstep
  | leave i =>
      cases hstep
      exact h.dropAnswer k
  | _ => cases hstep

theorem stepBody (h : Inv P s) {k : Nat} {b : Body} {a : Action}
    (hstep : Context.stepBody s k b a = some s') : Inv P s' := by
  have hend : ∀ error, Inv P (s.setBody k (.ended error)) := fun error =>
    h.setBody fun gate hwaits => by cases hwaits
  cases a with
  | chunk i =>
      obtain ⟨-, heq⟩ := ite_none_right_eq_some.mp hstep
      cases heq
      refine (h.send .outputBarrier).setBody fun gate hwaits => ?_
      cases hwaits
      exact barrierGate_send s.pipe
  | pollChunk i delivered =>
      simp only [Context.stepBody] at hstep
      split at hstep
      · next n =>
          split at hstep
          · next hopen =>
              split at hstep
              · cases hstep
                have hread : Inv P (s.setBody k .reading) :=
                  h.setBody fun gate hwaits => by cases hwaits
                exact hread.exit rfl fun hP => (h.pipe _ hP rfl).passes_of_opened hopen
              · cases hstep
                exact hend false
          · obtain ⟨-, heq⟩ := ite_none_right_eq_some.mp hstep
            cases heq
            exact hend true
      · cases hstep
        exact hend true
      · cases hstep
      · cases hstep
      · cases hstep
  | endBody i =>
      obtain ⟨-, heq⟩ := ite_none_right_eq_some.mp hstep
      cases heq
      exact hend false
  | _ => cases hstep

end Inv

/-- The way out that an effect of message `n` starts may be started. -/
def EffectOk (P : ExitKind → Bool) (p : Pipeline) (n : MsgId) (effect : Effect) : Prop :=
  ∀ kind, way effect = some kind → P kind = true →
    wayGate effect = .free ∧ p.Passes n ∨
      kind.gated = true ∧ wayGate effect = .behind n ∧ p.HasBarrier n

theorem EffectOk.passes {n : MsgId} {effect : Effect} {kind : ExitKind}
    (h : EffectOk P p n effect) (hway : way effect = some kind) (hfree : wayGate effect = .free)
    (hP : P kind = true) : p.Passes n := by
  rcases h kind hway hP with ⟨-, hpass⟩ | ⟨-, hgate, -⟩
  · exact hpass
  · cases hfree.symm.trans hgate

namespace Inv

theorem perform (h : Inv P s) {n : MsgId} {effect : Effect} (hn : n < s.pipe.handled)
    (hok : EffectOk P s.pipe n effect) : Inv P (s.perform n effect) := by
  cases effect with
  | spawn task =>
      cases task with
      | call kind callback gate scope =>
          refine { h with calls := fun c hc => ?_ }
          rcases mem_append.mp hc with hc | hc
          · exact h.calls c hc
          · rw [mem_singleton.mp hc]
            exact ⟨hn, hok _ rfl, .inl rfl⟩
      | webSocket callback socket scope =>
          refine { h with outgoings := fun o ho => ?_ }
          rcases mem_append.mp ho with ho | ho
          · exact h.outgoings o ho
          · rw [mem_singleton.mp ho]
            exact ⟨hok.passes rfl rfl, fun x hx => by cases hx⟩
      | forward socket =>
          refine { h with forwards := fun f hf => ?_ }
          rcases mem_append.mp hf with hf | hf
          · exact h.forwards f hf
          · rw [mem_singleton.mp hf]
            exact hok.passes rfl rfl
      | writable | streamRead | serverWebSocket | linkAbort => exact h
  | command socket command =>
      refine { h with outgoings := fun o ho => ?_ }
      obtain ⟨o', ho', rfl⟩ := List.mem_map.mp ho
      have hok' := h.outgoings o' ho'
      split
      · refine ⟨hok'.connect, fun x hx hframe hP => ?_⟩
        rcases mem_append.mp hx with hx | hx
        · exact hok'.frames x hx hframe hP
        · rw [mem_singleton.mp hx] at hframe ⊢
          exact hok.passes (if_pos hframe) rfl hP
      · exact hok'
  | enqueue | openGate | hangUp | closeStream | cancel => exact h

theorem foldl_perform (h : Inv P s) {n : MsgId} (hn : n < s.pipe.handled) {effects : List Effect}
    (hok : ∀ effect ∈ effects, EffectOk P s.pipe n effect) :
    Inv P (effects.foldl (State.perform n) s) := by
  induction effects generalizing s with
  | nil => exact h
  | cons effect effects ih =>
      have hpipe := pipe_perform s n effect
      refine ih (h.perform hn (hok effect mem_cons_self)) (hpipe ▸ hn) fun e he => ?_
      rw [hpipe]
      exact hok e (mem_cons_of_mem effect he)

end Inv

/-- **The condition on a step.**  Where the loop takes a message that starts an ungated way
out in `P`, where the host acts on a gated one in `handle` and where the guest calls a host
function, every storage write sent before was ended without an error.  If `P` has a gated way out,
the handler of the host does not panic. -/
def Guard (P : ExitKind → Bool) (s : State) : Action → Prop
  | .handle => ∀ msg, s.pipe.sent[s.pipe.handled]? = some msg →
      ∀ kind ∈ ways s.pipe.loop s.pipe.alive s.pipe.handled msg, P kind = true →
        kind.gated = false → s.pipe.ClearBefore s.pipe.handled
  | .panic => ∀ kind, P kind = true → kind.gated = false
  | .early k => ∀ c, s.calls[k]? = some c → P (.call c.kind) = true → c.kind.gated = true →
      s.pipe.ClearBefore c.msg
  | .invoke => P (.call .invoke) = true → s.pipe.ClearBefore s.pipe.sent.length
  | _ => True

namespace Inv

theorem handle (h : Inv P s) {effects : List Effect} (hguard : Guard P s .handle)
    (hhandle : s.pipe.handle = some (effects, p)) :
    Inv P (effects.foldl (State.perform s.pipe.handled) (s.withPipe p)) := by
  obtain ⟨msg, hmsg, rfl, hgrows, hhandled⟩ := grows_handle hhandle
  have hlt : s.pipe.handled < s.pipe.sent.length := (List.getElem?_eq_some_iff.mp hmsg).1
  have hpipe : Inv P (s.withPipe p) :=
    h.withPipe hgrows (by rw [hhandled]; exact hlt) fun _ _ _ hp => hp.handle hhandle
  refine hpipe.foldl_perform (by rw [State.withPipe, hhandled]; exact Nat.lt_succ_self _) ?_
  intro effect heffect kind hway hP
  rcases way_handle heffect hway with ⟨hfree, hqueue⟩ | ⟨hgated, hbehind, hwork⟩
  · refine .inl ⟨hfree, hgrows.passes ⟨h.handled_le, ?_⟩⟩
    cases hgated : kind.gated with
    | true =>
        have hp := h.pipe kind hP hgated
        exact hp.clearBefore_of_noQueue (hqueue hgated hp.alive) le_rfl
    | false =>
        exact hguard msg hmsg kind (mem_filterMap.mpr ⟨effect, heffect, hway⟩) hP hgated
  · refine .inr ⟨hgated, hbehind, .inr ?_⟩
    obtain ⟨-, msg', hmsg', -, hp'⟩ := handle_eq_some (h.pipe kind hP hgated).alive hhandle
    cases hmsg.symm.trans hmsg'
    rw [State.withPipe, hp']
    exact mem_append_right _ (mem_map_of_work hwork)

theorem take (h : Inv P s) {n : MsgId} {work : Queued} {events : List QueueEvent}
    (htake : s.pipe.take = some ((n, work), events, p)) :
    Inv P (s.withPipe p) ∧ (p.busy = true → P .socketOp = true → p.Passes n) := by
  obtain ⟨hgrows, hhandled⟩ := grows_take htake
  obtain ⟨-, hbusy, hitem, -, hp'⟩ := take_eq_some htake
  refine ⟨h.withPipe hgrows (hhandled.le.trans h.handled_le) fun _ _ _ hp => hp.take htake,
    fun hbusy' hP => ?_⟩
  have hp := h.pipe _ hP rfl
  have hfailed : s.pipe.failed = false := by
    have := ((hp.take htake).busy hbusy').1
    rwa [hp'] at this
  have hlt := hp.before _ (mem_of_getElem? hitem)
  exact hgrows.passes ⟨hlt.le.trans h.handled_le, hp.clearBefore_of_next hbusy hfailed hitem⟩

theorem stepPipe (h : Inv P s) {a : Action} (hguard : Guard P s a)
    (hstep : Context.stepPipe s a = some s') : Inv P s' := by
  cases a with
  | send msg =>
      cases hstep
      exact h.send msg
  | handle =>
      obtain ⟨⟨effects, pipe⟩, hhandle, rfl⟩ := map_eq_some_iff.mp hstep
      exact h.handle hguard hhandle
  | take =>
      obtain ⟨⟨⟨n, work⟩, events, pipe⟩, htake, rfl⟩ := map_eq_some_iff.mp hstep
      obtain ⟨hnext, hpass⟩ := h.take htake
      cases work with
      | socket op =>
          simp only
          split
          · next hbusy => exact hnext.exit rfl (hpass hbusy)
          · exact hnext
      | storage callback op => exact hnext
      | barrier gate => exact hnext
  | finish result =>
      obtain ⟨pipe, hfinish, rfl⟩ := map_eq_some_iff.mp hstep
      obtain ⟨hgrows, hhandled⟩ := grows_finish hfinish
      exact h.withPipe hgrows (hhandled.le.trans h.handled_le) fun _ _ _ hp => hp.finish hfinish
  | panic =>
      obtain ⟨-, heq⟩ := ite_none_right_eq_some.mp hstep
      cases heq
      refine h.withPipe (.of_eq rfl rfl rfl rfl)
        h.handled_le fun kind hP hgated => ?_
      exact absurd hgated (by simp [hguard kind hP])
  | drop =>
      obtain ⟨-, heq⟩ := ite_none_left_eq_some.mp hstep
      cases heq
      refine { h with inflight := fun e he gate hheld => ?_, once := fun k => ⟨(h.once k).1, ?_⟩ }
      · obtain ⟨e', -, rfl⟩ := List.mem_map.mp he
        cases hheld
      · intro hpos
        obtain ⟨e, he, -⟩ := (h.once k).2 hpos
        exact ⟨_, by rw [getElem?_map, he]; rfl, rfl⟩
  | cancel =>
      obtain ⟨-, heq⟩ := ite_none_right_eq_some.mp hstep
      cases heq
      exact { h with }
  | stop =>
      obtain ⟨-, heq⟩ := ite_none_right_eq_some.mp hstep
      cases heq
      exact h.withPipe (.of_eq rfl rfl rfl rfl)
        h.handled_le fun _ _ _ hp => hp.stop
  | abortScope scope =>
      cases hstep
      exact { h with }
  | admitEvent kind =>
      obtain ⟨-, heq⟩ := ite_none_left_eq_some.mp hstep
      cases heq
      refine { h with inflight := fun e he gate hheld => ?_, once := fun k => ⟨(h.once k).1, ?_⟩ }
      · rcases mem_append.mp he with he | he
        · exact h.inflight e he gate hheld
        · rw [mem_singleton.mp he] at hheld
          cases hheld
      · intro hpos
        obtain ⟨e, he, hdone⟩ := (h.once k).2 hpos
        refine ⟨e, ?_, hdone⟩
        rw [getElem?_append_left (List.getElem?_eq_some_iff.mp he).1]
        exact he
  | _ => cases hstep

/-- **Every step keeps the invariant.** -/
theorem step (s : State) (a : Action) (s' : State) (h : Inv P s) (hguard : Guard P s a)
    (hstep : Context.step s a = some s') : Inv P s' := by
  cases a with
  | openCall k | refuseCall k | cancelCall k | answerCall k =>
      obtain ⟨c, hc, hstep⟩ := bind_eq_some_iff.mp hstep
      exact h.stepCall hc hstep
  | early k =>
      obtain ⟨c, hc, hstep⟩ := bind_eq_some_iff.mp hstep
      obtain ⟨-, ⟨⟩⟩ := ite_none_right_eq_some.mp hstep
      have hok := h.calls c (mem_of_getElem? hc)
      refine h.exit rfl fun hP => ?_
      rcases hok.gate hP with ⟨-, hpass⟩ | ⟨hgated, -⟩
      · exact hpass
      · exact ⟨hok.handled.le.trans h.handled_le, hguard c hc hP hgated⟩
  | invoke =>
      obtain ⟨-, ⟨⟩⟩ := ite_none_left_eq_some.mp hstep
      exact h.exit rfl fun hP => ⟨le_rfl, hguard hP⟩
  | connect k | connected k | command k | closeOutgoing k =>
      obtain ⟨o, ho, hstep⟩ := bind_eq_some_iff.mp hstep
      exact h.stepOutgoing ho hstep
  | respond k | failResponse k | outcome k | poll k | leave k =>
      obtain ⟨e, he, hstep⟩ := bind_eq_some_iff.mp hstep
      exact h.stepEvent he hstep
  | chunk k | pollChunk k | endBody k =>
      obtain ⟨b, -, hstep⟩ := bind_eq_some_iff.mp hstep
      exact h.stepBody hstep
  | forward k ok =>
      simp only [Context.step] at hstep
      split at hstep
      · next msg socket hforward =>
          cases hstep
          have hpass := h.forwards _ (mem_of_getElem? hforward)
          have hended : Inv P { s with
              forwards := s.forwards.modify k fun _ => ⟨msg, socket, true⟩ } :=
            { h with forwards := forall_mem_modify h.forwards fun _ _ => hpass }
          split
          · exact hended.exit rfl hpass
          · exact hended
      · cases hstep
  | send | handle | take | finish | panic | drop | cancel | stop | abortScope | admitEvent =>
      exact h.stepPipe hguard hstep

end Inv

end OpenWorkers.Object.Context
