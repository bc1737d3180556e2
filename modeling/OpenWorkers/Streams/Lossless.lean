import OpenWorkers.Lib.Log
import OpenWorkers.Streams.Room
import Mathlib.Algebra.GroupWithZero.Nat

/-!
# The pump loses nothing

In a request that is not cancelled, with a reader that stays, the channel delivers what the source
gave: its chunks in order, without the empty ones, and one terminal marker.

The invariant has four parts: the stream stays open (`Open`), what was delivered, what is in the
channel and what the pump has in hand are what the source gave (`Flow`), and the wait of the pump
is in its `Place` and `Timed`.  Data leave the last permit alone, so the terminal marker always
finds it.

That all is delivered in the end is said with a measure: every step of the pump, the runtime and
the reader makes `State.debt` smaller, and one is possible until all is delivered.
-/

namespace OpenWorkers.Streams.Pump

open List Option Machine
open Object (CallbackId)
open Scheduler

variable {capacity : Nat} {s s' : State capacity} {op : Op} {log : List Event}

/-! ## The stream stays open -/

/-- The stream is open, its reader is there, the request is not cancelled, and no message will
change that. -/
structure Open (s : State capacity) : Prop where
  sender : s.manager.hasSender s.stream = true
  receiver : s.receiver = true
  cancelled : s.cancelled = false
  running : s.timers.loop.shutdown = false
  messages : ∀ message ∈ s.timers.toScheduler, harmless s.stream message = true

theorem shutdown_handle {l l' : EventLoop} {message : SchedulerMessage}
    (hl : l.Becomes message l') (h : message ≠ .shutdown) : l'.shutdown = l.shutdown := by
  cases hl with
  | shutdown => exact absurd rfl h
  | _ => rfl

theorem hasSender_closes {message : SchedulerMessage} (h : harmless s.stream message = true) :
    (s.closes message).hasSender s.stream = s.manager.hasSender s.stream := by
  cases message with
  | streamCancel stream =>
      have hne : s.stream ≠ stream := fun heq => of_decide_eq_true h heq.symm
      change (Function.update s.manager.senders stream none s.stream).isSome = _
      rw [Function.update_of_ne hne]
      rfl
  | _ => rfl

theorem Open.moved (h : Open s) (hm : Moved s op s') : Open s' := by
  cases hm with
  | await hpc htimers =>
      cases htimers
      refine ⟨h.sender, h.receiver, h.cancelled, h.running, fun message hmem => ?_⟩
      rcases mem_append.mp hmem with hmem | hmem
      · exact h.messages message hmem
      · rw [mem_singleton.mp hmem]
        rfl
  | @handle alive message rest timers hqueue htimers =>
      have hmessage : harmless s.stream message = true :=
        h.messages message (hqueue ▸ mem_cons_self)
      obtain rfl := of_handle hqueue htimers
      refine ⟨(hasSender_closes hmessage).trans h.sender, h.receiver, h.cancelled, ?_, ?_⟩
      · refine (shutdown_handle (s.timers.loop.becomes_handle alive s.timers.handled message)
          ?_).trans
          h.running
        rintro rfl
        cases hmessage
      · intro message' hmem
        exact h.messages message' (hqueue ▸ mem_cons_of_mem message hmem)
  | ready _ _ htimers =>
      cases Timers.stepped_of_step htimers
      exact ⟨h.sender, h.receiver, h.cancelled, h.running, h.messages⟩
  | deliver htimers =>
      obtain ⟨-, -, -, rfl⟩ := of_deliver htimers
      exact ⟨h.sender, h.receiver, h.cancelled, h.running, h.messages⟩
  | timer haside htimers =>
      have ha := aside_of_step haside htimers
      obtain ⟨messages, hsent, hmessages⟩ := ha.sent
      refine ⟨h.sender, h.receiver, h.cancelled, ha.running.trans h.running, fun message hmem => ?_⟩
      rcases mem_append.mp (hsent ▸ hmem) with hmem | hmem
      · exact h.messages message hmem
      · exact (hmessages message hmem).2
  | _ => exact ⟨h.sender, h.receiver, h.cancelled, h.running, h.messages⟩

/-! ## The wait -/

theorem Timed.moved (h : Timed s) (hop : Undisturbed s op) (hm : Moved s op s') : Timed s' := by
  cases hm with
  | await _ htimers => exact h.await htimers rfl
  | handle _ htimers => exact h.step htimers (fun _ h => h) (fun _ _ => nofun) nofun
  | ready _ _ htimers => exact h.step htimers (fun _ h => h) (fun _ _ => nofun) nofun
  | deliver htimers =>
      exact h.step htimers (fun _ => Pc.timer_of_resume) (fun _ _ => nofun) nofun
  | timer haside htimers =>
      refine h.step htimers (fun _ h => h) (fun id htimer hclear => ?_) ?_
      · subst hclear
        exact hop htimer
      · rintro rfl
        cases haside
  | reserve => exact h.same rfl fun _ h => h
  | receive => exact h.same rfl fun _ h => h
  | _ => exact h.same rfl nofun

/-- The pump goes on without a wait, before and after. -/
theorem Place.goOn {pc : Pc} {channel : BoundedChannel capacity StreamChunk} (h : Place s)
    (hbefore : s.pc.timer = none) (hafter : pc.timer = none)
    (hwaited : ∀ chunk, pc ≠ .writing chunk true) (hheld : channel.held = s.channel.held) :
    Place { s with channel, pc } := by
  have hidle := h.rest hbefore
  exact .idle hafter ⟨hidle.waits, hheld.trans hidle.held, hidle.sent⟩
    fun chunk hpc => absurd hpc (hwaited chunk)

theorem Place.moved (h : Place s) (ht : Timed s) (hopen : Open s) (hm : Moved s op s') :
    Place s' := by
  cases hm with
  | await hpc htimers => exact h.await hpc htimers
  | handle hqueue htimers => exact h.handle hopen.sender hqueue htimers
  | reserve hwait hheld hreserve => exact h.reserve hwait hheld hreserve
  | ready hwait hheld htimers => exact h.ready hwait hheld htimers
  | deliver htimers => exact h.deliver ht htimers
  | timer haside htimers => exact h.aside (aside_of_step haside htimers)
  | receive hreceive =>
      obtain ⟨hbuffer, hheld⟩ := BoundedChannel.of_receive hreceive
      refine h.mono rfl rfl rfl hheld ?_ rfl (fun _ _ h => h) fun _ _ h => h
      rw [hbuffer, length_cons]
      exact Nat.le_succ _
  | accept hpc _ hsend =>
      exact h.goOn (hpc ▸ rfl) rfl nofun (BoundedChannel.of_trySend hsend).2
  | finish hpc hsend => exact h.goOn (hpc ▸ rfl) rfl nofun (BoundedChannel.of_trySend hsend).2
  | refuse hpc => exact h.goOn (hpc ▸ rfl) rfl nofun rfl
  | skip hpc => exact h.goOn (hpc ▸ rfl) rfl nofun rfl
  | yield hpc => exact h.goOn (hpc ▸ rfl) rfl nofun rfl
  | close hpc => exact h.goOn (hpc ▸ rfl) rfl nofun rfl
  | fail hpc => exact h.goOn (hpc ▸ rfl) rfl nofun rfl

/-! ## What is delivered -/

/-- What the pump has taken from the source and not written yet. -/
def Pc.inHand : Pc → List StreamChunk
  | .writing chunk _ | .refused chunk | .waiting chunk _ => [.data chunk]
  | .ending marker => [marker]
  | .reading | .cancelling | .ended => []

/-- The source has ended. -/
def Pc.marked : Pc → Nat
  | .ending _ | .ended => 1
  | _ => 0

structure Flow (s : State capacity) (log : List Event) : Prop where
  pc : s.pc ≠ .cancelling
  terminal : ∀ marker, s.pc = .ending marker → marker.terminal = true
  order : delivered log ++ s.channel.buffer ++ s.pc.inHand = given log
  markers : (log.filterMap Event.marker).length = s.pc.marked
  bound : s.channel.buffer.countP (fun chunk => !chunk.terminal) < capacity
  /-- The terminal marker is the last to be written. -/
  room : s.pc ≠ .ended → s.channel.buffer.length < capacity

/-- Chunks come before the end of the source. -/
theorem given_yielded {chunk : Bytes} (hchunk : chunk ≠ [])
    (hmarkers : log.filterMap Event.marker = []) :
    given (log ++ [.yielded chunk]) = given log ++ [.data chunk] := by
  simp [given, filterMap_append, Event.chunk, Event.marker, hchunk, hmarkers]

theorem given_skipped : given (log ++ [.yielded []]) = given log := by
  simp [given, filterMap_append, Event.chunk, Event.marker]

theorem given_marked {e : Event} {marker : StreamChunk} (hmarker : e.marker = some marker) :
    given (log ++ [e]) = given log ++ [marker] := by
  cases e with
  | closed =>
      cases hmarker
      simp [given, filterMap_append, Event.chunk, Event.marker]
  | failed message =>
      cases hmarker
      simp [given, filterMap_append, Event.chunk, Event.marker]
  | _ => cases hmarker

theorem given_received {chunk : StreamChunk} : given (log ++ [.received chunk]) = given log := by
  have hchunk : [Event.received chunk].filterMap Event.chunk = [] := rfl
  have hmarker : [Event.received chunk].filterMap Event.marker = [] := rfl
  rw [given, filterMap_append, filterMap_append, hchunk, hmarker, append_nil,
    append_nil, given]

theorem delivered_concat (e : Event) :
    delivered (log ++ [e]) = delivered log ++ e.delivered.toList := by
  rw [delivered, filterMap_append]
  cases e <;> rfl

/-- The pump keeps what it has in hand, and the channel what is in it. -/
theorem Flow.carry (h : Flow s log) (hbuffer : s'.channel.buffer = s.channel.buffer)
    (hhand : s'.pc.inHand = s.pc.inHand) (hmarked : s'.pc.marked = s.pc.marked)
    (hpc : s'.pc ≠ .cancelling)
    (hterminal : ∀ marker, s'.pc = .ending marker → s.pc = .ending marker)
    (hended : s.pc = .ended → s'.pc = .ended) : Flow s' log where
  pc := hpc
  terminal marker heq := h.terminal marker (hterminal marker heq)
  order := by
    rw [hbuffer, hhand]
    exact h.order
  markers := hmarked ▸ h.markers
  bound := hbuffer ▸ h.bound
  room hne := hbuffer ▸ h.room fun heq => hne (hended heq)

theorem Flow.same (h : Flow s log) (hpc : s'.pc = s.pc)
    (hbuffer : s'.channel.buffer = s.channel.buffer) : Flow s' log :=
  h.carry hbuffer (by rw [hpc]) (by rw [hpc]) (hpc ▸ h.pc) (fun _ heq => hpc ▸ heq)
    fun heq => hpc.trans heq

theorem Flow.resume {t : Timers.State} {executing : Option CallbackId} (h : Flow s log) :
    Flow { s with timers := t, pc := s.pc.resume executing } log := by
  cases hpc : s.pc with
  | waiting chunk id =>
      by_cases heq : executing = some id
      · have hresume : (Pc.waiting chunk id).resume executing = .writing chunk true := if_pos heq
        rw [hresume]
        exact h.carry rfl (by rw [hpc]; rfl) (by rw [hpc]; rfl) nofun nofun
          fun hended => by cases hpc.symm.trans hended
      · have hresume : (Pc.waiting chunk id).resume executing = .waiting chunk id := if_neg heq
        rw [hresume]
        exact h.same hpc.symm rfl
  | _ => exact h.same hpc.symm rfl

/-- The source gives something, which the pump takes in hand. -/
theorem Flow.take {pc : Pc} {e : Event} (h : Flow s log) (hreading : s.pc = .reading)
    (hdelivered : e.delivered = none) (hgiven : given (log ++ [e]) = given log ++ pc.inHand)
    (hmarkers : ((log ++ [e]).filterMap Event.marker).length = pc.marked)
    (hpc : pc ≠ .cancelling) (hterminal : ∀ marker, pc = .ending marker → marker.terminal = true) :
    Flow { s with pc } (log ++ [e]) where
  pc := hpc
  terminal := hterminal
  order := by
    have horder := h.order
    rw [hreading] at horder
    rw [delivered_concat, hdelivered, toList_none, append_nil, hgiven, ← horder,
      Pc.inHand, append_nil]
  markers := hmarkers
  bound := h.bound
  room _ := h.room (hreading ▸ nofun)

/-- What the pump has in hand goes into the channel. -/
theorem Flow.put {pc : Pc} {chunk : StreamChunk} {channel : BoundedChannel capacity StreamChunk}
    (h : Flow s log) (hhand : s.pc.inHand = [chunk])
    (hsend : s.channel.trySend chunk = some channel) (hnone : pc.inHand = [])
    (hmarked : pc.marked = s.pc.marked) (hpc : pc ≠ .cancelling)
    (hending : ∀ marker, pc ≠ .ending marker)
    (hroom : channel.buffer.length < capacity ∨ chunk.terminal = true ∧ pc = .ended) :
    Flow { s with channel, pc } log where
  pc := hpc
  terminal marker heq := absurd heq (hending marker)
  order := by
    change _ ++ channel.buffer ++ pc.inHand = _
    rw [(BoundedChannel.of_trySend hsend).1, hnone, append_nil, ← append_assoc, ← hhand]
    exact h.order
  markers := hmarked ▸ h.markers
  bound := by
    rcases hroom with hroom | ⟨hterminal, -⟩
    · exact Nat.lt_of_le_of_lt countP_le_length hroom
    · change channel.buffer.countP _ < capacity
      rw [(BoundedChannel.of_trySend hsend).1, countP_append, countP_singleton, hterminal]
      exact h.bound
  room hne := by
    rcases hroom with hroom | ⟨-, hended⟩
    · exact hroom
    · exact absurd hended hne

theorem Flow.receive {chunk : StreamChunk} {channel : BoundedChannel capacity StreamChunk}
    (h : Flow s log) (hreceive : s.channel.receive = some (chunk, channel)) :
    Flow { s with channel } (log ++ [.received chunk]) := by
  obtain ⟨hbuffer, -⟩ := BoundedChannel.of_receive hreceive
  have hbound := h.bound
  have hroom := h.room
  have horder := h.order
  rw [hbuffer] at hbound hroom horder
  refine ⟨h.pc, h.terminal, ?_, ?_, ?_, fun hne => ?_⟩
  · rw [delivered_concat, given_received, ← horder]
    simp [Event.delivered]
  · rw [filterMap_append, length_append]
    exact h.markers
  · refine Nat.lt_of_le_of_lt ?_ hbound
    rw [countP_cons]
    exact Nat.le_add_right _ _
  · exact Nat.lt_trans (Nat.lt_succ_self _) (hroom hne)

theorem Flow.moved (h : Flow s log) (hm : Moved s op s') : Flow s' (log ++ observe s op) := by
  have hnil : Flow s' log → Flow s' (log ++ []) := fun h => (append_nil log).symm ▸ h
  -- The source has not ended as long as the pump reads.
  have hmarkers : s.pc = .reading → log.filterMap Event.marker = [] := fun hpc =>
    eq_nil_of_length_eq_zero (h.markers.trans (hpc ▸ rfl))
  cases hm with
  | skip hpc =>
      refine h.take hpc rfl (given_skipped.trans (append_nil _).symm) ?_ nofun nofun
      rw [filterMap_append, hmarkers hpc]
      rfl
  | yield hpc hchunk =>
      refine h.take hpc rfl (given_yielded hchunk (hmarkers hpc)) ?_ nofun nofun
      rw [filterMap_append, hmarkers hpc]
      rfl
  | close hpc =>
      refine h.take hpc rfl (given_marked rfl) ?_ nofun fun marker heq => by cases heq; rfl
      rw [filterMap_append, hmarkers hpc]
      rfl
  | fail hpc =>
      refine h.take hpc rfl (given_marked rfl) ?_ nofun fun marker heq => by cases heq; rfl
      rw [filterMap_append, hmarkers hpc]
      rfl
  | accept hpc hfree hsend =>
      refine hnil (h.put (hpc ▸ rfl) hsend rfl (hpc ▸ rfl) nofun nofun (.inl ?_))
      rw [(BoundedChannel.of_trySend hsend).1, length_append]
      exact Nat.lt_of_le_of_lt (Nat.add_le_add_right (Nat.le_add_right _ _) 1)
        (Nat.add_lt_of_lt_sub' hfree)
  | refuse hpc =>
      exact hnil (h.carry rfl (hpc ▸ rfl) (hpc ▸ rfl) nofun nofun
        fun hended => by cases hpc.symm.trans hended)
  | finish hpc hsend =>
      exact hnil (h.put (hpc ▸ rfl) hsend rfl (hpc ▸ rfl) nofun nofun
        (.inr ⟨h.terminal _ hpc, rfl⟩))
  | await hpc =>
      exact hnil (h.carry rfl (hpc ▸ rfl) (hpc ▸ rfl) nofun nofun
        fun hended => by cases hpc.symm.trans hended)
  | reserve _ _ hreserve => exact hnil (h.same rfl (BoundedChannel.of_reserve hreserve).1)
  | deliver => exact hnil h.resume
  | receive hreceive =>
      rw [observe, (BoundedChannel.of_receive hreceive).1]
      exact h.receive hreceive
  | _ => exact hnil (h.same rfl rfl)

/-! ## The invariant -/

structure Inv (s : State capacity) (log : List Event) : Prop where
  isOpen : Open s
  flow : Flow s log
  place : Place s
  timed : Timed s

/-- The terminal marker finds the permit that data left it. -/
theorem Inv.served (h : Inv s log) : Served s where
  sender := h.isOpen.sender
  receiver := h.isOpen.receiver
  cancelled := h.isOpen.cancelled
  pc := h.flow.pc
  waits wait hmem := by
    obtain ⟨k, hk⟩ := mem_iff_getElem?.mp hmem
    exact (h.place.of_wait hk).2.2.1
  marker marker hpc := by
    refine ⟨h.flow.terminal marker hpc, BoundedChannel.free_pos.mpr ?_⟩
    rw [(h.place.rest (hpc ▸ rfl)).held]
    exact h.flow.room (hpc ▸ nofun)

theorem Inv.moved (h : Inv s log) (hop : Undisturbed s op) (hm : Moved s op s') :
    Inv s' (log ++ observe s op) where
  isOpen := h.isOpen.moved hm
  flow := h.flow.moved hm
  place := h.place.moved h.timed h.isOpen hm
  timed := h.timed.moved hop hm

theorem hasSender_createStream (m : StreamManager) {c : Channel} {url : String} :
    (m.createStream c url).hasSender m.nextId = true := by
  simp [StreamManager.hasSender, StreamManager.createStream]

theorem inv_init {start : Start} (hclean : start.Clean) : Inv (machine start).init [] where
  isOpen := {
    sender := hasSender_createStream start.manager
    receiver := rfl
    cancelled := rfl
    running := start.running
    messages := hclean.harmless }
  flow := ⟨nofun, nofun, rfl, rfl, Nat.succ_pos _, fun _ => Nat.succ_pos _⟩
  place := .idle rfl ⟨rfl, rfl, hclean.apart⟩ nofun
  timed := by
    obtain ⟨ops, hrun⟩ := start.reached
    exact ⟨_, invariant_log Timers.inv_init Timers.inv_step hrun, nofun⟩

theorem inv_step (s : State capacity) (log : List Event) (op : Op) (s' : State capacity)
    (h : Inv s log) (hop : Undisturbed s op) (hstep : step s op = some s') :
    Inv s' (log ++ observe s op) :=
  h.moved hop (moved_of_step h.served hop hstep)

/-! ## Everything arrives -/

/-- The steps that a pump still makes for what it has in hand. -/
def Pc.debt : Pc → Nat
  | .writing _ true | .ending _ => 2
  | .waiting _ _ => 3
  | .refused _ => 14
  | .writing _ false => 15
  | .reading | .cancelling | .ended => 0

/-- The steps that a wait still makes. -/
def Wait.debt (wait : Wait) : Nat := 3 * (3 - wait.held)

/-- A bound for the steps that the pump, the runtime and the reader can make before the source
gives something more.  A step pays for those that come of it: a call of the guest for its message,
a message for its wait, a wait for its expiry, an expiry for the callback it runs. -/
def State.debt (s : State capacity) : Nat :=
  s.pc.debt + s.channel.buffer.length + 11 * s.timers.calls.length +
    10 * s.timers.toScheduler.length + (s.waits.map Wait.debt).sum +
    2 * s.timers.toGuest.length + s.timers.executing.toList.length

/-- After a wait, the chunk is taken. -/
theorem Inv.accepted {chunk : Bytes} (h : Inv s log) (hpc : s.pc = .writing chunk true) :
    1 < s.channel.free := by
  cases h.place with
  | idle _ hidle hroom =>
      have hroom := hroom chunk hpc
      rw [BoundedChannel.free, hidle.held]
      omega
  | sent htimer => cases (hpc ▸ htimer : (Pc.writing chunk true).timer = _)
  | reserving htimer => cases (hpc ▸ htimer : (Pc.writing chunk true).timer = _)
  | fired htimer => cases (hpc ▸ htimer : (Pc.writing chunk true).timer = _)

theorem Pc.debt_resume (pc : Pc) (executing : Option CallbackId) :
    (pc.resume executing).debt ≤ pc.debt := by
  cases pc with
  | waiting chunk id =>
      simp only [Pc.resume]
      split
      · exact Nat.le_succ 2
      · exact Nat.le_refl 3
  | _ => exact Nat.le_refl _

theorem length_trySend {c c' : BoundedChannel capacity StreamChunk} {chunk : StreamChunk}
    (h : c.trySend chunk = some c') : c'.buffer.length = c.buffer.length + 1 := by
  rw [(BoundedChannel.of_trySend h).1, length_append, length_singleton]

/-- Every step of the pump, the runtime and the reader makes the debt smaller. -/
theorem Inv.debt_lt (h : Inv s log) (hm : Moved s op s') (hop : moves op = true) :
    s'.debt < s.debt := by
  cases hm with
  | skip => cases hop
  | yield => cases hop
  | close => cases hop
  | fail => cases hop
  | @accept chunk waited channel hpc _ hsend =>
      have hlength := length_trySend hsend
      have hdebt : 2 ≤ s.pc.debt := by
        rw [hpc]
        cases waited <;> simp [Pc.debt]
      have hreading : Pc.reading.debt = 0 := rfl
      simp only [State.debt, hlength, hreading]
      omega
  | @refuse chunk waited hpc hfull =>
      cases waited with
      | true => exact absurd (h.accepted hpc) (Nat.not_lt_of_le hfull)
      | false =>
          simp only [State.debt, hpc, Pc.debt]
          omega
  | finish hpc hsend =>
      have hlength := length_trySend hsend
      simp only [State.debt, hlength, hpc, Pc.debt]
      omega
  | await hpc htimers =>
      cases htimers
      simp only [State.debt, hpc, Pc.debt, Timers.State.register, length_append,
        length_singleton]
      omega
  | @handle alive message rest timers hqueue htimers =>
      obtain rfl := of_handle hqueue htimers
      have hspawned : ((s.spawned message).toList.map Wait.debt).sum ≤ 9 := by
        rw [State.spawned]
        cases waitOf s.stream message with
        | none => exact Nat.zero_le 9
        | some id => exact Nat.le_refl 9
      simp only [State.debt, hqueue, length_cons, map_append, sum_append]
      omega
  | reserve hwait hheld hreserve =>
      obtain ⟨rfl, hwaits, -⟩ := h.place.of_wait hwait
      obtain ⟨hbuffer, -⟩ := BoundedChannel.of_reserve hreserve
      simp only [State.debt, hwaits, hbuffer, modify_zero_cons, map_cons, map_nil,
        sum_cons, sum_nil, Wait.debt]
      omega
  | ready hwait hheld htimers =>
      obtain ⟨rfl, hwaits, -⟩ := h.place.of_wait hwait
      cases Timers.stepped_of_step htimers
      simp only [State.debt, hwaits, hheld, eraseIdx_cons_zero, map_cons, map_nil,
        sum_cons, sum_nil, Wait.debt, length_append, length_singleton,
        BoundedChannel.release_buffer]
      omega
  | @deliver k timers htimers =>
      obtain ⟨message, hmessage, hexecuting, rfl⟩ := of_deliver htimers
      have hlt := (List.getElem?_eq_some_iff.mp hmessage).1
      have hpc := s.pc.debt_resume
        ((Timers.expired message).filter fun id => (s.timers.timerCallbacks id).isSome)
      have hone : ((Timers.expired message).filter fun id =>
          (s.timers.timerCallbacks id).isSome).toList.length ≤ 1 := length_toList_le
      simp only [State.debt, hexecuting, length_eraseIdx_of_lt hlt, toList_none,
        length_nil]
      omega
  | timer haside htimers =>
      cases Timers.stepped_of_step htimers with
      | schedule hcalls =>
          simp only [State.debt, hcalls, length_cons, length_append, length_nil]
          omega
      | finish hexecuting =>
          split <;>
          · simp only [State.debt, Timers.State.delete, hexecuting, toList_none,
              toList_some, length_cons, length_nil]
            omega
      | _ => cases hop
  | receive hreceive =>
      obtain ⟨hbuffer, -⟩ := BoundedChannel.of_receive hreceive
      simp only [State.debt, hbuffer, length_cons]
      omega

theorem Open.can_handle {id : CallbackId} (h : Open s)
    (hsent : s.timers.toScheduler.filterMap (waitOf s.stream) = [id]) :
    (step s (.handle true)).isSome := by
  have hleft : s.timers.loop.left = false := by rw [EventLoop.left, h.running, Bool.false_and]
  cases hqueue : s.timers.toScheduler with
  | nil =>
      rw [hqueue] at hsent
      cases hsent
  | cons message rest => simp [step, Timers.step, hqueue, hleft]

/-- Guest code that runs comes to its end, and the expiry of the wait is delivered. -/
theorem can_deliver {message : Object.CallbackMessage} (hmem : message ∈ s.timers.toGuest) :
    ∃ op, moves op = true ∧ (step s op).isSome := by
  cases hcalls : s.timers.calls with
  | cons call calls =>
      obtain ⟨id, interval⟩ := call
      exact ⟨.timer (.schedule id 0), rfl, by simp [step, others, Timers.step, hcalls]⟩
  | nil =>
      cases hexecuting : s.timers.executing with
      | some id => exact ⟨.timer (.finish false), rfl, by
          simp [step, others, Timers.step, hcalls, hexecuting]⟩
      | none =>
          obtain ⟨k, hk⟩ := mem_iff_getElem?.mp hmem
          exact ⟨.deliver k, rfl, by simp [step, Timers.step, hcalls, hexecuting, hk]⟩

/-- A pump that waits is not forgotten: with an empty channel there are two permits to get. -/
theorem Inv.can_wait {id : CallbackId} (h : Inv s log) (hcapacity : 2 ≤ capacity)
    (hbuffer : s.channel.buffer = []) (htimer : s.pc.timer = some id) :
    ∃ op, moves op = true ∧ (step s op).isSome := by
  cases h.place with
  | idle hnone => cases hnone.symm.trans htimer
  | sent _ _ _ hsent => exact ⟨.handle true, rfl, h.isOpen.can_handle hsent⟩
  | fired _ _ hfired => exact can_deliver hfired
  | @reserving id held _ hwaits hheld hle _ hwritable =>
      by_cases htwo : held = 2
      · refine ⟨.ready 0, rfl, ?_⟩
        simp [step, State.endWait, Timers.step, hwaits, h.isOpen.cancelled, htwo, hwritable]
      · have hfree : 0 < s.channel.free := by
          rw [BoundedChannel.free_pos, hbuffer, hheld, length_nil]
          omega
        refine ⟨.reserve 0, rfl, ?_⟩
        have hlt : held < 2 := Nat.lt_of_le_of_ne hle htwo
        simpa [step, hwaits, h.isOpen.receiver, hlt] using BoundedChannel.isSome_reserve.mpr hfree

/-- Until all is delivered, there is a step to make. -/
theorem Inv.can_move (h : Inv s log) (hcapacity : 2 ≤ capacity) :
    delivered log = given log ∨ ∃ op, moves op = true ∧ (step s op).isSome := by
  by_cases hbuffer : s.channel.buffer = []
  · have horder := h.flow.order
    rw [hbuffer, append_nil] at horder
    cases hpc : s.pc with
    | reading =>
        rw [hpc, Pc.inHand, append_nil] at horder
        exact .inl horder
    | ended =>
        rw [hpc, Pc.inHand, append_nil] at horder
        exact .inl horder
    | writing chunk waited => exact .inr ⟨.write, rfl, by simp [step, hpc]⟩
    | ending marker => exact .inr ⟨.write, rfl, by simp [step, hpc]⟩
    | refused chunk =>
        exact .inr ⟨.check, rfl, by simp [step, hpc, h.isOpen.sender, Timers.step]⟩
    | waiting chunk id => exact .inr (h.can_wait hcapacity hbuffer (by rw [hpc]; rfl))
    | cancelling => exact absurd hpc h.flow.pc
  · refine .inr ⟨.receive, rfl, ?_⟩
    simpa [step, h.isOpen.receiver] using BoundedChannel.isSome_receive.mpr hbuffer

/-! ## The response body -/

theorem undisturbed_of_moves (hop : moves op = true) : Undisturbed s op := by
  cases op with
  | timer op =>
      cases op with
      | clear | wait | send => cases hop
      | _ => trivial
  | fail | overwrite | leave | cancel | foreignClose => cases hop
  | _ => trivial

/-- The source gives nothing in the steps of the others. -/
theorem given_observe (hop : moves op = true) : given (log ++ observe s op) = given log := by
  cases op with
  | receive =>
      rw [observe]
      cases s.channel.buffer.head? with
      | none => rw [toList_none, map_nil, append_nil]
      | some chunk => exact given_received
  | yield => cases hop
  | close => cases hop
  | fail => cases hop
  | _ => exact congrArg given (append_nil log)

/-- The channel is a lossless queue, with room for the end. -/
structure Lossless (highWaterMark : Nat) (s : State capacity) (log : List Event) : Prop where
  /-- What was delivered, what is in the channel and what the pump has in hand are what the source
  gave, in its order. -/
  order : delivered log ++ s.channel.buffer ++ s.pc.inHand = given log
  /-- The source ends once, and so there is one terminal marker. -/
  once : (log.filterMap Event.marker).length ≤ 1
  bound : s.channel.buffer.countP (fun chunk => !chunk.terminal) ≤ highWaterMark
  /-- The terminal marker is taken. -/
  marker : ∀ marker, s.pc = .ending marker → (s.tryWriteChunk marker).1 = true
  /-- What the pump writes after a wait is taken. -/
  accepted : ∀ chunk, s.pc = .writing chunk true → (s.tryWriteChunk (.data chunk)).1 = true

theorem Served.taken {chunk : StreamChunk} (h : Served s) (hfree : 0 < s.channel.free)
    (hdata : chunk.terminal = true ∨ 1 < s.channel.free) : (s.tryWriteChunk chunk).1 = true := by
  obtain ⟨channel, hsend⟩ := isSome_iff_exists.mp
    ((BoundedChannel.isSome_trySend (a := chunk)).mpr hfree)
  have hroom : (!chunk.terminal && decide (s.channel.free ≤ 1)) = false := by
    rcases hdata with hterminal | hfree
    · rw [hterminal]
      rfl
    · rw [decide_eq_false (Nat.not_le_of_lt hfree), Bool.and_false]
  rw [h.tryWriteChunk, hroom, hsend]
  rfl

theorem Inv.lossless {highWaterMark : Nat} {s : State (highWaterMark + 1)} (h : Inv s log) :
    Lossless highWaterMark s log where
  order := h.flow.order
  once := by
    rw [h.flow.markers]
    cases s.pc <;> simp [Pc.marked]
  bound := Nat.le_of_lt_succ h.flow.bound
  marker marker hpc := by
    obtain ⟨hterminal, hfree⟩ := h.served.marker marker hpc
    exact h.served.taken hfree (.inl hterminal)
  accepted chunk hpc := by
    have hfree := h.accepted hpc
    exact h.served.taken (Nat.lt_trans Nat.zero_lt_one hfree) (.inr hfree)

/-- **The pump of a response body.**  In a request that is not cancelled, with a reader that stays,
with a source of whose error a text can be made and that leaves its arrays alone, and if nothing of
an earlier request names the stream, the channel delivers the chunks of the source that are not
empty, each once and in order, and then one terminal marker.  No more than `highWaterMark` data
chunks are in the channel, the terminal marker is always taken, and so is what the pump writes
after a wait.

The pump, the runtime and the reader can only make so many steps before the source gives more, and
in whatever order they make them, there is one to make until all is delivered. -/
theorem response_body_pumped (start : Start) (hmark : 1 ≤ start.manager.highWaterMark)
    (hclean : start.Clean) (ops : List Op) (s : State start.manager.capacity)
    (hrun : (machine start).run ops = some s)
    (hops : (machine start).Meets Undisturbed (machine start).init ops) :
    Lossless start.manager.highWaterMark s ((machine start).log observe ops) ∧
      ∃ bound, ∀ more s', (machine start).run (ops ++ more) = some s' →
        (∀ op ∈ more, moves op = true) → more.length ≤ bound ∧
          (delivered ((machine start).log observe (ops ++ more)) =
              given ((machine start).log observe ops) ∨
            ∃ op, moves op = true ∧ ((machine start).step s' op).isSome) := by
  have hs : Inv s ((machine start).log observe ops) :=
    invariant_log_of_meets (inv_init hclean) inv_step hops hrun
  refine ⟨hs.lossless, s.debt, fun more s' hmore hmoves => ?_⟩
  rw [run_append hrun] at hmore
  have hmeets : (machine start).Meets (fun _ op => moves op = true) s more :=
    (meets_iff_forall_mem hmore).mpr hmoves
  rw [log_append hrun]
  constructor
  · refine length_le_measure (I := fun s => ∃ log, Inv s log) State.debt ?_ ⟨_, hs⟩ hmeets
      hmore
    rintro r op r' ⟨log, hr⟩ hop hstep
    have hundisturbed : Undisturbed r op := undisturbed_of_moves hop
    have hm := moved_of_step hr.served hundisturbed hstep
    exact ⟨⟨_, hr.moved hundisturbed hm⟩, hr.debt_lt hm hop⟩
  · -- The source gives nothing on the way.
    have hs' : Inv s' (_ ++ (machine start).logFrom observe s more) ∧ given _ = given _ :=
      invariant_logFrom_of_meets
        (I := fun r log => Inv r log ∧ given log = given ((machine start).log observe ops))
        (fun r log op r' hr hop hstep =>
          ⟨inv_step r log op r' hr.1 (undisturbed_of_moves hop) hstep,
          (given_observe hop).trans hr.2⟩) ⟨hs, rfl⟩ hmeets hmore
    rw [← hs'.2]
    exact hs'.1.can_move (Nat.succ_le_succ hmark)

/-- A context that has served nothing yet, with room for one chunk. -/
def narrow : Start := ⟨.withHighWaterMark 1, Timers.machine.init, ⟨[], rfl⟩, rfl⟩

/-- The second chunk has to wait, beside a timer of the guest; an empty one is skipped; the source
fails before the reader has all. -/
def waiting : List Op :=
  [.timer (.set false), .timer (.schedule 1 10), .yield [1], .write, .yield [], .yield [2], .write,
    .check, .handle true, .handle true, .reserve 0, .receive, .reserve 0, .timer (.expire 0),
    .ready 0, .deliver 0, .timer (.clear 1), .timer (.finish false), .deliver 0,
    .timer (.finish false), .write, .fail (some "gone"), .write, .receive, .receive]

theorem response_body_pumped_waiting :
    (∃ s, (machine narrow).run waiting = some s ∧ s.pc = .ended ∧
      Lossless 1 s ((machine narrow).log observe waiting)) ∧
      delivered ((machine narrow).log observe waiting) =
        [.data [1], .data [2], .error "gone"] :=
  ⟨⟨_, rfl, rfl,
    (response_body_pumped narrow (Nat.le_refl 1) ⟨nofun, rfl⟩ waiting _ rfl (by decide)).1⟩, rfl⟩

/-- A new context. -/
def fresh : Start := ⟨.new, Timers.machine.init, ⟨[], rfl⟩, rfl⟩

/-- A context that was used before: a `StreamCancel` of its last request is still under way. -/
def reused : Start where
  manager := .new
  timers := { Timers.machine.init with toScheduler := [.streamCancel 1] }
  reached := ⟨[.send (.streamCancel 1)], rfl⟩
  running := rfl

/-- The second chunk has to wait, and the guest changes its array meanwhile. -/
def overwritten : List Op :=
  [.yield [1], .write, .yield [2], .write, .check, .overwrite [3], .handle true, .receive,
    .reserve 0, .reserve 0, .ready 0, .deliver 0, .write, .receive]

/-- Nothing is written for a source that fails with an error of which no text can be made; a chunk
is lost when a message of an earlier request names the stream; and what waits is written as it is
when there is room. -/
theorem response_body_not_pumped :
    (∃ s, (machine fresh).run [.yield [1], .write, .receive, .fail none] = some s ∧
      s.pc = .ended ∧ s.channel.buffer = [] ∧
      delivered ((machine fresh).log observe [.yield [1], .write, .receive, .fail none]) =
        [.data [1]]) ∧
    (∃ s, (machine reused).run [.handle true, .yield [1], .write, .check, .settle, .write] =
        some s ∧
      s.pc = .ended ∧ s.channel.buffer = []) ∧
    (∃ s, (machine narrow).run overwritten = some s) ∧
      delivered ((machine narrow).log observe overwritten) = [.data [1], .data [3]] :=
  ⟨⟨_, rfl, rfl, rfl, rfl⟩, ⟨_, rfl, rfl, rfl⟩, ⟨_, rfl⟩, rfl⟩

end OpenWorkers.Streams.Pump
