import OpenWorkers.Streams.Body

/-!
# A stream keeps its way to the host

Each step of `Body.Step` keeps `Way`, first for the part of it that carries the body
(`Whole`), then with the ends of the channel and the forwarder.  The cases follow the tasks:
the producer, the loss of the sender, the reads of the guest, the forwarder and its host.
-/

namespace OpenWorkers.Streams

open List

/-! ## The body stays whole -/

theorem Stream.passing {st : Stream} {f : Forward} (hf : st.forward = some f)
    (hl : f.left = false) (hp : f.pc = .receiving ∨ ∃ bytes, f.pc = .sending bytes) :
    ∀ f' ∈ st.forward, f'.Passing := by
  intro f' hf'
  cases hf.symm.trans hf'
  rcases hp with hp | ⟨bytes, hp⟩ <;> refine ⟨hl, ?_, ?_⟩ <;> simp [hp]

namespace Whole

variable {capacity : Nat} {b : Body} {chunk : StreamChunk}

/-- With the terminal marker in the channel, only a `Done` can be in hand. -/
theorem hand_of_marked (h : Whole capacity b) (hm : b.stream.marked = true)
    (hhand : b.stream.producer.hand = some chunk) : chunk = .done := by
  cases chunk with
  | data bytes => exact absurd (h.phase.data bytes hhand).2 (by simp [hm])
  | done => rfl
  | error message => exact absurd (h.phase.error message hhand) (by simp [hm])

theorem held_of_marked (h : Whole capacity b) (hm : b.stream.marked = true) :
    b.stream.producer.held = [] := by
  unfold ProducerPc.held
  split
  next bytes hhand => exact nomatch h.hand_of_marked hm hhand
  next => rfl

/-- Once the terminal marker is in the channel, the ends of the channel do not matter. -/
theorem of_marked (h : Whole capacity b) (hm : b.stream.marked = true) (sender receiver : Bool)
    (reading : Nat) (cut closed : Bool) :
    Whole capacity ⟨{ b.stream with cut, closed }, sender, receiver, reading⟩ where
  sender hm' := absurd (hm'.symm.trans hm) Bool.false_ne_true
  phase := { h.phase with }
  plain hm' := absurd (hm'.symm.trans hm) Bool.false_ne_true
  room _ hm' := absurd (hm'.symm.trans hm) Bool.false_ne_true
  flow := h.flow
  terminated := h.terminated

/-- The producer goes on with what it holds. -/
theorem setProducer (h : Whole capacity b) (pc : ProducerPc)
    (hphase : Phase { b.stream with producer := pc }) (hheld : pc.held = b.stream.producer.held) :
    Whole capacity (b.modify fun st => { st with producer := pc }) :=
  { h with
    phase := hphase
    flow := fun hpass => (h.flow hpass).of_held hheld }

theorem hold (h : Whole capacity b) {pc : ProducerPc}
    (hhand : b.stream.producer.hand = some chunk) (hpc : pc.hand = some chunk) :
    Whole capacity (b.modify fun st => { st with producer := pc }) := by
  have heq : pc.hand = b.stream.producer.hand := hpc.trans hhand.symm
  refine h.setProducer pc ?_ (by rw [ProducerPc.held, ProducerPc.held, heq])
  exact
    { reading := by
        rintro rfl
        exact nomatch hpc
      data := heq ▸ h.phase.data
      done := heq ▸ h.phase.done
      error := heq ▸ h.phase.error
      ended := by
        rintro rfl
        exact nomatch hpc }

/-- A write that fails after the terminal marker is the `Done` of `pump_request_body`. -/
theorem wrote_of_marked (h : Whole capacity b) (hm : b.stream.marked = true)
    (hhand : b.stream.producer.hand = some chunk) (ok : Bool) :
    Whole capacity (b.modify (·.wrote ok chunk)) := by
  obtain rfl := h.hand_of_marked hm hhand
  refine h.setProducer .ended ⟨nofun, nofun, nofun, nofun, fun _ => hm⟩ ?_
  rw [h.held_of_marked hm]
  rfl

/-- The producer gets the next item of its source. -/
theorem produce (h : Whole capacity b) (hp : b.stream.producer = .reading) (item : Upstream) :
    Whole capacity (b.modify (·.produce item)) := by
  obtain ⟨hflow, hm⟩ := h.phase.reading hp
  have hheld : b.stream.producer.held = [] := by
    rw [hp]
    rfl
  cases item with
  | chunk bytes =>
      simp only [Body.modify, Stream.produce]
      split
      next => exact h
      next =>
        exact { h with
          phase := ⟨nofun, fun _ _ => ⟨hflow, hm⟩, nofun, nofun, nofun⟩
          flow := fun hpass => (h.flow hpass).produce hheld bytes }
  | fail message =>
      exact { h with
        phase := ⟨nofun, nofun, nofun, fun _ _ => hm, nofun⟩
        flow := fun hpass => (h.flow hpass).of_held hheld.symm
        terminated := fun _ hm' => absurd (hm.symm.trans hm') Bool.false_ne_true }
  | finish =>
      exact { h with
        phase := ⟨nofun, nofun, fun _ => .inl ⟨rfl, hm⟩, nofun, nofun⟩
        flow := fun hpass => (h.flow hpass).of_held hheld.symm
        terminated := fun _ hm' => absurd (hm.symm.trans hm') Bool.false_ne_true }

/-- The data that the producer has in hand goes into the channel. -/
theorem sendData (h : Whole capacity b) {bytes : Bytes}
    (hhand : b.stream.producer.hand = some (.data bytes))
    (hroom : b.stream.kind = .guest → b.stream.buffer.length + 1 < capacity) (actor : Channel) :
    Whole capacity ((b.push actor (.data bytes)).modify (·.wrote true (.data bytes))) := by
  obtain ⟨hsource, hm⟩ := h.phase.data bytes hhand
  have hm' : (b.push actor (.data bytes)).stream.marked = false := by
    rw [Body.push, Body.modify, hm]
    rfl
  exact
    { sender := fun _ => h.sender hm
      phase := ⟨fun _ => ⟨hsource, hm'⟩, nofun, nofun, nofun, nofun⟩
      plain := by
        intro _ x hx
        rcases mem_append.mp hx with hx | hx
        · exact h.plain hm x hx
        · rw [mem_singleton.mp hx]
          rfl
      room := fun hk _ => by
        simpa [Body.push, Body.modify, Stream.wrote] using hroom hk
      flow := fun hpass => (h.flow hpass).push hhand rfl actor
      terminated := fun _ htrue => absurd (hm'.symm.trans htrue) Bool.false_ne_true }

/-- The terminal marker goes into the channel, behind all data. -/
theorem sendTerminal (h : Whole capacity b) (hhand : b.stream.producer.hand = some chunk)
    (ht : chunk.terminal = true) (actor : Channel) :
    Whole capacity ((b.push actor chunk).modify (·.wrote true chunk)) := by
  have hm' : (b.push actor chunk).stream.marked = true := by
    rw [Body.push, Body.modify, ht, Bool.or_true]
  have hpc : (b.stream.wrote true chunk).producer = .writing .done ∧ b.stream.kind = .pump ∨
      (b.stream.wrote true chunk).producer = .ended := by
    unfold Stream.wrote
    grind [StreamChunk.terminal]
  have hnot : ¬ (b.push actor chunk).stream.marked = false := by simp [hm']
  have hphase : Phase ((b.push actor chunk).stream.wrote true chunk) := by
    rcases hpc with ⟨hpc, hk⟩ | hpc
    · change (Stream.wrote (b.push actor chunk).stream true chunk).producer = _ at hpc
      constructor <;> simp [hpc, ProducerPc.hand]
      exact .inr ⟨hk, hm'⟩
    · change (Stream.wrote (b.push actor chunk).stream true chunk).producer = _ at hpc
      constructor <;> simp [hpc, ProducerPc.hand]
      exact hm'
  have hheld : (b.stream.wrote true chunk).producer.held = [] := by
    rcases hpc with ⟨hpc, -⟩ | hpc <;> rw [hpc] <;> rfl
  refine
    { sender := fun hm => absurd hm hnot
      phase := hphase
      plain := fun hm => absurd hm hnot
      room := fun _ hm => absurd hm hnot
      flow := fun hpass => (h.flow hpass).push hhand hheld actor
      terminated := fun hpass _ => ?_ }
  cases hm : b.stream.marked with
  | true => exact (h.terminated hpass hm).append ht actor
  | false =>
      refine terminated_of_plain (h.plain hm) ht ?_ actor
      rintro rfl
      rcases h.phase.done hhand with ⟨hsource, -⟩ | ⟨-, hmarked⟩
      · exact hsource
      · exact absurd (hm.symm.trans hmarked) Bool.false_ne_true

theorem send (h : Whole capacity b) (hhand : b.stream.producer.hand = some chunk)
    (hroom : b.stream.kind = .guest → chunk.terminal = false →
      b.stream.buffer.length + 1 < capacity) (actor : Channel) :
    Whole capacity ((b.push actor chunk).modify (·.wrote true chunk)) := by
  cases chunk with
  | data bytes => exact h.sendData hhand (fun hk => hroom hk rfl) actor
  | done => exact h.sendTerminal hhand rfl actor
  | error message => exact h.sendTerminal hhand rfl actor

/-- Without a sender in the map, the terminal marker is in the channel. -/
theorem marked_of_sender (h : Whole capacity b) (hs : b.sender = false) :
    b.stream.marked = true := by
  cases hm : b.stream.marked with
  | true => rfl
  | false => exact absurd (hs.symm.trans (h.sender hm)) Bool.false_ne_true

/-- A stream that has lost its sender is cut, or has its terminal marker in the channel. -/
theorem removeSender (h : b.stream.cut = false → Whole capacity b)
    (hcut : b.removeSender.stream.cut = false) : Whole capacity b.removeSender := by
  simp only [Body.removeSender, Bool.or_eq_false_iff] at hcut
  have hw := h hcut.1
  refine hw.of_marked ?_ _ _ _ _ _
  cases hm : b.stream.marked with
  | true => rfl
  | false => simp [hw.sender hm, hm] at hcut

/-- The host gets a forwarder, for a body that nobody else has got anything of. -/
theorem respond (h : Whole capacity b) (hf : b.stream.forward = none) (receiver : Channel) :
    Whole capacity (b.takeReceiver.setForward
      { receiver, pc := .receiving, yielded := [], left := false }) := by
  have hnone : ∀ f ∈ b.stream.forward, f.Passing := fun f hf' => nomatch hf.symm.trans hf'
  have hflow := h.flow hnone
  rw [hf] at hflow
  exact { h with
    phase := { h.phase with }
    flow := fun _ => hflow
    terminated := fun _ => h.terminated hnone }

/-- The forwarder takes data from the channel. -/
theorem pop_data (h : Whole capacity b) {f : Forward} {bytes : Bytes} {author : Channel}
    {rest : List (StreamChunk × Channel)} (hf : b.stream.forward = some f)
    (hp : f.pc = .receiving) (hb : b.stream.buffer = (.data bytes, author) :: rest) :
    Whole capacity (b.pop.setForward { f with pc := .sending bytes }) := by
  have htail : b.stream.buffer.tail = rest := by rw [hb, tail_cons]
  exact { h with
    phase := { h.phase with }
    plain := fun hm x hx => h.plain hm x (mem_of_mem_tail hx)
    room := fun hk hm => by
      have hlt := h.room hk hm
      simp only [Body.setForward, Body.pop, Body.modify, length_tail]
      omega
    flow := fun hpass => by
      have hflow := h.flow (Stream.passing hf (hpass _ rfl).1 (.inl hp))
      rw [hf, hb] at hflow
      simp only [Body.setForward, Body.pop, Body.modify, htail]
      exact hflow.pop hp
    terminated := fun hpass hm => by
      have hterm := h.terminated (Stream.passing hf (hpass _ rfl).1 (.inl hp)) hm
      rw [hb] at hterm
      simp only [Body.setForward, Body.pop, Body.modify, htail]
      exact hterm }

/-- The host takes what the forwarder holds. -/
theorem take (h : Whole capacity b) {f : Forward} {bytes : Bytes}
    (hf : b.stream.forward = some f) (hp : f.pc = .sending bytes) :
    Whole capacity (b.setForward
      { f with pc := .receiving, yielded := f.yielded ++ [.ok bytes] }) := by
  exact { h with
    phase := { h.phase with }
    flow := fun hpass => by
      have hflow := h.flow (Stream.passing hf (hpass _ rfl).1 (.inr ⟨bytes, hp⟩))
      rw [hf] at hflow
      exact hflow.take hp
    terminated := fun hpass =>
      h.terminated (Stream.passing hf (hpass _ rfl).1 (.inr ⟨bytes, hp⟩)) }

/-- The forwarder stops: what it has passed on no longer matters. -/
theorem stop (h : Whole capacity b) {f : Forward} (hf : ¬ f.Passing) :
    Whole capacity (b.setForward f) :=
  { h with
    phase := { h.phase with }
    flow := fun hpass => absurd (hpass f rfl) hf
    terminated := fun hpass => absurd (hpass f rfl) hf }

/-- The forwarder stops at a terminal marker. -/
theorem pop_stop (h : Whole capacity b) {f : Forward} (hf : ¬ f.Passing) :
    Whole capacity (b.pop.setForward f) :=
  { h with
    phase := { h.phase with }
    plain := fun hm x hx => h.plain hm x (mem_of_mem_tail hx)
    room := fun hk hm => by
      have hlt := h.room hk hm
      simp only [Body.setForward, Body.pop, Body.modify, length_tail]
      omega
    flow := fun hpass => absurd (hpass f rfl) hf
    terminated := fun hpass => absurd (hpass f rfl) hf }

end Whole

/-! ## The steps -/

namespace Way

variable {capacity : Nat} {b : Body} {chunk : StreamChunk} {f : Forward}

theorem of_forward (h : Way capacity b) (hf : b.stream.forward = some f) :
    b.receiver = false ∧ b.reading = 0 := by
  have hunique := h.unique
  rw [hf] at hunique
  cases hr : b.receiver
  · simp [hr] at hunique
    exact ⟨rfl, hunique⟩
  · simp [hr] at hunique

theorem of_receiver (h : Way capacity b) (hr : b.receiver = true) :
    b.reading = 0 ∧ b.stream.forward = none ∧ b.stream.closed = false := by
  have hunique := h.unique
  rw [hr] at hunique
  have halive : b.stream.closed = false := by
    by_contra hclosed
    exact absurd (hr.symm.trans (h.alive (by simpa using hclosed)).1) (by simp)
  cases hf : b.stream.forward with
  | none =>
      simp [hf] at hunique
      exact ⟨by omega, rfl, halive⟩
  | some f => simp [hf] at hunique

theorem of_reading (h : Way capacity b) (hr : 0 < b.reading) :
    b.receiver = false ∧ b.reading = 1 ∧ b.stream.forward = none ∧ b.stream.closed = false := by
  have hunique := h.unique
  have halive : b.stream.closed = false := by
    by_contra hclosed
    exact absurd (h.alive (by simpa using hclosed)).2.1 (Nat.ne_of_gt hr)
  cases hrec : b.receiver <;> cases hf : b.stream.forward <;> simp [hrec, hf] at hunique
  · exact ⟨rfl, by omega, rfl, halive⟩
  all_goals omega

/-- A part of the stream changes that neither concerns its ends nor its forwarder. -/
theorem setStream (h : Way capacity b) {st : Stream} (hforward : st.forward = b.stream.forward)
    (hclosed : st.closed = b.stream.closed) (hcut : st.cut = b.stream.cut)
    (hmarked : b.stream.marked = true → st.marked = true)
    (hwhole : b.stream.cut = false → Whole capacity { b with stream := st })
    (hcomplete : ∀ f ∈ b.stream.forward, f.left = false → f.pc = .ended → Complete st f) :
    Way capacity { b with stream := st } where
  unique := hforward ▸ h.unique
  alive := hforward ▸ hclosed ▸ h.alive
  past f hf hl hp := hmarked (h.past f (hforward ▸ hf) hl hp)
  intact f hf hl := hcut.trans (h.intact f (hforward ▸ hf) hl)
  whole hc := hwhole (hcut ▸ hc)
  complete f hf := hcomplete f (hforward ▸ hf)

/-- While the producer reads, no forwarder is at the end. -/
theorem not_ended_of_reading (h : Way capacity b) (hp : b.stream.producer = .reading)
    (hf : b.stream.forward = some f) (hl : f.left = false) : f.pc ≠ .ended := by
  intro hpc
  have hm := h.past f hf hl (.inl hpc)
  have hm' := ((h.whole (h.intact f hf hl)).phase.reading hp).2
  exact Bool.false_ne_true (hm'.symm.trans hm)

theorem produce (h : Way capacity b) (hp : b.stream.producer = .reading) (item : Upstream) :
    Way capacity (b.modify (·.produce item)) := by
  have hsame : (b.stream.produce item).forward = b.stream.forward ∧
      (b.stream.produce item).closed = b.stream.closed ∧
      (b.stream.produce item).cut = b.stream.cut ∧
      (b.stream.produce item).marked = b.stream.marked := by
    unfold Stream.produce
    grind
  obtain ⟨hforward, hclosed, hcut, hmarked⟩ := hsame
  refine h.setStream hforward hclosed hcut (fun hm => hmarked.trans hm)
    (fun hc => (h.whole hc).produce hp item) ?_
  intro f hf hl hpc
  exact absurd hpc (h.not_ended_of_reading hp hf hl)

theorem cancel (h : Way capacity b) (hl : ∀ f ∈ b.stream.forward, f.left = true) :
    Way capacity (b.setCut.modify fun st => { st with producer := .writing .done }) where
  unique := h.unique
  alive := h.alive
  past := h.past
  intact f hf hl' := absurd (hl'.symm.trans (hl f hf)) Bool.false_ne_true
  whole hc := nomatch hc
  complete := h.complete

theorem hold (h : Way capacity b) {pc : ProducerPc}
    (hhand : b.stream.producer.hand = some chunk) (hpc : pc.hand = some chunk) :
    Way capacity (b.modify fun st => { st with producer := pc }) :=
  h.setStream rfl rfl rfl (fun hm => hm) (fun hc => (h.whole hc).hold hhand hpc) h.complete

/-- A write fails, after the terminal marker unless the stream is cut. -/
theorem wrote (h : Way capacity b) (hhand : b.stream.producer.hand = some chunk)
    (hm : b.stream.cut = false → b.stream.marked = true) :
    Way capacity (b.modify (·.wrote false chunk)) :=
  h.setStream rfl rfl rfl (fun hm => hm)
    (fun hc => (h.whole hc).wrote_of_marked (hm hc) hhand false) h.complete

theorem send (h : Way capacity b) (hhand : b.stream.producer.hand = some chunk)
    (hroom : b.stream.kind = .guest → chunk.terminal = false →
      b.stream.buffer.length + 1 < capacity) (actor : Channel) :
    Way capacity ((b.push actor chunk).modify (·.wrote true chunk)) := by
  refine h.setStream rfl rfl rfl ?_ (fun hc => (h.whole hc).send hhand hroom actor) h.complete
  intro hm
  change (b.stream.marked || chunk.terminal) = true
  rw [hm, Bool.true_or]

theorem removeSender (h : Way capacity b) (hspared : b.stream.Spared) :
    Way capacity b.removeSender where
  unique := h.unique
  alive := h.alive
  past := h.past
  intact f hf hl := by
    have hm : b.stream.marked = true := (hspared f hf).resolve_left (by simp [hl])
    simp [Body.removeSender, hm, h.intact f hf hl]
  whole := Whole.removeSender h.whole
  complete := h.complete

theorem removeReceiver (h : Way capacity b) : Way capacity b.removeReceiver where
  unique := Nat.le_trans
    (Nat.add_le_add_right (Nat.add_le_add_right (Nat.zero_le _) _) _) h.unique
  alive hclosed := by
    refine ⟨rfl, ?_⟩
    cases hr : b.receiver with
    | true =>
        obtain ⟨hreading, hforward, -⟩ := h.of_receiver hr
        refine ⟨hreading, fun f hf => ?_⟩
        exact nomatch hforward.symm.trans hf
    | false =>
        simp only [Body.removeReceiver, hr, Bool.or_false] at hclosed
        exact (h.alive hclosed).2
  past := h.past
  intact := h.intact
  whole hc := { h.whole hc with phase := { (h.whole hc).phase with } }
  complete := h.complete

/-- The receiver is gone only when the forwarder has seen the terminal marker. -/
theorem spared_of_closed (h : Way capacity b) (hclosed : b.stream.closed = true) :
    b.stream.Spared := by
  intro f hf
  cases hl : f.left with
  | true => exact .inl rfl
  | false => exact .inr (h.past f hf hl (.inl ((h.alive hclosed).2.2 f hf)))

theorem sendClosed (h : Way capacity b) (hhand : b.stream.producer.hand = some chunk)
    (hclosed : b.stream.closed = true) :
    Way capacity (b.removeSender.modify (·.wrote false chunk)) := by
  have hremoved := h.removeSender (h.spared_of_closed hclosed)
  exact hremoved.wrote hhand fun hc => (hremoved.whole hc).marked_of_sender rfl

/-! ### The reads of the guest -/

theorem read (h : Way capacity b) (hr : b.receiver = true) :
    Way capacity b.takeReceiver.startRead := by
  obtain ⟨hreading, hforward, hclosed⟩ := h.of_receiver hr
  exact
    { unique := by simp [Body.takeReceiver, Body.startRead, hreading, hforward]
      alive := fun hc => absurd (hclosed.symm.trans hc) Bool.false_ne_true
      past := h.past
      intact := h.intact
      whole := fun hc => { h.whole hc with }
      complete := h.complete }

/-- After a read, with `b'` the stream and whether its receiver was put back. -/
theorem endRead (h : Way capacity b) (hr : 0 < b.reading) {st : Stream} {receiver : Bool}
    (hforward : st.forward = b.stream.forward) (hclosed : st.closed = true → receiver = false)
    (hwhole : st.cut = false → Whole capacity ⟨st, b.sender, receiver, b.reading - 1⟩) :
    Way capacity ⟨st, b.sender, receiver, b.reading - 1⟩ := by
  obtain ⟨-, hreading, hnone, -⟩ := h.of_reading hr
  have hst : st.forward = none := hforward.trans hnone
  have hvac : ∀ {Q : Forward → Prop}, ∀ f ∈ st.forward, Q f := by
    intro Q f hf
    exact nomatch hst.symm.trans hf
  exact
    { unique := by
        rw [hst, hreading]
        cases receiver <;> simp
      alive := fun hc => ⟨hclosed hc, by simp [hreading], hvac⟩
      past := hvac
      intact := hvac
      whole := hwhole
      complete := hvac }

theorem readData (h : Way capacity b) (hr : 0 < b.reading) :
    Way capacity b.pop.setCut.putBack.endRead := by
  obtain ⟨hreceiver, -, -, hclosed⟩ := h.of_reading hr
  refine h.endRead hr rfl ?_ nofun
  intro hc
  simp [Body.putBack, Body.setCut, Body.pop, Body.modify, hreceiver, hclosed] at hc

theorem readTerminal (h : Way capacity b) (hr : 0 < b.reading) :
    Way capacity b.pop.setCut.dropReceiver.endRead :=
  h.endRead hr rfl (fun _ => (h.of_reading hr).1) nofun

theorem readDropped (h : Way capacity b) (hr : 0 < b.reading) :
    Way capacity b.dropReceiver.endRead :=
  h.endRead hr rfl (fun _ => (h.of_reading hr).1)
    fun hc => { h.whole hc with phase := { (h.whole hc).phase with } }

/-! ### The way to the host -/

theorem respond (h : Way capacity b) (hr : b.receiver = true) (hcut : b.stream.cut = false)
    (receiver : Channel) :
    Way capacity (b.takeReceiver.setForward
      { receiver, pc := .receiving, yielded := [], left := false }) := by
  obtain ⟨hreading, hforward, hclosed⟩ := h.of_receiver hr
  refine
    { unique := ?_
      alive := fun hc => absurd (hclosed.symm.trans hc) Bool.false_ne_true
      past := ?_
      intact := fun _ _ _ => hcut
      whole := fun hc => (h.whole hc).respond hforward receiver
      complete := ?_ }
  · simp [Body.takeReceiver, Body.setForward, Body.modify, hreading]
  · rintro _ ⟨⟩ - (hp | ⟨message, hp⟩) <;> exact nomatch hp
  · rintro _ ⟨⟩ - hp
    exact nomatch hp

/-- A forwarder goes on; the ends of the stream are where they were. -/
theorem setForward (h : Way capacity b) (hf : b.stream.forward = some f) {st : Stream}
    {f' : Forward} (hst : st.forward = some f') (hclosed : st.closed = true → f'.pc = .ended)
    (hpast : f'.left = false → (f'.pc = .ended ∨ ∃ message, f'.pc = .failing message) →
      st.marked = true)
    (hintact : f'.left = false → st.cut = false)
    (hwhole : st.cut = false → Whole capacity { b with stream := st })
    (hcomplete : f'.left = false → f'.pc = .ended → Complete st f') :
    Way capacity { b with stream := st } := by
  obtain ⟨hreceiver, hreading⟩ := h.of_forward hf
  have hall : ∀ {Q : Forward → Prop}, Q f' → ∀ f'' ∈ st.forward, Q f'' := by
    intro Q hQ f'' hf''
    cases hst.symm.trans hf''
    exact hQ
  exact
    { unique := by simp [hreceiver, hreading, hst]
      alive := fun hc => ⟨hreceiver, hreading, hall (hclosed hc)⟩
      past := hall hpast
      intact := hall hintact
      whole := hwhole
      complete := hall hcomplete }

/-- A forwarder that still works has its receiver. -/
theorem not_closed (h : Way capacity b) (hf : b.stream.forward = some f) (hp : f.pc ≠ .ended) :
    b.stream.closed = false := by
  by_contra hclosed
  exact hp ((h.alive (by simpa using hclosed)).2.2 f hf)

theorem forwardData (h : Way capacity b) (hf : b.stream.forward = some f)
    (hp : f.pc = .receiving) {bytes : Bytes} {author : Channel}
    {rest : List (StreamChunk × Channel)}
    (hb : b.stream.buffer = (.data bytes, author) :: rest) :
    Way capacity (b.pop.setForward { f with pc := .sending bytes }) := by
  have hopen := h.not_closed hf (by simp [hp])
  refine h.setForward hf rfl (fun hc => absurd (hopen.symm.trans hc) Bool.false_ne_true) ?_
    (h.intact f hf) (fun hc => (h.whole hc).pop_data hf hp hb) (fun _ hpc => nomatch hpc)
  rintro - (hpc | ⟨message, hpc⟩) <;> exact nomatch hpc

/-- The marker that the forwarder of a present host finds was put there. -/
theorem marked_of_terminal (h : Way capacity b) (hf : b.stream.forward = some f)
    (hl : f.left = false) {author : Channel} {rest : List (StreamChunk × Channel)}
    (hb : b.stream.buffer = (chunk, author) :: rest) (ht : chunk.terminal = true) :
    b.stream.marked = true := by
  by_contra hm
  have hplain := (h.whole (h.intact f hf hl)).plain (by simpa using hm) (chunk, author)
    (hb ▸ mem_cons_self)
  exact Bool.false_ne_true (hplain.symm.trans ht)

theorem forwardDone (h : Way capacity b) (hf : b.stream.forward = some f)
    (hp : f.pc = .receiving) {author : Channel} {rest : List (StreamChunk × Channel)}
    (hb : b.stream.buffer = (.done, author) :: rest) :
    Way capacity (b.pop.dropReceiver.setForward { f with pc := .ended }) := by
  have hnot : ¬ Forward.Passing { f with pc := .ended } := fun hpass => hpass.2.1 rfl
  refine h.setForward hf rfl (fun _ => rfl) (fun hl _ => h.marked_of_terminal hf hl hb rfl)
    (h.intact f hf) ?_ ?_
  · intro hc
    exact { (h.whole hc).pop_stop hnot with phase := { (h.whole hc).phase with } }
  · intro hl _
    have hm := h.marked_of_terminal hf hl hb rfl
    have hw := h.whole (h.intact f hf hl)
    have hpass := Stream.passing hf hl (.inl hp)
    have hterm := hw.terminated hpass hm
    have hflow := hw.flow hpass
    rw [hb] at hterm hflow
    rw [hf] at hflow
    exact .inr ⟨hterm.1, hflow.eq_of_nil hp hterm.2 (hw.held_of_marked hm)⟩

theorem forwardError (h : Way capacity b) (hf : b.stream.forward = some f)
    (hp : f.pc = .receiving) {message : String} {author : Channel}
    {rest : List (StreamChunk × Channel)}
    (hb : b.stream.buffer = (.error message, author) :: rest) :
    Way capacity (b.pop.setForward { f with pc := .failing message }) := by
  have hopen := h.not_closed hf (by simp [hp])
  have hnot : ¬ Forward.Passing { f with pc := .failing message } :=
    fun hpass => hpass.2.2 message rfl
  exact h.setForward hf rfl (fun hc => absurd (hopen.symm.trans hc) Bool.false_ne_true)
    (fun hl _ => h.marked_of_terminal hf hl hb rfl) (h.intact f hf)
    (fun hc => (h.whole hc).pop_stop hnot) (fun _ hpc => nomatch hpc)

/-- The channel of a body that is passed on to a present host does not end without a marker. -/
theorem left_of_none (h : Way capacity b) (hf : b.stream.forward = some f)
    (hp : f.pc = .receiving) (hb : b.stream.buffer = []) (hs : b.sender = false) :
    f.left = true := by
  by_contra hl
  have hl : f.left = false := by simpa using hl
  have hw := h.whole (h.intact f hf hl)
  have hterm := hw.terminated (Stream.passing hf hl (.inl hp)) (hw.marked_of_sender hs)
  rw [hb] at hterm
  exact hterm

/-- The forwarder stops for a host that has left. -/
theorem stop_left (h : Way capacity b) (hf : b.stream.forward = some f) {st : Stream}
    {f' : Forward} (hst : st.forward = some f') (hp : f'.pc = .ended) (hl : f'.left = true)
    (hwhole : st.cut = false → Whole capacity { b with stream := st }) :
    Way capacity { b with stream := st } := by
  have hnot : ¬ f'.left = false := by simp [hl]
  exact h.setForward hf hst (fun _ => hp) (fun hl' => absurd hl' hnot) (fun hl' => absurd hl' hnot)
    hwhole fun hl' => absurd hl' hnot

theorem forwardNone (h : Way capacity b) (hf : b.stream.forward = some f)
    (hp : f.pc = .receiving) (hb : b.stream.buffer = []) (hs : b.sender = false) :
    Way capacity (b.dropReceiver.setForward { f with pc := .ended }) := by
  have hnot : ¬ Forward.Passing { f with pc := .ended } := fun hpass => hpass.2.1 rfl
  have hleft := h.left_of_none hf hp hb hs
  refine h.stop_left hf rfl rfl hleft fun hc => ?_
  exact { (h.whole hc).stop hnot with phase := { (h.whole hc).phase with } }

theorem hostTake (h : Way capacity b) (hf : b.stream.forward = some f) {bytes : Bytes}
    (hp : f.pc = .sending bytes) :
    Way capacity (b.setForward
      { f with pc := .receiving, yielded := f.yielded ++ [.ok bytes] }) := by
  have hopen := h.not_closed hf (by simp [hp])
  refine h.setForward hf rfl (fun hc => absurd (hopen.symm.trans hc) Bool.false_ne_true) ?_
    (h.intact f hf) (fun hc => (h.whole hc).take hf hp) (fun _ hpc => nomatch hpc)
  rintro - (hpc | ⟨message, hpc⟩) <;> exact nomatch hpc

theorem hostFail (h : Way capacity b) (hf : b.stream.forward = some f) {message : String}
    (hp : f.pc = .failing message) :
    Way capacity (b.dropReceiver.setForward
      { f with pc := .ended, yielded := f.yielded ++ [.err message] }) := by
  have hnot : ¬ Forward.Passing
      { f with pc := .ended, yielded := f.yielded ++ [.err message] } := fun hpass => hpass.2.1 rfl
  refine h.setForward hf rfl (fun _ => rfl) (fun hl _ => h.past f hf hl (.inr ⟨message, hp⟩))
    (h.intact f hf) ?_ ?_
  · intro hc
    exact { (h.whole hc).stop hnot with phase := { (h.whole hc).phase with } }
  · intro _ _
    exact .inl ⟨message, mem_append_right _ mem_cons_self⟩

theorem hostLeave (h : Way capacity b) (hf : b.stream.forward = some f) :
    Way capacity (b.closeStream.dropReceiver.setForward
      { f with pc := .ended, left := true }) := by
  obtain ⟨hreceiver, hreading⟩ := h.of_forward hf
  have hnot : ¬ Forward.Passing { f with pc := .ended, left := true } := fun hpass => hpass.2.1 rfl
  refine
    { unique := ?_
      alive := fun _ => ⟨rfl, hreading, ?_⟩
      past := ?_
      intact := ?_
      whole := fun hc => ?_
      complete := ?_ }
  · simp [Body.closeStream, Body.removeReceiver, Body.removeSender, Body.dropReceiver,
      Body.setForward, Body.modify, hreading]
  · rintro _ ⟨⟩
    rfl
  · rintro _ ⟨⟩ hl
    exact nomatch hl
  · rintro _ ⟨⟩ hl
    exact nomatch hl
  · have hw := Whole.removeSender h.whole hc
    exact { hw.stop hnot with phase := { hw.phase with } }
  · rintro _ ⟨⟩ hl
    exact nomatch hl

theorem hostLeaveFailing (h : Way capacity b) (hf : b.stream.forward = some f) :
    Way capacity (b.dropReceiver.setForward { f with pc := .ended, left := true }) := by
  have hnot : ¬ Forward.Passing { f with pc := .ended, left := true } := fun hpass => hpass.2.1 rfl
  refine h.stop_left hf rfl rfl rfl fun hc => ?_
  exact { (h.whole hc).stop hnot with phase := { (h.whole hc).phase with } }

/-- A new stream. -/
theorem init (id : Scheduler.StreamId) (owner : Nat) (kind : ProducerKind) (h : 0 < capacity) :
    Way capacity
      { stream :=
          { id, owner, kind, producer := .reading, buffer := [], closed := false, forward := none,
            produced := [], source := .flowing, marked := false, cut := false }
        sender := true
        receiver := true
        reading := 0 } where
  unique := Nat.le_refl 1
  alive := nofun
  past := nofun
  intact := nofun
  whole _ :=
    { sender := fun _ => rfl
      phase := ⟨fun _ => ⟨rfl, rfl⟩, nofun, nofun, nofun, nofun⟩
      plain := fun _ => nofun
      room := fun _ _ => h
      flow := fun _ => rfl
      terminated := fun _ => nofun }
  complete := nofun

/-- **A stream keeps its way.**  What a step can do to a stream leaves it on its way to the
host, unless the stream was to be cut. -/
theorem step {b' : Body} {gone : Bool} (h : Way capacity b)
    (hstep : Body.Step capacity gone b b') : Way capacity b' := by
  cases hstep with
  | produce item hp => exact h.produce hp item
  | cancel _ hl => exact h.cancel hl
  | hold pc hhand hpc => exact h.hold hhand hpc
  | noSender hhand hs => exact h.wrote hhand fun hc => (h.whole hc).marked_of_sender hs
  | noRoom hhand hk hlen =>
      refine h.wrote hhand fun hc => ?_
      by_contra hm
      exact absurd ((h.whole hc).room hk (by simpa using hm)) (Nat.not_lt_of_le hlen)
  | sendClosed hhand hclosed => exact h.sendClosed hhand hclosed
  | send actor hhand _ hroom => exact h.send hhand hroom actor
  | read hr => exact h.read hr
  | readData hr => exact h.readData hr
  | readTerminal hr => exact h.readTerminal hr
  | readDropped hr => exact h.readDropped hr
  | close hspared => exact (h.removeSender hspared).removeReceiver
  | respond d hr hcut _ => exact h.respond hr hcut d
  | forwardData hf hp hb => exact h.forwardData hf hp hb
  | forwardDone hf hp hb => exact h.forwardDone hf hp hb
  | forwardError hf hp hb => exact h.forwardError hf hp hb
  | forwardNone hf hp hb hs => exact h.forwardNone hf hp hb hs
  | hostTake hf hp => exact h.hostTake hf hp
  | hostFail hf hp => exact h.hostFail hf hp
  | hostLeave hf _ => exact h.hostLeave hf
  | hostLeaveFailing hf _ => exact h.hostLeaveFailing hf

end Way

end OpenWorkers.Streams
