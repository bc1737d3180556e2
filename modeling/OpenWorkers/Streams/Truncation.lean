import OpenWorkers.Streams.Alone
import OpenWorkers.Streams.Isolation
import OpenWorkers.Streams.Way

/-!
# A streamed response body is not truncated silently

As long as the streams are isolated, a step of the machine is a step of one stream
(`moves_step`), so what `OpenWorkers.Streams.Way` proves of a stream holds of every stream of
every run (`sound_step`).  A stream that is over has its terminal marker in the channel by
then, so its host comes to the end of the body without it (`Sound.notStranded`).

The result needs that nobody cuts a body on its way (`Spares`).  Without that it fails:
`spawn_stream_reader` writes `Done` when it is cancelled, a forwarder takes the end of its
channel, which `clear` brings about, for the end of the body, and when the context is dropped
under a body that the guest pumps, the forwarder itself keeps the sender alive, through its
manager, and waits for ever (`body_cut_by_reuse_or_cancellation`).
-/

namespace OpenWorkers.Streams

open List Option Function
open Scheduler (StreamId)

/-- What the loop may do with a message: it closes no body on its way, and cancels no reader
of one. -/
def SparesMessage (s : State) : Message → Prop
  | .streamCancel c => ∀ st ∈ s.streams[c]?, st.Spared
  | .beginRequest => ∀ st ∈ s.streams, st.kind = .reader → st.owner ≤ s.scope → st.Spared
  | .streamRead _ => True
  | .scheduleWritable _ => True

/-- No step cuts a body that is passed on: until its terminal marker is in the channel, its
request is not cancelled (by its caller or by the next `BeginRequest`), it is not closed by a
`StreamCancel` or by a wait for room that is cancelled, and the context is neither reset nor
dropped; and only a body of which nothing is lost is passed on.  Besides, ids are fresh. -/
def Spares (s : State) : Action → Prop
  | .create kind owner url => Fresh s (.create kind owner url)
  | .respond c => ∀ st ∈ s.streams[c]?, st.cut = false ∧ (s.isOver st = true → st.marked = true)
  | .handle => ∀ m ∈ s.messages.head?, SparesMessage s m
  | .room k => ∀ t ∈ s.rooms[k]?, s.isCancelled t.scope = true →
      ∀ st ∈ s.streams[t.stream]?, st.Spared
  | .reset => ∀ st ∈ s.streams, st.Spared
  | .abort scope => ∀ st ∈ s.streams, st.kind = .reader → st.owner = scope → st.Spared
  | .drop => ∀ st ∈ s.streams, st.kind = .guest ∨ st.kind = .reader → st.Spared
  | _ => True

/-- A receiver of the host that has ended without an error has given all that the source
produced up to its own end. -/
def NotTruncated (s : State) : Prop :=
  ∀ (c : Channel) (st : Stream) (f : Forward), s.streams[c]? = some st → st.forward = some f →
    f.pc = .ended → f.left = false → (∀ item ∈ f.yielded, ∃ bytes, item = .ok bytes) →
    st.source = .ended ∧ f.yielded = st.produced.map .ok

/-- The tasks that bring the stream `c` to its host. -/
def Delivers (c : Channel) (_ : State) (a : Action) : Prop := a = .forward c ∨ a = .hostTake c

/-- No receiver of the host waits for ever: where nobody will write the rest of the stream, its
forwarder and its host alone come to the end of the body, with all of it or with an error. -/
def NotStranded (highWaterMark : Nat) (s : State) : Prop :=
  ∀ (c : Channel) (st : Stream) (f : Forward), s.streams[c]? = some st → st.forward = some f →
    f.left = false → s.isOver st = true →
    ∃ (t : State) (st' : Stream) (f' : Forward), (machine highWaterMark).Reaches (Delivers c) s t ∧
      t.streams[c]? = some st' ∧ st'.forward = some f' ∧ f'.pc = .ended ∧ f'.left = false ∧
      Complete st' f'

/-- The streams are isolated, each is on its way, and the host has what there will be of a
stream that is over. -/
structure Sound (s : State) : Prop where
  inv : Inv s
  way : ∀ c b, s.body c = some b → Way s.manager.capacity b
  spared : ∀ c b, s.body c = some b → s.isOver b.stream = true → b.stream.Spared

/-! ## The steps, on one stream -/

/-- A step of the machine that is a step of one stream. -/
structure MovesAt (c : Channel) (s s' : State) : Prop where
  step : ∃ b b', s.body c = some b ∧ s'.body c = some b' ∧
    Body.Step s.manager.capacity (s.isOver b.stream) b b'
  frame : Frame c s s'

/-- A step of the machine that is a step of at most one stream. -/
def Moves (s s' : State) : Prop := (∀ d, s'.body d = s.body d) ∨ ∃ c, MovesAt c s s'

section Moves

variable {s s' : State} {c : Channel} {st : Stream}

theorem Moves.at {b b' : Body} (hb : s.body c = some b) (hb' : s'.body c = some b')
    (hstep : Body.Step s.manager.capacity (s.isOver b.stream) b b') (hframe : Frame c s s') :
    Moves s s' :=
  .inr ⟨c, ⟨b, b', hb, hb', hstep⟩, hframe⟩

/-- What no stream is concerned by does not matter. -/
theorem Moves.congr {s'' : State} (h : Moves s s') (hsame : ∀ d, s''.body d = s'.body d) :
    Moves s s'' := by
  rcases h with h | ⟨c, ⟨b, b', hb, hb', hstep⟩, hframe⟩
  · exact .inl fun d => (hsame d).trans (h d)
  · exact Moves.at hb ((hsame c).trans hb') hstep fun d hd => (hsame d).trans (hframe d hd)

theorem moves_stepProduce {item : Upstream} (hs : s.stepProduce c item = some s') :
    Moves s s' := by
  obtain ⟨st, hst, hs⟩ := bind_eq_some_iff.mp hs
  obtain ⟨⟨hp, -⟩, heq⟩ := ite_none_right_eq_some.mp hs
  cases heq
  obtain ⟨b, hb, rfl⟩ := body_of_getElem? hst
  refine Moves.at hb (body_modify ?_ hb) (.produce item hp) (frame_modify _)
  unfold Stream.produce
  grind

/-- The host of a stream whose reader is cancelled before the end has left. -/
theorem Sound.left_of_cancelled (h : Sound s) {b : Body} (hb : s.body c = some b)
    (hk : b.stream.kind = .reader) (hp : b.stream.producer = .reading)
    (hcancel : s.isCancelled b.stream.owner = true) : ∀ f ∈ b.stream.forward, f.left = true := by
  intro f hf
  have hover : s.isOver b.stream = true := by simp [State.isOver, hk, hcancel]
  by_contra hl
  have hm : b.stream.marked = true := (h.spared c b hb hover f hf).resolve_left hl
  have hw := (h.way c b hb).whole ((h.way c b hb).intact f hf (by simpa using hl))
  exact Bool.false_ne_true ((hw.phase.reading hp).2.symm.trans hm)

theorem moves_stepCancel (h : Sound s) (hs : s.stepCancel c = some s') : Moves s s' := by
  obtain ⟨st, hst, hs⟩ := bind_eq_some_iff.mp hs
  obtain ⟨⟨hk, hp, hcancel⟩, heq⟩ := ite_none_right_eq_some.mp hs
  cases heq
  obtain ⟨b, hb, rfl⟩ := body_of_getElem? hst
  exact Moves.at hb (body_modify rfl (body_modify rfl hb))
    (.cancel hp (h.left_of_cancelled hb hk hp hcancel))
    (Frame.trans (frame_modify _) (frame_modify _))

theorem moves_noSender {chunk : StreamChunk} {b : Body} (hb : s.body c = some b)
    (hhand : b.stream.producer.hand = some chunk)
    (hnone : s.manager.senders (s.idOf c) = none) : Moves s (s.modify c (·.wrote false chunk)) := by
  refine Moves.at hb (body_modify rfl hb) (.noSender hhand ?_) (frame_modify _)
  simp [(getElem?_of_body hb).2.1, hnone]

theorem moves_lookUp {chunk : StreamChunk} (hst : s.streams[c]? = some st)
    (hp : st.producer = .writing chunk) : Moves s (s.lookUp c chunk) := by
  obtain ⟨b, hb, rfl⟩ := body_of_getElem? hst
  have hhand : b.stream.producer.hand = some chunk := by
    rw [hp]
    rfl
  unfold State.lookUp
  split
  next d hd => exact Moves.at hb (body_modify rfl hb) (.hold _ hhand rfl) (frame_modify _)
  next hnone => exact moves_noSender hb hhand hnone

/-- The end of a write, of a task or of the guest. -/
theorem moves_send {chunk : StreamChunk} {b : Body} (hb : s.body c = some b)
    (hhand : b.stream.producer.hand = some chunk)
    (hroom : b.stream.kind = .guest → chunk.terminal = false →
      b.stream.buffer.length + 1 < s.manager.capacity)
    (hclosed : b.stream.closed = false) :
    Moves s ((s.push c c chunk).modify c (·.wrote true chunk)) :=
  Moves.at hb (body_modify rfl (body_modify rfl hb)) (.send c hhand hclosed hroom)
    (Frame.trans (frame_modify _) (frame_modify _))

theorem moves_sendClosed {chunk : StreamChunk} {b : Body} (h : Inv s) (hc : Known s c)
    (hb : s.body c = some b) (hhand : b.stream.producer.hand = some chunk)
    (hclosed : b.stream.closed = true) :
    Moves s ((s.removeSender c).modify c (·.wrote false chunk)) :=
  Moves.at hb (body_modify rfl (body_removeSender (h.sole hc) hb)) (.sendClosed hhand hclosed)
    (Frame.trans (frame_removeSender (h.sole hc)) (frame_modify _))

theorem moves_awaitRoom {chunk : StreamChunk} {b : Body} (hb : s.body c = some b)
    (hhand : b.stream.producer.hand = some chunk) (hk : b.stream.kind = .guest)
    (hlen : chunk.terminal = true → s.manager.capacity ≤ b.stream.buffer.length) :
    Moves s (s.awaitRoom c chunk) := by
  cases chunk with
  | data bytes =>
      exact Moves.at hb (body_modify rfl hb) (.hold (.waiting bytes) hhand rfl) (frame_modify _)
  | done => exact Moves.at hb (body_modify rfl hb) (.noRoom hhand hk (hlen rfl)) (frame_modify _)
  | error message =>
      exact Moves.at hb (body_modify rfl hb) (.noRoom hhand hk (hlen rfl)) (frame_modify _)

theorem moves_tryWrite {chunk : StreamChunk} (h : Inv s) (hc : Known s c)
    (hst : s.streams[c]? = some st) (hp : st.producer = .writing chunk) (hk : st.kind = .guest)
    (hs : s.tryWrite c chunk = some s') : Moves s s' := by
  obtain ⟨b, hb, rfl⟩ := body_of_getElem? hst
  have hhand : b.stream.producer.hand = some chunk := by
    rw [hp]
    rfl
  unfold State.tryWrite at hs
  split at hs
  next hnone =>
    cases hs
    exact moves_noSender hb hhand hnone
  next d hd =>
    obtain rfl := h.senders c d hc hd
    obtain ⟨st', hst', rfl⟩ := map_eq_some_iff.mp hs
    cases hst.symm.trans hst'
    split_ifs with hfull hclosed hroom
    · simp only [Bool.and_eq_true, Bool.not_eq_true', decide_eq_true_eq] at hfull
      refine moves_awaitRoom hb hhand hk fun ht => ?_
      exact absurd (hfull.1.symm.trans ht) Bool.false_ne_true
    · exact moves_sendClosed h hc hb hhand hclosed
    · refine moves_send hb hhand (fun _ ht => ?_) (by simpa using hclosed)
      simp only [ht, Bool.not_false, Bool.true_and, decide_eq_true_eq] at hfull
      omega
    · exact moves_awaitRoom hb hhand hk fun _ => Nat.le_of_not_lt hroom

theorem moves_stepWrite (h : Inv s) (hs : s.stepWrite c = some s') : Moves s s' := by
  obtain ⟨st, hst, hs⟩ := bind_eq_some_iff.mp hs
  obtain ⟨b, hb, rfl⟩ := body_of_getElem? hst
  cases hp : b.stream.producer with
  | reading => simp [hp] at hs
  | ended => simp [hp] at hs
  | writing chunk =>
      simp only [hp] at hs
      split at hs
      next hk =>
        obtain ⟨hg, hs⟩ := ite_none_right_eq_some.mp hs
        exact moves_tryWrite h (h.known_of_guestRuns hst hg) hst hp hk hs
      next =>
        cases hs
        exact moves_lookUp hst hp
  | sending d chunk =>
      simp only [hp] at hs
      obtain ⟨rfl, hk⟩ := (h.own c _ hst).sending d chunk hp
      have hc : Known s d := known_of_producer hst (by simp [hp]) hk
      have hhand : b.stream.producer.hand = some chunk := by
        rw [hp]
        rfl
      obtain ⟨st', hst', hs⟩ := bind_eq_some_iff.mp hs
      cases hst.symm.trans hst'
      split at hs
      next hclosed =>
        cases hs
        exact moves_sendClosed h hc hb hhand hclosed
      next hclosed =>
        obtain ⟨-, heq⟩ := ite_none_right_eq_some.mp hs
        cases heq
        exact moves_send hb hhand (fun hguest => absurd hguest hk) (by simpa using hclosed)
  | waiting bytes =>
      simp only [hp] at hs
      obtain ⟨-, heq⟩ := ite_none_right_eq_some.mp hs
      cases heq
      have hhand : b.stream.producer.hand = some (.data bytes) := by
        rw [hp]
        rfl
      exact Moves.at hb (body_modify rfl hb) (.hold _ hhand rfl) (frame_modify _)

/-- Without a sender, the map has none either. -/
theorem sender_of_hasSender {b : Body} (hb : s.body c = some b) (hs : ¬ s.hasSender c = true) :
    b.sender = false := by
  rw [(getElem?_of_body hb).2.1]
  simp only [State.hasSender, Bool.or_eq_true, not_or] at hs
  exact Bool.eq_false_iff.mpr hs.1.1

theorem reads_putBack (s : State) (actor c : Channel) : (s.putBack actor c).reads = s.reads := by
  unfold State.putBack
  cases s.manager.receivers (s.idOf actor) <;> rfl

/-- A read of the stream `c` goes on. -/
theorem frame_setRead {k : Nat} {t : ReadTask} {pc : ReadPc} (ht : s.reads[k]? = some t)
    (hp : t.pc = .start ∨ t.pc = .receiving c) (hpc : pc = .ended ∨ pc = .receiving c) :
    Frame c s (s.setRead k pc) := by
  intro d hd
  refine body_setRead_same ht ?_ ?_
  · rcases hp with hp | hp <;> simp [hp, Ne.symm hd]
  · rcases hpc with rfl | rfl <;> simp [Ne.symm hd]

/-- The receiver that a read has is dropped with it. -/
theorem moves_readDropped {k : Nat} {t : ReadTask} {b : Body} (hb : s.body c = some b)
    (ht : s.reads[k]? = some t) (hp : t.pc = .receiving c) :
    Moves s ((s.dropReceiver c).setRead k .ended) := by
  have hb' : (s.dropReceiver c).body c = some b.dropReceiver := body_modify rfl hb
  obtain ⟨hpos, hend⟩ := body_endRead (s := s.dropReceiver c) ht hp hb'
  exact Moves.at hb hend (.readDropped hpos)
    (Frame.trans (frame_modify _) (frame_setRead (s := s.dropReceiver c) ht (.inr hp) (.inl rfl)))

theorem moves_finishRead {k : Nat} {t : ReadTask} {b : Body} (h : Inv s) (hc : Known s c)
    (hb : s.body c = some b) (ht : s.reads[k]? = some t) (hp : t.pc = .receiving c)
    (chunk : StreamChunk) :
    Moves s ((((s.pop c c c).setCut c).finishRead c c chunk).setRead k .ended) := by
  have htidy := ((Tidy.refl h).pop c).setCut c
  have hb' : ((s.pop c c c).setCut c).body c = some b.pop.setCut :=
    body_modify rfl (body_modify rfl hb)
  have hframe : Frame c s ((s.pop c c c).setCut c) :=
    Frame.trans (fun _ hd => body_modify_ne hd) (frame_modify _)
  unfold State.finishRead
  split_ifs
  · have hb'' : (((s.pop c c c).setCut c).dropReceiver c).body c =
        some b.pop.setCut.dropReceiver := body_modify rfl hb'
    have ht' : (((s.pop c c c).setCut c).dropReceiver c).reads[k]? = some t := ht
    obtain ⟨hpos, hend⟩ := body_endRead ht' hp hb''
    exact Moves.at hb hend (.readTerminal hpos)
      (Frame.trans (Frame.trans hframe (frame_modify _)) (frame_setRead ht' (.inr hp) (.inl rfl)))
  · have hsole := htidy.sole h hc
    have ht' : (((s.pop c c c).setCut c).putBack c c).reads[k]? = some t := by
      rw [reads_putBack]
      exact ht
    obtain ⟨hpos, hend⟩ := body_endRead ht' hp (body_putBack hsole hb')
    exact Moves.at hb hend (.readData hpos)
      (Frame.trans (Frame.trans hframe (frame_putBack hsole))
        (frame_setRead ht' (.inr hp) (.inl rfl)))

theorem Inv.body_of_known (h : Inv s) (hc : Known s c) : ∃ b, s.body c = some b := by
  obtain ⟨b, hb, -⟩ := body_of_getElem? (getElem?_eq_getElem (h.lt c hc))
  exact ⟨b, hb⟩

theorem moves_stepRead {k : Nat} (h : Inv s) (hs : s.stepRead k = some s') : Moves s s' := by
  obtain ⟨t, ht, hs⟩ := State.readStep_of_stepRead hs
  have hmem : t ∈ s.reads := mem_of_getElem? ht
  have hknown := ((Tidy.refl h).reads t hmem).1
  cases hs with
  | ended hp =>
      refine .inl fun d => body_setRead_same ht ?_ nofun
      rw [hp]
      exact nofun
  | @took c hp hr =>
      have hc : Known s t.stream := hknown (by simp [hp])
      obtain ⟨b, hb⟩ := h.body_of_known hc
      obtain rfl := h.receivers t.stream c hc hr
      have hb' := body_takeReceiver hb
      have ht' : (s.takeReceiver t.stream t.stream).reads[k]? = some t := ht
      refine Moves.at hb (body_startRead ht' hp hb') (.read ?_)
        (Frame.trans (frame_takeReceiver (h.sole hc)) (frame_setRead ht' (.inl hp) (.inr rfl)))
      rw [(getElem?_of_body hb).2.2, hr, BEq.rfl]
  | @dropped c hp =>
      obtain ⟨b, hb⟩ := h.body_of_known (hknown (by simp [hp]))
      obtain rfl := h.reads t hmem c hp
      exact moves_readDropped hb ht hp
  | @got c author st chunk rest hp hst hbuf =>
      have hc : Known s t.stream := hknown (by simp [hp])
      obtain ⟨b, hb⟩ := h.body_of_known hc
      obtain rfl := h.reads t hmem c hp
      obtain rfl := h.author_eq hst hbuf
      exact moves_finishRead h hc hb ht hp chunk

/-- A stream may be closed when its host does not lose by it. -/
theorem moves_closeStream {s₁ : State} (h : Inv s) (hc : Known s c)
    (hsame : ∀ d, s₁.body d = s.body d) (hsole : Sole s₁ c)
    (hspared : ∀ st ∈ s.streams[c]?, st.Spared) : Moves s (s₁.closeStream c) := by
  obtain ⟨b, hb⟩ := h.body_of_known hc
  have hb₁ : s₁.body c = some b := (hsame c).trans hb
  exact Moves.at hb (body_closeStream hsole hb₁) (.close (hspared _ (getElem?_of_body hb).1))
    (Frame.trans (fun d _ => hsame d) (frame_closeStream hsole))

theorem moves_stepRoom {k : Nat} (h : Inv s) (hG : Spares s (.room k))
    (hs : s.stepRoom k = some s') : Moves s s' := by
  obtain ⟨t, ht, hs⟩ := bind_eq_some_iff.mp hs
  obtain ⟨hl, hs⟩ := ite_none_right_eq_some.mp hs
  have hc : Known s t.stream := ((Tidy.refl h).rooms t (mem_of_getElem? ht)).1 hl
  split at hs
  next hcancel =>
    cases hs
    exact (moves_closeStream h hc (fun _ => rfl) (h.sole hc) (hG t ht hcancel)).congr fun _ => rfl
  next =>
    obtain ⟨st, -, hs⟩ := bind_eq_some_iff.mp hs
    obtain ⟨-, heq⟩ := ite_none_right_eq_some.mp hs
    cases heq
    exact .inl fun _ => rfl

theorem moves_stepRespond (h : Inv s) (hG : Spares s (.respond c))
    (hs : s.stepRespond c = some s') : Moves s s' := by
  obtain ⟨st, hst, hs⟩ := bind_eq_some_iff.mp hs
  obtain ⟨⟨hg, -⟩, hs⟩ := ite_none_right_eq_some.mp hs
  have hc : Known s c := h.known_of_guestRuns hst hg
  split at hs
  next =>
    cases hs
    exact .inl fun _ => rfl
  next d hd =>
    cases hs
    obtain ⟨b, hb, rfl⟩ := body_of_getElem? hst
    obtain rfl := h.receivers c d hc hd
    refine Moves.at hb (body_modify rfl (body_takeReceiver hb))
      (.respond d ?_ (hG _ hst).1 (hG _ hst).2)
      (Frame.trans (frame_takeReceiver (h.sole hc)) (frame_modify _))
    rw [(getElem?_of_body hb).2.2, hd, BEq.rfl]

theorem moves_forwardNext {f : Forward} {b : Body} (h : Inv s) (hb : s.body c = some b)
    (hf : b.stream.forward = some f) (hp : f.pc = .receiving)
    (hs : s.forwardNext c f = some s') : Moves s s' := by
  have hst := (getElem?_of_body hb).1
  obtain rfl : f.receiver = c := (h.own c _ hst).forward f hf
  obtain ⟨st, hst', hs⟩ := State.forwardStep_of_forwardNext hs
  obtain rfl : b.stream = st := some_inj.mp (hst.symm.trans hst')
  have hpop : (s.pop f.receiver f.receiver f.receiver).body f.receiver = some b.pop :=
    body_modify rfl hb
  have hframe : Frame f.receiver s (s.pop f.receiver f.receiver f.receiver) :=
    fun _ hd => body_modify_ne hd
  cases hs with
  | data hbuf =>
      rw [h.author_eq hst hbuf] at hbuf ⊢
      exact Moves.at hb (body_modify rfl hpop) (.forwardData hf hp hbuf)
        (Frame.trans hframe (frame_modify _))
  | done hbuf =>
      rw [h.author_eq hst hbuf] at hbuf ⊢
      exact Moves.at hb (body_modify rfl (body_modify rfl hpop)) (.forwardDone hf hp hbuf)
        (Frame.trans (Frame.trans hframe (frame_modify _)) (frame_modify _))
  | error hbuf =>
      rw [h.author_eq hst hbuf] at hbuf ⊢
      exact Moves.at hb (body_modify rfl hpop) (.forwardError hf hp hbuf)
        (Frame.trans hframe (frame_modify _))
  | none hbuf hsender =>
      exact Moves.at hb (body_modify rfl (body_modify rfl hb))
        (.forwardNone hf hp hbuf (sender_of_hasSender hb (by simp [hsender])))
        (Frame.trans (frame_modify _) (frame_modify _))

theorem moves_hostStep {f : Forward} {b : Body} (h : Inv s) (hb : s.body c = some b)
    (hf : b.stream.forward = some f) (hs : HostStep s c f s') : Moves s s' := by
  have hst := (getElem?_of_body hb).1
  obtain rfl : f.receiver = c := (h.own c _ hst).forward f hf
  cases hs with
  | take hp => exact Moves.at hb (body_modify rfl hb) (.hostTake hf hp) (frame_modify _)
  | fail hp =>
      exact Moves.at hb (body_modify rfl (body_modify rfl hb)) (.hostFail hf hp)
        (Frame.trans (frame_modify _) (frame_modify _))
  | leave hne =>
      have hsole := h.sole (known_of_forward hst hf hne)
      exact Moves.at hb (body_modify rfl (body_modify rfl (body_closeStream hsole hb)))
        (.hostLeave hf hne)
        (Frame.trans (Frame.trans (frame_closeStream hsole) (frame_modify _)) (frame_modify _))
  | leaveFailing hne =>
      exact Moves.at hb (body_modify rfl (body_modify rfl hb)) (.hostLeaveFailing hf hne)
        (Frame.trans (frame_modify _) (frame_modify _))

theorem moves_stepHandle (h : Inv s) (hquiet : Quiet s .handle) (hG : Spares s .handle)
    (hs : s.stepHandle = some s') : Moves s s' := by
  unfold State.stepHandle at hs
  split at hs
  next m rest hm =>
    obtain ⟨-, heq⟩ := ite_none_left_eq_some.mp hs
    cases heq
    have hmem : m ∈ s.messages := hm ▸ mem_cons_self
    cases m with
    | beginRequest => exact absurd (hm ▸ rfl) hquiet
    | streamCancel c =>
        have hc : Known s c := (Tidy.refl h).messages _ hmem c rfl
        have hspared : SparesMessage s (.streamCancel c) := hG _ (by rw [hm]; rfl)
        exact moves_closeStream h hc (fun _ => rfl) { h.sole hc with } hspared
    | streamRead c =>
        refine .inl fun d => ?_
        simp only [State.perform, State.body, countP_append, countP_singleton]
        rfl
    | scheduleWritable c =>
        refine .inl fun d => ?_
        simp only [State.perform]
        split <;> rfl
  next => cases hs

theorem moves_stepSend {m : Message} (hs : s.stepSend c m = some s') : Moves s s' := by
  obtain ⟨st, -, hs⟩ := bind_eq_some_iff.mp hs
  obtain ⟨-, heq⟩ := ite_none_right_eq_some.mp hs
  cases heq
  exact .inl fun _ => rfl

theorem moves_stepForward {step : Forward → Option State}
    (hstep : ∀ f b s', s.body c = some b → b.stream.forward = some f → step f = some s' →
      Moves s s') (hs : s.stepForward c step = some s') : Moves s s' := by
  obtain ⟨st, hst, hs⟩ := bind_eq_some_iff.mp hs
  obtain ⟨b, hb, rfl⟩ := body_of_getElem? hst
  obtain ⟨f, hf, hs⟩ := bind_eq_some_iff.mp hs
  exact hstep f b s' hb hf hs

/-- **A step is a step of one stream.** -/
theorem moves_step {a : Action} (hsound : Sound s) (hquiet : Quiet s a) (hG : Spares s a)
    (hs : step s a = some s') : Moves s s' := by
  have h := hsound.inv
  cases a with
  | create | reset | abort | drop => exact hquiet.elim
  | produce c item => exact moves_stepProduce hs
  | write c => exact moves_stepWrite h hs
  | cancelReader c => exact moves_stepCancel hsound hs
  | sendRead c => exact moves_stepSend hs
  | sendCancel c => exact moves_stepSend hs
  | beginRequest =>
      obtain ⟨-, heq⟩ := ite_none_left_eq_some.mp hs
      cases heq
      exact .inl fun _ => rfl
  | handle => exact moves_stepHandle h hquiet hG hs
  | read k => exact moves_stepRead h hs
  | room k => exact moves_stepRoom h hG hs
  | respond c => exact moves_stepRespond h hG hs
  | forward c =>
      refine moves_stepForward ?_ hs
      intro f b s' hb hf hs
      obtain ⟨hp, hs⟩ := ite_none_right_eq_some.mp hs
      exact moves_forwardNext h hb hf hp hs
  | hostTake c =>
      exact moves_stepForward
        (fun f b s' hb hf hs => moves_hostStep h hb hf (State.hostStep_of_hostTake hs)) hs
  | hostLeave c =>
      exact moves_stepForward
        (fun f b s' hb hf hs => moves_hostStep h hb hf (State.hostStep_of_hostLeave hs)) hs

/-- The other streams are as they were before a creation. -/
theorem Created.body_old (h : Created s st s') (hsender : s.manager.senders s.manager.nextId = none)
    (hreceiver : s.manager.receivers s.manager.nextId = none) (hc : c ≠ s.streams.length) :
    s'.body c = s.body c := by
  have hne : ∀ g : StreamId → Option Channel, g s.manager.nextId = none → ∀ i,
      (update g s.manager.nextId (some s.streams.length) i == some c) =
        (g i == some c) := by
    intro g hg
    refine beq_some_of_own (c := s.streams.length) (fun j hj => update_of_ne hj _ _) ?_ ?_ hc
    · intro e he
      exact nomatch hg.symm.trans he
    · intro e he
      rw [update_self] at he
      exact (Option.some.inj he).symm
  have hget : s'.streams[c]? = s.streams[c]? := by
    rw [h.streams, getElem?_append]
    split
    next => rfl
    next hle =>
      rw [getElem?_eq_none (Nat.le_of_not_lt hle), List.getElem?_eq_none_iff]
      exact Nat.sub_pos_of_lt (Nat.lt_of_le_of_ne (Nat.le_of_not_lt hle) (Ne.symm hc))
  unfold State.body
  rw [hget, h.senders, h.receivers, h.reads]
  congr 1
  funext st
  rw [hne _ hsender, hne _ hreceiver]

/-- The new stream has both its ends in the maps, and no read has its receiver. -/
theorem Created.body_new (h : Created s st s') (h₀ : Inv s) (hid : st.id = s.manager.nextId) :
    s'.body s.streams.length = some ⟨st, true, true, 0⟩ := by
  have hget : s'.streams[s.streams.length]? = some st := by
    rw [h.streams, getElem?_concat_length]
  have hcount : (s.reads.countP fun t => t.pc == .receiving s.streams.length) = 0 := by
    rw [countP_eq_zero]
    intro t ht hp
    have hpc : t.pc = .receiving s.streams.length := by simpa using hp
    have hlt := h₀.lt _ (((Tidy.refl h₀).reads t ht).1 (by simp [hpc]))
    rw [← h₀.reads t ht _ hpc] at hlt
    exact absurd hlt (Nat.lt_irrefl _)
  unfold State.body
  rw [hget, h.senders, h.receivers, h.reads, map_some, hid, update_self,
    update_self, hcount, BEq.rfl]

/-- A reset closes every stream. -/
theorem body_reset : s.reset.body c = (s.body c).map Body.closeStream := by
  simp only [State.body, State.reset, State.clear, getElem?_mapIdx, Option.map_map]
  congr 1

end Moves

/-! ## The result -/

instance (st : Stream) : Decidable st.Spared :=
  inferInstanceAs (Decidable (∀ f ∈ st.forward, _))

instance (s : State) (m : Message) : Decidable (SparesMessage s m) := by
  cases m <;> dsimp only [SparesMessage] <;> infer_instance

instance (s : State) (a : Action) : Decidable (Spares s a) := by
  apply @Action.casesOn _ a <;> intros <;> dsimp only [Spares] <;> infer_instance

theorem fresh_of_spares {s : State} {a : Action} (h : Spares s a) : Fresh s a := by
  cases a with
  | create kind owner url => exact h
  | _ => exact trivial

/-- A step that ends no stream is one of at most one stream. -/
theorem Sound.moves {s s' : State} (h : Sound s) (htidy : Tidy s s') (hm : Moves s s') :
    Sound s' := by
  have hbody : ∀ c b, s'.body c = some b →
      Way s.manager.capacity b ∧ (s.isOver b.stream = true → b.stream.Spared) := by
    intro c b hb
    rcases hm with hsame | ⟨d, ⟨b₀, b₁, hb₀, hb₁, hstep⟩, hframe⟩
    · have hb := (hsame c).symm.trans hb
      exact ⟨h.way c b hb, h.spared c b hb⟩
    · by_cases hc : c = d
      · subst hc
        cases hb₁.symm.trans hb
        refine ⟨(h.way c b₀ hb₀).step hstep, fun hover => ?_⟩
        have hover₀ : s.isOver b₀.stream = true := by
          rw [← hover, State.isOver, State.isOver, hstep.same.1, hstep.same.2]
        rw [hover₀] at hstep
        exact hstep.spared (h.spared c b₀ hb₀ hover₀)
      · have hb := (hframe c hc).symm.trans hb
        exact ⟨h.way c b hb, h.spared c b hb⟩
  refine ⟨htidy.inv h.inv, fun c b hb => ?_, fun c b hb hover => ?_⟩
  · rw [htidy.capacity]
    exact (hbody c b hb).1
  · exact (hbody c b hb).2 (htidy.isOver b.stream ▸ hover)

/-- A step that only ends streams, none of them on its way. -/
theorem Sound.ends {s s' : State} (h : Sound s) (hinv : Inv s')
    (hsame : ∀ c, s'.body c = s.body c) (hcapacity : s'.manager.capacity = s.manager.capacity)
    (hover : ∀ st ∈ s.streams, s'.isOver st = true → s.isOver st = true ∨ st.Spared) :
    Sound s' := by
  refine ⟨hinv, fun c b hb => ?_, fun c b hb hb' => ?_⟩
  · rw [hcapacity]
    exact h.way c b ((hsame c).symm.trans hb)
  · have hb := (hsame c).symm.trans hb
    rcases hover _ (mem_of_getElem? (getElem?_of_body hb).1) hb' with hover | hspared
    · exact h.spared c b hb hover
    · exact hspared

theorem Sound.create {s : State} {kind : ProducerKind} {owner : Nat} {url : String}
    (h : Sound s) (hfresh : Fresh s (.create kind owner url))
    (hinv : Inv (s.createStream kind owner url)) : Sound (s.createStream kind owner url) := by
  have hcreated := created_createStream hfresh
  have hbody : ∀ c b, (s.createStream kind owner url).body c = some b →
      s.body c = some b ∨ Way s.manager.capacity b ∧ b.stream.forward = none := by
    intro c b hb
    by_cases hc : c = s.streams.length
    · subst hc
      cases (hcreated.body_new h.inv rfl).symm.trans hb
      exact .inr ⟨Way.init _ _ _ (Nat.succ_pos _), rfl⟩
    · exact .inl ((hcreated.body_old hfresh.1 hfresh.2.1 hc).symm.trans hb)
  refine ⟨hinv, fun c b hb => ?_, fun c b hb hover => ?_⟩
  · rw [hcreated.capacity]
    exact (hbody c b hb).elim (h.way c b) (·.1)
  · rw [hcreated.isOver] at hover
    rcases hbody c b hb with hb | ⟨-, hnone⟩
    · exact h.spared c b hb hover
    · exact fun f hf => nomatch hnone.symm.trans hf

theorem Sound.reset {s : State} (h : Sound s) (hspared : ∀ st ∈ s.streams, st.Spared)
    (hinv : Inv s.reset) : Sound s.reset := by
  have hbody : ∀ c b', s.reset.body c = some b' →
      ∃ b, s.body c = some b ∧ b.stream.Spared ∧ b' = b.closeStream := by
    intro c b' hb'
    rw [body_reset] at hb'
    obtain ⟨b, hb, rfl⟩ := map_eq_some_iff.mp hb'
    exact ⟨b, hb, hspared _ (mem_of_getElem? (getElem?_of_body hb).1), rfl⟩
  refine ⟨hinv, fun c b' hb' => ?_, fun c b' hb' _ => ?_⟩
  · obtain ⟨b, hb, hspared, rfl⟩ := hbody c b' hb'
    have hstep : Body.Step s.manager.capacity false b b.closeStream := .close hspared
    exact (h.way c b hb).step hstep
  · obtain ⟨b, -, hspared, rfl⟩ := hbody c b' hb'
    exact hspared

theorem sound_step (s : State) (a : Action) (s' : State) (h : Sound s) (hG : Spares s a)
    (hs : step s a = some s') : Sound s' := by
  have hinv : Inv s' := inv_step s a s' h.inv (fresh_of_spares hG) hs
  by_cases hquiet : Quiet s a
  · exact h.moves (tidy_step h.inv hquiet hs) (moves_step h hquiet hG hs)
  cases a with
  | create kind owner url =>
      obtain ⟨-, heq⟩ := ite_none_right_eq_some.mp hs
      cases heq
      exact h.create hG hinv
  | reset =>
      obtain ⟨-, heq⟩ := ite_none_left_eq_some.mp hs
      cases heq
      exact h.reset hG hinv
  | handle =>
      obtain ⟨rest, hm, rfl⟩ := stepHandle_of_not_quiet hquiet hs
      have hspares : SparesMessage s .beginRequest := hG _ (by rw [hm]; rfl)
      refine h.ends hinv (fun _ => rfl) rfl fun st hst hover => ?_
      by_cases hreader : st.kind = .reader ∧ st.owner ≤ s.scope
      · exact .inr (hspares st hst hreader.1 hreader.2)
      · left
        simp only [State.isOver, State.isCancelled] at hover ⊢
        grind
  | abort scope =>
      cases hs
      refine h.ends hinv (fun _ => rfl) rfl fun st hst hover => ?_
      by_cases hreader : st.kind = .reader ∧ st.owner = scope
      · exact .inr (hG st hst hreader.1 hreader.2)
      · left
        simp only [State.isOver, State.isCancelled] at hover ⊢
        grind
  | drop =>
      cases hs
      refine h.ends hinv (fun _ => rfl) rfl fun st hst hover => ?_
      by_cases hkind : st.kind = .guest ∨ st.kind = .reader
      · exact .inr (hG st hst hkind)
      · left
        simp only [State.isOver] at hover ⊢
        grind
  | _ => exact absurd trivial hquiet

theorem sound_init (highWaterMark : Nat) : Sound (machine highWaterMark).init where
  inv := inv_init highWaterMark
  way _ _ hb := nomatch hb
  spared _ _ hb := nomatch hb

/-! ### The end of a stream that is over -/

/-- What the forwarder and the host have to do at most until the channel is empty. -/
def Stream.toGo (st : Stream) : Nat :=
  2 * st.buffer.length + match st.forward with
    | some ⟨_, .sending _, _, _⟩ => 1
    | some ⟨_, .failing _, _, _⟩ => 1
    | _ => 0

/-- With the terminal marker in the channel, the forwarder or the host of a body can go on. -/
theorem Sound.next {s : State} {c : Channel} {b : Body} {f : Forward} (h : Sound s)
    (hb : s.body c = some b) (hf : b.stream.forward = some f) (hl : f.left = false)
    (hm : b.stream.marked = true) (hp : f.pc ≠ .ended) :
    ∃ a s' b' f', Delivers c s a ∧ Spares s a ∧ step s a = some s' ∧ s'.body c = some b' ∧
      b'.stream.forward = some f' ∧ f'.left = false ∧ b'.stream.marked = true ∧
      b'.stream.toGo < b.stream.toGo := by
  have hst := (getElem?_of_body hb).1
  obtain rfl : f.receiver = c := (h.inv.own c _ hst).forward f hf
  have hgo : ∀ g, s.stepForward f.receiver g = g f := by
    intro g
    rw [State.stepForward, hst, bind_some, hf, bind_some]
  obtain ⟨receiver, pc, yielded, left⟩ := f
  cases pc with
  | ended => exact absurd rfl hp
  | sending bytes =>
      refine ⟨.hostTake receiver, _, _, _, .inr rfl, trivial, hgo _, body_modify rfl hb, rfl, hl,
        hm, ?_⟩
      simp [Stream.toGo, Body.modify, hf]
  | failing message =>
      refine ⟨.hostTake receiver, _, _, _, .inr rfl, trivial, hgo _,
        body_modify rfl (body_modify rfl hb), rfl, hl, hm, ?_⟩
      simp [Stream.toGo, Body.modify, hf]
  | receiving =>
      have hw := (h.way _ b hb).whole ((h.way _ b hb).intact _ hf hl)
      have hterm := hw.terminated (Stream.passing hf hl (.inl rfl)) hm
      have hpop : ∀ author, (s.pop receiver receiver author).body receiver = some b.pop :=
        fun _ => body_modify rfl hb
      have hnext : ∀ s', s.forwardNext receiver ⟨receiver, .receiving, yielded, left⟩ = some s' →
          step s (.forward receiver) = some s' := fun s' hs' => (hgo _).trans hs'
      cases hbuf : b.stream.buffer with
      | nil =>
          rw [hbuf] at hterm
          exact hterm.elim
      | cons x rest =>
          obtain ⟨chunk, author⟩ := x
          simp only [State.forwardNext, hst, bind_some, hbuf] at hnext
          have hlen : b.pop.stream.buffer.length + 1 = b.stream.buffer.length := by
            simp [Body.pop, Body.modify, hbuf]
          cases chunk with
          | data bytes | error message =>
              refine ⟨.forward receiver, _, _, _, .inl rfl, trivial, hnext _ rfl,
                body_modify rfl (hpop author), rfl, hl, hm, ?_⟩
              simp only [Stream.toGo, Body.modify, hf, ← hlen]
              omega
          | done =>
              refine ⟨.forward receiver, _, _, _, .inl rfl, trivial, hnext _ rfl,
                body_modify rfl (body_modify rfl (hpop author)), rfl, hl, hm, ?_⟩
              simp only [Stream.toGo, Body.modify, hf, ← hlen]
              omega

theorem Sound.notStranded {s : State} (h : Sound s) (highWaterMark : Nat) :
    NotStranded highWaterMark s := by
  intro c st f hst hf hl hover
  obtain ⟨b, hb, rfl⟩ := body_of_getElem? hst
  have hm : b.stream.marked = true := (h.spared c b hb hover f hf).resolve_left (by simp [hl])
  obtain ⟨t, hreaches, ⟨hsound, -⟩, b', f', hb', hf', hl', hp⟩ := Machine.reaches_of_measure
    (m := machine highWaterMark) (G := Delivers c)
    (I := fun t => Sound t ∧ ∃ b f, t.body c = some b ∧ b.stream.forward = some f ∧
      f.left = false ∧ b.stream.marked = true)
    (Q := fun t => ∃ b f, t.body c = some b ∧ b.stream.forward = some f ∧ f.left = false ∧
      f.pc = .ended)
    (fun t => (t.streams[c]?.map Stream.toGo).getD 0)
    (by
      rintro t ⟨hsound, b, f, hb, hf, hl, hm⟩
      by_cases hp : f.pc = .ended
      · exact .inl ⟨b, f, hb, hf, hl, hp⟩
      obtain ⟨a, t', b', f', hG, hspares, hstep, hb', hf', hl', hm', hlt⟩ :=
        hsound.next hb hf hl hm hp
      refine .inr ⟨a, t', hG, hstep,
        ⟨sound_step t a t' hsound hspares hstep, b', f', hb', hf', hl', hm'⟩, ?_⟩
      rw [(getElem?_of_body hb).1, (getElem?_of_body hb').1]
      exact hlt)
    ⟨h, b, f, hb, hf, hl, hm⟩
  exact ⟨t, b'.stream, f', hreaches, (getElem?_of_body hb').1, hf', hp, hl',
    (hsound.way c b' hb').complete f' hf' hl' hp⟩

/-- **No silent truncation.**  In every run in which no step cuts a body that is passed on, a
receiver of the host that has ended without an error has given exactly what the source of the
body produced up to its own end; and where the request is over or cancelled, or the context
dropped, a receiver that has not ended yet comes to its end. -/
theorem body_not_truncated {highWaterMark : Nat} {as : List Action} {t : State}
    (hG : (machine highWaterMark).Meets Spares (machine highWaterMark).init as)
    (h : (machine highWaterMark).run as = some t) :
    NotTruncated t ∧ NotStranded highWaterMark t := by
  have hsound : Sound t := Machine.invariant_of_meets (sound_init highWaterMark) sound_step hG h
  refine ⟨?_, hsound.notStranded highWaterMark⟩
  intro c st f hst hf hp hl hok
  obtain ⟨b, hb, rfl⟩ := body_of_getElem? hst
  rcases (hsound.way c b hb).complete f hf hl hp with ⟨message, hmem⟩ | hcomplete
  · obtain ⟨bytes, heq⟩ := hok _ hmem
    exact nomatch heq
  · exact hcomplete

/-- A fetch body in two chunks that the guest passes on: once its terminal marker is in the
channel, the context is reset and dropped, and the host gets both chunks. -/
theorem body_not_truncated_passed_on :
    let as : List Action :=
      [.create .reader 1 "ops_fetch", .respond 0, .produce 0 (.chunk [1]), .write 0, .write 0,
        .forward 0, .hostTake 0, .produce 0 (.chunk [2]), .write 0, .write 0, .produce 0 .finish,
        .write 0, .write 0, .reset, .beginRequest, .handle, .drop, .forward 0, .hostTake 0,
        .forward 0]
    ∃ t, (machine 16).run as = some t ∧
      (t.streams[0]?.bind Stream.forward) = some ⟨0, .ended, [.ok [1], .ok [2]], false⟩ ∧
      NotTruncated t ∧ NotStranded 16 t := by
  intro as
  refine ⟨((machine 16).run as).get rfl, rfl, rfl, ?_⟩
  exact @body_not_truncated 16 as _ (by decide) rfl

/-- A body is passed on, and the host has its first chunk; the source has not ended.  A fetch
body: the context is reset for the next request, the caller aborts the request, or the context
is dropped, and the receiver of the host ends without an error.  A body that the guest pumps:
the context is dropped, and the receiver can never end, as the sender stays in the map. -/
theorem body_cut_by_reuse_or_cancellation :
    (∀ rest ∈ [[.reset, .forward 0], [.abort 1, .cancelReader 0, .write 0, .write 0, .forward 0],
        [.drop, .cancelReader 0, .write 0, .write 0, .forward 0]],
      ∃ t st, (machine 16).run ([.create .reader 1 "ops_fetch", .respond 0,
          .produce 0 (.chunk [1]), .write 0, .write 0, .forward 0, .hostTake 0] ++ rest) =
          some t ∧ t.streams[0]? = some st ∧
        st.forward = some ⟨0, .ended, [.ok [1]], false⟩ ∧ st.source = .flowing ∧
        ¬ NotTruncated t) ∧
    ∃ t st, (machine 16).run [.create .guest 1 "response", .respond 0, .produce 0 (.chunk [1]),
        .write 0, .forward 0, .hostTake 0, .drop] = some t ∧ t.streams[0]? = some st ∧
      st.forward = some ⟨0, .receiving, [.ok [1]], false⟩ ∧ ¬ NotStranded 16 t := by
  have hcut : ∀ {t : State} {st : Stream}, t.streams[0]? = some st →
      st.forward = some ⟨0, .ended, [.ok [1]], false⟩ → st.source = .flowing →
      ¬ NotTruncated t := by
    intro t st hst hf hsource h
    have hended := (h 0 st _ hst hf rfl rfl (by simp)).1
    exact nomatch hsource.symm.trans hended
  refine ⟨?_, ?_⟩
  · intro rest hrest
    simp only [mem_cons, not_mem_nil, or_false] at hrest
    rcases hrest with rfl | rfl | rfl
    · exact ⟨_, _, rfl, rfl, rfl, rfl, hcut rfl rfl rfl⟩
    · exact ⟨_, _, rfl, rfl, rfl, rfl, hcut rfl rfl rfl⟩
    · exact ⟨_, _, rfl, rfl, rfl, rfl, hcut rfl rfl rfl⟩
  · refine ⟨_, _, rfl, rfl, rfl, ?_⟩
    intro h
    obtain ⟨t, st', f', ⟨as, hrun, hmeets⟩, hst', hf', hp, -⟩ := h 0 _ _ rfl rfl rfl rfl
    cases as with
    | nil =>
        cases hrun
        cases hst'
        cases hf'
        exact nomatch hp
    | cons a as =>
        -- Neither the forwarder nor the host can do a step.
        obtain ⟨t', hstep, -⟩ := Machine.runFrom_cons_eq_some.mp hrun
        rcases hmeets.1 with rfl | rfl <;> exact nomatch hstep

end OpenWorkers.Streams
