import OpenWorkers.Streams.Names

/-!
# Isolation of the streams of successive requests

A task finds its stream by id, and the ids start again at each reset.  The tasks of a request
work on its own streams as long as no id is handed out that somebody still carries:
`stream_isolation` is the result, over the steps in the vocabulary of
`OpenWorkers.Streams.Names`, and `body_pumped_into_next_request` the run in which the ids
start again while a pump is under way.
-/

namespace OpenWorkers.Streams

open List Option Function

/-! ## The steps -/

section Steps

variable {s s' : State} {c d : Channel} {st : Stream}

theorem lt_of_getElem? (h : s.streams[c]? = some st) : c < s.streams.length := by
  obtain ⟨hlt, -⟩ := List.getElem?_eq_some_iff.mp h
  exact hlt

theorem guestRuns_iff {owner : Nat} :
    s.guestRuns owner = true ↔ s.dropped = false ∧ owner = s.request := by
  simp [State.guestRuns]

/-- The streams of the request that is being served are known. -/
theorem Inv.known_of_guestRuns (h : Inv s) (hst : s.streams[c]? = some st)
    (hg : s.guestRuns st.owner = true) : Known s c := by
  refine .inr ⟨?_, lt_of_getElem? hst⟩
  by_contra hlt
  exact Nat.ne_of_lt (h.owner_lt c st (Nat.lt_of_not_le hlt) hst) (guestRuns_iff.mp hg).2

/-- A task that produces a stream makes it known. -/
theorem known_of_producer (hst : s.streams[c]? = some st) (hp : st.producer ≠ .ended)
    (hk : st.kind ≠ .guest) : Known s c :=
  .inl (.inl ⟨st, hst, .inl ⟨hp, fun h => absurd h hk⟩⟩)

theorem known_of_forward (hst : s.streams[c]? = some st) {f : Forward} (hf : st.forward = some f)
    (hp : f.pc ≠ .ended) : Known s c :=
  .inl (.inl ⟨st, hst, .inr ⟨f, hf, hp⟩⟩)

/-- What a channel holds was written for its own stream. -/
theorem Inv.author_eq (h : Inv s) (hst : s.streams[c]? = some st) {chunk : StreamChunk}
    {author : Channel} {rest : List (StreamChunk × Channel)}
    (hb : st.buffer = (chunk, author) :: rest) : author = c :=
  (h.own c st hst).buffer (chunk, author) (hb ▸ mem_cons_self)

theorem tidy_stepProduce {item : Upstream} (h : Inv s) (hs : s.stepProduce c item = some s') :
    Tidy s s' := by
  obtain ⟨st, hst, hs⟩ := bind_eq_some_iff.mp hs
  obtain ⟨⟨hp, hmay⟩, heq⟩ := ite_none_right_eq_some.mp hs
  cases heq
  have hc : Known s c := by
    by_cases hk : st.kind = .guest
    · rw [State.mayProduce, hk] at hmay
      exact h.known_of_guestRuns hst hmay
    · exact known_of_producer hst (by rw [hp]; exact nofun) hk
  refine (Tidy.refl h).setProducer hc fun st₁ hst₁ => ?_
  cases hst.symm.trans hst₁
  unfold Stream.produce
  grind

theorem tidy_stepCancel (h : Inv s) (hs : s.stepCancel c = some s') : Tidy s s' := by
  obtain ⟨st, hst, hs⟩ := bind_eq_some_iff.mp hs
  obtain ⟨⟨hk, hp, -⟩, heq⟩ := ite_none_right_eq_some.mp hs
  cases heq
  have hc : Known s c := known_of_producer hst (by rw [hp]; exact nofun) (by rw [hk]; exact nofun)
  exact ((Tidy.refl h).setCut c).setProducer hc fun st _ => ⟨rfl, rfl, rfl, rfl, nofun⟩

theorem tidy_lookUp (h : Inv s) (hc : Known s c) (hst : s.streams[c]? = some st)
    (hk : st.kind ≠ .guest) (chunk : StreamChunk) : Tidy s (s.lookUp c chunk) := by
  unfold State.lookUp
  split
  next d hd =>
    obtain rfl := h.senders c d hc hd
    refine (Tidy.refl h).setProducer hc fun st₁ hst₁ => ⟨rfl, rfl, rfl, rfl, ?_⟩
    cases hst.symm.trans hst₁
    rintro _ _ ⟨⟩
    exact ⟨rfl, hk⟩
  next => exact (Tidy.refl h).wrote hc false chunk

theorem tidy_send {chunk : StreamChunk} (h : Inv s) (hc : Known s c)
    (hs : s.send c c chunk = some s') : Tidy s s' := by
  obtain ⟨st, -, hs⟩ := bind_eq_some_iff.mp hs
  split at hs
  · cases hs
    exact ((Tidy.refl h).removeSender h hc).wrote hc false chunk
  · obtain ⟨-, heq⟩ := ite_none_right_eq_some.mp hs
    cases heq
    exact ((Tidy.refl h).push c chunk).wrote hc true chunk

theorem tidy_awaitRoom (h : Inv s) (hc : Known s c) (chunk : StreamChunk) :
    Tidy s (s.awaitRoom c chunk) := by
  cases chunk with
  | data bytes =>
      have hwait : Tidy s (s.modify c fun st => { st with producer := .waiting bytes }) :=
        (Tidy.refl h).setProducer hc fun _ _ => ⟨rfl, rfl, rfl, rfl, nofun⟩
      refine hwait.addMessage ?_
      rintro _ ⟨⟩
      exact hc
  | done => exact (Tidy.refl h).wrote hc false _
  | error message => exact (Tidy.refl h).wrote hc false _

theorem tidy_tryWrite {chunk : StreamChunk} (h : Inv s) (hc : Known s c)
    (hs : s.tryWrite c chunk = some s') : Tidy s s' := by
  unfold State.tryWrite at hs
  split at hs
  next =>
    cases hs
    exact (Tidy.refl h).wrote hc false chunk
  next d hd =>
    obtain rfl := h.senders c d hc hd
    obtain ⟨st, -, rfl⟩ := map_eq_some_iff.mp hs
    split_ifs
    · exact tidy_awaitRoom h hc chunk
    · exact ((Tidy.refl h).removeSender h hc).wrote hc false chunk
    · exact ((Tidy.refl h).push d chunk).wrote hc true chunk
    · exact tidy_awaitRoom h hc chunk

theorem tidy_stepWrite (h : Inv s) (hs : s.stepWrite c = some s') : Tidy s s' := by
  obtain ⟨st, hst, hs⟩ := bind_eq_some_iff.mp hs
  cases hp : st.producer with
  | reading => simp [hp] at hs
  | ended => simp [hp] at hs
  | writing chunk =>
      simp only [hp] at hs
      split at hs
      next =>
        obtain ⟨hg, hs⟩ := ite_none_right_eq_some.mp hs
        exact tidy_tryWrite h (h.known_of_guestRuns hst hg) hs
      next hk =>
        cases hs
        exact tidy_lookUp h (known_of_producer hst (by simp [hp]) hk) hst hk chunk
  | sending d chunk =>
      simp only [hp] at hs
      obtain ⟨rfl, hk⟩ := (h.own c st hst).sending d chunk hp
      exact tidy_send h (known_of_producer hst (by simp [hp]) hk) hs
  | waiting bytes =>
      simp only [hp] at hs
      obtain ⟨hg, heq⟩ := ite_none_right_eq_some.mp hs
      cases heq
      exact (Tidy.refl h).setProducer (h.known_of_guestRuns hst hg)
        fun _ _ => ⟨rfl, rfl, rfl, rfl, nofun⟩

theorem tidy_stepRead {k : Nat} (h : Inv s) (hs : s.stepRead k = some s') : Tidy s s' := by
  obtain ⟨t, ht, hs⟩ := State.readStep_of_stepRead hs
  have hmem : t ∈ s.reads := mem_of_getElem? ht
  have hknown := ((Tidy.refl h).reads t hmem).1
  cases hs with
  | ended => exact (Tidy.refl h).endRead k
  | @took c hp hr =>
      have hc : Known s t.stream := hknown (by simp [hp])
      obtain rfl := h.receivers t.stream c hc hr
      refine ((Tidy.refl h).takeReceiver t.stream).setRead ht (fun _ => hc) ?_
      rintro _ ⟨⟩
      rfl
  | dropped => exact ((Tidy.refl h).dropReceiver _).endRead k
  | @got c author st chunk rest hp hst hb =>
      have hc : Known s t.stream := hknown (by simp [hp])
      obtain rfl := h.reads t hmem c hp
      obtain rfl := h.author_eq hst hb
      have hcut := ((Tidy.refl h).pop t.stream).setCut t.stream
      unfold State.finishRead
      split_ifs
      · exact (hcut.dropReceiver t.stream).endRead k
      · exact (hcut.putBack h hc).endRead k

theorem tidy_stepRoom {k : Nat} (h : Inv s) (hs : s.stepRoom k = some s') : Tidy s s' := by
  obtain ⟨t, ht, hs⟩ := bind_eq_some_iff.mp hs
  obtain ⟨hl, hs⟩ := ite_none_right_eq_some.mp hs
  have hc : Known s t.stream := ((Tidy.refl h).rooms t (mem_of_getElem? ht)).1 hl
  split at hs
  · cases hs
    exact ((Tidy.refl h).closeStream h hc).endRoom k
  · obtain ⟨st, -, hs⟩ := bind_eq_some_iff.mp hs
    obtain ⟨-, heq⟩ := ite_none_right_eq_some.mp hs
    cases heq
    exact (Tidy.refl h).endRoom k

theorem tidy_stepRespond (h : Inv s) (hs : s.stepRespond c = some s') : Tidy s s' := by
  obtain ⟨st, hst, hs⟩ := bind_eq_some_iff.mp hs
  obtain ⟨⟨hg, -⟩, hs⟩ := ite_none_right_eq_some.mp hs
  have hc : Known s c := h.known_of_guestRuns hst hg
  split at hs
  next =>
    cases hs
    exact Tidy.refl h
  next d hd =>
    cases hs
    obtain rfl := h.receivers c d hc hd
    exact ((Tidy.refl h).takeReceiver d).setForward hc rfl

theorem tidy_forwardNext {f : Forward} (h : Inv s) (hc : Known s c) (hf : f.receiver = c)
    (hs : s.forwardNext c f = some s') : Tidy s s' := by
  obtain ⟨st, hst, hs⟩ := State.forwardStep_of_forwardNext hs
  obtain rfl := hf
  have hpop := (Tidy.refl h).pop f.receiver
  cases hs with
  | data hb =>
      rw [h.author_eq hst hb]
      exact hpop.setForward hc rfl
  | done hb =>
      rw [h.author_eq hst hb]
      exact (hpop.dropReceiver _).setForward hc rfl
  | error hb =>
      rw [h.author_eq hst hb]
      exact hpop.setForward hc rfl
  | none => exact ((Tidy.refl h).dropReceiver _).setForward hc rfl

theorem tidy_hostStep {f : Forward} (h : Inv s) (hc : Known s c) (hf : f.receiver = c)
    (hs : HostStep s c f s') : Tidy s s' := by
  cases hs with
  | take => exact (Tidy.refl h).setForward hc hf
  | fail => exact ((Tidy.refl h).dropReceiver _).setForward hc hf
  | leave => exact (((Tidy.refl h).closeStream h hc).dropReceiver _).setForward hc hf
  | leaveFailing => exact ((Tidy.refl h).dropReceiver _).setForward hc hf

theorem tidy_stepForward {step : Forward → Option State} (h : Inv s)
    (hstep : ∀ f s', Known s c → f.receiver = c → step f = some s' → Tidy s s')
    (hne : ∀ f s', step f = some s' → f.pc ≠ .ended) (hs : s.stepForward c step = some s') :
    Tidy s s' := by
  obtain ⟨st, hst, hs⟩ := bind_eq_some_iff.mp hs
  obtain ⟨f, hf, hs⟩ := bind_eq_some_iff.mp hs
  exact hstep f s' (known_of_forward hst hf (hne f s' hs)) ((h.own c st hst).forward f hf) hs

theorem tidy_stepSend {m : Message} (h : Inv s) (hm : m.stream = some c)
    (hs : s.stepSend c m = some s') : Tidy s s' := by
  obtain ⟨st, hst, hs⟩ := bind_eq_some_iff.mp hs
  obtain ⟨hg, heq⟩ := ite_none_right_eq_some.mp hs
  cases heq
  refine (Tidy.refl h).addMessage fun d hd => ?_
  cases hm.symm.trans hd
  exact h.known_of_guestRuns hst hg

/-- The actions that neither create a stream nor end a request, a scope or the context. -/
def Quiet (s : State) : Action → Prop
  | .create _ _ _ | .reset | .abort _ | .drop => False
  | .handle => s.messages.head? ≠ some .beginRequest
  | _ => True

theorem tidy_tail {m : Message} {rest : List Message} (h : Inv s) (hm : s.messages = m :: rest) :
    Tidy s { s with messages := rest } :=
  { Tidy.refl h with
    messages := fun m' hm' => (Tidy.refl h).messages m' (hm ▸ mem_cons_of_mem m hm') }

theorem stepHandle_of_not_quiet (hquiet : ¬ Quiet s .handle) (hs : s.stepHandle = some s') :
    ∃ rest, s.messages = .beginRequest :: rest ∧
      s' = { s with messages := rest, scope := s.scope + 1 } := by
  obtain ⟨rest, hm⟩ := head?_eq_some_iff.mp (not_not.mp hquiet)
  rw [State.stepHandle, hm] at hs
  obtain ⟨-, heq⟩ := ite_none_left_eq_some.mp hs
  cases heq
  exact ⟨rest, hm, rfl⟩

theorem tidy_stepHandle (h : Inv s) (hquiet : Quiet s .handle) (hs : s.stepHandle = some s') :
    Tidy s s' := by
  unfold State.stepHandle at hs
  split at hs
  next m rest hm =>
    obtain ⟨-, heq⟩ := ite_none_left_eq_some.mp hs
    cases heq
    have hmem : m ∈ s.messages := hm ▸ mem_cons_self
    have hrest := tidy_tail h hm
    have hc := fun c => (Tidy.refl h).messages m hmem c
    cases m with
    | beginRequest => exact absurd (hm ▸ rfl) hquiet
    | streamCancel c => exact hrest.closeStream h (hc c rfl)
    | streamRead c =>
        refine { hrest with reads := ?_ }
        intro t ht
        rcases mem_append.mp ht with ht | ht
        · exact hrest.reads t ht
        · rw [mem_singleton.mp ht]
          exact ⟨fun _ => hc c rfl, nofun⟩
    | scheduleWritable c =>
        simp only [State.perform]
        split
        next d hd =>
          obtain rfl := h.senders c d (hc c rfl) hd
          refine { hrest with rooms := ?_ }
          intro t ht
          rcases mem_append.mp ht with ht | ht
          · exact hrest.rooms t ht
          · rw [mem_singleton.mp ht]
            exact ⟨fun _ => hc d rfl, rfl⟩
        next => exact hrest
  next => cases hs

end Steps

/-! ## The creation of a stream, and the reset -/

section Create

variable {s : State} {c d : Channel}

theorem Inv.idOf_ne_nextId {kind : ProducerKind} {owner : Nat} {url : String} (h : Inv s)
    (hG : Fresh s (.create kind owner url)) (hc : Known s c) : s.idOf c ≠ s.manager.nextId := by
  rcases hc with hc | ⟨hb, hlt⟩
  · exact hG.2.2 c (h.lt c (.inl hc)) hc
  · obtain ⟨st, hst⟩ : ∃ st, s.streams[c]? = some st := ⟨_, getElem?_eq_getElem hlt⟩
    rw [State.idOf_eq hst]
    exact Nat.ne_of_lt (h.id_lt c st hb hst)

/-- A state with one more stream, which is under its own id in the maps. -/
structure Created (s : State) (st : Stream) (s' : State) : Prop where
  request : s'.request = s.request
  isOver : ∀ st', s'.isOver st' = s.isOver st'
  base : s'.base = s.base
  streams : s'.streams = s.streams ++ [st]
  messages : s'.messages = s.messages
  reads : s'.reads = s.reads
  rooms : s'.rooms = s.rooms
  touched : s'.touched = s.touched
  received : s'.received = s.received
  nextId : s'.manager.nextId = s.manager.nextId + 1
  capacity : s'.manager.capacity = s.manager.capacity
  senders : s'.manager.senders =
    update s.manager.senders s.manager.nextId (some s.streams.length)
  receivers : s'.manager.receivers =
    update s.manager.receivers s.manager.nextId (some s.streams.length)

namespace Created

variable {s' : State} {st : Stream}

theorem getElem? (h : Created s st s') {st' : Stream} (hst' : s'.streams[c]? = some st') :
    s.streams[c]? = some st' ∨ c = s.streams.length ∧ st' = st := by
  rw [h.streams, getElem?_append] at hst'
  split at hst'
  next => exact .inl hst'
  next hle =>
    rw [getElem?_singleton] at hst'
    obtain ⟨hzero, heq⟩ := ite_none_right_eq_some.mp hst'
    exact .inr ⟨Nat.le_antisymm (Nat.sub_eq_zero_iff_le.mp hzero) (Nat.le_of_not_lt hle),
      (Option.some.inj heq).symm⟩

theorem known (h : Created s st s') (hc : Known s' c) : Known s c ∨ c = s.streams.length := by
  rcases hc with (⟨st', hst', hb⟩ | hm | hr | hl) | ⟨hb, hlt⟩
  · rcases h.getElem? hst' with hst | ⟨rfl, -⟩
    · exact .inl (.inl (.inl ⟨st', hst, h.request ▸ hb⟩))
    · exact .inr rfl
  · exact .inl (.inl (.inr (.inl (h.messages ▸ hm))))
  · exact .inl (.inl (.inr (.inr (.inl (h.reads ▸ hr)))))
  · exact .inl (.inl (.inr (.inr (.inr (h.rooms ▸ hl)))))
  · rw [h.streams, length_append, length_singleton] at hlt
    rcases Nat.lt_or_eq_of_le (Nat.le_of_lt_succ hlt) with hlt | rfl
    · exact .inl (.inr ⟨h.base ▸ hb, hlt⟩)
    · exact .inr rfl

theorem idOf_old (h : Created s st s') (hc : c < s.streams.length) : s'.idOf c = s.idOf c := by
  rw [State.idOf, State.idOf, h.streams, getElem?_append_left hc]

theorem idOf_new (h : Created s st s') : s'.idOf s.streams.length = st.id := by
  rw [State.idOf, h.streams, getElem?_concat_length]
  rfl

/-- The state after the creation keeps the invariant, if no known stream has the new id. -/
theorem inv (h : Created s st s') (h₀ : Inv s) (hid : st.id = s.manager.nextId)
    (howner : st.owner ≤ s.request) (hown : Own s.streams.length st)
    (hne : ∀ c, Known s c → s.idOf c ≠ s.manager.nextId) : Inv s' where
  base_le := by
    rw [h.base, h.streams, length_append]
    exact Nat.le_add_right_of_le h₀.base_le
  owner_le c st' hst' := by
    rw [h.request]
    rcases h.getElem? hst' with hst | ⟨rfl, rfl⟩
    · exact h₀.owner_le c st' hst
    · exact howner
  owner_lt c st' hc hst' := by
    rw [h.request]
    rw [h.base] at hc
    rcases h.getElem? hst' with hst | ⟨rfl, -⟩
    · exact h₀.owner_lt c st' hc hst
    · exact absurd h₀.base_le (Nat.not_le_of_lt hc)
  id_lt c st' hc hst' := by
    rw [h.nextId]
    rcases h.getElem? hst' with hst | ⟨rfl, rfl⟩
    · exact Nat.lt_succ_of_lt (h₀.id_lt c st' (h.base ▸ hc) hst)
    · rw [hid]
      exact Nat.lt_succ_self _
  lt c hc := by
    rw [h.streams, length_append, length_singleton]
    rcases h.known hc with hc | rfl
    · exact Nat.lt_succ_of_lt (h₀.lt c hc)
    · exact Nat.lt_succ_self _
  inj c d hc hd heq := by
    rcases h.known hc with hc | rfl <;> rcases h.known hd with hd | rfl
    · rw [h.idOf_old (h₀.lt c hc), h.idOf_old (h₀.lt d hd)] at heq
      exact h₀.inj c d hc hd heq
    · rw [h.idOf_old (h₀.lt c hc), h.idOf_new, hid] at heq
      exact absurd heq (hne c hc)
    · rw [h.idOf_old (h₀.lt d hd), h.idOf_new, hid] at heq
      exact absurd heq.symm (hne d hd)
    · rfl
  senders c d hc hd := by
    rw [h.senders] at hd
    rcases h.known hc with hc | rfl
    · rw [h.idOf_old (h₀.lt c hc), update_of_ne (hne c hc)] at hd
      exact h₀.senders c d hc hd
    · rw [h.idOf_new, hid, update_self] at hd
      exact (Option.some.inj hd).symm
  receivers c d hc hd := by
    rw [h.receivers] at hd
    rcases h.known hc with hc | rfl
    · rw [h.idOf_old (h₀.lt c hc), update_of_ne (hne c hc)] at hd
      exact h₀.receivers c d hc hd
    · rw [h.idOf_new, hid, update_self] at hd
      exact (Option.some.inj hd).symm
  own c st' hst' := by
    rcases h.getElem? hst' with hst | ⟨rfl, rfl⟩
    · exact h₀.own c st' hst
    · exact hown
  reads := h.reads ▸ h₀.reads
  rooms := h.rooms ▸ h₀.rooms
  touched := h.touched ▸ h₀.touched
  received := h.received ▸ h₀.received

end Created

/-- Who may create a stream does so for the request that is being served, or an earlier one. -/
theorem owner_le_of_mayCreate {kind : ProducerKind} {owner : Nat}
    (h : s.mayCreate kind owner = true) : owner ≤ s.request := by
  cases kind <;> simp [State.mayCreate, State.guestRuns] at h <;> omega

/-- A stream whose id is fresh takes the place of nothing. -/
theorem created_createStream {kind : ProducerKind} {owner : Nat} {url : String}
    (hG : Fresh s (.create kind owner url)) :
    Created s
      { id := s.manager.nextId, owner, kind, producer := .reading, buffer := [], closed := false,
        forward := none, produced := [], source := .flowing, marked := false, cut := false }
      (s.createStream kind owner url) := by
  unfold State.createStream
  rw [hG.1, hG.2.1]
  constructor <;> first | rfl | exact fun _ => rfl

theorem Inv.createStream {kind : ProducerKind} {owner : Nat} {url : String} (h : Inv s)
    (hG : Fresh s (.create kind owner url)) (howner : owner ≤ s.request) :
    Inv (s.createStream kind owner url) :=
  (created_createStream hG).inv h rfl howner ⟨nofun, nofun, nofun⟩
    fun _ hc => h.idOf_ne_nextId hG hc

/-- The streams are the same after a reset, but for what becomes of their channels. -/
theorem getElem?_reset {st' : Stream} (h : s.reset.streams[c]? = some st') :
    ∃ st, s.streams[c]? = some st ∧ st'.id = st.id ∧ st'.owner = st.owner ∧ st'.kind = st.kind ∧
      st'.producer = st.producer ∧ st'.forward = st.forward ∧ st'.buffer = st.buffer := by
  simp only [State.reset, State.clear, getElem?_mapIdx] at h
  obtain ⟨st, hst, rfl⟩ := map_eq_some_iff.mp h
  exact ⟨st, hst, rfl, rfl, rfl, rfl, rfl, rfl⟩

theorem length_reset : s.reset.streams.length = s.streams.length := length_mapIdx

/-- After a reset nothing is under an id any more; what is known still has a live task. -/
theorem Inv.known_of_reset (h : Inv s) (hc : Known s.reset c) : Known s c := by
  rcases hc with (⟨st', hst', hb⟩ | hlive) | ⟨hb, hlt⟩
  · obtain ⟨st, hst, -, howner, hk, hp, hf, -⟩ := getElem?_reset hst'
    refine .inl (.inl ⟨st, hst, ?_⟩)
    rcases hb with ⟨hne, hguest⟩ | hfwd
    · refine .inl ⟨hp ▸ hne, fun hg => ?_⟩
      have hnext : st'.owner = s.request + 1 := hguest (hk ▸ hg)
      have hle := h.owner_le c st hst
      omega
    · exact .inr (hf ▸ hfwd)
  · exact .inl (.inr hlive)
  · rw [length_reset] at hlt
    exact absurd hb (Nat.not_le_of_lt hlt)

theorem idOf_reset : s.reset.idOf c = s.idOf c := by
  simp only [State.idOf, State.reset, State.clear, getElem?_mapIdx, Option.map_map]
  rfl

theorem Inv.reset (h : Inv s) : Inv s.reset where
  base_le := Nat.le_of_eq length_reset.symm
  owner_le c st' hst' := by
    obtain ⟨st, hst, -, howner, -⟩ := getElem?_reset hst'
    rw [howner]
    exact Nat.le_succ_of_le (h.owner_le c st hst)
  owner_lt c st' _ hst' := by
    obtain ⟨st, hst, -, howner, -⟩ := getElem?_reset hst'
    rw [howner]
    exact Nat.lt_succ_of_le (h.owner_le c st hst)
  id_lt c st' hb hst' := by
    obtain ⟨st, hst, -⟩ := getElem?_reset hst'
    exact absurd hb (Nat.not_le_of_lt (lt_of_getElem? hst))
  lt c hc := length_reset.symm ▸ h.lt c (h.known_of_reset hc)
  inj c d hc hd heq := by
    rw [idOf_reset, idOf_reset] at heq
    exact h.inj c d (h.known_of_reset hc) (h.known_of_reset hd) heq
  senders _ _ _ hd := nomatch hd
  receivers _ _ _ hd := nomatch hd
  own c st' hst' := by
    obtain ⟨st, hst, -, -, hk, hp, hf, hb⟩ := getElem?_reset hst'
    obtain ⟨hsending, hforward, hbuffer⟩ := h.own c st hst
    exact ⟨hp ▸ hk ▸ hsending, hf ▸ hforward, hb ▸ hbuffer⟩
  reads := h.reads
  rooms := h.rooms
  touched := h.touched
  received := h.received

end Create

/-! ## The result -/

theorem not_known_init (highWaterMark : Nat) (c : Channel) :
    ¬ Known (machine highWaterMark).init c := by
  rintro ((⟨st, hst, -⟩ | ⟨m, hm, -⟩ | ⟨t, ht, -⟩ | ⟨t, ht, -⟩) | ⟨-, hlt⟩)
  · exact nomatch hst
  · exact nomatch hm
  · exact nomatch ht
  · exact nomatch ht
  · exact nomatch hlt

theorem inv_init (highWaterMark : Nat) : Inv (machine highWaterMark).init where
  base_le := Nat.le_refl 0
  owner_le _ _ := nofun
  owner_lt _ _ _ := nofun
  id_lt _ _ _ := nofun
  lt c hc := absurd hc (not_known_init highWaterMark c)
  inj c _ hc := absurd hc (not_known_init highWaterMark c)
  senders _ _ _ := nofun
  receivers _ _ _ := nofun
  own _ _ := nofun
  reads _ := nofun
  rooms _ := nofun
  touched _ := nofun
  received _ := nofun

theorem tidy_step {s s' : State} {a : Action} (h : Inv s) (hquiet : Quiet s a)
    (hs : step s a = some s') : Tidy s s' := by
  cases a with
  | create | reset | abort | drop => exact hquiet.elim
  | produce c item => exact tidy_stepProduce h hs
  | write c => exact tidy_stepWrite h hs
  | cancelReader c => exact tidy_stepCancel h hs
  | sendRead c => exact tidy_stepSend h rfl hs
  | sendCancel c => exact tidy_stepSend h rfl hs
  | beginRequest =>
      obtain ⟨-, heq⟩ := ite_none_left_eq_some.mp hs
      cases heq
      refine (Tidy.refl h).addMessage ?_
      rintro _ ⟨⟩
  | handle => exact tidy_stepHandle h hquiet hs
  | read k => exact tidy_stepRead h hs
  | room k => exact tidy_stepRoom h hs
  | respond c => exact tidy_stepRespond h hs
  | forward c =>
      refine tidy_stepForward h ?_ ?_ hs
      · intro f s' hc hf hs
        exact tidy_forwardNext h hc hf (ite_none_right_eq_some.mp hs).2
      · intro f s' hs
        rw [(ite_none_right_eq_some.mp hs).1]
        exact nofun
  | hostTake c =>
      exact tidy_stepForward h
        (fun f s' hc hf hs => tidy_hostStep h hc hf (State.hostStep_of_hostTake hs))
        (fun f s' hs => (State.hostStep_of_hostTake hs).pc_ne) hs
  | hostLeave c =>
      exact tidy_stepForward h
        (fun f s' hc hf hs => tidy_hostStep h hc hf (State.hostStep_of_hostLeave hs))
        (fun f s' hs => (State.hostStep_of_hostLeave hs).pc_ne) hs

/-- Every step that hands out no id in use keeps the invariant. -/
theorem inv_step (s : State) (a : Action) (s' : State) (h : Inv s) (hG : Fresh s a)
    (hs : step s a = some s') : Inv s' := by
  by_cases hquiet : Quiet s a
  · exact (tidy_step h hquiet hs).inv h
  cases a with
  | create kind owner url =>
      obtain ⟨hmay, heq⟩ := ite_none_right_eq_some.mp hs
      cases heq
      exact h.createStream hG (owner_le_of_mayCreate hmay)
  | reset =>
      obtain ⟨-, heq⟩ := ite_none_left_eq_some.mp hs
      cases heq
      exact h.reset
  | handle =>
      obtain ⟨rest, hm, rfl⟩ := stepHandle_of_not_quiet hquiet hs
      exact { (tidy_tail h hm).inv h with }
  | abort | drop =>
      cases hs
      exact { h with }
  | _ => exact absurd trivial hquiet

/-- **Isolation of the streams.**  In every run of any number of requests on one context in
which no id is handed out that somebody still carries, every chunk that is received from a
stream was written by the producer of that stream, and every task and message works only on
the stream it was made for, and so on a stream of its own request. -/
theorem stream_isolation {highWaterMark : Nat} {as : List Action} {t : State}
    (hG : (machine highWaterMark).Meets Fresh (machine highWaterMark).init as)
    (h : (machine highWaterMark).run as = some t) :
    Isolated t ∧ ∀ p ∈ t.touched, p.1 = p.2 := by
  have hinv : Inv t := Machine.invariant_of_meets (inv_init highWaterMark) inv_step hG h
  refine ⟨⟨fun p hp => (hinv.received p hp).symm, fun p hp => ?_⟩, hinv.touched⟩
  rw [hinv.touched p hp]

/-- Two requests, each with a body that its guest reads: the first pump ends before the
context is reset. -/
theorem stream_isolation_two_bodies :
    let as : List Action :=
      [.create .pump 1 "request_body", .produce 0 (.chunk [1]), .write 0, .write 0, .sendRead 0,
        .handle, .read 0, .read 0, .produce 0 .finish, .write 0, .write 0, .reset,
        .create .pump 2 "request_body", .produce 1 (.chunk [2]), .write 1, .write 1, .sendRead 1,
        .handle, .read 1, .read 1]
    ∃ t, (machine 16).run as = some t ∧ t.received = [(0, 0), (1, 1)] ∧ Isolated t := by
  intro as
  refine ⟨((machine 16).run as).get rfl, rfl, rfl, ?_⟩
  exact (@stream_isolation 16 as _ (by decide) rfl).1

/-- The pump of a request body goes on over the reset: what it reads from its client goes to
the stream that has its id by then, the body of the next request, whose guest reads it. -/
theorem body_pumped_into_next_request :
    ∃ t, (machine 16).run
        [.create .pump 1 "request_body", .reset, .create .pump 2 "request_body",
          .produce 0 (.chunk [1]), .write 0, .write 0, .sendRead 1, .handle, .read 0, .read 0] =
        some t ∧
      t.ownerOf 0 = 1 ∧ t.ownerOf 1 = 2 ∧ (0, 1) ∈ t.touched ∧ t.received = [(1, 0)] ∧
      ¬ Isolated t := by
  refine ⟨_, rfl, rfl, rfl, by decide, rfl, ?_⟩
  intro h
  exact absurd (h.1 (1, 0) (by decide)) (by decide)

end OpenWorkers.Streams
