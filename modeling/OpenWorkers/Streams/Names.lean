import OpenWorkers.Lib.Erase
import OpenWorkers.Streams.Tasks

/-!
# What an id names

An id is good as a name as long as it is handed out only when nobody carries it any more
(`Fresh`).  `Inv` says what then holds in every state: an id that somebody may still name
(`Known`) is the id of one stream, and the maps have nothing else under it.

A step is split into its parts.  `Tidy s₀ s` says what has become of the state `s₀` at the
beginning of the step; each part keeps it (`Tidy.modify`, `Tidy.closeStream`, …), and it gives
back the invariant (`Tidy.inv`).
-/

namespace OpenWorkers.Streams

open List
open Scheduler (StreamId Scope)

/-- Some task is not yet done with the stream: its producer, or the one that passes it on.
`request` is the request that is being served: a guest of an earlier one does not run. -/
def Stream.Busy (st : Stream) (request : Nat) : Prop :=
  st.producer ≠ .ended ∧ (st.kind = .guest → st.owner = request) ∨
    ∃ f ∈ st.forward, f.pc ≠ .ended

instance (st : Stream) (request : Nat) : Decidable (st.Busy request) :=
  inferInstanceAs (Decidable (_ ∨ _))

/-- A task that is not done, or a message that is not handled, was made for the stream. -/
def Live (s : State) (c : Channel) : Prop :=
  (∃ st ∈ s.streams[c]?, st.Busy s.request) ∨ (∃ m ∈ s.messages, m.stream = some c) ∨
    (∃ t ∈ s.reads, t.pc ≠ .ended ∧ t.stream = c) ∨ ∃ t ∈ s.rooms, t.live = true ∧ t.stream = c

instance (s : State) (c : Channel) : Decidable (Live s c) :=
  inferInstanceAs (Decidable (_ ∨ _))

/-- An id is handed out only when the maps have no entry for it, and nobody carries it. -/
def Fresh (s : State) : Action → Prop
  | .create _ _ _ =>
      s.manager.senders s.manager.nextId = none ∧ s.manager.receivers s.manager.nextId = none ∧
        ∀ c < s.streams.length, Live s c → s.idOf c ≠ s.manager.nextId
  | _ => True

instance (s : State) (a : Action) : Decidable (Fresh s a) := by
  cases a <;> dsimp only [Fresh] <;> infer_instance

/-- The chunks that were received from a stream were written by its own producer, and what
the tasks and messages of a request worked on are streams of that request. -/
def Isolated (s : State) : Prop :=
  (∀ p ∈ s.received, p.2 = p.1) ∧ ∀ p ∈ s.touched, s.ownerOf p.1 = s.ownerOf p.2

/-- The streams that somebody may still name: those with a live task or message, and those
that were created since the last reset. -/
def Known (s : State) (c : Channel) : Prop :=
  Live s c ∨ s.base ≤ c ∧ c < s.streams.length

/-- What the tasks of the stream `c` hold, and what is in its channel, is its own. -/
structure Own (c : Channel) (st : Stream) : Prop where
  sending : ∀ d chunk, st.producer = .sending d chunk → d = c ∧ st.kind ≠ .guest
  forward : ∀ f, st.forward = some f → f.receiver = c
  buffer : ∀ x ∈ st.buffer, x.2 = c

/-- An id that somebody may name is the id of one stream, and the maps have nothing else
under it. -/
structure Inv (s : State) : Prop where
  base_le : s.base ≤ s.streams.length
  owner_le : ∀ (c : Channel) (st : Stream), s.streams[c]? = some st → st.owner ≤ s.request
  owner_lt : ∀ c st, c < s.base → s.streams[c]? = some st → st.owner < s.request
  id_lt : ∀ c st, s.base ≤ c → s.streams[c]? = some st → st.id < s.manager.nextId
  lt : ∀ c, Known s c → c < s.streams.length
  inj : ∀ c d, Known s c → Known s d → s.idOf c = s.idOf d → c = d
  senders : ∀ c d, Known s c → s.manager.senders (s.idOf c) = some d → d = c
  receivers : ∀ c d, Known s c → s.manager.receivers (s.idOf c) = some d → d = c
  own : ∀ c st, s.streams[c]? = some st → Own c st
  reads : ∀ t ∈ s.reads, ∀ d, t.pc = .receiving d → d = t.stream
  rooms : ∀ t ∈ s.rooms, t.sender = t.stream
  touched : ∀ p ∈ s.touched, p.1 = p.2
  received : ∀ p ∈ s.received, p.1 = p.2

/-! ## The parts of a step -/

/-- What has become of `s₀` within a step that neither creates a stream nor resets the
context: the streams are the same, only known ones are in use, the maps have at most lost
entries, except for a receiver that was put back under the id of its stream. -/
structure Tidy (s₀ s : State) : Prop where
  request : s.request = s₀.request
  isOver : ∀ st, s.isOver st = s₀.isOver st
  base : s.base = s₀.base
  nextId : s.manager.nextId = s₀.manager.nextId
  capacity : s.manager.capacity = s₀.manager.capacity
  length : s.streams.length = s₀.streams.length
  stream : ∀ (c : Channel) (st : Stream), s.streams[c]? = some st →
    ∃ st₀ : Stream, s₀.streams[c]? = some st₀ ∧ st.id = st₀.id ∧ st.owner = st₀.owner
  busy : ∀ c st, s.streams[c]? = some st → st.Busy s₀.request → Known s₀ c
  own : ∀ c st, s.streams[c]? = some st → Own c st
  messages : ∀ m ∈ s.messages, ∀ c, m.stream = some c → Known s₀ c
  reads : ∀ t ∈ s.reads, (t.pc ≠ .ended → Known s₀ t.stream) ∧
    ∀ d, t.pc = .receiving d → d = t.stream
  rooms : ∀ t ∈ s.rooms, (t.live = true → Known s₀ t.stream) ∧ t.sender = t.stream
  senders : ∀ i c, s.manager.senders i = some c → s₀.manager.senders i = some c
  receivers : ∀ i c, s.manager.receivers i = some c →
    s₀.manager.receivers i = some c ∨ Known s₀ c ∧ s₀.idOf c = i
  touched : ∀ p ∈ s.touched, p.1 = p.2
  received : ∀ p ∈ s.received, p.1 = p.2

/-- `st'` may take the place of the stream `st` within the step. -/
structure Fits (s₀ : State) (c : Channel) (st st' : Stream) : Prop where
  id : st'.id = st.id
  owner : st'.owner = st.owner
  busy : st'.Busy s₀.request → Known s₀ c
  own : Own c st'

theorem State.getElem?_modify {s : State} {c d : Channel} {f : Stream → Stream} {st' : Stream}
    (h : (s.modify c f).streams[d]? = some st') :
    s.streams[d]? = some st' ∨ d = c ∧ ∃ st, s.streams[c]? = some st ∧ f st = st' := by
  rcases of_getElem?_modify h with ⟨hd, st, hst, rfl⟩ | ⟨-, hst⟩
  · exact .inr ⟨hd, st, hst, rfl⟩
  · exact .inl hst

theorem State.idOf_eq {s : State} {c : Channel} {st : Stream} (h : s.streams[c]? = some st) :
    s.idOf c = st.id := by
  rw [State.idOf, h]
  rfl

namespace Tidy

variable {s₀ s : State} {c d : Channel}

theorem refl (h : Inv s) : Tidy s s where
  request := rfl
  isOver := fun _ => rfl
  base := rfl
  nextId := rfl
  capacity := rfl
  length := rfl
  stream := fun _ st hst => ⟨st, hst, rfl, rfl⟩
  busy := fun _ st hst hb => .inl (.inl ⟨st, hst, hb⟩)
  own := h.own
  messages := fun m hm _ hc => .inl (.inr (.inl ⟨m, hm, hc⟩))
  reads := fun t ht => ⟨fun hp => .inl (.inr (.inr (.inl ⟨t, ht, hp, rfl⟩))), h.reads t ht⟩
  rooms := fun t ht => ⟨fun hl => .inl (.inr (.inr (.inr ⟨t, ht, hl, rfl⟩))), h.rooms t ht⟩
  senders := fun _ _ hi => hi
  receivers := fun _ _ hi => .inl hi
  touched := h.touched
  received := h.received

theorem idOf (h : Tidy s₀ s) (c : Channel) : s.idOf c = s₀.idOf c := by
  cases hst : s.streams[c]? with
  | some st =>
      obtain ⟨st₀, hst₀, hid, -⟩ := h.stream c st hst
      rw [State.idOf_eq hst, State.idOf_eq hst₀, hid]
  | none =>
      have hst₀ : s₀.streams[c]? = none := by
        rw [List.getElem?_eq_none_iff] at hst ⊢
        rwa [← h.length]
      simp [State.idOf, hst, hst₀]

/-- Only known streams are known after the step. -/
theorem known (h : Tidy s₀ s) (hc : Known s c) : Known s₀ c := by
  rcases hc with (⟨st, hst, hb⟩ | ⟨m, hm, hc⟩ | ⟨t, ht, hp, rfl⟩ | ⟨t, ht, hl, rfl⟩) | ⟨hb, hlt⟩
  · exact h.busy c st hst (h.request ▸ hb)
  · exact h.messages m hm c hc
  · exact (h.reads t ht).1 hp
  · exact (h.rooms t ht).1 hl
  · exact .inr ⟨h.base ▸ hb, h.length ▸ hlt⟩

/-- A known stream finds under its id nobody's sender but its own, -/
theorem sender_eq (h : Tidy s₀ s) (h₀ : Inv s₀) (hc : Known s₀ c)
    (hd : s.manager.senders (s.idOf c) = some d) : d = c :=
  h₀.senders c d hc (h.idOf c ▸ h.senders _ d hd)

/-- and nobody's receiver but its own. -/
theorem receiver_eq (h : Tidy s₀ s) (h₀ : Inv s₀) (hc : Known s₀ c)
    (hd : s.manager.receivers (s.idOf c) = some d) : d = c := by
  rcases h.receivers _ d hd with hd | ⟨hd, hid⟩
  · exact h₀.receivers c d hc (h.idOf c ▸ hd)
  · exact h₀.inj d c hd hc (hid.trans (h.idOf c))

theorem inv (h : Tidy s₀ s) (h₀ : Inv s₀) : Inv s where
  base_le := h.base ▸ h.length ▸ h₀.base_le
  owner_le c st hst := by
    obtain ⟨st₀, hst₀, -, howner⟩ := h.stream c st hst
    rw [howner, h.request]
    exact h₀.owner_le c st₀ hst₀
  owner_lt c st hc hst := by
    obtain ⟨st₀, hst₀, -, howner⟩ := h.stream c st hst
    rw [howner, h.request]
    exact h₀.owner_lt c st₀ (h.base ▸ hc) hst₀
  id_lt c st hc hst := by
    obtain ⟨st₀, hst₀, hid, -⟩ := h.stream c st hst
    rw [hid, h.nextId]
    exact h₀.id_lt c st₀ (h.base ▸ hc) hst₀
  lt c hc := h.length ▸ h₀.lt c (h.known hc)
  inj c d hc hd hid := h₀.inj c d (h.known hc) (h.known hd) (by rw [← h.idOf, ← h.idOf, hid])
  senders c d hc hd := h.sender_eq h₀ (h.known hc) hd
  receivers c d hc hd := h.receiver_eq h₀ (h.known hc) hd
  own := h.own
  reads t ht := (h.reads t ht).2
  rooms t ht := (h.rooms t ht).2
  touched := h.touched
  received := h.received

theorem fits (h : Tidy s₀ s) {st : Stream} (hst : s.streams[c]? = some st) : Fits s₀ c st st :=
  ⟨rfl, rfl, h.busy c st hst, h.own c st hst⟩

theorem modify (h : Tidy s₀ s) {f : Stream → Stream}
    (hf : ∀ st, s.streams[c]? = some st → Fits s₀ c st (f st)) : Tidy s₀ (s.modify c f) :=
  { h with
    length := (length_modify ..).trans h.length
    stream := by
      intro d st' hst'
      rcases State.getElem?_modify hst' with hst | ⟨rfl, st, hst, rfl⟩
      · exact h.stream d st' hst
      · obtain ⟨st₀, hst₀, hid, howner⟩ := h.stream d st hst
        exact ⟨st₀, hst₀, (hf st hst).id.trans hid, (hf st hst).owner.trans howner⟩
    busy := by
      intro d st' hst'
      rcases State.getElem?_modify hst' with hst | ⟨rfl, st, hst, rfl⟩
      · exact h.busy d st' hst
      · exact (hf st hst).busy
    own := by
      intro d st' hst'
      rcases State.getElem?_modify hst' with hst | ⟨rfl, st, hst, rfl⟩
      · exact h.own d st' hst
      · exact (hf st hst).own }

/-- The manager changes, and loses at most entries or gets a receiver put back. -/
theorem setManager (h : Tidy s₀ s) (m : StreamManager) (hn : m.nextId = s.manager.nextId)
    (hcap : m.capacity = s.manager.capacity)
    (hs : ∀ i d, m.senders i = some d → s.manager.senders i = some d)
    (hr : ∀ i d, m.receivers i = some d →
      s.manager.receivers i = some d ∨ Known s₀ d ∧ s₀.idOf d = i) :
    Tidy s₀ { s with manager := m } :=
  { h with
    nextId := hn.trans h.nextId
    capacity := hcap.trans h.capacity
    senders := fun i d hd => h.senders i d (hs i d hd)
    receivers := fun i d hd => (hr i d hd).elim (h.receivers i d) .inr }

theorem touch (h : Tidy s₀ s) (c : Channel) : Tidy s₀ (s.touch c c) :=
  { h with
    touched := by
      intro p hp
      rcases mem_append.mp hp with hp | hp
      · exact h.touched p hp
      · rw [mem_singleton.mp hp] }

theorem dropReceiver (h : Tidy s₀ s) (c : Channel) : Tidy s₀ (s.dropReceiver c) :=
  h.modify fun _ hst => ⟨rfl, rfl, (h.fits hst).busy, { h.own c _ hst with }⟩

theorem setCut (h : Tidy s₀ s) (c : Channel) : Tidy s₀ (s.setCut c) :=
  h.modify fun _ hst => ⟨rfl, rfl, (h.fits hst).busy, { h.own c _ hst with }⟩

theorem lostSender (h : Tidy s₀ s) {o : Option Channel} (ho : ∀ d, o = some d → d = c) :
    Tidy s₀ (s.lostSender c o) := by
  cases o with
  | none => exact h
  | some d =>
      obtain rfl := ho d rfl
      exact (h.touch d).modify fun _ hst =>
        ⟨rfl, rfl, ((h.touch d).fits hst).busy, { h.own d _ hst with }⟩

theorem lostReceiver (h : Tidy s₀ s) {o : Option Channel} (ho : ∀ d, o = some d → d = c) :
    Tidy s₀ (s.lostReceiver c o) := by
  cases o with
  | none => exact h
  | some d =>
      obtain rfl := ho d rfl
      exact (h.touch d).dropReceiver d

theorem removeSender (h : Tidy s₀ s) (h₀ : Inv s₀) (hc : Known s₀ c) :
    Tidy s₀ (s.removeSender c) := by
  refine (h.setManager (s.manager.removeSender (s.idOf c)) rfl rfl ?_ ?_).lostSender ?_
  · exact fun _ d => StreamManager.eq_some_of_update_none _ d
  · exact fun _ _ hd => .inl hd
  · exact fun _ hd => h.sender_eq h₀ hc hd

theorem closeStream (h : Tidy s₀ s) (h₀ : Inv s₀) (hc : Known s₀ c) :
    Tidy s₀ (s.closeStream c) := by
  refine ((h.setManager (s.manager.closeStream (s.idOf c)) rfl rfl ?_ ?_).lostSender
    ?_).lostReceiver ?_
  · exact fun _ d => StreamManager.eq_some_of_update_none _ d
  · exact fun _ d hd => .inl (StreamManager.eq_some_of_update_none _ d hd)
  · exact fun _ hd => h.sender_eq h₀ hc hd
  · exact fun _ hd => h.receiver_eq h₀ hc hd

theorem takeReceiver (h : Tidy s₀ s) (c : Channel) : Tidy s₀ (s.takeReceiver c c) := by
  refine (h.setManager (s.manager.takeReceiver (s.idOf c)) rfl rfl (fun _ _ hd => hd) ?_).touch c
  exact fun _ d hd => .inl (StreamManager.eq_some_of_update_none _ d hd)

/-- A read gives back the receiver it took: nobody else's is under the id by then. -/
theorem putBack (h : Tidy s₀ s) (h₀ : Inv s₀) (hc : Known s₀ c) : Tidy s₀ (s.putBack c c) := by
  refine (h.setManager (s.manager.putBack (s.idOf c) c) rfl rfl (fun _ _ hd => hd)
    ?_).lostReceiver ?_
  · intro i d hd
    rcases StreamManager.receivers_putBack _ _ _ hd with hd | ⟨rfl, rfl⟩
    · exact .inl hd
    · exact .inr ⟨hc, (h.idOf d).symm⟩
  · exact fun _ hd => h.receiver_eq h₀ hc hd

theorem push (h : Tidy s₀ s) (c : Channel) (chunk : StreamChunk) :
    Tidy s₀ (s.push c c chunk) := by
  refine (h.touch c).modify fun st hst => ⟨rfl, rfl, (h.fits hst).busy, ?_⟩
  refine { h.own c st hst with buffer := ?_ }
  intro x hx
  rcases mem_append.mp hx with hx | hx
  · exact (h.own c st hst).buffer x hx
  · rw [mem_singleton.mp hx]

theorem pop (h : Tidy s₀ s) (c : Channel) : Tidy s₀ (s.pop c c c) := by
  have h' : Tidy s₀ { s with received := s.received ++ [(c, c)] } :=
    { h with
      received := by
        intro p hp
        rcases mem_append.mp hp with hp | hp
        · exact h.received p hp
        · rw [mem_singleton.mp hp] }
  refine (h'.touch c).modify fun st hst => ⟨rfl, rfl, (h.fits hst).busy, ?_⟩
  exact { h.own c st hst with
    buffer := fun x hx => (h.own c st hst).buffer x (mem_of_mem_tail hx) }

/-- The producer of a known stream goes on, with no sender but its own. -/
theorem setProducer (h : Tidy s₀ s) (hc : Known s₀ c) {f : Stream → Stream}
    (hf : ∀ st, s.streams[c]? = some st → (f st).id = st.id ∧ (f st).owner = st.owner ∧
      (f st).forward = st.forward ∧ (f st).buffer = st.buffer ∧
      ∀ d chunk, (f st).producer = .sending d chunk → d = c ∧ (f st).kind ≠ .guest) :
    Tidy s₀ (s.modify c f) := by
  refine h.modify fun st hst => ?_
  obtain ⟨hid, howner, hforward, hbuffer, hsending⟩ := hf st hst
  exact
    { id := hid
      owner := howner
      busy := fun _ => hc
      own :=
        { sending := hsending
          forward := hforward ▸ (h.own c st hst).forward
          buffer := hbuffer ▸ (h.own c st hst).buffer } }

/-- What the producer does after a write. -/
theorem wrote (h : Tidy s₀ s) (hc : Known s₀ c) (ok : Bool) (chunk : StreamChunk) :
    Tidy s₀ (s.modify c (·.wrote ok chunk)) := by
  refine h.setProducer hc fun st _ => ⟨rfl, rfl, rfl, rfl, ?_⟩
  intro d chunk' hp
  unfold Stream.wrote at hp
  grind

theorem setForward (h : Tidy s₀ s) (hc : Known s₀ c) {f : Forward} (hf : f.receiver = c) :
    Tidy s₀ (s.setForward c f) :=
  h.modify fun st hst =>
    { id := rfl
      owner := rfl
      busy := fun _ => hc
      own := { h.own c st hst with
        forward := by
          rintro _ ⟨⟩
          exact hf } }

theorem setRead (h : Tidy s₀ s) {k : Nat} {t : ReadTask} {pc : ReadPc} (ht : s.reads[k]? = some t)
    (hk : pc ≠ .ended → Known s₀ t.stream) (hpc : ∀ d, pc = .receiving d → d = t.stream) :
    Tidy s₀ (s.setRead k pc) :=
  { h with
    reads := by
      refine forall_mem_modify h.reads fun u hu => ?_
      cases ht.symm.trans hu
      exact ⟨hk, hpc⟩ }

theorem endRead (h : Tidy s₀ s) (k : Nat) : Tidy s₀ (s.setRead k .ended) :=
  { h with reads := forall_mem_modify h.reads fun _ _ => ⟨fun hne => absurd rfl hne, nofun⟩ }

theorem endRoom (h : Tidy s₀ s) (k : Nat) : Tidy s₀ (s.endRoom k) :=
  { h with
    rooms := forall_mem_modify h.rooms fun u hu =>
      ⟨nofun, (h.rooms u (mem_of_getElem? hu)).2⟩ }

theorem addMessage (h : Tidy s₀ s) {m : Message} (hm : ∀ c, m.stream = some c → Known s₀ c) :
    Tidy s₀ { s with messages := s.messages ++ [m] } :=
  { h with
    messages := by
      intro m' hm' c hc
      rcases mem_append.mp hm' with hm' | hm'
      · exact h.messages m' hm' c hc
      · rw [mem_singleton.mp hm'] at hc
        exact hm c hc }

end Tidy

end OpenWorkers.Streams
