import OpenWorkers.Streams.Body
import OpenWorkers.Streams.Names

/-!
# A stream of the machine, looked at alone

`State.body` projects the state to one stream.  The parts of a step of the machine become the
parts of a step of a `Body` on the stream they are about, and leave the others alone
(`Frame`), if the maps have under its id nothing but its own ends (`Sole`).
-/

namespace OpenWorkers.Streams

open Option Function
open Scheduler (StreamId)

/-- A stream of the machine, looked at alone. -/
def State.body (s : State) (c : Channel) : Option Body :=
  s.streams[c]?.map fun st =>
    { stream := st
      sender := s.manager.senders st.id == some c
      receiver := s.manager.receivers st.id == some c
      reading := s.reads.countP fun t => t.pc == .receiving c }

/-! ## The parts of a step, on one stream -/

section Parts

variable {s : State} {b : Body} {c d : Channel}

theorem body_of_getElem? {st : Stream} (h : s.streams[c]? = some st) :
    ∃ b, s.body c = some b ∧ b.stream = st := by
  rw [State.body, h]
  exact ⟨_, rfl, rfl⟩

theorem getElem?_of_body (h : s.body c = some b) : s.streams[c]? = some b.stream ∧
    b.sender = (s.manager.senders (s.idOf c) == some c) ∧
    b.receiver = (s.manager.receivers (s.idOf c) == some c) := by
  obtain ⟨st, hst, rfl⟩ := map_eq_some_iff.mp h
  rw [State.idOf_eq hst]
  exact ⟨hst, rfl, rfl⟩

theorem body_modify {f : Stream → Stream} (hf : (f b.stream).id = b.stream.id)
    (hb : s.body c = some b) : (s.modify c f).body c = some (b.modify f) := by
  obtain ⟨st, hst, rfl⟩ := map_eq_some_iff.mp hb
  rw [State.body, State.modify, List.getElem?_modify_eq, hst]
  simp only [Option.map_eq_map, map_some, Body.modify, Option.some.injEq] at hf ⊢
  rw [hf]

theorem body_modify_ne {f : Stream → Stream} (hd : d ≠ c) :
    (s.modify c f).body d = s.body d := by
  have hget : (s.modify c f).streams[d]? = s.streams[d]? :=
    List.getElem?_modify_ne _ _ (Ne.symm hd)
  rw [State.body, hget]
  rfl

/-- Two maps that differ at one id, where they have nothing but `c`, have the same entries of
other channels. -/
theorem beq_some_of_own {g g' : StreamId → Option Channel} {i : StreamId}
    (h : ∀ j, j ≠ i → g' j = g j) (hg : ∀ e, g i = some e → e = c)
    (hg' : ∀ e, g' i = some e → e = c) (hd : d ≠ c) (j : StreamId) :
    (g' j == some d) = (g j == some d) := by
  by_cases hj : j = i
  · subst hj
    rw [Bool.eq_iff_iff, beq_iff_eq, beq_iff_eq]
    exact ⟨fun he => absurd (hg' d he) hd, fun he => absurd (hg d he) hd⟩
  · rw [h j hj]

/-- The maps have nothing but the ends of the stream `c` under its id. -/
structure Sole (s : State) (c : Channel) : Prop where
  senders : ∀ e, s.manager.senders (s.idOf c) = some e → e = c
  receivers : ∀ e, s.manager.receivers (s.idOf c) = some e → e = c

theorem Tidy.sole {s₀ : State} (h : Tidy s₀ s) (h₀ : Inv s₀) (hc : Known s₀ c) : Sole s c :=
  ⟨fun _ he => h.sender_eq h₀ hc he, fun _ he => h.receiver_eq h₀ hc he⟩

theorem Inv.sole (h : Inv s) (hc : Known s c) : Sole s c := (Tidy.refl h).sole h hc

/-- The manager changes what it has under the id of `c`, and has nothing but the ends of `c`
there. -/
structure OwnChange (s : State) (c : Channel) (m : StreamManager) : Prop where
  senders : ∀ j, j ≠ s.idOf c → m.senders j = s.manager.senders j
  receivers : ∀ j, j ≠ s.idOf c → m.receivers j = s.manager.receivers j
  sender : ∀ e, m.senders (s.idOf c) = some e → e = c
  receiver : ∀ e, m.receivers (s.idOf c) = some e → e = c

theorem body_setManager_ne {m : StreamManager} (hs : Sole s c) (hm : OwnChange s c m)
    (hd : d ≠ c) : ({ s with manager := m } : State).body d = s.body d := by
  simp only [State.body]
  congr 1
  funext st
  simp only [beq_some_of_own hm.senders hs.senders hm.sender hd st.id,
    beq_some_of_own hm.receivers hs.receivers hm.receiver hd st.id]

theorem body_setManager {m : StreamManager} (hb : s.body c = some b) :
    ({ s with manager := m } : State).body c = some { b with
      sender := m.senders (s.idOf c) == some c
      receiver := m.receivers (s.idOf c) == some c } := by
  obtain ⟨st, hst, rfl⟩ := map_eq_some_iff.mp hb
  rw [State.idOf_eq hst]
  simp only [State.body]
  rw [hst]
  rfl

theorem ownChange_removeSender (hs : Sole s c) :
    OwnChange s c (s.manager.removeSender (s.idOf c)) where
  senders _ hj := update_of_ne hj _ _
  receivers _ _ := rfl
  sender e he := by simp [StreamManager.removeSender] at he
  receiver := hs.receivers

theorem ownChange_takeReceiver (hs : Sole s c) :
    OwnChange s c (s.manager.takeReceiver (s.idOf c)) where
  senders _ _ := rfl
  receivers _ hj := update_of_ne hj _ _
  sender := hs.senders
  receiver e he := by simp [StreamManager.takeReceiver] at he

theorem ownChange_putBack (hs : Sole s c) :
    OwnChange s c (s.manager.putBack (s.idOf c) c) where
  senders _ _ := rfl
  receivers _ hj := update_of_ne hj _ _
  sender := hs.senders
  receiver e he := by
    simp only [StreamManager.putBack, update_self, Option.some.injEq] at he
    exact he.symm

theorem ownChange_closeStream : OwnChange s c (s.manager.closeStream (s.idOf c)) where
  senders _ hj := update_of_ne hj _ _
  receivers _ hj := update_of_ne hj _ _
  sender e he := by simp [StreamManager.closeStream] at he
  receiver e he := by simp [StreamManager.closeStream] at he

/-- Only the stream `c` is not as it was. -/
def Frame (c : Channel) (s s' : State) : Prop := ∀ d, d ≠ c → s'.body d = s.body d

theorem Frame.trans {s' s'' : State} (h : Frame c s s') (h' : Frame c s' s'') : Frame c s s'' :=
  fun d hd => (h' d hd).trans (h d hd)

theorem frame_modify (f : Stream → Stream) : Frame c s (s.modify c f) :=
  fun _ hd => body_modify_ne hd

theorem frame_lostSender {o : Option Channel} (ho : ∀ e, o = some e → e = c) :
    Frame c s (s.lostSender c o) := by
  cases o with
  | none => exact fun _ _ => rfl
  | some e =>
      obtain rfl := ho e rfl
      exact fun _ hd => body_modify_ne hd

theorem frame_lostReceiver {o : Option Channel} (ho : ∀ e, o = some e → e = c) :
    Frame c s (s.lostReceiver c o) := by
  cases o with
  | none => exact fun _ _ => rfl
  | some e =>
      obtain rfl := ho e rfl
      exact fun _ hd => body_modify_ne hd

theorem body_lostSender {o : Option Channel} (ho : ∀ e, o = some e → e = c)
    (hb : s.body c = some b) : (s.lostSender c o).body c =
      some (b.modify fun st => { st with cut := st.cut || ((o == some c) && !st.marked) }) := by
  cases o with
  | none =>
      simp only [State.lostSender, Body.modify, none_beq_some, Bool.false_and, Bool.or_false]
      exact hb
  | some e =>
      obtain rfl := ho e rfl
      simp only [BEq.rfl, Bool.true_and]
      exact body_modify rfl hb

theorem body_lostReceiver {o : Option Channel} (ho : ∀ e, o = some e → e = c)
    (hb : s.body c = some b) : (s.lostReceiver c o).body c =
      some (b.modify fun st => { st with closed := st.closed || o == some c }) := by
  cases o with
  | none =>
      simp only [State.lostReceiver, Body.modify, none_beq_some, Bool.or_false]
      exact hb
  | some e =>
      obtain rfl := ho e rfl
      simp only [BEq.rfl, Bool.or_true]
      exact body_modify rfl hb

theorem body_removeSender (hs : Sole s c) (hb : s.body c = some b) :
    (s.removeSender c).body c = some b.removeSender := by
  obtain ⟨-, hsender, hreceiver⟩ := getElem?_of_body hb
  unfold State.removeSender
  rw [body_lostSender hs.senders (body_setManager hb), ← hsender]
  simp [StreamManager.removeSender, Body.modify, Body.removeSender, hreceiver]

theorem frame_removeSender (hs : Sole s c) : Frame c s (s.removeSender c) :=
  Frame.trans (fun _ hd => body_setManager_ne hs (ownChange_removeSender hs) hd)
    (frame_lostSender hs.senders)

theorem body_closeStream (hs : Sole s c) (hb : s.body c = some b) :
    (s.closeStream c).body c = some b.closeStream := by
  obtain ⟨-, hsender, hreceiver⟩ := getElem?_of_body hb
  unfold State.closeStream
  rw [body_lostReceiver hs.receivers (body_lostSender hs.senders (body_setManager hb)), ← hsender,
    ← hreceiver]
  simp [StreamManager.closeStream, Body.modify, Body.closeStream, Body.removeSender,
    Body.removeReceiver]

theorem frame_closeStream (hs : Sole s c) : Frame c s (s.closeStream c) :=
  Frame.trans (Frame.trans (fun _ hd => body_setManager_ne hs ownChange_closeStream hd)
    (frame_lostSender hs.senders)) (frame_lostReceiver hs.receivers)

theorem body_takeReceiver (hb : s.body c = some b) :
    (s.takeReceiver c c).body c = some b.takeReceiver := by
  obtain ⟨-, hsender, -⟩ := getElem?_of_body hb
  refine (body_setManager (m := s.manager.takeReceiver (s.idOf c)) hb).trans ?_
  simp [StreamManager.takeReceiver, Body.takeReceiver, hsender]

theorem frame_takeReceiver (hs : Sole s c) : Frame c s (s.takeReceiver c c) :=
  fun _ hd => body_setManager_ne hs (ownChange_takeReceiver hs) hd

theorem body_putBack (hs : Sole s c) (hb : s.body c = some b) :
    (s.putBack c c).body c = some b.putBack := by
  obtain ⟨-, hsender, hreceiver⟩ := getElem?_of_body hb
  unfold State.putBack
  rw [body_lostReceiver hs.receivers (body_setManager hb), ← hreceiver]
  simp [StreamManager.putBack, Body.modify, Body.putBack, hsender]

theorem frame_putBack (hs : Sole s c) : Frame c s (s.putBack c c) :=
  Frame.trans (fun _ hd => body_setManager_ne hs (ownChange_putBack hs) hd)
    (frame_lostReceiver hs.receivers)

/-! ### The reads -/

/-- How many reads have taken the receiver of `d` changes by the one that goes on. -/
theorem countP_setRead {k : Nat} {t : ReadTask} (ht : s.reads[k]? = some t) (pc : ReadPc)
    (d : Channel) :
    ((s.setRead k pc).reads.countP fun t => t.pc == .receiving d) +
        (if t.pc = .receiving d then 1 else 0) =
      (s.reads.countP fun t => t.pc == .receiving d) + (if pc = .receiving d then 1 else 0) := by
  obtain ⟨hbefore, hafter⟩ := List.modify_perm ht fun t => { t with pc }
  rw [State.setRead, hbefore.countP_eq, hafter.countP_eq, List.countP_cons, List.countP_cons]
  simp only [beq_iff_eq]
  omega

theorem body_setRead {k : Nat} {t : ReadTask} (ht : s.reads[k]? = some t) (pc : ReadPc)
    (hb : s.body c = some b) : ∃ n, (s.setRead k pc).body c = some { b with reading := n } ∧
      n + (if t.pc = .receiving c then 1 else 0) =
        b.reading + (if pc = .receiving c then 1 else 0) := by
  obtain ⟨st, hst, rfl⟩ := map_eq_some_iff.mp hb
  refine ⟨_, ?_, countP_setRead ht pc c⟩
  have hget : (s.setRead k pc).streams[c]? = some st := hst
  rw [State.body, hget]
  rfl

theorem body_startRead {k : Nat} {t : ReadTask} (ht : s.reads[k]? = some t) (hp : t.pc = .start)
    (hb : s.body c = some b) : (s.setRead k (.receiving c)).body c = some b.startRead := by
  obtain ⟨n, hn, heq⟩ := body_setRead ht (.receiving c) hb
  rw [hn]
  simp [hp] at heq
  rw [Body.startRead, heq]

theorem body_endRead {k : Nat} {t : ReadTask} (ht : s.reads[k]? = some t)
    (hp : t.pc = .receiving c) (hb : s.body c = some b) :
    0 < b.reading ∧ (s.setRead k .ended).body c = some b.endRead := by
  obtain ⟨n, hn, heq⟩ := body_setRead ht .ended hb
  simp [hp] at heq
  refine ⟨by omega, ?_⟩
  rw [hn, Body.endRead, ← heq, Nat.add_sub_cancel]

/-- A read that neither has nor gets the receiver of `d` does not change the stream. -/
theorem body_setRead_same {k : Nat} {t : ReadTask} {pc : ReadPc} (ht : s.reads[k]? = some t)
    (hp : t.pc ≠ .receiving d) (hpc : pc ≠ .receiving d) :
    (s.setRead k pc).body d = s.body d := by
  have hcount := countP_setRead ht pc d
  simp only [hp, hpc, if_false, Nat.add_zero] at hcount
  unfold State.body
  rw [hcount]
  rfl

end Parts

end OpenWorkers.Streams
