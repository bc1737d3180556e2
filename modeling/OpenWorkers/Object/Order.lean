import OpenWorkers.Object.Pipeline
import Mathlib.Data.List.Nodup
import Mathlib.Data.Nat.Basic
import Mathlib.Order.Basic

/-!
# What an open gate stands for

The invariant of a `Pipeline` whose queue task does not panic, and that its operations keep
it.  Its point is the field `opened`: a gate is open only if every storage write sent
before the message it belongs to was ended by the host without an error.  The argument is
the order of the two channels: the writes sent before a barrier stand before it in the
queue, and the queue takes the barrier only once they have ended.
-/

namespace OpenWorkers.Object

open List Option Scheduler

/-- The item is a storage write. -/
def Queued.writes : Queued → Bool
  | .storage _ op => op.writes
  | .socket _ | .barrier _ => false

namespace Pipeline

/-- Message `j` is a storage write. -/
def IsWrite (p : Pipeline) (j : MsgId) : Prop :=
  ∃ msg, p.sent[j]? = some msg ∧ msg.isWrite = true

/-- Every storage write sent before message `n` was ended by the host without an error. -/
def ClearBefore (p : Pipeline) (n : MsgId) : Prop :=
  ∀ j < n, p.IsWrite j → (j, true) ∈ p.answered

instance (p : Pipeline) (j : MsgId) : Decidable (p.IsWrite j) :=
  decidable_of_iff (∃ msg ∈ p.sent[j]?, msg.isWrite = true) Iff.rfl

instance (p : Pipeline) (n : MsgId) : Decidable (p.ClearBefore n) :=
  inferInstanceAs (Decidable (∀ j < n, p.IsWrite j → (j, true) ∈ p.answered))

/-- The number of items of the queue that are done with. -/
def done (p : Pipeline) : Nat := if p.busy then p.taken - 1 else p.taken

/-- Message `n` has a barrier. -/
def HasBarrier (p : Pipeline) (n : MsgId) : Prop :=
  p.sent[n]? = some .outputBarrier ∨ (n, .barrier n) ∈ p.queued

structure Inv (p : Pipeline) : Prop where
  alive : p.alive = true
  handled_le : p.handled ≤ p.sent.length
  /-- The items of the queue are in the order of their messages. -/
  sorted : (p.queued.map Prod.fst).Pairwise (· < ·)
  before : ∀ item ∈ p.queued, item.1 < p.handled
  /-- Every write the loop has taken is in the queue. -/
  complete : ∀ j < p.handled, p.IsWrite j → ∃ work, (j, work) ∈ p.queued ∧ work.writes = true
  gate : ∀ n g, (n, .barrier g) ∈ p.queued → g = n
  noQueue : p.loop.queue = false → p.queued = []
  taken_le : p.taken ≤ p.queued.length
  busy : p.busy = true → p.failed = false ∧ 0 < p.taken
  /-- Until a write fails, the writes that are done with were ended without an error. -/
  committed : p.failed = false → ∀ item ∈ p.queued.take p.done, item.2.writes = true →
    (item.1, true) ∈ p.answered
  /-- The host ends an op once. -/
  answered : (p.answered.map Prod.fst).Sublist ((p.queued.take p.done).map Prod.fst)
  opened : ∀ g ∈ p.opened, g < p.handled ∧ p.ClearBefore g
  /-- A barrier that the loop has taken is open, shut, or still in the queue. -/
  settled : ∀ n < p.handled, p.HasBarrier n →
    n ∈ p.opened ∨ n ∈ p.shut ∨ (n, .barrier n) ∈ p.queued.drop p.taken

/-! ## What is kept -/

/-- What no operation takes back. -/
structure Grows (p p' : Pipeline) : Prop where
  sent : p.sent <+: p'.sent
  handled : p.handled ≤ p'.handled
  queued : ∀ item ∈ p.queued, item ∈ p'.queued
  answered : ∀ a ∈ p.answered, a ∈ p'.answered

theorem Grows.refl (p : Pipeline) : Grows p p :=
  ⟨prefix_refl _, le_rfl, fun _ h => h, fun _ h => h⟩

variable {p p' : Pipeline}

/-- An operation on the gates, on the tasks or on the rest of the loop. -/
theorem Grows.of_eq (hsent : p'.sent = p.sent) (hhandled : p'.handled = p.handled)
    (hqueued : p'.queued = p.queued) (hanswered : p'.answered = p.answered) : Grows p p' :=
  ⟨hsent ▸ prefix_refl _, hhandled.ge, fun _ h => hqueued ▸ h, fun _ h => hanswered ▸ h⟩

theorem Grows.getElem? (h : Grows p p') {j : MsgId} (hj : j < p.sent.length) :
    p'.sent[j]? = p.sent[j]? := by
  obtain ⟨rest, hrest⟩ := h.sent
  rw [← hrest, getElem?_append_left hj]

theorem Grows.isWrite_iff (h : Grows p p') {j : MsgId} (hj : j < p.sent.length) :
    p'.IsWrite j ↔ p.IsWrite j := by
  rw [IsWrite, IsWrite, h.getElem? hj]

theorem Grows.clearBefore (h : Grows p p') {n : MsgId} (hn : n ≤ p.sent.length)
    (hclear : p.ClearBefore n) : p'.ClearBefore n := by
  intro j hj hwrite
  exact h.answered _ (hclear j hj ((h.isWrite_iff (hj.trans_le hn)).mp hwrite))

theorem Grows.hasBarrier (h : Grows p p') {n : MsgId} (hbarrier : p.HasBarrier n) :
    p'.HasBarrier n := by
  refine hbarrier.imp (fun hget => ?_) (h.queued _)
  rw [h.getElem? (List.getElem?_eq_some_iff.mp hget).1]
  exact hget

theorem grows_send (p : Pipeline) (msg : SchedulerMessage) : Grows p (p.send msg).1 := by
  unfold Pipeline.send
  split
  · exact ⟨prefix_append _ _, le_rfl, fun _ h => h, fun _ h => h⟩
  · exact Grows.refl p

theorem handled_send (p : Pipeline) (msg : SchedulerMessage) :
    (p.send msg).1.handled = p.handled := by
  unfold Pipeline.send
  split <;> rfl

theorem Grows.trans {p'' : Pipeline} (h : Grows p p') (h' : Grows p' p'') : Grows p p'' :=
  ⟨h.sent.trans h'.sent, h.handled.trans h'.handled, fun _ hx => h'.queued _ (h.queued _ hx),
    fun _ ha => h'.answered _ (h.answered _ ha)⟩

theorem grows_perform (p : Pipeline) (n : MsgId) (effect : Effect) :
    Grows p (p.perform n effect) ∧ (p.perform n effect).handled = p.handled := by
  cases effect with
  | enqueue work =>
      rw [perform]
      split
      · exact ⟨⟨prefix_refl _, le_rfl, fun _ hx => mem_append_left _ hx, fun _ ha => ha⟩,
          rfl⟩
      · exact ⟨.of_eq rfl rfl rfl rfl, rfl⟩
  | openGate => exact ⟨.of_eq rfl rfl rfl rfl, rfl⟩
  | spawn | command | hangUp | closeStream | cancel => exact ⟨Grows.refl p, rfl⟩

theorem grows_foldl_perform (p : Pipeline) (n : MsgId) (effects : List Effect) :
    Grows p (effects.foldl (perform n) p) ∧
      (effects.foldl (perform n) p).handled = p.handled := by
  induction effects generalizing p with
  | nil => exact ⟨Grows.refl p, rfl⟩
  | cons effect effects ih =>
      obtain ⟨hgrows, hhandled⟩ := grows_perform p n effect
      obtain ⟨hgrows', hhandled'⟩ := ih (p.perform n effect)
      exact ⟨hgrows.trans hgrows', hhandled'.trans hhandled⟩

/-- What the loop does to the channels, whether the queue task lives or not. -/
theorem grows_handle {effects : List Effect} (h : p.handle = some (effects, p')) :
    ∃ msg, p.sent[p.handled]? = some msg ∧ effects = (p.loop.handle p.alive p.handled msg).2 ∧
      Grows p p' ∧ p'.handled = p.handled + 1 := by
  unfold handle at h
  split at h
  · obtain ⟨msg, hmsg, heq⟩ := map_eq_some_iff.mp h
    obtain ⟨heffects, hp'⟩ := Prod.mk.inj heq
    obtain ⟨hgrows, hhandled⟩ := grows_foldl_perform
      { p with handled := p.handled + 1, loop := (p.loop.handle p.alive p.handled msg).1 }
      p.handled (p.loop.handle p.alive p.handled msg).2
    rw [hp'] at hgrows hhandled
    have hfirst : Grows p
        { p with handled := p.handled + 1, loop := (p.loop.handle p.alive p.handled msg).1 } :=
      ⟨prefix_refl _, Nat.le_succ _, fun _ hx => hx, fun _ ha => ha⟩
    exact ⟨msg, hmsg, heffects.symm, hfirst.trans hgrows, hhandled⟩
  · cases h

/-- Message `n` was sent or is the next, and every storage write before it was ended
without an error. -/
def Passes (p : Pipeline) (n : MsgId) : Prop := n ≤ p.sent.length ∧ p.ClearBefore n

theorem Grows.passes (h : Grows p p') {n : MsgId} (hn : p.Passes n) : p'.Passes n :=
  ⟨hn.1.trans h.sent.length_le, h.clearBefore hn.1 hn.2⟩

/-! ## Positions in the queue -/

/-- An item of an earlier message stands earlier in the queue. -/
theorem mem_take_of_lt {queued : List (MsgId × Queued)} {k : Nat} {item earlier : MsgId × Queued}
    (hsorted : (queued.map Prod.fst).Pairwise (· < ·)) (hitem : queued[k]? = some item)
    (hmem : earlier ∈ queued) (hlt : earlier.1 < item.1) : earlier ∈ queued.take k := by
  obtain ⟨i, hi⟩ := mem_iff_getElem?.mp hmem
  have hik : i < k := by
    by_contra hge
    rcases (not_lt.mp hge).eq_or_lt with heq | hgt
    · rw [← heq, hitem] at hi
      cases hi
      exact lt_irrefl _ hlt
    · obtain ⟨hlen, hval⟩ := List.getElem?_eq_some_iff.mp hi
      obtain ⟨hlen', hval'⟩ := List.getElem?_eq_some_iff.mp hitem
      have hlater := pairwise_iff_getElem.mp hsorted k i (by simpa using hlen')
        (by simpa using hlen) hgt
      rw [getElem_map, getElem_map, hval, hval'] at hlater
      exact lt_asymm hlt hlater
  refine mem_iff_getElem?.mpr ⟨i, ?_⟩
  rw [getElem?_take_of_lt hik, hi]

theorem done_le_taken (p : Pipeline) : p.done ≤ p.taken := by
  unfold done
  split
  · exact Nat.sub_le _ _
  · exact le_rfl

namespace Inv

/-- A write that the host ended with an error was not ended without one. -/
theorem not_committed (h : p.Inv) {j : MsgId} (hfailed : (j, false) ∈ p.answered) :
    (j, true) ∉ p.answered := by
  intro hok
  have hnodup : (p.answered.map Prod.fst).Nodup := by
    have hsub := h.answered.trans ((take_sublist _ _).map Prod.fst)
    exact (h.sorted.sublist hsub).imp fun hlt => hlt.ne
  have heq := inj_on_of_nodup_map hnodup hfailed hok rfl
  cases heq

theorem init : Pipeline.init.Inv where
  alive := rfl
  handled_le := le_rfl
  sorted := List.Pairwise.nil
  before := by simp [Pipeline.init]
  complete := by simp [Pipeline.init]
  gate := by simp [Pipeline.init]
  noQueue := fun _ => rfl
  taken_le := le_rfl
  busy := by simp [Pipeline.init]
  committed := by simp [Pipeline.init]
  answered := List.Sublist.refl _
  opened := by simp [Pipeline.init]
  settled := by simp [Pipeline.init]

theorem stop (h : p.Inv) : p.stop.Inv :=
  ⟨h.alive, h.handled_le, h.sorted, h.before, h.complete, h.gate, h.noQueue, h.taken_le, h.busy,
    h.committed, h.answered, h.opened, h.settled⟩

/-- The sockets that the loop can hand over play no part. -/
theorem relays (h : p.Inv) (relays : List WebSocketId) :
    Inv { p with loop := { p.loop with relays } } :=
  ⟨h.alive, h.handled_le, h.sorted, h.before, h.complete, h.gate, h.noQueue, h.taken_le, h.busy,
    h.committed, h.answered, h.opened, h.settled⟩

theorem send (h : p.Inv) (msg : SchedulerMessage) : (p.send msg).1.Inv := by
  have hgrows := grows_send p msg
  unfold Pipeline.send at *
  split
  · next hrunning =>
      rw [if_pos hrunning] at hgrows
      have hlen : ∀ {j}, j < p.handled → j < p.sent.length := fun hj => hj.trans_le h.handled_le
      refine ⟨h.alive, ?_, h.sorted, h.before, ?_, h.gate, h.noQueue, h.taken_le, h.busy,
        h.committed, h.answered, ?_, ?_⟩
      · exact h.handled_le.trans (by simp)
      · intro j hj hwrite
        exact h.complete j hj ((hgrows.isWrite_iff (hlen hj)).mp hwrite)
      · intro g hg
        obtain ⟨hlt, hclear⟩ := h.opened g hg
        exact ⟨hlt, hgrows.clearBefore (hlen hlt).le hclear⟩
      · intro n hn hbarrier
        refine h.settled n hn (hbarrier.imp_left fun hget => ?_)
        rwa [getElem?_append_left (hlen hn)] at hget
  · exact h

end Inv

/-! ## The loop takes a message -/

theorem isWrite_work {l : EventLoop} {n : MsgId} {msg : SchedulerMessage}
    (hwrite : msg.isWrite = true) : ∃ work', work l n msg = some work' ∧ work'.writes = true := by
  cases msg with
  | objectStorage callback op => exact ⟨.storage callback op, rfl, hwrite⟩
  | _ => cases hwrite

theorem gate_work {l : EventLoop} {n g : MsgId} {msg : SchedulerMessage}
    (hwork : work l n msg = some (.barrier g)) : g = n := by
  cases msg with
  | fetchStreaming | bindingFetch | bindingWorker | bindingDurableObject | outputBarrier =>
      simp only [work, ite_none_right_eq_some, Option.some.injEq, Queued.barrier.injEq] at hwork
      exact hwork.2.symm
  | objectUpgrade socket =>
      simp only [work] at hwork
      split at hwork <;> cases hwork
  | _ => cases hwork

theorem mem_opens {l : EventLoop} {n g : MsgId} {msg : SchedulerMessage}
    (hmem : g ∈ opens l n msg) : g = n ∧ l.queue = false := by
  cases msg with
  | outputBarrier =>
      simp only [opens] at hmem
      split at hmem
      · cases hmem
      · next hqueue => exact ⟨mem_singleton.mp hmem, by simpa using hqueue⟩
  | _ => cases hmem

/-- What a message adds to the queue is its own. -/
theorem mem_new {l : EventLoop} {n : MsgId} {msg : SchedulerMessage} {item : MsgId × Queued}
    (hitem : item ∈ (work l n msg).toList.map (n, ·)) :
    item.1 = n ∧ work l n msg = some item.2 := by
  obtain ⟨work', hwork, rfl⟩ := List.mem_map.mp hitem
  exact ⟨rfl, mem_toList.mp hwork⟩

theorem mem_map_of_work {l : EventLoop} {n : MsgId} {msg : SchedulerMessage} {work' : Queued}
    (hwork : work l n msg = some work') : (n, work') ∈ (work l n msg).toList.map (n, ·) :=
  List.mem_map.mpr ⟨work', mem_toList.mpr hwork, rfl⟩

/-- No queue means that no write was sent so far. -/
theorem Inv.clearBefore_of_noQueue (h : p.Inv) (hqueue : p.loop.queue = false) {n : MsgId}
    (hn : n ≤ p.handled) : p.ClearBefore n := by
  intro j hj hwrite
  obtain ⟨work', hmem, -⟩ := h.complete j (hj.trans_le hn) hwrite
  rw [h.noQueue hqueue] at hmem
  cases hmem

theorem Inv.handle (h : p.Inv) {effects : List Effect} (hhandle : p.handle = some (effects, p')) :
    p'.Inv := by
  obtain ⟨-, msg, hmsg, -, rfl⟩ := handle_eq_some h.alive hhandle
  have hlt : p.handled < p.sent.length := (List.getElem?_eq_some_iff.mp hmsg).1
  have htake : (p.queued ++ (work p.loop p.handled msg).toList.map (p.handled, ·)).take p.done =
      p.queued.take p.done :=
    take_append_of_le_length (p.done_le_taken.trans h.taken_le)
  refine ⟨h.alive, hlt, ?_, ?_, ?_, ?_, ?_, ?_, h.busy, ?_, ?_, ?_, ?_⟩
  · rw [map_append]
    refine pairwise_append.mpr ⟨h.sorted, ?_, ?_⟩
    · cases work p.loop p.handled msg <;> simp
    · intro i hi j hj
      obtain ⟨item, hitem, rfl⟩ := List.mem_map.mp hi
      obtain ⟨item', hitem', rfl⟩ := List.mem_map.mp hj
      rw [(mem_new hitem').1]
      exact h.before item hitem
  · intro item hitem
    rcases mem_append.mp hitem with hitem | hitem
    · exact Nat.lt_succ_of_lt (h.before item hitem)
    · exact (mem_new hitem).1 ▸ Nat.lt_succ_self _
  · intro j hj hwrite
    rcases Nat.lt_succ_iff_lt_or_eq.mp hj with hj | rfl
    · obtain ⟨work', hmem, hwork⟩ := h.complete j hj hwrite
      exact ⟨work', mem_append_left _ hmem, hwork⟩
    · obtain ⟨msg', hmsg', hmsgwrite⟩ := hwrite
      have heq : msg = msg' := Option.some.inj (hmsg.symm.trans hmsg')
      subst heq
      obtain ⟨work', hwork, hworkwrites⟩ := isWrite_work (l := p.loop) (n := p.handled) hmsgwrite
      exact ⟨work', mem_append_right _ (mem_map_of_work hwork), hworkwrites⟩
  · intro n g hmem
    rcases mem_append.mp hmem with hmem | hmem
    · exact h.gate n g hmem
    · obtain ⟨hn, hwork⟩ := mem_new hmem
      exact (gate_work hwork).trans hn.symm
  · intro hqueue
    rw [queue_handle, Bool.or_eq_false_iff, isSome_eq_false_iff,
      isNone_iff_eq_none] at hqueue
    rw [h.noQueue hqueue.1, hqueue.2]
    rfl
  · rw [length_append]
    exact h.taken_le.trans (Nat.le_add_right _ _)
  · intro hfailed item hitem
    exact h.committed hfailed item (htake ▸ hitem)
  · exact (htake.symm ▸ h.answered :)
  · intro g hg
    rcases mem_append.mp hg with hg | hg
    · obtain ⟨rfl, hqueue⟩ := mem_opens hg
      exact ⟨Nat.lt_succ_self _, h.clearBefore_of_noQueue hqueue le_rfl⟩
    · obtain ⟨hglt, hclear⟩ := h.opened g hg
      exact ⟨Nat.lt_succ_of_lt hglt, hclear⟩
  · intro n hn hbarrier
    rw [drop_append_of_le_length h.taken_le]
    rcases Nat.lt_succ_iff_lt_or_eq.mp hn with hn | rfl
    · have hold : p.HasBarrier n := by
        refine hbarrier.imp_right fun hmem => ?_
        rcases mem_append.mp hmem with hmem | hmem
        · exact hmem
        · exact absurd (mem_new hmem).1 hn.ne
      rcases h.settled n hn hold with hopen | hshut | hdrop
      · exact .inl (mem_append_right _ hopen)
      · exact .inr (.inl hshut)
      · exact .inr (.inr (mem_append_left _ hdrop))
    · rcases hbarrier with hget | hmem
      · have heq : msg = .outputBarrier := Option.some.inj (hmsg.symm.trans hget)
        subst heq
        cases hqueue : p.loop.queue with
        | false => exact .inl (mem_append_left _ (by simp [opens, hqueue]))
        | true =>
            have hwork : work p.loop p.handled .outputBarrier = some (.barrier p.handled) := by
              simp [work, hqueue]
            exact .inr (.inr (mem_append_right _ (mem_map_of_work hwork)))
      · rcases mem_append.mp hmem with hmem | hmem
        · exact absurd (h.before _ hmem) (lt_irrefl _)
        · exact .inr (.inr (mem_append_right _ hmem))

/-! ## The queue task takes an item -/

theorem grows_take {item : MsgId × Queued} {events : List QueueEvent}
    (h : p.take = some (item, events, p')) : Grows p p' ∧ p'.handled = p.handled := by
  obtain ⟨-, -, -, -, rfl⟩ := take_eq_some h
  exact ⟨.of_eq rfl rfl rfl rfl, rfl⟩

/-- Once everything before it is done with and nothing failed, a barrier has no unended
write before it. -/
theorem Inv.clearBefore_of_next (h : p.Inv) (hbusy : p.busy = false) (hfailed : p.failed = false)
    {item : MsgId × Queued} (hitem : p.queued[p.taken]? = some item) : p.ClearBefore item.1 := by
  intro j hj hwrite
  have hhandled := h.before item (mem_of_getElem? hitem)
  obtain ⟨work', hmem, hwork⟩ := h.complete j (hj.trans hhandled) hwrite
  have hdone : p.done = p.taken := by rw [done, hbusy]; rfl
  refine h.committed hfailed (j, work') ?_ hwork
  rw [hdone]
  exact mem_take_of_lt h.sorted hitem hmem hj

theorem take_succ_of_getElem? {queued : List (MsgId × Queued)} {k : Nat} {item : MsgId × Queued}
    (hitem : queued[k]? = some item) : queued.take (k + 1) = queued.take k ++ [item] := by
  rw [take_add_one, hitem]
  rfl

/-- What is taken from the queue, with the host still to be asked or not asked at all. -/
theorem mem_openedGates_take {failed : Bool} {work' : Queued} {g : GateId}
    (hg : g ∈ openedGates (Object.take failed work').1) : failed = false ∧ work' = .barrier g := by
  cases failed <;> cases work' <;> simp_all [Object.take, openedGates]

/-- An item that needs no host is a barrier. -/
theorem barrier_of_take {work' : Queued} (h : (Object.take false work').2 = false) :
    ∃ g, work' = .barrier g := by
  cases work' with
  | barrier g => exact ⟨g, rfl⟩
  | storage callback op => cases h
  | socket op => cases h

theorem Inv.take (h : p.Inv) {item : MsgId × Queued} {events : List QueueEvent}
    (htake : p.take = some (item, events, p')) : p'.Inv := by
  obtain ⟨-, hbusy, hitem, rfl, rfl⟩ := take_eq_some htake
  have hlt : p.taken < p.queued.length := (List.getElem?_eq_some_iff.mp hitem).1
  have hdone : p.done = p.taken := by rw [done, hbusy]; rfl
  have hstep : (p.queued.take p.taken).Sublist (p.queued.take
      (if (Object.take p.failed item.2).2 then p.taken + 1 - 1 else p.taken + 1)) := by
    split
    · exact List.Sublist.refl _
    · exact take_sublist_take_left (Nat.le_succ _)
  refine ⟨h.alive, h.handled_le, h.sorted, h.before, h.complete, h.gate, h.noQueue, hlt, ?_, ?_,
    ?_, ?_, ?_⟩
  · intro hnow
    refine ⟨?_, Nat.succ_pos _⟩
    cases hfailed : p.failed with
    | false => rfl
    | true =>
        have : (Object.take true item.2).2 = false := by cases item.2 <;> rfl
        rw [hfailed, this] at hnow
        cases hnow
  · intro hfailed other hother hwrites
    simp only [done] at hother
    refine h.committed hfailed other ?_ hwrites
    rw [hdone]
    rw [hfailed] at hother
    cases hbusy' : (Object.take false item.2).2 with
    | true =>
        rw [hbusy', if_pos rfl, Nat.add_sub_cancel] at hother
        exact hother
    | false =>
        rw [hbusy', if_neg Bool.false_ne_true, take_succ_of_getElem? hitem] at hother
        rcases mem_append.mp hother with hother | hother
        · exact hother
        · obtain ⟨g, hwork⟩ := barrier_of_take hbusy'
          rw [mem_singleton.mp hother, hwork] at hwrites
          cases hwrites
  · have hanswered := h.answered
    rw [hdone] at hanswered
    exact hanswered.trans (hstep.map Prod.fst)
  · intro g hg
    rcases mem_append.mp hg with hg | hg
    · obtain ⟨hfailed, hwork⟩ := mem_openedGates_take hg
      have hmem : (item.1, Queued.barrier g) ∈ p.queued := by
        rw [← hwork]
        exact mem_of_getElem? hitem
      rw [h.gate _ _ hmem]
      exact ⟨h.before item (mem_of_getElem? hitem),
        h.clearBefore_of_next hbusy hfailed hitem⟩
    · exact h.opened g hg
  · intro n hn hbarrier
    rcases h.settled n hn hbarrier with hopen | hshut | hdrop
    · exact .inl (mem_append_right _ hopen)
    · exact .inr (.inl (mem_append_right _ hshut))
    · rw [drop_eq_getElem_cons hlt, mem_cons,
        ← Option.some.inj (hitem.symm.trans (getElem?_eq_getElem hlt))] at hdrop
      rcases hdrop with heq | hdrop
      · -- The barrier is the item: it is opened or dropped now.
        subst heq
        cases hfailed : p.failed with
        | false => exact .inl (mem_append_left _ (by simp [Object.take, openedGates]))
        | true =>
            exact .inr (.inl (mem_append_left _
              (by simp [Object.take, openedGates, Queued.gate])))
      · exact .inr (.inr hdrop)

/-! ## The host ends an op -/

/-- Inversion of `finish`. -/
theorem finish_eq_some {result : OperationResult} (h : p.finish result = some p') :
    p.busy = true ∧ ∃ item, p.queued[p.taken - 1]? = some item ∧
      p' = { p with
        busy := false
        failed := (Object.finish item.2 result).2
        answered := p.answered ++
          item.2.callback.toList.map fun _ => (item.1, !result.toStorage.isError) } := by
  unfold finish at h
  split at h
  · next hbusy =>
      obtain ⟨item, hitem, heq⟩ := map_eq_some_iff.mp h
      exact ⟨hbusy, item, hitem, heq.symm⟩
  · next => cases h

theorem grows_finish {result : OperationResult} (h : p.finish result = some p') :
    Grows p p' ∧ p'.handled = p.handled := by
  obtain ⟨-, item, -, rfl⟩ := finish_eq_some h
  exact ⟨⟨prefix_refl _, le_rfl, fun _ hx => hx, fun _ ha => mem_append_left _ ha⟩, rfl⟩

theorem Inv.finish (h : p.Inv) {result : OperationResult} (hfinish : p.finish result = some p') :
    p'.Inv := by
  obtain ⟨hgrows, -⟩ := grows_finish hfinish
  obtain ⟨hbusy, item, hitem, rfl⟩ := finish_eq_some hfinish
  obtain ⟨hfailed, hpos⟩ := h.busy hbusy
  have hdone : p.done = p.taken - 1 := by rw [done, hbusy]; rfl
  have htake : p.queued.take p.taken = p.queued.take (p.taken - 1) ++ [item] := by
    rw [← take_succ_of_getElem? hitem, Nat.sub_add_cancel hpos]
  refine ⟨h.alive, h.handled_le, h.sorted, h.before, h.complete, h.gate, h.noQueue, h.taken_le,
    fun hnow => absurd hnow Bool.false_ne_true, ?_, ?_, ?_, h.settled⟩
  · intro hnow other hother hwrites
    rw [show done _ = p.taken from rfl, htake] at hother
    rcases mem_append.mp hother with hother | hother
    · exact mem_append_left _ (h.committed hfailed other (hdone ▸ hother) hwrites)
    · rw [mem_singleton.mp hother] at hwrites ⊢
      -- The item is a write and did not fail, so the host ended it without an error.
      cases hwork : item.2 with
      | storage callback op =>
          rw [hwork] at hwrites hnow
          have hok : result.toStorage.isError = false := by
            have hwrites' : op.writes = true := hwrites
            simpa [Object.finish, hwrites'] using hnow
          exact mem_append_right _ (by simp [Queued.callback, hok])
      | socket op =>
          rw [hwork] at hwrites
          cases hwrites
      | barrier g =>
          rw [hwork] at hwrites
          cases hwrites
  · rw [show done _ = p.taken from rfl, htake, map_append, map_append]
    have hanswered := h.answered
    rw [hdone] at hanswered
    refine hanswered.append ?_
    cases item.2.callback with
    | none => exact nil_sublist _
    | some callback => exact List.Sublist.refl _
  · intro g hg
    obtain ⟨hlt, hclear⟩ := h.opened g hg
    exact ⟨hlt, hgrows.clearBefore (hlt.le.trans h.handled_le) hclear⟩

/-! ## What the gates say -/

namespace Inv

theorem passes_of_opened (h : p.Inv) {n : MsgId} (hopen : n ∈ p.opened) : p.Passes n := by
  obtain ⟨hlt, hclear⟩ := h.opened n hopen
  exact ⟨hlt.le.trans h.handled_le, hclear⟩

/-- Behind a write that failed no gate opens. -/
theorem not_clearBefore (h : p.Inv) {j n : MsgId} (hwrite : p.IsWrite j)
    (hfailed : (j, false) ∈ p.answered) (hj : j < n) : ¬p.ClearBefore n :=
  fun hclear => h.not_committed hfailed (hclear j hj hwrite)

end Inv

/-- Neither the loop nor the queue can go on by itself. -/
def Idle (p : Pipeline) : Prop := p.handle = none ∧ p.take = none ∧ p.busy = false

instance (p : Pipeline) : Decidable p.Idle :=
  inferInstanceAs (Decidable (p.handle = none ∧ p.take = none ∧ p.busy = false))

theorem running_of_idle (hidle : p.Idle) (hlt : p.handled < p.sent.length) : p.running = false := by
  have hhandle := hidle.1
  unfold handle at hhandle
  split at hhandle
  · rw [getElem?_eq_getElem hlt] at hhandle
    cases hhandle
  · next hrunning => exact Bool.not_eq_true _ ▸ hrunning

theorem Inv.taken_of_idle (h : p.Inv) (hidle : p.Idle) : p.queued.drop p.taken = [] := by
  obtain ⟨-, htake, hbusy⟩ := hidle
  unfold Pipeline.take at htake
  rw [h.alive, hbusy] at htake
  have hnone := map_eq_none_iff.mp htake
  exact drop_eq_nil_of_le (List.getElem?_eq_none_iff.mp hnone)

/-- Once nothing moves, a barrier behind an open or failed write is shut. -/
theorem Inv.isShut_of_idle (h : p.Inv) (hidle : p.Idle) {n : MsgId} (hbarrier : p.HasBarrier n)
    (hclear : ¬p.ClearBefore n) : p.IsShut (.behind n) := by
  by_cases hn : n < p.handled
  · rcases h.settled n hn hbarrier with hopen | hshut | hdrop
    · exact absurd (h.opened n hopen).2 hclear
    · exact .inl hshut
    · rw [h.taken_of_idle hidle] at hdrop
      cases hdrop
  · have hlen : n < p.sent.length := by
      rcases hbarrier with hget | hmem
      · exact (List.getElem?_eq_some_iff.mp hget).1
      · exact absurd (h.before _ hmem) hn
    have hle := not_lt.mp hn
    exact .inr ⟨running_of_idle hidle (hle.trans_lt hlen), hle⟩

end Pipeline

end OpenWorkers.Object
