import OpenWorkers.Object.Serve
import Mathlib.Data.List.Basic
import Mathlib.Data.Nat.Basic
import Mathlib.Order.Basic

/-!
# The input gate

What a Durable Object lets in, and when.  An event is admitted only with no storage read
under way and no `blockConcurrencyWhile` callback running; events and callbacks keep their
order, and none is lost or doubled.  A callback that is not a storage result is delivered
only with no read under way *as long as no failure is recorded*: with one, `drain_gated`
takes the gate for open (`input_gate`, `callback_passes_read_after_failure`).

`Books` is the part of the state that records what came and what was let in, and
`booked_step` says once what a step can do to it.
-/

namespace OpenWorkers.Object.Serve

open List Option

/-! ## What a step does to the books -/

/-- What came and what was let in. -/
structure Books where
  taken : Nat
  queue : List EventId
  admitted : List (EventId × Glue)
  refused : List EventId
  arrived : List CallbackMessage
  received : Nat
  pending : List CallbackMessage
  delivered : List (CallbackMessage × Glue)

def State.books (s : State) : Books :=
  ⟨s.taken, s.queue, s.admitted, s.refused, s.arrived, s.received, s.pending, s.delivered⟩

/-- The turn failed, or `serve` ended with an error. -/
def Phase.failed : Phase → Bool
  | .settling (some _) | .ended (.error _) => true
  | .settling none | .ended (.ok _) | .idle | .admitting _ _ | .draining _ _ _
  | .answering _ _ _ => false

/-- What a step can do to the books. -/
inductive Booked (s s' : State) : Action → Prop
  | same {a : Action} (hbooks : s'.books = s.books)
      (hfailed : s.phase.failed = true → s'.phase.failed = true)
      (ha : ∀ effects, a ≠ .deliver effects) : Booked s s' a
  | arrive {message : CallbackMessage}
      (hbooks : s'.books = { s.books with arrived := s.arrived ++ [message] })
      (hphase : s'.phase = s.phase) : Booked s s' (.arrive message)
  | letIn {effects : List GlueOp} {error : Option String} {id : EventId} {next : State}
      (hopen : s.glue.gate.isOpen = true) (hphase : s.phase.failed = false)
      (hnext : s.nextEvent = some (id, next))
      (hbooks : s'.books = { s.books with
        taken := next.taken
        queue := next.queue
        admitted := s.admitted ++ [(id, s.glue)] }) : Booked s s' (.admitEvent effects error)
  | refuse {effects : List GlueOp} {error : Option String} {id : EventId} {next : State}
      (hphase : s.phase.failed = false) (hnext : s.nextEvent = some (id, next))
      (hbooks : s'.books = { s.books with
        taken := next.taken
        queue := next.queue
        refused := s.refused ++ [id] })
      (hphase' : s'.phase.failed = true) : Booked s s' (.admitEvent effects error)
  | receive (hphase : s.phase.failed = false)
      (hbooks : s'.books = { s.books with
        received := s.arrived.length
        pending := s.pending ++ s.arrived.drop s.received }) : Booked s s' .endAdmission
  | deliver {effects : List GlueOp} {index : Nat} {message : CallbackMessage}
      (hphase : s.phase.failed = false) (hnext : s.nextCallback = some index)
      (hmessage : s.pending[index]? = some message)
      (hbooks : s'.books = { s.books with
        pending := s.pending.eraseIdx index
        delivered := s.delivered ++ [(message, s.glue)] }) : Booked s s' (.deliver effects)

section Booked

variable {cfg : Config} {s s' : State}

theorem booked_admitEvent {round admitted : Nat} {effects : List GlueOp} {error : Option String}
    (hphase : s.phase = .admitting round admitted)
    (hstep : s.admitEvent round admitted effects error = some s') :
    Booked s s' (.admitEvent effects error) := by
  obtain ⟨hopen, hstep⟩ := ite_none_right_eq_some.mp hstep
  obtain ⟨⟨id, next⟩, hnext, hstep⟩ := bind_eq_some_iff.mp hstep
  obtain ⟨glue, -, rfl⟩ := map_eq_some_iff.mp hstep
  have hsame : next.books = { s.books with taken := next.taken, queue := next.queue } := by
    unfold State.nextEvent at hnext
    split at hnext
    · cases hnext
      rfl
    · obtain ⟨-, heq⟩ := ite_none_right_eq_some.mp hnext
      cases heq
      rfl
  have hfailed : s.phase.failed = false := by rw [hphase]; rfl
  simp only [State.books, Books.mk.injEq] at hsame
  cases error with
  | none =>
      refine .letIn hopen hfailed hnext ?_
      simp [State.books, hsame]
  | some message =>
      refine .refuse hfailed hnext ?_ rfl
      simp [State.books, hsame]

theorem booked_answer {round admitted count : Nat} {answered : Bool} {finished : List EventId}
    {effects : List GlueOp} (hphase : s.phase = .answering round admitted count)
    (hstep : s.answer round admitted count answered finished effects = some s') :
    Booked s s' (.answer answered finished effects) := by
  have hfailed : s.phase.failed = true → s'.phase.failed = true := by
    intro h
    rw [hphase] at h
    cases h
  refine .same ?_ hfailed fun _ h => by cases h
  unfold State.answer at hstep
  split at hstep
  · cases hstep
    rfl
  · obtain ⟨-, hstep⟩ := ite_none_left_eq_some.mp hstep
    obtain ⟨glue, -, rfl⟩ := map_eq_some_iff.mp hstep
    simp only
    split
    · rfl
    · split <;> rfl

theorem books_checkIdle (s : State) (cfg : Config) : (s.checkIdle cfg).books = s.books := by
  unfold State.checkIdle
  split
  · rfl
  · split
    · simp only
      split <;> rfl
    · rfl

theorem books_checkGate {s s' : State} (h : s.checkGate = .ok s') : s'.books = s.books := by
  rw [State.checkGate_eq_ok h]
  rfl

theorem booked_settle {error : Option String} {cpu wall memory pinned : Bool} {left : List EventId}
    (hphase : s.phase = .settling error) :
    Booked s (s.settle cfg error (stopped cpu wall memory) pinned left)
      (.settle cpu wall memory pinned left) := by
  refine .same ?_ (fun h => ?_) fun _ h => by cases h
  · unfold State.settle
    split
    · rfl
    · rfl
    · split
      · rfl
      · next s₁ hgate =>
          have hkeep : (s₁.keep cfg pinned left).books = s₁.books := rfl
          rw [books_checkIdle, hkeep, books_checkGate hgate]
  · rw [hphase] at h
    cases error with
    | none => cases h
    | some message => cases stopped cpu wall memory <;> rfl

/-- **What a step can do to the books.** -/
theorem booked_step {a : Action} (hstep : step cfg s a = some s') : Booked s s' a := by
  cases of_step hstep with
  | tick | mail | closeMailbox | closeChannel => exact .same rfl id fun _ h => by cases h
  | arrive => exact .arrive rfl rfl
  | poll hphase => exact .same rfl (fun h => by rw [hphase] at h; cases h) fun _ h => by cases h
  | admitEvent hphase hadmit => exact booked_admitEvent hphase hadmit
  | endAdmission hphase hend =>
      obtain ⟨-, heq⟩ := ite_none_left_eq_some.mp hend
      cases heq
      exact .receive (by rw [hphase]; rfl) rfl
  | deliver hphase hindex hmessage => exact .deliver (by rw [hphase]; rfl) hindex hmessage rfl
  | endDrain hphase =>
      exact .same rfl (fun h => by rw [hphase] at h; cases h) fun _ h => by cases h
  | answer hphase hanswer => exact booked_answer hphase hanswer
  | settle _ _ _ _ _ hphase => exact booked_settle hphase

end Booked

/-! ## Events -/

theorem gate_isOpen {g : Glue} (h : g.gate.isOpen = true) : g.reads = 0 ∧ g.blocked = 0 := by
  unfold Glue.gate at h
  split at h
  · cases h
  · cases hblocked : decide (0 < g.blocked) <;> cases hreads : decide (0 < g.reads) <;>
      simp_all [Gate.isOpen]

theorem gate_isReading {g : Glue} (hfailure : g.failure = none) :
    g.gate.isReading = decide (0 < g.reads) := by
  unfold Glue.gate
  rw [hfailure]
  cases decide (0 < g.reads) <;> rfl

/-- The next event is the first of those that wait, in the queue or in the mailbox. -/
theorem nextEvent_eq_some {s next : State} {id : EventId} (h : s.nextEvent = some (id, next)) :
    s.queue = id :: next.queue ∧ next.taken = s.taken ∨
      s.queue = [] ∧ id = s.taken ∧ next.queue = [] ∧ next.taken = s.taken + 1 := by
  unfold State.nextEvent at h
  split at h
  · next hqueue =>
      cases h
      exact .inl ⟨hqueue, rfl⟩
  · next hqueue =>
      obtain ⟨-, heq⟩ := ite_none_right_eq_some.mp h
      cases heq
      exact .inr ⟨hqueue, rfl, hqueue, rfl⟩

/-- The events that were taken are, in the order of the mailbox, those that were admitted,
perhaps one that was refused, and those that wait in the queue.  Only a failed turn refuses
one. -/
structure EventsInv (s : State) : Prop where
  admitted : ∀ x ∈ s.admitted, x.2.reads = 0 ∧ x.2.blocked = 0
  order : s.admitted.map Prod.fst ++ s.refused ++ s.queue = List.range s.taken
  refused : s.refused ≠ [] → s.phase.failed = true

/-- What is let in next goes from the front of the queue to the end of what was let in. -/
theorem range_nextEvent {s next : State} {id : EventId} {before : List EventId}
    (hnext : s.nextEvent = some (id, next)) (h : before ++ s.queue = List.range s.taken) :
    before ++ [id] ++ next.queue = List.range next.taken := by
  rcases nextEvent_eq_some hnext with ⟨hqueue, htaken⟩ | ⟨hqueue, rfl, hnil, htaken⟩
  · rw [htaken, ← h, hqueue, append_assoc]
    rfl
  · rw [htaken, hnil, append_nil, range_succ, ← h, hqueue, append_nil]

namespace EventsInv

variable {cfg : Config} {glue : Glue} {first : ObjectEvent}

theorem init : EventsInv (Serve.init cfg glue first) where
  admitted := by simp [Serve.init]
  order := rfl
  refused h := absurd rfl h

/-- A step that leaves the events as they are. -/
theorem congr {s s' : State} (h : EventsInv s) (htaken : s'.taken = s.taken)
    (hqueue : s'.queue = s.queue) (hadmitted : s'.admitted = s.admitted)
    (hrefused : s'.refused = s.refused)
    (hfailed : s.phase.failed = true → s'.phase.failed = true) : EventsInv s' where
  admitted := hadmitted ▸ h.admitted
  order := by
    rw [hadmitted, hrefused, hqueue, htaken]
    exact h.order
  refused hne := hfailed (h.refused (hrefused ▸ hne))

theorem step (s : State) (a : Action) (s' : State) (h : EventsInv s)
    (hstep : Serve.step cfg s a = some s') : EventsInv s' := by
  cases booked_step hstep with
  | same hbooks hfailed =>
      simp only [State.books, Books.mk.injEq] at hbooks
      obtain ⟨htaken, hqueue, hadmitted, hrefused, -⟩ := hbooks
      exact h.congr htaken hqueue hadmitted hrefused hfailed
  | arrive hbooks hphase =>
      simp only [State.books, Books.mk.injEq] at hbooks
      obtain ⟨htaken, hqueue, hadmitted, hrefused, -⟩ := hbooks
      exact h.congr htaken hqueue hadmitted hrefused fun hfailed => hphase ▸ hfailed
  | receive hphase hbooks | deliver hphase hnext hmessage hbooks =>
      simp only [State.books, Books.mk.injEq] at hbooks
      obtain ⟨htaken, hqueue, hadmitted, hrefused, -⟩ := hbooks
      exact h.congr htaken hqueue hadmitted hrefused
        fun hfailed => absurd hfailed (by simp [hphase])
  | letIn hopen hphase hnext hbooks =>
      simp only [State.books, Books.mk.injEq] at hbooks
      obtain ⟨htaken, hqueue, hadmitted, hrefused, -⟩ := hbooks
      have hnone : s.refused = [] := by
        by_contra hne
        exact absurd (h.refused hne) (by simp [hphase])
      refine ⟨fun x hx => ?_, ?_, fun hne => absurd (hrefused.trans hnone) hne⟩
      · rw [hadmitted] at hx
        rcases mem_append.mp hx with hx | hx
        · exact h.admitted x hx
        · rw [mem_singleton.mp hx]
          exact gate_isOpen hopen
      · have horder := h.order
        rw [hnone, append_nil] at horder
        rw [hadmitted, hrefused, hnone, hqueue, htaken, map_append, append_nil]
        exact range_nextEvent hnext horder
  | refuse hphase hnext hbooks hphase' =>
      simp only [State.books, Books.mk.injEq] at hbooks
      obtain ⟨htaken, hqueue, hadmitted, hrefused, -⟩ := hbooks
      refine ⟨hadmitted ▸ h.admitted, ?_, fun _ => hphase'⟩
      rw [hadmitted, hrefused, hqueue, htaken, ← append_assoc]
      exact range_nextEvent hnext h.order

end EventsInv

/-! ## Callbacks -/

/-- The callback that is delivered is the first that waits, or the first storage result. -/
theorem nextCallback_eq_some {s : State} {index : Nat} {message : CallbackMessage}
    (hnext : s.nextCallback = some index) (hmessage : s.pending[index]? = some message) :
    ∃ before after, s.pending = before ++ message :: after ∧
      s.pending.eraseIdx index = before ++ after ∧
      (before ≠ [] → message.isObjectStorage = true) ∧
      (∀ x ∈ before, x.isObjectStorage = false) ∧
      (s.glue.gate.isReading = true → message.isObjectStorage = true) := by
  obtain ⟨hlt, hget⟩ := List.getElem?_eq_some_iff.mp hmessage
  refine ⟨s.pending.take index, s.pending.drop (index + 1), ?_, eraseIdx_eq_take_drop_succ ..,
    ?_⟩
  · rw [← hget, getElem_cons_drop, take_append_drop]
  unfold State.nextCallback at hnext
  split at hnext
  · obtain ⟨hlt', hthis, hbefore⟩ := findIdx?_eq_some_iff_getElem.mp hnext
    rw [hget] at hthis
    refine ⟨fun _ => hthis, fun x hx => ?_, fun _ => hthis⟩
    obtain ⟨i, hi, rfl⟩ := mem_take_iff_getElem.mp hx
    simpa using hbefore i (by omega)
  · next hreading =>
      obtain ⟨-, heq⟩ := ite_none_left_eq_some.mp hnext
      cases heq
      exact ⟨fun h => absurd rfl h, fun x hx => absurd hx not_mem_nil,
        fun h => absurd h hreading⟩

/-- Of each kind, storage results and others, what came is what was delivered and what
waits, in order. -/
structure CallbacksInv (s : State) : Prop where
  received : s.received ≤ s.arrived.length
  order : ∀ storage : Bool,
    ((s.delivered.map Prod.fst).filter fun x => x.isObjectStorage == storage) ++
      (s.pending.filter fun x => x.isObjectStorage == storage) =
      (s.arrived.take s.received).filter fun x => x.isObjectStorage == storage

/-- Taking out a callback as `drain_gated` does keeps the order of both kinds. -/
theorem filter_deliver {delivered before after : List CallbackMessage} {message : CallbackMessage}
    (hfirst : before ≠ [] → message.isObjectStorage = true)
    (hbefore : ∀ x ∈ before, x.isObjectStorage = false) (storage : Bool) :
    ((delivered ++ [message]).filter fun x => x.isObjectStorage == storage) ++
      ((before ++ after).filter fun x => x.isObjectStorage == storage) =
    (delivered.filter fun x => x.isObjectStorage == storage) ++
      ((before ++ message :: after).filter fun x => x.isObjectStorage == storage) := by
  by_cases hmessage : message.isObjectStorage = storage
  · have hnone : (before.filter fun x => x.isObjectStorage == storage) = [] := by
      refine filter_eq_nil_iff.mpr fun x hx => ?_
      have hstorage : storage = true := hmessage ▸ hfirst (ne_nil_of_mem hx)
      simp [hbefore x hx, hstorage]
    simp [filter_append, hnone, hmessage]
  · simp [filter_append, hmessage]

namespace CallbacksInv

variable {cfg : Config} {glue : Glue} {first : ObjectEvent}

theorem init : CallbacksInv (Serve.init cfg glue first) where
  received := le_rfl
  order _ := rfl

theorem step (s : State) (a : Action) (s' : State) (h : CallbacksInv s)
    (hstep : Serve.step cfg s a = some s') : CallbacksInv s' := by
  cases booked_step hstep with
  | same hbooks | letIn _ _ _ hbooks | refuse _ _ hbooks =>
      simp only [State.books, Books.mk.injEq] at hbooks
      obtain ⟨-, -, -, -, harrived, hreceived, hpending, hdelivered⟩ := hbooks
      refine ⟨by rw [hreceived, harrived]; exact h.received, fun storage => ?_⟩
      rw [hdelivered, hpending, harrived, hreceived]
      exact h.order storage
  | arrive hbooks =>
      simp only [State.books, Books.mk.injEq] at hbooks
      obtain ⟨-, -, -, -, harrived, hreceived, hpending, hdelivered⟩ := hbooks
      refine ⟨?_, fun storage => ?_⟩
      · rw [hreceived, harrived, length_append]
        exact h.received.trans (Nat.le_add_right _ _)
      · rw [hdelivered, hpending, harrived, hreceived, take_append_of_le_length h.received]
        exact h.order storage
  | receive hphase hbooks =>
      simp only [State.books, Books.mk.injEq] at hbooks
      obtain ⟨-, -, -, -, harrived, hreceived, hpending, hdelivered⟩ := hbooks
      refine ⟨(hreceived.trans (congrArg List.length harrived).symm).le, fun storage => ?_⟩
      rw [hdelivered, hpending, harrived, hreceived, take_length, filter_append,
        ← append_assoc, h.order storage, ← filter_append, take_append_drop]
  | deliver hphase hnext hmessage hbooks =>
      simp only [State.books, Books.mk.injEq] at hbooks
      obtain ⟨-, -, -, -, harrived, hreceived, hpending, hdelivered⟩ := hbooks
      obtain ⟨before, after, hsplit, herase, hfirst, hbefore, -⟩ :=
        nextCallback_eq_some hnext hmessage
      refine ⟨by rw [hreceived, harrived]; exact h.received, fun storage => ?_⟩
      rw [hdelivered, hpending, harrived, hreceived, herase, map_append, map_singleton,
        filter_deliver hfirst hbefore, ← hsplit]
      exact h.order storage

end CallbacksInv

/-! ## The input gate -/

/-- The callback that the next `deliver` delivers. -/
def State.nextMessage (s : State) : Option CallbackMessage :=
  s.nextCallback.bind fun index => s.pending[index]?

/-- **The condition on a step**: a callback that is not a storage result is not delivered
with a failure recorded and a read under way. -/
def Guard (s : State) : Action → Prop
  | .deliver _ => ∀ message ∈ s.nextMessage, message.isObjectStorage = false →
      s.glue.failure = none ∨ s.glue.reads = 0
  | _ => True

instance (s : State) (a : Action) : Decidable (Guard s a) := by
  cases a <;> dsimp only [Guard] <;> infer_instance

theorem guard_of_ne {s : State} {a : Action} (ha : ∀ effects, a ≠ .deliver effects) :
    Guard s a := by
  cases a with
  | deliver effects => exact absurd rfl (ha effects)
  | _ => trivial

/-- The callbacks that are not storage results came with no read under way. -/
def Undisturbed (s : State) : Prop :=
  ∀ x ∈ s.delivered, x.1.isObjectStorage = false → x.2.reads = 0

/-- Only a step that does not meet the condition delivers one during a read. -/
theorem undisturbed_step {cfg : Config} (s : State) (a : Action) (s' : State)
    (hstep : step cfg s a = some s') : Undisturbed s' ↔ Undisturbed s ∧ Guard s a := by
  have hsame : s'.delivered = s.delivered → (∀ effects, a ≠ .deliver effects) →
      (Undisturbed s' ↔ Undisturbed s ∧ Guard s a) := by
    intro hdelivered ha
    rw [Undisturbed, Undisturbed, hdelivered, and_iff_left (guard_of_ne ha)]
  cases booked_step hstep with
  | same hbooks _ ha => exact hsame (congrArg Books.delivered hbooks) ha
  | arrive hbooks | letIn _ _ _ hbooks | refuse _ _ hbooks | receive _ hbooks =>
      exact hsame (congrArg Books.delivered hbooks) fun _ h => by cases h
  | @deliver effects index message _ hnext hmessage hbooks =>
      have hdelivered : s'.delivered = s.delivered ++ [(message, s.glue)] :=
        congrArg Books.delivered hbooks
      have hthis : s.nextMessage = some message := by
        rw [State.nextMessage, hnext]
        exact hmessage
      have hguard : Guard s (.deliver effects) ↔
          (message.isObjectStorage = false → s.glue.reads = 0) := by
        rw [Guard, hthis]
        constructor
        · intro h hother
          rcases h message rfl hother with hfailure | hreads
          · -- The gate said that no read is under way.
            obtain ⟨-, -, -, -, -, -, hreading⟩ := nextCallback_eq_some hnext hmessage
            rw [gate_isReading hfailure, decide_eq_true_iff] at hreading
            by_contra hne
            exact absurd (hreading (Nat.pos_of_ne_zero hne)) (by simp [hother])
          · exact hreads
        · rintro h x hx hother
          cases hx
          exact .inr (h hother)
      rw [hguard, Undisturbed, hdelivered]
      simp only [mem_append, mem_singleton]
      constructor
      · intro h
        exact ⟨fun x hx => h x (.inl hx), h _ (.inr rfl)⟩
      · rintro ⟨h, hlast⟩ x (hx | rfl)
        · exact h x hx
        · exact hlast

/-- **The input gate.**  In every run of `serve`, from whatever the constructor left:

* an event is admitted only with no storage read under way and no `blockConcurrencyWhile`
  callback running, and the events are admitted in the order of the mailbox;
* the storage results are delivered in the order in which they came, and so are the other
  callbacks, none lost and none twice: those of a kind that were received are those that
  were delivered and those that wait;
* a callback that is not a storage result is delivered only with no read under way, exactly
  if no such callback is delivered with a failure recorded and a read under way. -/
theorem input_gate (cfg : Config) (glue : Glue) (first : ObjectEvent) (actions : List Action)
    (s : State) (hrun : (machine cfg glue first).run actions = some s) :
    (∀ x ∈ s.admitted, x.2.reads = 0 ∧ x.2.blocked = 0) ∧
    s.admitted.map Prod.fst = List.range s.admitted.length ∧
    (∀ storage : Bool,
      ((s.delivered.map Prod.fst).filter fun x => x.isObjectStorage == storage) ++
        (s.pending.filter fun x => x.isObjectStorage == storage) =
        (s.arrived.take s.received).filter fun x => x.isObjectStorage == storage) ∧
    ((∀ x ∈ s.delivered, x.1.isObjectStorage = false → x.2.reads = 0) ↔
      (machine cfg glue first).Meets Guard (machine cfg glue first).init actions) := by
  have hevents : EventsInv s :=
    (machine cfg glue first).invariant EventsInv.init EventsInv.step hrun
  have hcallbacks : CallbacksInv s :=
    (machine cfg glue first).invariant CallbacksInv.init CallbacksInv.step hrun
  refine ⟨hevents.admitted, ?_, hcallbacks.order, ?_⟩
  · have horder := hevents.order
    rw [append_assoc] at horder
    have htake := congrArg (List.take s.admitted.length) horder
    rw [take_left' (length_map _), take_range] at htake
    have hle : s.admitted.length ≤ s.taken := by
      have := congrArg List.length horder
      simp at this
      omega
    rw [htake, min_eq_left hle]
  · exact (machine cfg glue first).iff_meets (I := Undisturbed)
      (by simp [Undisturbed, machine, init])
      undisturbed_step hrun

/-- A read of the first event holds back the result of a fetch that came before its own. -/
def readingRun : List Action :=
  [.poll, .admitEvent [.startRead] none, .arrive (.fetchStreamingSuccess 1 1),
    .arrive (.objectStorage 0 (.values [none])), .endAdmission, .deliver [.endRead], .deliver [],
    .endDrain]

theorem input_gate_reading :
    ∃ s, (machine ⟨1000, 1000⟩ ⟨0, 0, none⟩ .fetch).run readingRun = some s ∧
    s.delivered.map Prod.fst = [.objectStorage 0 (.values [none]), .fetchStreamingSuccess 1 1] ∧
    ∀ x ∈ s.delivered, x.1.isObjectStorage = false → x.2.reads = 0 := by
  have h := input_gate ⟨1000, 1000⟩ ⟨0, 0, none⟩ .fetch readingRun _ rfl
  exact ⟨_, rfl, rfl, h.2.2.2.mpr (by decide)⟩

/-- The handler of an event makes a fetch, a write and a read and awaits none of them.  The
write fails, and then the result of the fetch is delivered although the read is still under
way. -/
theorem callback_passes_read_after_failure :
    ∃ s, (machine ⟨1000, 1000⟩ ⟨0, 0, none⟩ .fetch).run
      [.poll, .admitEvent [.startRead] none, .arrive (.objectStorage 0 (.error "disk full")),
        .arrive (.fetchStreamingSuccess 1 1), .endAdmission,
        .deliver [.fail "a storage write failed: disk full"], .deliver []] = some s ∧
      (.fetchStreamingSuccess 1 1, ⟨0, 1, some "a storage write failed: disk full"⟩) ∈
        s.delivered :=
  ⟨_, rfl, by decide⟩

end OpenWorkers.Object.Serve
