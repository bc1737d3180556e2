import OpenWorkers.Lib.Log
import OpenWorkers.Pool.AsyncWaiter
import Mathlib.Data.List.Nodup

/-!
# The order in which the turn is given

The queue of `AsyncWaiter` orders the wake-ups.  Who gets the lock is decided where a request is
polled: whoever asks first while the lock is free gets it, whether it has been woken or not.  So
the order of the queue is the order of the turns only in the runs in which requests ask `InTurn`.

`granted` is what an observer sees of the turns.  `Behind b c` says that `c` does not come before
`b`, and is what one step keeps; the rest is an induction on the run.
-/

namespace OpenWorkers.Pool.FairQueue

open List Machine

/-- Who gets the lock in a step. -/
def granted (s : State) : Action → List Nat
  | .compareExchange r => if s.waiter.locked then [] else [r]
  | .arrive | .push _ | .store _ | .popWake _ | .wake _ | .finish _ => []

namespace State

/-- The last `try_lock` of the request returned false. -/
def Waits (s : State) (r : Nat) : Prop := s.requests[r]?.map Request.pc = some .waiting

instance (s : State) (r : Nat) : Decidable (s.Waits r) :=
  inferInstanceAs (Decidable (_ = some Pc.waiting))

/-- The requests that wait. -/
def waiting (s : State) : List Nat := (List.range s.requests.length).filter fun r => s.Waits r

end State

/-- A request does not ask while its waker is queued.  While the lock is free and others wait, only
a request that was woken in its turn asks, with all others in the queue.  No `unlock` pops a waker
after the lock has been taken again. -/
def InTurn (s : State) : Action → Prop
  | .compareExchange r => r ∉ s.waiter.queue ∧ (s.waiter.locked = false →
      ∀ w ∈ s.waiting, w ≠ r → s.Waits r ∧ w ∈ s.waiter.queue)
  | .popWake _ => s.waiter.locked = true → s.waiter.queue = []
  | .arrive | .push _ | .store _ | .wake _ | .finish _ => True

instance (s : State) (a : Action) : Decidable (InTurn s a) := by
  apply @Action.casesOn _ a <;> intros <;> dsimp only [InTurn] <;> infer_instance

variable {s s' : State} {a : Action} {b c r w : Nat} {q q' x : Request}

namespace State

theorem waits_iff : s.Waits r ↔ ∃ q, s.requests[r]? = some q ∧ q.pc = .waiting :=
  Option.map_eq_some_iff

theorem waits_of_getElem? (hq : s.requests[r]? = some q) : s.Waits r ↔ q.pc = .waiting := by
  rw [Waits, hq]
  exact Option.some_inj

theorem mem_waiting : r ∈ s.waiting ↔ s.Waits r := by
  rw [waiting, mem_filter, mem_range, decide_eq_true_iff, and_iff_right_iff_imp]
  intro h
  obtain ⟨q, hq, -⟩ := waits_iff.mp h
  exact (List.getElem?_eq_some_iff.mp hq).1

theorem waits_put_ne (hne : w ≠ r) : (s.put r q').Waits w ↔ s.Waits w := by
  rw [Waits, getElem?_put_ne hne, Waits]

/-- Who waits after a request has come to a place where it does not. -/
theorem waits_put (hq : s.requests[r]? = some q) (hpc : q'.pc ≠ .waiting) :
    (s.put r q').Waits w ↔ w ≠ r ∧ s.Waits w := by
  by_cases heq : w = r
  · subst heq
    rw [waits_of_getElem? (getElem?_put_self hq)]
    exact iff_of_false hpc fun h => h.1 rfl
  · rw [waits_put_ne heq, and_iff_right heq]

theorem waits_wake : (s.wake r).Waits w ↔ s.Waits w := by
  rw [waits_iff, waits_iff]
  constructor
  · rintro ⟨x, hx, hwaiting⟩
    obtain ⟨y, hy, hpc, -⟩ := of_getElem?_wake hx
    exact ⟨y, hy, hpc ▸ hwaiting⟩
  · rintro ⟨x, hx, hwaiting⟩
    obtain ⟨y, hy, hpc, -⟩ := getElem?_wake hx
    exact ⟨y, hy, hpc.trans hwaiting⟩

theorem waits_arrive :
    State.Waits { s with requests := s.requests ++ [⟨.out, false⟩] } w ↔ s.Waits w := by
  rw [waits_iff, waits_iff]
  constructor
  · rintro ⟨x, hx, hwaiting⟩
    rcases of_getElem?_concat hx with ⟨-, rfl⟩ | hx
    · cases hwaiting
    · exact ⟨x, hx, hwaiting⟩
  · rintro ⟨x, hx, hwaiting⟩
    refine ⟨x, ?_, hwaiting⟩
    show (s.requests ++ _)[w]? = _
    rw [getElem?_append_left (List.getElem?_eq_some_iff.mp hx).1, hx]

end State

/-! ## The queue -/

/-- Nobody is in the queue twice or without having failed to get the lock, and while somebody has
the lock whoever waits is in the queue. -/
structure Line (s : State) : Prop where
  nodup : s.waiter.queue.Nodup
  placed : ∀ w ∈ s.waiter.queue, ∃ q, s.requests[w]? = some q ∧ (q.pc = .waiting ∨ q.pc = .ended)
  queued : s.waiter.locked = true → ∀ w, s.Waits w → w ∈ s.waiter.queue

theorem line_init : Line machine.init where
  nodup := nodup_nil
  placed _ hw := absurd hw not_mem_nil
  queued := by rintro ⟨⟩

namespace Line

/-- A request is not in the queue before its push. -/
theorem notMem_queue (h : Line s) (hq : s.requests[r]? = some q) (hpc : q.pc ≠ .waiting)
    (hended : q.pc ≠ .ended) : r ∉ s.waiter.queue := by
  intro hmem
  obtain ⟨x, hx, hor⟩ := h.placed r hmem
  cases hq.symm.trans hx
  exact hor.elim hpc hended

/-- A request comes to a place where it does not wait. -/
theorem put (h : Line s) (hq : s.requests[r]? = some q) (hpc : q'.pc ≠ .waiting)
    (hr : r ∈ s.waiter.queue → q'.pc = .ended) {locked : Bool}
    (hlocked : locked = true → ∀ w, w ≠ r → s.Waits w → w ∈ s.waiter.queue) :
    Line { s.put r q' with waiter := { s.waiter with locked } } where
  nodup := h.nodup
  placed w hw := by
    by_cases heq : w = r
    · subst heq
      exact ⟨q', State.getElem?_put_self hq, .inr (hr hw)⟩
    · obtain ⟨x, hx, hor⟩ := h.placed w hw
      exact ⟨x, (State.getElem?_put_ne heq).trans hx, hor⟩
  queued hl w hw := by
    obtain ⟨hne, hw⟩ := (State.waits_put hq hpc).mp hw
    exact hlocked hl w hne hw

theorem push (h : Line s) (hq : s.requests[r]? = some q) (hpc : q.pc = .pushing) :
    Line { s.put r { q with pc := .waiting } with waiter := s.waiter.pushBack r } := by
  have hr := h.notMem_queue hq (by rw [hpc]; rintro ⟨⟩) (by rw [hpc]; rintro ⟨⟩)
  refine ⟨h.nodup.append (nodup_singleton r) (disjoint_singleton.mpr hr), fun w hw => ?_,
    fun hlocked w hw => ?_⟩
  · rcases mem_append.mp hw with hw | hw
    · obtain ⟨x, hx, hor⟩ := h.placed w hw
      exact ⟨x, (State.getElem?_put_ne (ne_of_mem_of_not_mem hw hr)).trans hx, hor⟩
    · cases mem_singleton.mp hw
      exact ⟨_, State.getElem?_put_self hq, .inl rfl⟩
  · by_cases heq : w = r
    · exact mem_append_right _ (mem_singleton.mpr heq)
    · exact mem_append_left _ (h.queued hlocked w ((State.waits_put_ne heq).mp hw))

theorem wake (h : Line s) (r : Nat) : Line (s.wake r) where
  nodup := h.nodup
  placed w hw := by
    obtain ⟨x, hx, hor⟩ := h.placed w hw
    obtain ⟨y, hy, hpc, -⟩ := State.getElem?_wake hx
    exact ⟨y, hy, hpc ▸ hor⟩
  queued hlocked w hw := h.queued hlocked w (State.waits_wake.mp hw)

theorem arrive (h : Line s) : Line { s with requests := s.requests ++ [⟨.out, false⟩] } where
  nodup := h.nodup
  placed w hw := by
    obtain ⟨x, hx, hor⟩ := h.placed w hw
    refine ⟨x, ?_, hor⟩
    show (s.requests ++ _)[w]? = _
    rw [getElem?_append_left (List.getElem?_eq_some_iff.mp hx).1, hx]
  queued hlocked w hw := h.queued hlocked w (State.waits_arrive.mp hw)

/-- The first waker is popped while the lock is free. -/
theorem pop (h : Line s) {queue : List Waker} (hqueue : s.waiter.queue = w :: queue)
    (hfree : s.waiter.locked = false) :
    Line { s.wake w with waiter := { s.waiter with queue } } := by
  have hw := h.wake w
  refine ⟨?_, fun v hv => hw.placed v ?_, fun hlocked => ?_⟩
  · have hnodup := h.nodup
    rw [hqueue] at hnodup
    exact hnodup.of_cons
  · show v ∈ s.waiter.queue
    rw [hqueue]
    exact mem_cons_of_mem _ hv
  · rw [hfree] at hlocked
    cases hlocked

theorem step (h : Line s) (hturn : InTurn s a) (hstep : step s a = some s') : Line s' := by
  cases of_step hstep with
  | arrive => exact h.arrive
  | @lock r q hq hpolls hfree =>
      refine h.put hq (by rintro ⟨⟩) (fun hr => absurd hr hturn.1) fun _ w hne hw => ?_
      exact (hturn.2 hfree w (State.mem_waiting.mpr hw) hne).2
  | @fail r q hq hpolls hlocked =>
      exact h.put hq (by rintro ⟨⟩) (fun hr => absurd hr hturn.1)
        fun _ w _ hw => h.queued hlocked w hw
  | push hq hpc => exact h.push hq hpc
  | @store r q hq hpc =>
      have hr := h.notMem_queue hq (by rw [hpc]; rintro ⟨⟩) (by rw [hpc]; rintro ⟨⟩)
      exact h.put hq (by rintro ⟨⟩) (fun hin => absurd hin hr) (by rintro ⟨⟩)
  | @popNone r q hq hpc hqueue =>
      have hr := h.notMem_queue hq (by rw [hpc]; rintro ⟨⟩) (by rw [hpc]; rintro ⟨⟩)
      exact h.put hq (by rintro ⟨⟩) (fun hin => absurd hin hr) fun hl w _ hw => h.queued hl w hw
  | @pop r w q queue hq hpc hqueue =>
      have hr := h.notMem_queue hq (by rw [hpc]; rintro ⟨⟩) (by rw [hpc]; rintro ⟨⟩)
      have hout : Line (s.put r { q with pc := .out }) :=
        h.put hq (by rintro ⟨⟩) (fun hin => absurd hin hr) fun hl w _ hw => h.queued hl w hw
      refine hout.pop hqueue ((Bool.not_eq_true _).mp fun hlocked => ?_)
      have hnil : s.waiter.queue = [] := hturn hlocked
      rw [hqueue] at hnil
      cases hnil
  | wake r => exact h.wake r
  | finish hq hpolls =>
      exact h.put hq (by rintro ⟨⟩) (fun _ => rfl) fun hl w _ hw => h.queued hl w hw

end Line

/-! ## Who is behind whom -/

/-- `b` waits, and as long as it is in the queue `c` has not been woken for the turn and is not
before `b`. -/
def Behind (b c : Nat) (s : State) : Prop :=
  s.Waits b ∧
    (b ∈ s.waiter.queue → s.Waits c → c ∈ s.waiter.queue ∧ ¬ [c, b].Sublist s.waiter.queue)

namespace Behind

theorem ne (h : Behind b c s) (hq : s.requests[r]? = some q) (hpc : q.pc ≠ .waiting) : b ≠ r := by
  rintro rfl
  exact hpc ((State.waits_of_getElem? hq).mp h.1)

/-- A request comes to a place where it does not wait. -/
theorem put (h : Behind b c s) (hq : s.requests[r]? = some q) (hpc : q'.pc ≠ .waiting)
    (hne : b ≠ r) (locked : Bool) :
    Behind b c { s.put r q' with waiter := { s.waiter with locked } } := by
  refine ⟨(State.waits_put_ne hne).mpr h.1, fun hb hc => ?_⟩
  exact h.2 hb ((State.waits_put hq hpc).mp hc).2

theorem push (h : Behind b c s) (hline : Line s) (hq : s.requests[r]? = some q)
    (hpc : q.pc = .pushing) :
    Behind b c { s.put r { q with pc := .waiting } with waiter := s.waiter.pushBack r } := by
  have hr := hline.notMem_queue hq (by rw [hpc]; rintro ⟨⟩) (by rw [hpc]; rintro ⟨⟩)
  have hne := h.ne hq (by rw [hpc]; rintro ⟨⟩)
  refine ⟨(State.waits_put_ne hne).mpr h.1, fun hb hc => ?_⟩
  have hb : b ∈ s.waiter.queue :=
    (mem_append.mp hb).resolve_right fun hb => hne (mem_singleton.mp hb)
  have hbefore : ∀ hsub : [c, b].Sublist (s.waiter.queue ++ [r]), [c, b].Sublist s.waiter.queue :=
    fun hsub => sublist_of_concat_ne (p := [c]) hsub hne
  by_cases heq : c = r
  · -- It comes to the end of the queue, and was not there before.
    refine ⟨mem_append_right _ (mem_singleton.mpr heq), fun hsub => hr ?_⟩
    rw [← heq]
    exact (hbefore hsub).subset mem_cons_self
  · obtain ⟨hmem, hnot⟩ := h.2 hb ((State.waits_put_ne heq).mp hc)
    exact ⟨mem_append_left _ hmem, fun hsub => hnot (hbefore hsub)⟩

theorem wake (h : Behind b c s) (r : Nat) : Behind b c (s.wake r) :=
  ⟨State.waits_wake.mpr h.1, fun hb hc => h.2 hb (State.waits_wake.mp hc)⟩

/-- If `c` were popped while `b` is in the queue, it would have been before it. -/
theorem pop (h : Behind b c s) {queue : List Waker} (hqueue : s.waiter.queue = w :: queue) :
    Behind b c { s.wake w with waiter := { s.waiter with queue } } := by
  refine ⟨(h.wake w).1, fun hb hc => ?_⟩
  have hb : b ∈ queue := hb
  obtain ⟨hmem, hnot⟩ := h.2 (hqueue ▸ mem_cons_of_mem w hb) (State.waits_wake.mp hc)
  rw [hqueue] at hmem hnot
  rcases mem_cons.mp hmem with rfl | hmem
  · exact absurd (singleton_sublist.mpr hb |>.cons_cons c) hnot
  · exact ⟨hmem, fun hsub => hnot (hsub.cons w)⟩

/-- Who is behind a request does not get the lock, and stays behind it as long as it waits. -/
theorem step (h : Behind b c s) (hline : Line s) (hturn : InTurn s a)
    (hstep : step s a = some s') (hfinish : a ≠ .finish b) (hb : b ∉ granted s a) :
    Behind b c s' ∧ c ∉ granted s a := by
  cases of_step hstep with
  | arrive =>
      refine ⟨⟨State.waits_arrive.mpr h.1, fun hb hc => ?_⟩, not_mem_nil⟩
      exact h.2 hb (State.waits_arrive.mp hc)
  | @lock r q hq hpolls hfree =>
      rw [granted, if_neg (by rw [hfree]; exact Bool.false_ne_true)] at hb ⊢
      have hne : b ≠ r := fun heq => hb (mem_singleton.mpr heq)
      obtain ⟨hr, hin⟩ := hturn.2 hfree b (State.mem_waiting.mpr h.1) hne
      refine ⟨h.put hq (by rintro ⟨⟩) hne true, fun hc => hturn.1 ?_⟩
      cases mem_singleton.mp hc
      exact (h.2 hin hr).1
  | @fail r q hq hpolls hlocked =>
      rw [granted, if_pos hlocked]
      have hne : b ≠ r := by
        rintro rfl
        exact hturn.1 (hline.queued hlocked b h.1)
      exact ⟨h.put hq (by rintro ⟨⟩) hne s.waiter.locked, not_mem_nil⟩
  | push hq hpc => exact ⟨h.push hline hq hpc, not_mem_nil⟩
  | @store r q hq hpc =>
      have hne := h.ne hq (by rw [hpc]; rintro ⟨⟩)
      exact ⟨h.put hq (by rintro ⟨⟩) hne false, not_mem_nil⟩
  | @popNone r q hq hpc hqueue =>
      have hne := h.ne hq (by rw [hpc]; rintro ⟨⟩)
      exact ⟨h.put hq (by rintro ⟨⟩) hne s.waiter.locked, not_mem_nil⟩
  | @pop r w q queue hq hpc hqueue =>
      have hne := h.ne hq (by rw [hpc]; rintro ⟨⟩)
      have hout : Behind b c (s.put r { q with pc := .out }) :=
        h.put hq (by rintro ⟨⟩) hne s.waiter.locked
      exact ⟨hout.pop hqueue, not_mem_nil⟩
  | wake r => exact ⟨h.wake r, not_mem_nil⟩
  | @finish r q hq hpolls =>
      have hne : b ≠ r := by
        rintro rfl
        exact hfinish rfl
      exact ⟨h.put hq (by rintro ⟨⟩) hne s.waiter.locked, not_mem_nil⟩

end Behind

/-! ## Runs -/

/-- Whoever is behind a request that goes on waiting does not get the lock, and nobody gets it
twice. -/
theorem granted_of_waits {after : List Action} {t : State} (hline : Line s) (hb : s.Waits b)
    (hturn : machine.Meets InTurn s after) (hrun : machine.runFrom s after = some t)
    (hfinish : .finish b ∉ after) (hnot : b ∉ machine.logFrom granted s after) :
    (∀ c, Behind b c s → c ∉ machine.logFrom granted s after) ∧
      (machine.logFrom granted s after).Nodup := by
  induction after generalizing s with
  | nil => exact ⟨fun _ _ => not_mem_nil, nodup_nil⟩
  | cons a after ih =>
      obtain ⟨s', hstep, hrest⟩ := runFrom_cons_eq_some.mp hrun
      obtain ⟨hturn, hturns⟩ := (meets_cons hstep).mp hturn
      rw [logFrom_cons hstep] at hnot ⊢
      obtain ⟨hnow, hlater⟩ := not_or.mp (mem_append.not.mp hnot)
      have hfinishes : a ≠ .finish b := fun heq => hfinish (heq ▸ mem_cons_self)
      have hstays {c : Nat} (hc : Behind b c s) : Behind b c s' ∧ c ∉ granted s a :=
        hc.step hline hturn hstep hfinishes hnow
      -- A request that waits is behind itself, as it is in the queue once.
      have hself : Behind b b s := by
        refine ⟨hb, fun hin _ => ⟨hin, fun hsub => ?_⟩⟩
        exact not_nodup_pair b (hline.nodup.sublist hsub)
      obtain ⟨hlog, hnodup⟩ := ih (hline.step hturn hstep) (hstays hself).1.1 hturns hrest
        (fun hmem => hfinish (mem_cons_of_mem a hmem)) hlater
      constructor
      · intro c hc hmem
        rcases mem_append.mp hmem with hmem | hmem
        · exact (hstays hc).2 hmem
        · exact hlog c (hstays hc).1 hmem
      · refine List.Nodup.append ?_ hnodup fun c hc hmem => hlog c ?_ hmem
        · cases a with
          | compareExchange r =>
              rw [granted]
              split
              · exact nodup_nil
              · exact nodup_singleton r
          | _ => exact nodup_nil
        · -- Whoever has just got the lock does not wait.
          refine ⟨(hstays hself).1.1, fun _ hwaits => absurd hwaits ?_⟩
          cases of_step hstep with
          | lock hq hpolls hfree =>
              rw [granted, if_neg (by rw [hfree]; exact Bool.false_ne_true)] at hc
              cases mem_singleton.mp hc
              exact fun hwaits => ((State.waits_put hq (by rintro ⟨⟩)).mp hwaits).1 rfl
          | fail hq hpolls hlocked =>
              rw [granted, if_pos hlocked] at hc
              cases hc
          | _ => cases hc

/-- Who asks in a step. -/
def asks (_ : State) : Action → List Nat
  | .compareExchange r => [r]
  | .arrive | .push _ | .store _ | .popWake _ | .wake _ | .finish _ => []

/-- Whoever waits, or is about to, has asked. -/
theorem asked_step (s : State) (log : List Nat) (a : Action) (s' : State)
    (h : ∀ c q, s.requests[c]? = some q → q.pc = .pushing ∨ q.pc = .waiting → c ∈ log)
    (hstep : step s a = some s') :
    ∀ c q, s'.requests[c]? = some q → q.pc = .pushing ∨ q.pc = .waiting → c ∈ log ++ asks s a := by
  intro c q hc hpc
  have old {x : Request} (hx : s.requests[c]? = some x) (hpc : x.pc = .pushing ∨ x.pc = .waiting) :
      c ∈ log ++ asks s a := mem_append_left _ (h c x hx hpc)
  -- Where the request that changes is not one of them afterwards, the others are as before.
  have others {r : Nat} {x y : Request} (hy : (s.put r x).requests[c]? = some y)
      (hpc : y.pc = .pushing ∨ y.pc = .waiting) (hx : x.pc ≠ .pushing ∧ x.pc ≠ .waiting) :
      c ∈ log ++ asks s a := by
    rcases State.of_getElem?_put hy with ⟨-, rfl⟩ | ⟨-, hy⟩
    · exact (hpc.elim hx.1 hx.2).elim
    · exact old hy hpc
  cases of_step hstep with
  | arrive =>
      rcases of_getElem?_concat hc with ⟨-, rfl⟩ | hc
      · rcases hpc with ⟨⟨⟩⟩ | ⟨⟨⟩⟩
      · exact old hc hpc
  | lock | fail =>
      rcases State.of_getElem?_put hc with ⟨rfl, -⟩ | ⟨-, hc⟩
      · exact mem_append_right _ mem_cons_self
      · exact old hc hpc
  | push hq hpushing =>
      rcases State.of_getElem?_put hc with ⟨rfl, -⟩ | ⟨-, hc⟩
      · exact old hq (.inl hpushing)
      · exact old hc hpc
  | store | popNone | finish => exact others hc hpc ⟨by rintro ⟨⟩, by rintro ⟨⟩⟩
  | pop =>
      obtain ⟨y, hy, hpc', -⟩ := State.of_getElem?_wake hc
      exact others hy (hpc' ▸ hpc) ⟨by rintro ⟨⟩, by rintro ⟨⟩⟩
  | wake r =>
      obtain ⟨y, hy, hpc', -⟩ := State.of_getElem?_wake hc
      exact old hy (hpc' ▸ hpc)

theorem asked_of_waits {as : List Action} (hrun : machine.run as = some s) (hc : s.Waits c) :
    .compareExchange c ∈ as := by
  obtain ⟨q, hq, hwaiting⟩ := State.waits_iff.mp hc
  have hlog : ∀ c q, s.requests[c]? = some q → q.pc = .pushing ∨ q.pc = .waiting →
      c ∈ machine.log asks as :=
    invariant_log (m := machine) (I := fun s log =>
      ∀ c q, s.requests[c]? = some q → q.pc = .pushing ∨ q.pc = .waiting → c ∈ log)
    (fun _ _ hq => absurd (mem_of_getElem? hq) not_mem_nil) asked_step hrun
  obtain ⟨bs, a, cs, r, r', rfl, -, -, hmem⟩ :=
    exists_of_mem_logFrom hrun (hlog c q hq (.inr hwaiting))
  cases a with
  | compareExchange r =>
      cases mem_singleton.mp hmem
      exact mem_append_right _ mem_cons_self
  | _ => cases hmem

/-- In a run in which requests ask in turn, as long as a request whose `try_lock` has failed goes
on waiting, whoever gets the lock asked for it before, and gets it only once.  So the request is
overtaken at most as often as there were others waiting. -/
theorem turn_goes_first_come_first_served {before after : List Action} {s t : State} {b : Nat}
    (hturn : machine.Meets InTurn machine.init (before ++ [.push b] ++ after))
    (hfailed : machine.run (before ++ [.push b]) = some s)
    (hrun : machine.runFrom s after = some t)
    (hwaits : .finish b ∉ after ∧ b ∉ machine.logFrom granted s after) :
    (∀ c ∈ machine.logFrom granted s after, .compareExchange c ∈ before) ∧
      (machine.logFrom granted s after).Nodup ∧
      (machine.logFrom granted s after).length < s.waiting.length := by
  obtain ⟨hturn, hturns⟩ := (meets_append hfailed).mp hturn
  have hline : Line s := invariant_of_meets line_init
    (fun _ _ _ hline hturn hstep => hline.step hturn hstep) hturn hfailed
  have hb : s.Waits b := by
    obtain ⟨s₀, -, hpush⟩ := runFrom_concat_eq_some.mp hfailed
    have hpush : step s₀ (.push b) = some s := hpush
    cases of_step hpush with
    | push hq hpc => exact (State.waits_of_getElem? (State.getElem?_put_self hq)).mpr rfl
  obtain ⟨hlog, hnodup⟩ := granted_of_waits hline hb hturns hrun hwaits.1 hwaits.2
  have hbefore : ∀ c ∈ machine.logFrom granted s after, s.Waits c := fun c hc =>
    by_contra fun hnot => hlog c ⟨hb, fun _ hwaits => absurd hwaits hnot⟩ hc
  refine ⟨fun c hc => ?_, hnodup, ?_⟩
  · rcases mem_append.mp (asked_of_waits hfailed (hbefore c hc)) with hmem | hmem
    · exact hmem
    · cases mem_singleton.mp hmem
  · have hsub : (b :: machine.logFrom granted s after) ⊆ s.waiting := by
      rintro c hc
      rcases mem_cons.mp hc with rfl | hc
      · exact State.mem_waiting.mpr hb
      · exact State.mem_waiting.mpr (hbefore c hc)
    exact ((nodup_cons.mpr ⟨hwaits.2, hnodup⟩).subperm hsub).length_le

/-- Requests 1 and 2 wait for the lock; the first of them gets it in its turn. -/
theorem turn_goes_first_come_first_served_two :
    ∃ s t, machine.run ([.arrive, .arrive, .arrive, .compareExchange 0, .compareExchange 1, .push 1,
        .compareExchange 2] ++ [.push 2]) = some s ∧
      machine.runFrom s [.store 0, .popWake 0, .compareExchange 1] = some t ∧
      machine.logFrom granted s [.store 0, .popWake 0, .compareExchange 1] = [1] ∧
      (∀ c ∈ [1], Action.compareExchange c ∈ [Action.arrive, .arrive, .arrive, .compareExchange 0,
        .compareExchange 1, .push 1, .compareExchange 2]) ∧ [1].length < s.waiting.length := by
  have hturn : machine.Meets InTurn machine.init
      (([.arrive, .arrive, .arrive, .compareExchange 0, .compareExchange 1, .push 1,
        .compareExchange 2] : List Action) ++ ([.push 2] : List Action) ++
          ([.store 0, .popWake 0, .compareExchange 1] : List Action)) := by decide
  have h := turn_goes_first_come_first_served hturn rfl rfl (by decide)
  exact ⟨_, _, rfl, rfl, rfl, h.1, h.2.2⟩

/-! ## Overtaking -/

/-- Another request takes the free lock before request 1 is polled; a request that waits in the
queue after request 1 is polled before the waker of request 1 is popped; and the waker of request 1
is popped for nothing, since the lock has been taken again, so that it comes to the end of the
queue. -/
theorem turn_goes_to_a_later_request :
    (∃ s t, machine.run ([.arrive, .arrive, .compareExchange 0, .compareExchange 1] ++ [.push 1]) =
        some s ∧
      machine.runFrom s [.store 0, .popWake 0, .arrive, .compareExchange 2, .store 2, .popWake 2,
        .compareExchange 2] = some t ∧
      machine.logFrom granted s [.store 0, .popWake 0, .arrive, .compareExchange 2, .store 2,
        .popWake 2, .compareExchange 2] = [2, 2] ∧ t.Waits 1) ∧
    (∃ s t, machine.run ([.arrive, .arrive, .compareExchange 0, .compareExchange 1] ++ [.push 1]) =
        some s ∧
      machine.runFrom s [.arrive, .compareExchange 2, .push 2, .store 0, .compareExchange 2] =
        some t ∧
      machine.logFrom granted s [.arrive, .compareExchange 2, .push 2, .store 0,
        .compareExchange 2] = [2] ∧ t.Waits 1) ∧
    ∃ s t, machine.run ([.arrive, .arrive, .arrive, .compareExchange 0, .store 0,
        .compareExchange 2, .compareExchange 1] ++ [.push 1]) = some s ∧
      machine.runFrom s [.popWake 0, .arrive, .compareExchange 3, .push 3, .compareExchange 1,
        .push 1, .store 2, .popWake 2, .compareExchange 3] = some t ∧
      machine.logFrom granted s [.popWake 0, .arrive, .compareExchange 3, .push 3,
        .compareExchange 1, .push 1, .store 2, .popWake 2, .compareExchange 3] = [3] ∧ t.Waits 1 :=
  ⟨⟨_, _, rfl, rfl, rfl, by decide⟩, ⟨_, _, rfl, rfl, rfl, by decide⟩,
    ⟨_, _, rfl, rfl, rfl, by decide⟩⟩

end OpenWorkers.Pool.FairQueue
