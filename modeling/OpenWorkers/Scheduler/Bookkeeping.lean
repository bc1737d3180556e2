import OpenWorkers.Scheduler.Pending

/-!
# What is kept of a timer that is over

Three tables know a timer by its id: the loop has the timers it armed and the set `cancelled`,
and the guest has its map of callbacks.  A timer is over when it has fired, was cleared or went
with a reset, and the tables should shrink with it.  They are compared when no message of a
timer is in flight (`State.Still`).

A `ClearTimer` is the end of a timer only if it finds the timer armed: the set `cancelled` is
looked up when a timer expires, so the id of a timer that does not expire any more stays.  The
callback of a timeout that throws, or of one whose delay does, stays in the map, and a reset
empties the map but leaves the intervals to the loop.  `Tidy` is a run without those.
-/

namespace OpenWorkers.Scheduler.Timers

open List Object

variable {s s' : State}

/-- No message of a timer is in flight, either way. -/
def State.Still (s : State) : Prop :=
  (∀ message ∈ s.toScheduler, unrelated message = true) ∧
    ∀ message ∈ s.toGuest, expired message = none

instance (s : State) : Decidable s.Still :=
  inferInstanceAs (Decidable (_ ∧ _))

/-- The tables have nothing of a timer that is over. -/
structure Bounded (s : State) : Prop where
  cancelled : ∀ id ∈ s.loop.cancelled, ∃ timer ∈ s.loop.timers, timer.id = id
  intervals : ∀ timer ∈ s.loop.timers, timer.isInterval = true →
    s.Holds timer.id ∨ timer.id ∈ s.loop.cancelled
  /-- A callback is the one of an armed timer or of a wait, or the guest is in the middle of
  setting its timer or of running it. -/
  callbacks : ∀ id, s.Holds id → (∃ timer ∈ s.loop.timers, timer.id = id) ∨ id ∈ s.writables ∨
    id ∈ s.calls.map Prod.fst ∨ s.executing = some id

/-- The timer that a message clears. -/
def clears : SchedulerMessage → Option CallbackId
  | .clearTimer id => some id
  | _ => none

/-- What a step must not do: the loop takes no `ClearTimer` of a timer that it has not armed, no
delay and no callback of a timeout throws, unless the callback was cleared, and a context is
reset with every interval cleared. -/
def Tidy (s : State) : Op → Prop
  | .handle _ => ∀ id ∈ s.toScheduler.head?.bind clears, ∃ timer ∈ s.loop.timers, timer.id = id
  | .abandon _ => False
  | .finish threw => threw = true → ∀ id ∈ s.executing, id ∈ s.intervalIds ∨ ¬ s.Holds id
  | .reset => s.intervalIds = []
  | .set _ | .schedule _ _ | .wait _ | .clear _ | .send _ | .expire _ | .writable _ | .answer _
  | .deliver _ => True

instance (s : State) (op : Op) : Decidable (Tidy s op) := by
  cases op <;> dsimp only [Tidy] <;> infer_instance

/-! ## What the tables hold -/

/-- The timer is not over: it is to come, its expiry is on its way, or its callback runs. -/
def State.Lives (s : State) (id : CallbackId) : Prop :=
  (∃ interval, id ∈ s.pending interval) ∨ id ∈ s.toGuest.filterMap expired ∨
    s.executing = some id

structure Kept (s : State) : Prop where
  armed : ∀ id ∈ s.loop.cancelled, ∃ timer ∈ s.loop.timers, timer.id = id
  cancelled : ∀ id ∈ s.loop.cancelled, ¬ s.Holds id
  /-- The callback of a timer that is to be cleared is gone, or the timer was cleared before it
  was set. -/
  cleared : ∀ before id after, s.toScheduler = before ++ .clearTimer id :: after → s.Holds id →
    ∃ interval, id ∈ s.calls.filterMap (called interval) ∨ id ∈ after.filterMap (arms interval)
  repeating : ∀ id ∈ s.pending true,
    (id ∈ s.intervalIds ∧ s.Holds id) ∨ .clearTimer id ∈ s.toScheduler ∨ id ∈ s.loop.cancelled
  interval : ∀ id ∈ s.intervalIds, s.Holds id → id ∈ s.pending true
  callbacks : ∀ id, s.Holds id → s.Lives id

theorem kept_init : Kept machine.init where
  armed _ h := absurd h not_mem_nil
  cancelled _ h := absurd h not_mem_nil
  cleared before _ _ h := by cases before <;> cases h
  repeating _ h := absurd h not_mem_nil
  interval _ h := absurd h not_mem_nil
  callbacks _ h := absurd rfl h

/-- A step that registers a callback under a new id `n`, of an interval or not. -/
theorem Kept.register {n : CallbackId} (hs : Kept s) (hn : Numbered s) (interval : Bool)
    (hnext : n = s.nextTimerId) (hloop : s'.loop = s.loop) (htoGuest : s'.toGuest = s.toGuest)
    (hexecuting : s'.executing = s.executing)
    (hholds : ∀ id, s'.Holds id ↔ s.Holds id ∨ id = n)
    (hintervals : ∀ id, id ∈ s'.intervalIds ↔ id ∈ s.intervalIds ∨ interval = true ∧ id = n)
    (hpending : ∀ b id, id ∈ s'.pending b ↔ id ∈ s.pending b ∨ b = interval ∧ id = n)
    (hsent : ∀ message ∈ s.toScheduler, message ∈ s'.toScheduler)
    (hcleared : ∀ before id after, s'.toScheduler = before ++ .clearTimer id :: after →
      ∃ after', s.toScheduler = before ++ .clearTimer id :: after' ∧
        ∀ b, id ∈ s.calls.filterMap (called b) ∨ id ∈ after'.filterMap (arms b) ∨
            b = interval ∧ id = n →
          id ∈ s'.calls.filterMap (called b) ∨ id ∈ after.filterMap (arms b)) : Kept s' where
  armed := hloop ▸ hs.armed
  cancelled id hid := by
    rw [hloop] at hid
    rw [hholds]
    rintro (hheld | rfl)
    · exact hs.cancelled id hid hheld
    · obtain ⟨timer, htimer, htimer_id⟩ := hs.armed id hid
      have hlt := hn.lt (mem_pending_of_armed htimer)
      rw [htimer_id, hnext] at hlt
      exact Nat.lt_irrefl _ hlt
  cleared before id after heq hheld := by
    obtain ⟨after', heq', hmem⟩ := hcleared before id after heq
    rcases (hholds id).mp hheld with hheld | rfl
    · obtain ⟨b, h | h⟩ := hs.cleared before id after' heq' hheld
      · exact ⟨b, hmem b (.inl h)⟩
      · exact ⟨b, hmem b (.inr (.inl h))⟩
    · exact ⟨interval, hmem interval (.inr (.inr ⟨rfl, rfl⟩))⟩
  repeating id hid := by
    rw [hholds, hintervals, hloop]
    rcases (hpending true id).mp hid with hid | ⟨rfl, rfl⟩
    · rcases hs.repeating id hid with ⟨hinterval, hheld⟩ | hclear | hcancelled
      · exact .inl ⟨.inl hinterval, .inl hheld⟩
      · exact .inr (.inl (hsent _ hclear))
      · exact .inr (.inr hcancelled)
    · exact .inl ⟨.inr ⟨rfl, rfl⟩, .inr rfl⟩
  interval id hid hheld := by
    rw [hpending]
    rcases (hintervals id).mp hid with hid | ⟨rfl, rfl⟩
    · rcases (hholds id).mp hheld with hheld | rfl
      · exact .inl (hs.interval id hid hheld)
      · exact absurd (hn.intervals _ hid) (hnext ▸ Nat.lt_irrefl _)
    · exact .inr ⟨rfl, rfl⟩
  callbacks id hheld := by
    rcases (hholds id).mp hheld with hheld | rfl
    · rcases hs.callbacks id hheld with ⟨b, hid⟩ | hexpired | hrunning
      · exact .inl ⟨b, (hpending b id).mpr (.inl hid)⟩
      · exact .inr (.inl (htoGuest ▸ hexpired))
      · exact .inr (.inr (hexecuting ▸ hrunning))
    · exact .inl ⟨interval, (hpending interval id).mpr (.inr ⟨rfl, rfl⟩)⟩

theorem mem_pending_iff_of_count {b : Bool} {id : CallbackId} {new : Option CallbackId}
    (h : (s'.pending b).count id = new.toList.count id + (s.pending b).count id) :
    id ∈ s'.pending b ↔ id ∈ s.pending b ∨ new = some id := by
  rw [← count_pos_iff, h, Nat.add_pos_iff_pos_or_pos, count_pos_iff,
    count_pos_iff, Option.mem_toList, or_comm]

theorem called_eq_some {b interval : Bool} {n id : CallbackId} :
    called b (n, interval) = some id ↔ b = interval ∧ id = n := by
  cases b <;> cases interval <;> simp [called, eq_comm]

theorem arms_writable_eq_some {b : Bool} {n id : CallbackId} {stream : StreamId} :
    arms b (.scheduleWritable n stream) = some id ↔ b = false ∧ id = n := by
  cases b <;> simp [arms, eq_comm]

theorem kept_set (hs : Kept s) (hn : Numbered s) (interval : Bool) :
    Kept { s.register with
      intervalIds := if interval then s.nextTimerId :: s.intervalIds else s.intervalIds
      calls := (s.nextTimerId, interval) :: s.calls } := by
  refine hs.register hn interval rfl rfl rfl rfl ?_ ?_ ?_ (fun _ h => h) ?_
  · exact fun id => ⟨holds_register, register_holds id⟩
  · intro id
    cases interval with
    | false => simp
    | true => simp [or_comm]
  · intro b id
    rw [mem_pending_iff_of_count (pending_set s interval b id), called_eq_some]
  · intro before id after heq
    refine ⟨after, heq, fun b h => ?_⟩
    rw [← or_assoc, or_right_comm] at h
    refine h.imp_left fun h => count_pos_iff.mp ?_
    rw [count_filterMap_cons, Nat.add_pos_iff_pos_or_pos, count_pos_iff,
      count_pos_iff, Option.mem_toList, called_eq_some]
    exact h.symm

theorem kept_wait (hs : Kept s) (hn : Numbered s) (stream : StreamId) :
    Kept { s.register with
      toScheduler := s.toScheduler ++ [.scheduleWritable s.nextTimerId stream] } := by
  refine hs.register hn false rfl rfl rfl rfl ?_ ?_ ?_ (fun _ h => mem_append_left _ h) ?_
  · exact fun id => ⟨holds_register, register_holds id⟩
  · intro id
    simp [State.register]
  · intro b id
    rw [mem_pending_iff_of_count (pending_wait s stream b id), arms_writable_eq_some]
  · intro before id after heq
    rcases split_concat heq with ⟨-, hclear, -⟩ | ⟨after', rfl, hsent⟩
    · cases hclear
    · refine ⟨after', hsent, fun b h => ?_⟩
      rw [filterMap_append, mem_append]
      rcases h with h | h | h
      · exact .inl h
      · exact .inr (.inl h)
      · refine .inr (.inr (mem_filterMap.mpr ⟨_, mem_singleton_self _, ?_⟩))
        exact arms_writable_eq_some.mpr h

/-- A step that moves a timer on, at most: the map of the guest and the loop stay as they are. -/
theorem Kept.move (hs : Kept s) (hloop : s'.loop = s.loop)
    (hcallbacks : s'.timerCallbacks = s.timerCallbacks)
    (hintervals : s'.intervalIds = s.intervalIds)
    (hpending : ∀ b id, id ∈ s'.pending b ↔ id ∈ s.pending b)
    (htoGuest : ∀ message ∈ s.toGuest, message ∈ s'.toGuest)
    (hexecuting : s'.executing = s.executing) {message : SchedulerMessage}
    (hclears : clears message = none) (hsent : s'.toScheduler = s.toScheduler ++ [message])
    (hcalls : ∀ b id, id ∈ s.calls.filterMap (called b) →
      id ∈ s'.calls.filterMap (called b) ∨ arms b message = some id) : Kept s' := by
  have hholds : ∀ id, s'.Holds id ↔ s.Holds id := fun id => by
    unfold State.Holds
    rw [hcallbacks]
  refine ⟨hloop ▸ hs.armed, fun id hid => ?_, fun before id after heq hheld => ?_, fun id hid => ?_,
    fun id hid hheld => ?_, fun id hheld => ?_⟩
  · rw [hholds]
    rw [hloop] at hid
    exact hs.cancelled id hid
  · rw [hsent] at heq
    rcases split_concat heq with ⟨-, rfl, -⟩ | ⟨after', rfl, hbefore⟩
    · cases hclears
    · have hlast : ∀ {b}, arms b message = some id →
          id ∈ (after' ++ [message]).filterMap (arms b) := fun h =>
        mem_filterMap.mpr ⟨message, mem_append_right _ (mem_singleton_self _), h⟩
      obtain ⟨b, h | h⟩ := hs.cleared before id after' hbefore ((hholds id).mp hheld)
      · exact ⟨b, (hcalls b id h).imp_right hlast⟩
      · refine ⟨b, .inr ?_⟩
        rw [filterMap_append]
        exact mem_append_left _ h
  · rw [hholds, hintervals, hloop, hsent]
    rcases hs.repeating id ((hpending true id).mp hid) with hheld | hclear | hcancelled
    · exact .inl hheld
    · exact .inr (.inl (mem_append_left _ hclear))
    · exact .inr (.inr hcancelled)
  · rw [hintervals] at hid
    exact (hpending true id).mpr (hs.interval id hid ((hholds id).mp hheld))
  · rcases hs.callbacks id ((hholds id).mp hheld) with ⟨b, h⟩ | h | h
    · exact .inl ⟨b, (hpending b id).mpr h⟩
    · obtain ⟨m, hm, hexpired⟩ := mem_filterMap.mp h
      exact .inr (.inl (mem_filterMap.mpr ⟨m, htoGuest m hm, hexpired⟩))
    · exact .inr (.inr (hexecuting.trans h))

theorem clears_of_unrelated {message : SchedulerMessage} (h : unrelated message = true) :
    clears message = none := by
  cases message <;> first | rfl | cases h

theorem kept_schedule (hs : Kept s) {id : CallbackId} {interval : Bool} {delayMs : Nat}
    {calls : List (CallbackId × Bool)} (hcalls : s.calls = (id, interval) :: calls) :
    Kept { s with
      calls
      toScheduler := s.toScheduler ++
        [if interval then .scheduleInterval id delayMs else .scheduleTimeout id delayMs] } := by
  refine hs.move rfl rfl rfl (fun b id' => mem_pending_congr (pending_schedule hcalls b id'))
    (fun _ h => h) rfl ?_ rfl ?_
  · cases interval <;> rfl
  · intro b id' h
    rw [hcalls] at h
    obtain ⟨call, hcall, hid⟩ := mem_filterMap.mp h
    rcases mem_cons.mp hcall with rfl | hcall
    · right
      obtain ⟨rfl, rfl⟩ := called_eq_some.mp hid
      cases b <;> rfl
    · exact .inl (mem_filterMap.mpr ⟨call, hcall, hid⟩)

theorem kept_send (hs : Kept s) {message : SchedulerMessage} (h : unrelated message = true) :
    Kept { s with toScheduler := s.toScheduler ++ [message] } :=
  hs.move rfl rfl rfl
    (fun b _ => by rw [pending_send (s := s) (fun _ => arms_of_unrelated h) b])
    (fun _ h => h) rfl (clears_of_unrelated h) rfl fun _ _ h => .inl h

theorem kept_clear (hs : Kept s) (id : CallbackId) :
    Kept { s.delete id with
      intervalIds := s.intervalIds.filter (· ≠ id)
      toScheduler := s.toScheduler ++ [.clearTimer id] } := by
  have hpending : ∀ b, State.pending { s.delete id with
      intervalIds := s.intervalIds.filter (· ≠ id)
      toScheduler := s.toScheduler ++ [.clearTimer id] } b = s.pending b :=
    pending_send fun _ => rfl
  refine ⟨hs.armed, fun id' hid hheld => ?_, fun before id' after heq hheld => ?_,
    fun id' hid => ?_, fun id' hid hheld => ?_, fun id' hheld => ?_⟩
  · exact hs.cancelled id' hid (holds_delete_iff.mp hheld).1
  · obtain ⟨hheld, hne⟩ := holds_delete_iff.mp hheld
    rcases split_concat heq with ⟨-, hclear, -⟩ | ⟨after', rfl, hsent⟩
    · cases hclear
      exact absurd rfl hne
    · obtain ⟨b, h | h⟩ := hs.cleared before id' after' hsent hheld
      · exact ⟨b, .inl h⟩
      · refine ⟨b, .inr ?_⟩
        rw [filterMap_append]
        exact mem_append_left _ h
  · rw [hpending] at hid
    by_cases hne : id' = id
    · subst hne
      exact .inr (.inl (mem_append_right _ (mem_singleton_self _)))
    · rcases hs.repeating id' hid with ⟨hinterval, hheld⟩ | hclear | hcancelled
      · exact .inl ⟨mem_filter.mpr ⟨hinterval, decide_eq_true hne⟩,
          holds_delete_iff.mpr ⟨hheld, hne⟩⟩
      · exact .inr (.inl (mem_append_left _ hclear))
      · exact .inr (.inr hcancelled)
  · rw [hpending]
    exact hs.interval id' (mem_of_mem_filter hid) (holds_delete_iff.mp hheld).1
  · rcases hs.callbacks id' (holds_delete_iff.mp hheld).1 with ⟨b, h⟩ | h
    · exact .inl ⟨b, hpending b ▸ h⟩
    · exact .inr h

/-! ## The steps of the loop -/

theorem handle_cancelled {l l' : EventLoop} {message : SchedulerMessage}
    (hl : l.Becomes message l') (h : unrelated message = true) : l'.cancelled = l.cancelled := by
  cases hl with
  | timeout => cases h
  | interval => cases h
  | clear => cases h
  | _ => rfl

/-- What a message does to `cancelled`, if the loop has not armed the timer that it schedules and
has armed the one that it clears. -/
theorem cancelled_handle (l : EventLoop) (alive : Bool) (n : Nat) {message : SchedulerMessage}
    (harmed : ∀ id ∈ l.cancelled, ∃ timer ∈ l.timers, timer.id = id)
    (hnew : ∀ interval id, arms interval message = some id → id ∉ l.cancelled)
    (hclears : ∀ id, clears message = some id → ∃ timer ∈ l.timers, timer.id = id) :
    (∀ id, id ∈ (l.handle alive n message).1.cancelled ↔
        id ∈ l.cancelled ∨ clears message = some id) ∧
      ∀ id ∈ (l.handle alive n message).1.cancelled,
        ∃ timer ∈ (l.handle alive n message).1.timers, timer.id = id := by
  have hschedule : ∀ (timer : Timer), timer.id ∉ l.cancelled →
      (∀ id, id ∈ l.cancelled.filter (· ≠ timer.id) ↔ id ∈ l.cancelled ∨ none = some id) ∧
        ∀ id ∈ l.cancelled.filter (· ≠ timer.id), ∃ t ∈ l.timers ++ [timer], t.id = id := by
    intro timer hid
    have hfilter : l.cancelled.filter (· ≠ timer.id) = l.cancelled :=
      filter_eq_self.mpr fun id' h => decide_eq_true (ne_of_mem_of_not_mem h hid)
    rw [hfilter]
    refine ⟨fun id => ⟨.inl, fun h => h.resolve_right nofun⟩, fun id h => ?_⟩
    obtain ⟨t, ht, heq⟩ := harmed id h
    exact ⟨t, mem_append_left _ ht, heq⟩
  by_cases hunrelated : unrelated message = true
  · have hbecomes := l.becomes_handle alive n message
    rw [handle_cancelled hbecomes hunrelated, handle_timers hbecomes hunrelated,
      clears_of_unrelated hunrelated]
    exact ⟨fun id => ⟨.inl, fun h => h.resolve_right nofun⟩, harmed⟩
  cases message with
  | scheduleTimeout id delayMs => exact hschedule ⟨id, false, delayMs⟩ (hnew false id rfl)
  | scheduleInterval id intervalMs => exact hschedule ⟨id, true, intervalMs⟩ (hnew true id rfl)
  | scheduleWritable id stream => exact ⟨fun id => ⟨.inl, fun h => h.resolve_right nofun⟩, harmed⟩
  | clearTimer id =>
      have hmem : ∀ id', id' ∈ id :: l.cancelled.filter (· ≠ id) ↔
          id' ∈ l.cancelled ∨ some id = some id' := by
        intro id'
        by_cases heq : id = id' <;> simp [heq, eq_comm]
      refine ⟨hmem, fun id' h => ?_⟩
      rcases (hmem id').mp h with h | h
      · exact harmed id' h
      · exact hclears id' h
  | _ => exact absurd rfl hunrelated

theorem kept_handle (hs : Kept s) (hn : Numbered s) (alive : Bool) {message : SchedulerMessage}
    {toScheduler : List SchedulerMessage} (hqueue : s.toScheduler = message :: toScheduler)
    (hclears : ∀ id, clears message = some id → ∃ timer ∈ s.loop.timers, timer.id = id) :
    Kept { s with
      toScheduler
      loop := (s.loop.handle alive s.handled message).1
      handled := s.handled + 1
      writables := s.writables ++ (s.loop.handle alive s.handled message).2.filterMap waits } := by
  have hpending := fun b id => mem_pending_congr (pending_handle alive hqueue b id)
  have hnew : ∀ b id, arms b message = some id → id ∈ s.toScheduler.filterMap (arms b) :=
    fun b id h => mem_filterMap.mpr ⟨message, hqueue ▸ mem_cons_self, h⟩
  obtain ⟨hcancelled, harmed⟩ := cancelled_handle s.loop alive s.handled hs.armed
    (fun b id h hid => by
      obtain ⟨timer, htimer, heq⟩ := hs.armed id hid
      exact hn.not_armed (.inr (hnew b id h)) htimer heq) hclears
  refine ⟨harmed, fun id hid hheld => ?_, fun before id after heq hheld => ?_, fun id hid => ?_,
    fun id hid hheld => ?_, fun id hheld => ?_⟩
  · rcases (hcancelled id).mp hid with hid | hid
    · exact hs.cancelled id hid hheld
    · -- The timer is armed, so it was cleared after it was set, and its callback went.
      obtain ⟨timer, htimer, heq⟩ := hclears id hid
      have hmessage : message = .clearTimer id := by
        cases message <;> cases hid
        rfl
      subst hmessage
      obtain ⟨b, h | h⟩ := hs.cleared [] id toScheduler hqueue hheld
      · exact hn.not_armed (.inl h) htimer heq
      · obtain ⟨m, hm, harms⟩ := mem_filterMap.mp h
        refine hn.not_armed (.inr (mem_filterMap.mpr ⟨m, ?_, harms⟩)) htimer heq
        rw [hqueue]
        exact mem_cons_of_mem _ hm
  · refine hs.cleared (message :: before) id after ?_ hheld
    rw [hqueue]
    exact congrArg _ heq
  · rcases hs.repeating id ((hpending true id).mp hid) with h | h | h
    · exact .inl h
    · rw [hqueue] at h
      rcases mem_cons.mp h with rfl | h
      · exact .inr (.inr ((hcancelled id).mpr (.inr rfl)))
      · exact .inr (.inl h)
    · exact .inr (.inr ((hcancelled id).mpr (.inl h)))
  · exact (hpending true id).mpr (hs.interval id hid hheld)
  · rcases hs.callbacks id hheld with ⟨b, h⟩ | h
    · exact .inl ⟨b, (hpending b id).mpr h⟩
    · exact .inr h

/-- A timer other than the one that left is where it was. -/
theorem mem_pending_eraseIdx {k : Nat} {timer : Timer} (htimer : s.loop.timers[k]? = some timer)
    {cancelled : List CallbackId} {toGuest : List CallbackMessage} {b : Bool} {id : CallbackId}
    (hne : armed b timer ≠ some id) :
    id ∈ State.pending { s with
      loop := { s.loop with timers := s.loop.timers.eraseIdx k, cancelled }, toGuest } b ↔
      id ∈ s.pending b := by
  refine mem_pending_congr (Eq.trans ?_ (pending_eraseIdx htimer cancelled toGuest b id))
  rw [count_eq_zero.mpr (fun h => hne (Option.mem_toList.mp h)), Nat.add_zero]

theorem armed_ne {b : Bool} {timer : Timer} {id : CallbackId} (h : timer.id ≠ id) :
    armed b timer ≠ some id := by
  unfold armed
  split
  · exact fun heq => h (Option.some.inj heq)
  · exact nofun

theorem exists_mem_eraseIdx {k : Nat} {timer : Timer} {timers : List Timer}
    (htimer : timers[k]? = some timer) {id : CallbackId} (hne : timer.id ≠ id)
    (h : ∃ t ∈ timers, t.id = id) : ∃ t ∈ timers.eraseIdx k, t.id = id := by
  obtain ⟨t, ht, heq⟩ := h
  rcases (mem_iff_mem_eraseIdx htimer).mp ht with rfl | ht
  · exact absurd heq hne
  · exact ⟨t, ht, heq⟩

/-- The timer that left is nowhere. -/
theorem Numbered.gone (hn : Numbered s) {k : Nat} {timer : Timer}
    (htimer : s.loop.timers[k]? = some timer) (cancelled : List CallbackId)
    (toGuest : List CallbackMessage) (b : Bool) :
    timer.id ∉ State.pending { s with
      loop := { s.loop with timers := s.loop.timers.eraseIdx k, cancelled }, toGuest } b := by
  intro hmem
  have hpos := places_pos hmem
  have hplaces := hn.places timer.id
  rw [if_pos (hn.lt (mem_pending_of_armed (mem_of_getElem? htimer)))] at hplaces
  have htrue := pending_eraseIdx htimer cancelled toGuest true timer.id
  have hfalse := pending_eraseIdx htimer cancelled toGuest false timer.id
  have hone : (armed true timer).toList.count timer.id +
      (armed false timer).toList.count timer.id = 1 := by
    cases hinterval : timer.isInterval <;> simp [armed, hinterval]
  unfold State.places at hpos hplaces
  omega

theorem kept_expire_cancelled (hs : Kept s) (hn : Numbered s) {k : Nat} {timer : Timer}
    (htimer : s.loop.timers[k]? = some timer) (hcancelled : timer.id ∈ s.loop.cancelled)
    (toGuest : List CallbackMessage) (htoGuest : toGuest = s.toGuest) :
    Kept { s with
      loop := { s.loop with
        timers := s.loop.timers.eraseIdx k
        cancelled := s.loop.cancelled.filter (· ≠ timer.id) }
      toGuest } := by
  subst htoGuest
  have hne : ∀ {id}, s.Holds id → timer.id ≠ id := by
    rintro id hheld rfl
    exact hs.cancelled _ hcancelled hheld
  refine ⟨fun id hid => ?_, fun id hid => hs.cancelled id (mem_of_mem_filter hid),
    hs.cleared, fun id hid => ?_, fun id hid hheld => ?_, fun id hheld => ?_⟩
  · obtain ⟨hid, hne⟩ := mem_filter.mp hid
    exact exists_mem_eraseIdx htimer (Ne.symm (of_decide_eq_true hne)) (hs.armed id hid)
  · have hother : timer.id ≠ id := by
      rintro rfl
      exact hn.gone htimer _ _ true hid
    rcases hs.repeating id ((mem_pending_eraseIdx htimer (armed_ne hother)).mp hid) with h | h | h
    · exact .inl h
    · exact .inr (.inl h)
    · exact .inr (.inr (mem_filter.mpr ⟨h, decide_eq_true hother.symm⟩))
  · exact (mem_pending_eraseIdx htimer (armed_ne (hne hheld))).mpr (hs.interval id hid hheld)
  · rcases hs.callbacks id hheld with ⟨b, h⟩ | h
    · exact .inl ⟨b, (mem_pending_eraseIdx htimer (armed_ne (hne hheld))).mpr h⟩
    · exact .inr h

theorem kept_rearm (hs : Kept s) {k : Nat} {timer : Timer}
    (htimer : s.loop.timers[k]? = some timer) :
    Kept { s with
      loop := { s.loop with timers := s.loop.timers.eraseIdx k ++ [timer] }
      toGuest := s.toGuest ++ [.executeInterval timer.id] } := by
  have hpending := fun b id => mem_pending_congr
    (pending_rearm htimer (s.toGuest ++ [.executeInterval timer.id]) b id)
  refine ⟨fun id hid => ?_, hs.cancelled, hs.cleared, fun id hid => ?_, fun id hid hheld => ?_,
    fun id hheld => ?_⟩
  · obtain ⟨t, ht, heq⟩ := hs.armed id hid
    refine ⟨t, ?_, heq⟩
    rcases (mem_iff_mem_eraseIdx htimer).mp ht with rfl | ht
    · exact mem_append_right _ (mem_singleton_self _)
    · exact mem_append_left _ ht
  · exact hs.repeating id ((hpending true id).mp hid)
  · exact (hpending true id).mpr (hs.interval id hid hheld)
  · rcases hs.callbacks id hheld with ⟨b, h⟩ | h | h
    · exact .inl ⟨b, (hpending b id).mpr h⟩
    · refine .inr (.inl ?_)
      rw [filterMap_append]
      exact mem_append_left _ h
    · exact .inr (.inr h)

theorem kept_expire_timeout (hs : Kept s) {k : Nat} {timer : Timer}
    (htimer : s.loop.timers[k]? = some timer) (hcancelled : timer.id ∉ s.loop.cancelled)
    (hinterval : timer.isInterval = false) :
    Kept { s with
      loop := { s.loop with timers := s.loop.timers.eraseIdx k }
      toGuest := s.toGuest ++ [.executeTimeout timer.id] } := by
  have harmed : ∀ {id}, armed true timer ≠ some id := by
    simp [armed, hinterval]
  refine ⟨fun id hid => ?_, hs.cancelled, hs.cleared, fun id hid => ?_, fun id hid hheld => ?_,
    fun id hheld => ?_⟩
  · exact exists_mem_eraseIdx htimer (Ne.symm (ne_of_mem_of_not_mem hid hcancelled))
      (hs.armed id hid)
  · exact hs.repeating id ((mem_pending_eraseIdx htimer harmed).mp hid)
  · exact (mem_pending_eraseIdx htimer harmed).mpr (hs.interval id hid hheld)
  · by_cases hid : timer.id = id
    · refine .inr (.inl (mem_filterMap.mpr ⟨_, mem_append_right _
        (mem_singleton_self _), ?_⟩))
      exact congrArg some hid
    · rcases hs.callbacks id hheld with ⟨b, h⟩ | h | h
      · exact .inl ⟨b, (mem_pending_eraseIdx htimer (armed_ne hid)).mpr h⟩
      · refine .inr (.inl ?_)
        rw [filterMap_append]
        exact mem_append_left _ h
      · exact .inr (.inr h)

theorem kept_expire (hs : Kept s) (hn : Numbered s) {k : Nat} {loop : EventLoop}
    {message : Option CallbackMessage} (h : s.loop.Expires k loop message) :
    Kept { s with loop, toGuest := s.toGuest ++ message.toList } := by
  cases h with
  | cancelled htimer hcancelled =>
      exact kept_expire_cancelled hs hn htimer hcancelled _ (append_nil _)
  | interval htimer => exact kept_rearm hs htimer
  | timeout htimer hcancelled hinterval =>
      exact kept_expire_timeout hs htimer hcancelled hinterval

/-! ## The steps of the guest -/

/-- A step that the loop has no part in, and that takes callbacks away, if anything. -/
theorem Kept.guest (hs : Kept s) (hloop : s'.loop = s.loop)
    (htoScheduler : s'.toScheduler = s.toScheduler) (hcalls : s'.calls = s.calls)
    (hpending : s'.pending true = s.pending true) (hfewer : ∀ id, s'.Holds id → s.Holds id)
    (hintervals : s'.intervalIds ⊆ s.intervalIds)
    (hkeeps : ∀ id ∈ s.intervalIds, s.Holds id → id ∈ s'.intervalIds ∧ s'.Holds id)
    (hlives : ∀ id, s'.Holds id → s.Lives id → s'.Lives id) : Kept s' := by
  refine ⟨hloop ▸ hs.armed, fun id hid hheld => ?_, fun before id after heq hheld => ?_,
    fun id hid => ?_, fun id hid hheld => ?_,
    fun id hheld => hlives id hheld (hs.callbacks id (hfewer id hheld))⟩
  · rw [hloop] at hid
    exact hs.cancelled id hid (hfewer id hheld)
  · rw [htoScheduler] at heq
    rw [hcalls]
    exact hs.cleared before id after heq (hfewer id hheld)
  · rw [hpending] at hid
    rw [hloop, htoScheduler]
    rcases hs.repeating id hid with ⟨hinterval, hheld⟩ | h
    · exact .inl (hkeeps id hinterval hheld)
    · exact .inr h
  · rw [hpending]
    exact hs.interval id (hintervals hid) (hfewer id hheld)

theorem kept_writable (hs : Kept s) {id : CallbackId} (h : id ∈ s.writables) :
    Kept { s with
      writables := s.writables.erase id, toGuest := s.toGuest ++ [.executeTimeout id] } := by
  refine hs.guest rfl rfl rfl rfl (fun _ h => h) (List.Subset.refl _)
    (fun _ hid hheld => ⟨hid, hheld⟩) fun id' _ hlives => ?_
  rw [State.Lives, filterMap_append, mem_append]
  by_cases heq : id' = id
  · subst heq
    exact .inr (.inl (.inr (mem_singleton_self _)))
  · rcases hlives with ⟨b, hid⟩ | hid | hid
    · refine .inl ⟨b, (mem_pending_congr ?_).mpr hid⟩
      have hcount := pending_writable h (s.toGuest ++ [.executeTimeout id]) b id'
      have hzero : (if b then [] else [id]).count id' = 0 := by
        cases b <;> simp [Ne.symm heq]
      rwa [hzero] at hcount
    · exact .inr (.inl (.inl hid))
    · exact .inr (.inr hid)

theorem kept_answer (hs : Kept s) (message : CallbackMessage) :
    Kept { s with toGuest := s.toGuest ++ [message] } := by
  refine hs.guest rfl rfl rfl rfl (fun _ h => h) (List.Subset.refl _)
    (fun _ hid hheld => ⟨hid, hheld⟩) fun id _ hlives => ?_
  rw [State.Lives, filterMap_append, mem_append]
  rcases hlives with h | h | h
  · exact .inl h
  · exact .inr (.inl (.inl h))
  · exact .inr (.inr h)

theorem kept_deliver (hs : Kept s) {k : Nat} {message : CallbackMessage}
    (hmessage : s.toGuest[k]? = some message) (hexecuting : s.executing = none) :
    Kept { s with
      toGuest := s.toGuest.eraseIdx k
      executing := (expired message).filter fun id => (s.timerCallbacks id).isSome } := by
  refine hs.guest rfl rfl rfl rfl (fun _ h => h) (List.Subset.refl _)
    (fun _ hid hheld => ⟨hid, hheld⟩) fun id hheld hlives => ?_
  rcases hlives with h | h | h
  · exact .inl h
  · obtain ⟨m, hm, hexpired⟩ := mem_filterMap.mp h
    rcases (mem_iff_mem_eraseIdx hmessage).mp hm with rfl | hm
    · -- It is the expiry of this timer that is delivered, and the callback runs.
      have hsome : (s.timerCallbacks id).isSome = true := Option.isSome_iff_ne_none.mpr hheld
      exact .inr (.inr (Option.filter_eq_some_iff.mpr ⟨hexpired, hsome⟩))
    · exact .inr (.inl (mem_filterMap.mpr ⟨m, hm, hexpired⟩))
  · rw [hexecuting] at h
    cases h

theorem kept_finish (hs : Kept s) {threw : Bool} {id : CallbackId}
    (hexecuting : s.executing = some id)
    (htidy : threw = true → ∀ id ∈ s.executing, id ∈ s.intervalIds ∨ ¬ s.Holds id) :
    Kept { (if threw || id ∈ s.intervalIds then s else s.delete id) with executing := none } := by
  have hother : ∀ {id'}, id' ≠ id → s.executing ≠ some id' := by
    rintro id' hne heq
    exact hne (Option.some.inj (heq.symm.trans hexecuting))
  split
  · next hkept =>
    refine hs.guest rfl rfl rfl rfl (fun _ h => h) (List.Subset.refl _)
      (fun _ hid hheld => ⟨hid, hheld⟩) fun id' hheld hlives => ?_
    by_cases hid : id' = id
    · -- The callback stays in the map, as the one of an interval that is armed again.
      subst hid
      have hinterval : id' ∈ s.intervalIds := by
        rcases Bool.or_eq_true_iff.mp hkept with hthrew | hinterval
        · exact (htidy hthrew id' hexecuting).resolve_right fun h => h hheld
        · exact of_decide_eq_true hinterval
      exact .inl ⟨true, hs.interval id' hinterval hheld⟩
    · rcases hlives with h | h | h
      · exact .inl h
      · exact .inr (.inl h)
      · exact absurd h (hother hid)
  · next hdeleted =>
    have hinterval : id ∉ s.intervalIds := fun h => hdeleted (by simp [h])
    refine hs.guest rfl rfl rfl rfl (fun id' h => (holds_delete_iff.mp h).1) (List.Subset.refl _)
      (fun id' hid hheld => ⟨hid, holds_delete_iff.mpr ⟨hheld, ne_of_mem_of_not_mem hid hinterval⟩⟩)
      fun id' hheld hlives => ?_
    have hne : id' ≠ id := (holds_delete_iff.mp hheld).2
    rcases hlives with h | h | h
    · exact .inl h
    · exact .inr (.inl h)
    · exact absurd h (hother hne)

theorem kept_reset (hs : Kept s) (htidy : s.intervalIds = []) :
    Kept { s with timerCallbacks := fun _ => none, intervalIds := [], toGuest := [] } := by
  refine hs.guest rfl rfl rfl rfl (fun _ h => absurd rfl h) (nil_subset _) ?_
    fun _ h => absurd rfl h
  intro id hid
  rw [htidy] at hid
  exact absurd hid not_mem_nil

/-! ## Whole runs -/

theorem kept_step {op : Op} (hs : Kept s) (hn : Numbered s) (htidy : Tidy s op)
    (h : Stepped s op s') : Kept s' := by
  cases h with
  | set => exact kept_set hs hn _
  | schedule hcalls => exact kept_schedule hs hcalls
  | abandon => exact htidy.elim
  | wait => exact kept_wait hs hn _
  | clear => exact kept_clear hs _
  | send hunrelated => exact kept_send hs hunrelated
  | handle hqueue =>
      refine kept_handle hs hn _ hqueue fun id hclears => htidy id ?_
      rw [hqueue]
      exact hclears
  | expire hexpire => exact kept_expire hs hn (EventLoop.expires_of_expire hexpire)
  | writable hmem => exact kept_writable hs hmem
  | answer => exact kept_answer hs _
  | deliver hmessage hexecuting => exact kept_deliver hs hmessage hexecuting
  | finish hexecuting => exact kept_finish hs hexecuting htidy
  | reset => exact kept_reset hs htidy

theorem Kept.bounded (hs : Kept s) (hstill : s.Still) : Bounded s where
  cancelled := hs.armed
  intervals timer htimer hinterval := by
    have hmem := mem_pending_of_armed htimer
    rw [hinterval] at hmem
    rcases hs.repeating timer.id hmem with h | h | h
    · exact .inl h.2
    · cases hstill.1 _ h
    · exact .inr h
  callbacks id hheld := by
    rcases hs.callbacks id hheld with ⟨b, h⟩ | h | h
    · rw [State.pending, mem_append, mem_append, mem_append] at h
      rcases h with (h | h) | h | h
      · obtain ⟨call, hcall, hid⟩ := mem_filterMap.mp h
        obtain ⟨-, rfl⟩ := called_eq_some.mp hid
        exact .inr (.inr (.inl (mem_map_of_mem hcall)))
      · obtain ⟨message, hmessage, harms⟩ := mem_filterMap.mp h
        rw [arms_of_unrelated (hstill.1 message hmessage)] at harms
        cases harms
      · obtain ⟨timer, htimer, hid⟩ := mem_filterMap.mp h
        refine .inl ⟨timer, htimer, ?_⟩
        by_contra hne
        exact armed_ne hne hid
      · cases b with
        | true => cases h
        | false => exact .inr (.inl h)
    · obtain ⟨message, hmessage, hexpired⟩ := mem_filterMap.mp h
      rw [hstill.2 message hmessage] at hexpired
      cases hexpired
    · exact .inr (.inr (.inr h))

/-- **Timer bookkeeping.**  In a run in which the loop is told to clear armed timers only, neither
a delay nor a timeout throws, and no interval is left to a reset, the tables hold nothing of a
timer that is over whenever no message of a timer is in flight. -/
theorem timer_bookkeeping_is_bounded (ops : List Op) (s : State)
    (htidy : machine.Meets Tidy machine.init ops) (hrun : machine.run ops = some s)
    (hstill : s.Still) : Bounded s := by
  have hinv : Numbered s ∧ Kept s := by
    refine machine.invariant_of_meets (I := fun s => Numbered s ∧ Kept s)
      ⟨numbered_init, kept_init⟩ ?_ htidy hrun
    intro s op s' hs htidy hstep
    have hstepped := stepped_of_step hstep
    exact ⟨numbered_step hs.1 hstepped, kept_step hs.2 hs.1 htidy hstepped⟩
  exact hinv.2.bounded hstill

/-- An interval and a timeout.  The timeout fires, the interval fires and throws, and is cleared
before the context is reset. -/
def ended : List Op :=
  [.set true, .schedule 1 5, .set false, .schedule 2 10, .handle true, .handle true, .expire 1,
    .deliver 0, .finish false, .expire 0, .deliver 0, .finish true, .clear 1, .handle true,
    .expire 0, .reset]

theorem timer_bookkeeping_is_bounded_ended :
    machine.Meets Tidy machine.init ended ∧
      ∃ s, machine.run ended = some s ∧ s.Still ∧ s.loop.timers = [] ∧ Bounded s := by
  have htidy : machine.Meets Tidy machine.init ended := by decide
  obtain ⟨s, hrun, hstill, htimers⟩ :
      ∃ s, machine.run ended = some s ∧ s.Still ∧ s.loop.timers = [] :=
    ⟨_, rfl, by decide, rfl⟩
  exact ⟨htidy, s, hrun, hstill, htimers, timer_bookkeeping_is_bounded ended s htidy hrun hstill⟩

/-- Each way to leave something behind: `clearTimeout` of an id that no timer has, or of a timeout
that has fired, puts the id in `cancelled` for good; the callback of a timeout that throws, and of
one whose delay does, stays in the map; an interval stays armed after the reset that took its
callback. -/
theorem timer_that_is_over_leaves_traces :
    (∃ s, machine.run [.clear 7, .handle true] = some s ∧ s.Still ∧
      s.loop.cancelled = [7] ∧ s.loop.timers = [] ∧ ¬ Bounded s) ∧
    (∃ s, machine.run [.set false, .schedule 1 0, .handle true, .expire 0, .deliver 0,
        .finish false, .clear 1, .handle true] = some s ∧ s.Still ∧
      s.loop.cancelled = [1] ∧ s.loop.timers = [] ∧ ¬ Bounded s) ∧
    (∃ s, machine.run [.set false, .schedule 1 0, .handle true, .expire 0, .deliver 0,
        .finish true] = some s ∧ s.Still ∧ s.executing = none ∧ s.Holds 1 ∧
      s.loop.timers = [] ∧ ¬ Bounded s) ∧
    (∃ s, machine.run [.set false, .abandon 1] = some s ∧ s.Still ∧ s.calls = [] ∧ s.Holds 1 ∧
      s.loop.timers = [] ∧ ¬ Bounded s) ∧
    ∃ s, machine.run [.set true, .schedule 1 5, .handle true, .reset] = some s ∧ s.Still ∧
      s.loop.timers = [⟨1, true, 5⟩] ∧ s.loop.cancelled = [] ∧ ¬ s.Holds 1 ∧ ¬ Bounded s := by
  refine ⟨⟨_, rfl, by decide, rfl, rfl, fun h => ?_⟩, ⟨_, rfl, by decide, rfl, rfl, fun h => ?_⟩,
    ⟨_, rfl, by decide, rfl, by decide, rfl, fun h => ?_⟩,
    ⟨_, rfl, by decide, rfl, by decide, rfl, fun h => ?_⟩,
    ⟨_, rfl, by decide, rfl, rfl, by decide, fun h => ?_⟩⟩
  · obtain ⟨timer, htimer, -⟩ := h.cancelled 7 (by decide)
    cases htimer
  · obtain ⟨timer, htimer, -⟩ := h.cancelled 1 (by decide)
    cases htimer
  · exact absurd (h.callbacks 1 (by decide)) (by decide)
  · exact absurd (h.callbacks 1 (by decide)) (by decide)
  · exact absurd (h.intervals ⟨1, true, 5⟩ (by decide) rfl) (by decide)

/-- `clearTimeout` of `n` ids of no timer. -/
def clearings : Nat → List Op
  | 0 => []
  | n + 1 => clearings n ++ [.clear n, .handle true]

theorem run_clearings (n : Nat) :
    ∃ s, machine.run (clearings n) = some s ∧ s.toScheduler = [] ∧ s.toGuest = [] ∧
      s.loop = { EventLoop.init with cancelled := (List.range n).reverse } := by
  induction n with
  | zero => exact ⟨_, rfl, rfl, rfl, rfl⟩
  | succ n ih =>
      obtain ⟨s, hrun, hsent, hguest, hloop⟩ := ih
      have hfilter : (List.range n).reverse.filter (· ≠ n) = (List.range n).reverse := by
        refine filter_eq_self.mpr fun id h => decide_eq_true (Nat.ne_of_lt ?_)
        exact mem_range.mp (mem_reverse.mp h)
      have hleft : s.loop.left = false := by
        rw [hloop]
        rfl
      have hround : machine.runFrom s [.clear n, .handle true] = some { s.delete n with
          intervalIds := s.intervalIds.filter (· ≠ n)
          toScheduler := []
          loop := (s.loop.handle true s.handled (.clearTimer n)).1
          handled := s.handled + 1
          writables := s.writables ++ [] } := by
        simp only [Machine.runFrom, machine, step, State.delete, hsent, nil_append, hleft,
          Option.bind_some]
        rfl
      refine ⟨_, (Machine.run_append hrun).trans hround, rfl, hguest, ?_⟩
      simp only [EventLoop.handle, hloop, hfilter, range_succ, reverse_append,
        reverse_singleton, singleton_append]

/-- The set `cancelled` grows without a bound, with no timer armed. -/
theorem cancelled_grows (n : Nat) :
    ∃ s, machine.run (clearings n) = some s ∧ s.Still ∧ s.loop.timers = [] ∧
      s.loop.cancelled.length = n := by
  obtain ⟨s, hrun, hsent, hguest, hloop⟩ := run_clearings n
  refine ⟨s, hrun, ⟨?_, ?_⟩, ?_, ?_⟩
  · rw [hsent]
    exact nofun
  · rw [hguest]
    exact nofun
  · rw [hloop]
    rfl
  · rw [hloop, length_reverse, length_range]

end OpenWorkers.Scheduler.Timers
