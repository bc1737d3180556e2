import OpenWorkers.Scheduler.Timers

/-!
# The place of a timer

A timer that has not expired is in one place: the guest is setting it, its message is on its
way, or the loop has armed it or waits for its room.  A step moves it from one place to the
next or takes it away, and only the guest brings a new one, under a new id.
-/

namespace OpenWorkers.Scheduler.Timers

open List Object Function

variable {s s' : State}

/-- The map of the guest has a callback under the id. -/
def State.Holds (s : State) (id : CallbackId) : Prop := s.timerCallbacks id ≠ none

instance (s : State) (id : CallbackId) : Decidable (s.Holds id) :=
  inferInstanceAs (Decidable (s.timerCallbacks id ≠ none))

/-! ## The timers to come -/

/-- The intervals, or the timeouts and waits, that have not expired: the guest is setting them,
their message is on its way, or the loop has them. -/
def State.pending (s : State) (interval : Bool) : List CallbackId :=
  s.calls.filterMap (called interval) ++ s.toScheduler.filterMap (arms interval) ++
    (s.loop.timers.filterMap (armed interval) ++ if interval then [] else s.writables)

theorem count_pending (s : State) (interval : Bool) (id : CallbackId) :
    (s.pending interval).count id =
      (s.calls.filterMap (called interval)).count id +
      (s.toScheduler.filterMap (arms interval)).count id +
      (s.loop.timers.filterMap (armed interval) ++
        if interval then [] else s.writables).count id := by
  rw [State.pending, count_append, count_append]

/-- In how many places a timer is. -/
def State.places (s : State) (id : CallbackId) : Nat :=
  (s.pending true).count id + (s.pending false).count id

theorem places_pos {interval : Bool} {id : CallbackId} (h : id ∈ s.pending interval) :
    0 < s.places id := by
  have := count_pos_iff.mpr h
  unfold State.places
  cases interval <;> omega

theorem mem_pending_of_armed {timer : Timer} (h : timer ∈ s.loop.timers) :
    timer.id ∈ s.pending timer.isInterval :=
  mem_append_right _ (mem_append_left _
    (mem_filterMap.mpr ⟨timer, h, if_pos rfl⟩))

/-- The steps after which each timer is where it was, or further. -/
theorem mem_pending_congr {interval : Bool} {id : CallbackId}
    (h : (s'.pending interval).count id = (s.pending interval).count id) :
    id ∈ s'.pending interval ↔ id ∈ s.pending interval := by
  rw [← count_pos_iff, ← count_pos_iff, h]

theorem pending_set (s : State) (interval b : Bool) (id : CallbackId) :
    (State.pending { s.register with
      intervalIds := if interval then s.nextTimerId :: s.intervalIds else s.intervalIds
      calls := (s.nextTimerId, interval) :: s.calls } b).count id =
      (called b (s.nextTimerId, interval)).toList.count id + (s.pending b).count id := by
  simp only [State.register, count_pending, count_filterMap_cons]
  omega

theorem pending_wait (s : State) (stream : StreamId) (b : Bool) (id : CallbackId) :
    (State.pending { s.register with
      toScheduler := s.toScheduler ++ [.scheduleWritable s.nextTimerId stream] } b).count id =
      (arms b (.scheduleWritable s.nextTimerId stream)).toList.count id +
        (s.pending b).count id := by
  simp only [State.register, count_pending, filterMap_append, count_append,
    count_filterMap_cons, filterMap_nil, count_nil]
  omega

theorem pending_schedule {id : CallbackId} {interval : Bool} {delayMs : Nat}
    {calls : List (CallbackId × Bool)} (h : s.calls = (id, interval) :: calls) (b : Bool)
    (id' : CallbackId) :
    (State.pending { s with
      calls
      toScheduler := s.toScheduler ++
        [if interval then .scheduleInterval id delayMs else .scheduleTimeout id delayMs] } b).count
          id' = (s.pending b).count id' := by
  have harms : arms b (if interval then .scheduleInterval id delayMs
      else .scheduleTimeout id delayMs) = called b (id, interval) := by
    cases interval <;> cases b <;> rfl
  simp only [count_pending, h, filterMap_append, count_append,
    count_filterMap_cons, harms, filterMap_nil, count_nil]
  omega

theorem pending_send {message : SchedulerMessage} {callbacks : CallbackId → Option Nat}
    {intervalIds : List CallbackId} (h : ∀ b, arms b message = none) (b : Bool) :
    State.pending { s with
      timerCallbacks := callbacks, intervalIds, toScheduler := s.toScheduler ++ [message] } b =
      s.pending b := by
  simp only [State.pending, filterMap_append, filterMap_cons, h, filterMap_nil,
    append_nil]

theorem pending_handle {message : SchedulerMessage} {toScheduler : List SchedulerMessage}
    (alive : Bool) (h : s.toScheduler = message :: toScheduler) (b : Bool) (id : CallbackId) :
    (State.pending { s with
      toScheduler
      loop := (s.loop.handle alive s.handled message).1
      handled := s.handled + 1
      writables := s.writables ++
        (s.loop.handle alive s.handled message).2.filterMap waits } b).count id =
      (s.pending b).count id := by
  have hdue := congrArg (List.count id) (handle_due s.loop alive s.handled message b)
  simp only [count_append] at hdue
  simp only [count_pending, h, count_filterMap_cons, count_append]
  cases b <;>
    simp only [count_append, count_nil, Bool.false_eq_true, if_true, if_false]
      at hdue ⊢ <;>
    omega

theorem pending_eraseIdx {k : Nat} {timer : Timer} (htimer : s.loop.timers[k]? = some timer)
    (cancelled : List CallbackId) (toGuest : List CallbackMessage) (b : Bool) (id : CallbackId) :
    (State.pending { s with
      loop := { s.loop with timers := s.loop.timers.eraseIdx k, cancelled }, toGuest } b).count id +
        (armed b timer).toList.count id = (s.pending b).count id := by
  simp only [count_pending, count_append, count_filterMap_eraseIdx (armed b) htimer]
  omega

theorem pending_rearm {k : Nat} {timer : Timer} (htimer : s.loop.timers[k]? = some timer)
    (toGuest : List CallbackMessage) (b : Bool) (id : CallbackId) :
    (State.pending { s with
      loop := { s.loop with timers := s.loop.timers.eraseIdx k ++ [timer] }, toGuest } b).count id =
      (s.pending b).count id := by
  simp only [count_pending, count_append, filterMap_append,
    count_filterMap_eraseIdx (armed b) htimer, count_filterMap_cons,
    filterMap_nil, count_nil]
  omega

theorem pending_expire {k : Nat} {loop : EventLoop} {message : Option CallbackMessage}
    (h : s.loop.Expires k loop message) (toGuest : List CallbackMessage) (b : Bool)
    (id : CallbackId) :
    (State.pending { s with loop, toGuest } b).count id ≤ (s.pending b).count id := by
  cases h with
  | cancelled htimer => exact Nat.le.intro (pending_eraseIdx htimer _ toGuest b id)
  | interval htimer => exact Nat.le_of_eq (pending_rearm htimer toGuest b id)
  | timeout htimer => exact Nat.le.intro (pending_eraseIdx htimer _ toGuest b id)

theorem pending_writable {id : CallbackId} (h : id ∈ s.writables)
    (toGuest : List CallbackMessage) (b : Bool) (id' : CallbackId) :
    (State.pending { s with writables := s.writables.erase id, toGuest } b).count id' +
        (if b then [] else [id]).count id' = (s.pending b).count id' := by
  have herase := (perm_cons_erase h).count_eq id'
  rw [count_cons] at herase
  cases b <;> simp [count_pending, count_append, count_singleton, herase, Nat.add_assoc]

/-! ## A timer is in one place -/

/-- Ids are handed out once, and no table knows one that was not. -/
structure Numbered (s : State) : Prop where
  places : ∀ id, s.places id ≤ if id < s.nextTimerId then 1 else 0
  holds : ∀ id, s.Holds id → id < s.nextTimerId
  intervals : ∀ id ∈ s.intervalIds, id < s.nextTimerId

theorem numbered_init : Numbered machine.init where
  places _ := Nat.zero_le _
  holds _ h := absurd rfl h
  intervals _ h := absurd h not_mem_nil

theorem Numbered.lt (hs : Numbered s) {interval : Bool} {id : CallbackId}
    (h : id ∈ s.pending interval) : id < s.nextTimerId := by
  by_contra hle
  have hplaces := hs.places id
  rw [if_neg hle] at hplaces
  exact Nat.lt_irrefl 0 (Nat.lt_of_lt_of_le (places_pos h) hplaces)

/-- A timer that the loop has armed is not set any more, nor on its way. -/
theorem Numbered.not_armed (hs : Numbered s) {id : CallbackId} {interval : Bool}
    (h : id ∈ s.calls.filterMap (called interval) ∨
      id ∈ s.toScheduler.filterMap (arms interval)) {timer : Timer}
    (htimer : timer ∈ s.loop.timers) : timer.id ≠ id := by
  rintro rfl
  have hplaces := hs.places timer.id
  rw [if_pos (hs.lt (mem_pending_of_armed htimer)), State.places, count_pending,
    count_pending] at hplaces
  have harmed : 0 < (s.loop.timers.filterMap (armed timer.isInterval)).count timer.id :=
    count_pos_iff.mpr (mem_filterMap.mpr ⟨timer, htimer, if_pos rfl⟩)
  rcases h with h | h <;> have hother := count_pos_iff.mpr h <;>
    rw [count_append, count_append] at hplaces <;>
    cases hinterval : timer.isInterval <;> rw [hinterval] at harmed <;> cases interval <;> omega

theorem places_le {id : CallbackId}
    (h : ∀ b, (s'.pending b).count id ≤ (s.pending b).count id) : s'.places id ≤ s.places id :=
  Nat.add_le_add (h true) (h false)

theorem places_step {op : Op} (h : Stepped s op s') (id : CallbackId) :
    s'.places id ≤ s.places id ∨
      id = s.nextTimerId ∧ s'.nextTimerId = s.nextTimerId + 1 ∧
        s'.places id = s.places id + 1 := by
  cases h with
  | @set interval =>
      have htrue := pending_set s interval true id
      have hfalse := pending_set s interval false id
      by_cases hid : id = s.nextTimerId
      · refine .inr ⟨hid, rfl, ?_⟩
        unfold State.places
        rw [htrue, hfalse, hid]
        cases interval <;> simp [called] <;> omega
      · refine .inl (Nat.le_of_eq ?_)
        unfold State.places
        rw [htrue, hfalse]
        cases interval <;> simp [called, Ne.symm hid]
  | @wait stream =>
      have htrue := pending_wait s stream true id
      have hfalse := pending_wait s stream false id
      by_cases hid : id = s.nextTimerId
      · refine .inr ⟨hid, rfl, ?_⟩
        unfold State.places
        rw [htrue, hfalse, hid]
        simp [arms]
        omega
      · refine .inl (Nat.le_of_eq ?_)
        unfold State.places
        rw [htrue, hfalse]
        simp [arms, Ne.symm hid]
  | schedule hcalls => exact .inl (places_le fun b => Nat.le_of_eq (pending_schedule hcalls b id))
  | abandon hcalls =>
      refine .inl (places_le fun b => ?_)
      simp only [count_pending, hcalls, count_filterMap_cons]
      omega
  | clear =>
      refine .inl (places_le fun b => Nat.le_of_eq (congrArg _ ?_))
      exact pending_send (fun _ => rfl) b
  | send hunrelated =>
      refine .inl (places_le fun b => Nat.le_of_eq (congrArg _ ?_))
      exact pending_send (fun _ => arms_of_unrelated hunrelated) b
  | handle hqueue =>
      exact .inl (places_le fun b => Nat.le_of_eq (pending_handle _ hqueue b id))
  | expire hexpire =>
      have hexpires := EventLoop.expires_of_expire hexpire
      exact .inl (places_le fun b => pending_expire hexpires _ b id)
  | writable hmem =>
      exact .inl (places_le fun b => Nat.le.intro (pending_writable hmem _ b id))
  | answer => exact .inl (Nat.le_refl _)
  | deliver => exact .inl (Nat.le_refl _)
  | finish =>
      left
      split <;> exact Nat.le_refl _
  | reset => exact .inl (Nat.le_refl _)

theorem Numbered.of_places (hs : Numbered s) {op : Op} (h : Stepped s op s')
    (hnext : s.nextTimerId ≤ s'.nextTimerId) (hholds : ∀ id, s'.Holds id → id < s'.nextTimerId)
    (hintervals : ∀ id ∈ s'.intervalIds, id < s'.nextTimerId) : Numbered s' where
  places id := by
    have hplaces := hs.places id
    rcases places_step h id with hle | ⟨rfl, hnext', heq⟩
    · refine Nat.le_trans hle (Nat.le_trans hplaces ?_)
      split
      · next hlt => exact Nat.le_of_eq (if_pos (Nat.lt_of_lt_of_le hlt hnext)).symm
      · exact Nat.zero_le _
    · rw [if_neg (Nat.lt_irrefl _)] at hplaces
      rw [if_pos (hnext' ▸ Nat.lt_succ_self _), heq]
      exact Nat.succ_le_succ hplaces
  holds := hholds
  intervals := hintervals

theorem holds_register {id : CallbackId} (h : s.register.Holds id) :
    s.Holds id ∨ id = s.nextTimerId := by
  by_cases hid : id = s.nextTimerId
  · exact .inr hid
  · refine .inl fun hnone => h ?_
    rw [← hnone]
    exact update_of_ne hid _ _

theorem register_holds (id : CallbackId) (h : s.Holds id ∨ id = s.nextTimerId) :
    s.register.Holds id := by
  intro hnone
  rcases h with h | rfl
  · by_cases hid : id = s.nextTimerId
    · subst hid
      cases (update_self _ _ _).symm.trans hnone
    · exact h ((update_of_ne hid _ _).symm.trans hnone)
  · cases (update_self _ _ _).symm.trans hnone

theorem holds_delete_iff {id id' : CallbackId} :
    (s.delete id).Holds id' ↔ s.Holds id' ∧ id' ≠ id := by
  constructor
  · intro h
    have hne : id' ≠ id := by
      rintro rfl
      exact h (update_self _ _ _)
    exact ⟨fun hnone => h ((update_of_ne hne _ _).trans hnone), hne⟩
  · rintro ⟨h, hne⟩ hnone
    exact h ((update_of_ne hne _ _).symm.trans hnone)

theorem numbered_step {op : Op} (hs : Numbered s) (h : Stepped s op s') : Numbered s' := by
  have hlt : ∀ {id}, s.Holds id ∨ id = s.nextTimerId → id < s.nextTimerId + 1 := by
    rintro id (hid | rfl)
    · exact Nat.lt_succ_of_lt (hs.holds id hid)
    · exact Nat.lt_succ_self _
  have hold : ∀ id ∈ s.intervalIds, id < s.nextTimerId + 1 := fun id hid =>
    Nat.lt_succ_of_lt (hs.intervals id hid)
  cases h with
  | @set interval =>
      refine hs.of_places .set (Nat.le_succ _) (fun id hid => hlt (holds_register hid)) ?_
      cases interval with
      | false => exact hold
      | true =>
          intro id hid
          rcases mem_cons.mp hid with rfl | hid
          · exact Nat.lt_succ_self _
          · exact hold id hid
  | wait => exact hs.of_places .wait (Nat.le_succ _) (fun id hid => hlt (holds_register hid)) hold
  | clear =>
      refine hs.of_places .clear (Nat.le_refl _) ?_ ?_
      · exact fun id hid => hs.holds id (holds_delete_iff.mp hid).1
      · exact fun id hid => hs.intervals id (mem_of_mem_filter hid)
  | finish hexecuting =>
      refine hs.of_places (.finish hexecuting) ?_ ?_ ?_
      · split <;> exact Nat.le_refl _
      · split
        · exact hs.holds
        · exact fun id hid => hs.holds id (holds_delete_iff.mp hid).1
      · split <;> exact hs.intervals
  | reset hexecuting hcalls =>
      refine hs.of_places (.reset hexecuting hcalls) (Nat.le_refl _) ?_ ?_
      · exact fun id hid => absurd rfl hid
      · exact fun id hid => absurd hid not_mem_nil
  | schedule hcalls => exact hs.of_places (.schedule hcalls) (Nat.le_refl _) hs.holds hs.intervals
  | abandon hcalls => exact hs.of_places (.abandon hcalls) (Nat.le_refl _) hs.holds hs.intervals
  | send hunrelated =>
      exact hs.of_places (.send hunrelated) (Nat.le_refl _) hs.holds hs.intervals
  | handle hqueue => exact hs.of_places (.handle hqueue) (Nat.le_refl _) hs.holds hs.intervals
  | expire hexpire => exact hs.of_places (.expire hexpire) (Nat.le_refl _) hs.holds hs.intervals
  | writable hmem => exact hs.of_places (.writable hmem) (Nat.le_refl _) hs.holds hs.intervals
  | answer hexpired => exact hs.of_places (.answer hexpired) (Nat.le_refl _) hs.holds hs.intervals
  | deliver hmessage hexecuting =>
      exact hs.of_places (.deliver hmessage hexecuting) (Nat.le_refl _) hs.holds hs.intervals

end OpenWorkers.Scheduler.Timers
