import OpenWorkers.Scheduler.Standing

/-!
# Timers fire as their handles say

The map of the guest and the log agree on what stands under an id, but for the timeouts that
have expired: those leave the map.  A timeout has one expiry in all, on its way or delivered, so
a delivery finds in the map what stands.
-/

namespace OpenWorkers.Scheduler.Timers

open List Option Object Function

variable {s s' : State} {log : List Event} {interval : Bool}

/-! ## The invariant -/

/-- The event is the delivery of an expiry of the timer. -/
def Event.isDelivery (id : CallbackId) : Event → Bool
  | .delivered id' _ => id' = id
  | _ => false

/-- How many expiries of a timer the guest got. -/
def deliveries (log : List Event) (id : CallbackId) : Nat := log.countP (Event.isDelivery id)

theorem deliveries_pos {id : CallbackId} {ran : Option Nat} (h : .delivered id ran ∈ log) :
    0 < deliveries log id :=
  countP_pos_iff.mpr ⟨_, h, by simp [Event.isDelivery]⟩

structure Inv (s : State) (log : List Event) : Prop where
  next : s.nextTimerId = s.registered + 1
  registry : Registry s.registered log
  due : ∀ id ∈ s.due false, id ≤ s.registered
  delivered : ∀ id ran, .delivered id ran ∈ log → id ≤ s.registered
  repeating : ∀ id ∈ s.due true, ∃ callback, .set .interval id callback ∈ log
  /-- A timeout and a wait have one expiry in all. -/
  once : ∀ kind id callback, .set kind id callback ∈ log → kind ≠ .interval →
    (s.due false).count id + deliveries log id ≤ 1
  held : ∀ id callback, s.timerCallbacks id = some callback → standing log id = some callback
  /-- A callback that stands is in the map, unless it is the one of a timeout that expired. -/
  kept : ∀ id callback, standing log id = some callback →
    s.timerCallbacks id = some callback ∨
      (∃ ran, .delivered id ran ∈ log) ∧ ∃ kind, kind ≠ .interval ∧ .set kind id callback ∈ log
  interval : ∀ id callback, .set .interval id callback ∈ log →
    standing log id = some callback → id ∈ s.intervalIds
  executing : ∀ id, s.executing = some id → ∃ ran, .delivered id ran ∈ log
  faithful : Faithful log

theorem inv_init : Inv machine.init [] where
  next := rfl
  registry := registry_nil
  due _ h := absurd h not_mem_nil
  delivered _ _ h := absurd h not_mem_nil
  repeating _ h := absurd h not_mem_nil
  once _ _ _ h := absurd h not_mem_nil
  held _ _ h := by cases h
  kept _ _ h := by cases h
  interval _ _ h := absurd h not_mem_nil
  executing _ h := by cases h
  faithful := {
    cleared _ _ _ _ h := by cases h
    reset _ _ _ _ h := by cases h
    own before _ _ _ h := by cases before <;> cases h
    noOther _ _ h := absurd h not_mem_nil }

theorem Inv.quiet (h : Inv s log) (hq : Quiet s s') : Inv s' log where
  next := by
    rw [hq.next, hq.registered]
    exact h.next
  registry := by
    rw [hq.registered]
    exact h.registry
  due id hmem := by
    rw [hq.registered]
    refine h.due id (count_pos_iff.mp ?_)
    exact Nat.lt_of_lt_of_le (count_pos_iff.mpr hmem) (hq.once id)
  delivered := by
    rw [hq.registered]
    exact h.delivered
  repeating id hmem := h.repeating id (hq.repeating hmem)
  once kind id callback hset hkind :=
    Nat.le_trans (Nat.add_le_add_right (hq.once id) _) (h.once kind id callback hset hkind)
  held := by
    rw [hq.callbacks]
    exact h.held
  kept := by
    rw [hq.callbacks]
    exact h.kept
  interval := by
    rw [hq.intervals]
    exact h.interval
  executing := by
    rw [hq.executing]
    exact h.executing
  faithful := h.faithful

theorem deliveries_concat (log : List Event) (e : Event) (id : CallbackId) :
    deliveries (log ++ [e]) id = deliveries log id + if Event.isDelivery id e then 1 else 0 := by
  simp [deliveries, countP_append, countP_singleton]

theorem deliveries_eq_zero {id : CallbackId} (h : ∀ ran, .delivered id ran ∉ log) :
    deliveries log id = 0 := by
  refine countP_eq_zero.mpr fun e he hid => ?_
  cases e with
  | delivered id' ran =>
      cases of_decide_eq_true hid
      exact h ran he
  | set => cases hid
  | cleared => cases hid
  | reset => cases hid

/-! ### What an event more leaves as it is -/

section Concat

variable {e : Event} {id : CallbackId} {callback : Nat}

theorem Inv.repeating_concat (hs : Inv s log) (h : id ∈ s.due true) :
    ∃ callback, .set .interval id callback ∈ log ++ [e] := by
  obtain ⟨callback, hset⟩ := hs.repeating id h
  exact ⟨callback, mem_append_left _ hset⟩

theorem Inv.kept_concat (hs : Inv s log) (h : standing log id = some callback) :
    s.timerCallbacks id = some callback ∨ (∃ ran, .delivered id ran ∈ log ++ [e]) ∧
      ∃ kind, kind ≠ .interval ∧ .set kind id callback ∈ log ++ [e] := by
  rcases hs.kept id callback h with hkept | ⟨⟨ran, hran⟩, kind, hkind, hset⟩
  · exact .inl hkept
  · exact .inr ⟨⟨ran, mem_append_left _ hran⟩, kind, hkind, mem_append_left _ hset⟩

theorem Inv.executing_concat (hs : Inv s log) (h : s.executing = some id) :
    ∃ ran, .delivered id ran ∈ log ++ [e] := by
  obtain ⟨ran, hran⟩ := hs.executing id h
  exact ⟨ran, mem_append_left _ hran⟩

end Concat

/-- Nothing was due under the next id, and nothing delivered. -/
theorem Inv.next_fresh (hs : Inv s log) :
    (s.due false).count s.nextTimerId = 0 ∧ deliveries log s.nextTimerId = 0 := by
  rw [hs.next]
  constructor
  · exact count_eq_zero.mpr fun h => Nat.not_succ_le_self _ (hs.due _ h)
  · exact deliveries_eq_zero fun ran h => Nat.not_succ_le_self _ (hs.delivered _ _ h)

/-- An id that repeats is set as an interval only. -/
theorem Inv.kind_of_repeating {kind : Kind} {id : CallbackId} {callback : Nat} (hs : Inv s log)
    (h : id ∈ s.due true) (hset : .set kind id callback ∈ log) : kind = .interval := by
  obtain ⟨callback', hinterval⟩ := hs.repeating id h
  exact hs.registry.kind _ _ _ _ _ hset hinterval

/-- A callback is registered and its timer gets its one expiry, or its expiries. -/
theorem inv_register (kind : Kind) (hs : Inv s log)
    (hnext : s'.nextTimerId = s.nextTimerId + 1) (hregistered : s'.registered = s.registered + 1)
    (hcallbacks : s'.timerCallbacks =
      update s.timerCallbacks s.nextTimerId (some s.registered))
    (hexecuting : s'.executing = s.executing) (hintervals : s.intervalIds ⊆ s'.intervalIds)
    (hinterval : kind = .interval → s.nextTimerId ∈ s'.intervalIds)
    (honce : ∀ id, (s'.due false).count id ≤
      (s.due false).count id + (if kind = .interval then [] else [s.nextTimerId]).count id)
    (hrepeating : ∀ id ∈ s'.due true, id ∈ s.due true ∨ kind = .interval ∧ id = s.nextTimerId) :
    Inv s' (log ++ [.set kind s.nextTimerId s.registered]) := by
  have hnew : ∀ e, e ∈ log ++ [Event.set kind s.nextTimerId s.registered] →
      e ∈ log ∨ e = .set kind s.nextTimerId s.registered := by
    intro e he
    simpa using he
  have hold : ∀ {kind' id callback}, Event.set kind' id callback ∈ log → id ≠ s.nextTimerId := by
    intro kind' id callback hmem
    obtain ⟨hlt, rfl⟩ := hs.registry.number _ _ _ hmem
    rw [hs.next]
    exact Nat.ne_of_lt (Nat.succ_lt_succ hlt)
  have hother : ∀ {id}, id ≠ s.nextTimerId →
      (if kind = .interval then [] else [s.nextTimerId]).count id = 0 := by
    intro id hid
    refine count_eq_zero.mpr ?_
    split
    · exact not_mem_nil
    · exact fun h => hid (mem_singleton.mp h)
  refine ⟨?_, ?_, ?_, ?_, ?_, ?_, ?_, ?_, ?_, ?_, hs.faithful.event nofun⟩
  · rw [hnext, hregistered, hs.next]
  · rw [hregistered, hs.next]
    exact hs.registry.set kind
  · intro id hmem
    have hcount := Nat.lt_of_lt_of_le (count_pos_iff.mpr hmem) (honce id)
    rw [hregistered]
    by_cases hid : id = s.nextTimerId
    · exact Nat.le_of_eq (hid.trans hs.next)
    · rw [hother hid, Nat.add_zero, count_pos_iff] at hcount
      exact Nat.le_succ_of_le (hs.due id hcount)
  · intro id ran hmem
    rw [hregistered]
    exact Nat.le_succ_of_le (hs.delivered id ran ((hnew _ hmem).resolve_right nofun))
  · intro id hmem
    rcases hrepeating id hmem with hmem | ⟨rfl, rfl⟩
    · exact hs.repeating_concat hmem
    · exact ⟨s.registered, mem_append_right _ mem_cons_self⟩
  · intro kind' id callback hmem hkind
    rw [deliveries_concat]
    rcases hnew _ hmem with hmem | heq
    · have hcount := honce id
      rw [hother (hold hmem)] at hcount
      exact Nat.le_trans (Nat.add_le_add_right hcount _) (hs.once kind' id callback hmem hkind)
    · obtain ⟨rfl, rfl, rfl⟩ := Event.set.inj heq
      obtain ⟨hdue, hdelivered⟩ := hs.next_fresh
      have hcount := honce s.nextTimerId
      rw [if_neg hkind, count_singleton_self, hdue] at hcount
      rw [hdelivered]
      exact hcount
  · intro id callback hcallback
    rw [hcallbacks] at hcallback
    rw [standing_concat, stand]
    by_cases hid : id = s.nextTimerId
    · rw [hid, update_self] at hcallback ⊢
      exact hcallback
    · rw [update_of_ne hid] at hcallback ⊢
      exact hs.held id callback hcallback
  · intro id callback hstanding
    rw [standing_concat, stand] at hstanding
    rw [hcallbacks]
    by_cases hid : id = s.nextTimerId
    · rw [hid, update_self] at hstanding ⊢
      exact .inl hstanding
    · rw [update_of_ne hid] at hstanding ⊢
      exact hs.kept_concat hstanding
  · intro id callback hmem hstanding
    rcases hnew _ hmem with hmem | heq
    · rw [standing_concat, stand, update_of_ne (hold hmem)] at hstanding
      exact hintervals (hs.interval id callback hmem hstanding)
    · obtain ⟨rfl, rfl, rfl⟩ := Event.set.inj heq
      exact hinterval rfl
  · intro id h
    rw [hexecuting] at h
    exact hs.executing_concat h

/-- An event that takes timers away. -/
theorem inv_event {e : Event} (hs : Inv s log) (hregistry : Registry s.registered (log ++ [e]))
    (hset : ∀ kind id callback, e ≠ .set kind id callback)
    (hdelivered : ∀ id ran, e ≠ .delivered id ran)
    (hnext : s'.nextTimerId = s.nextTimerId) (hregistered : s'.registered = s.registered)
    (hexecuting : s'.executing = s.executing)
    (hdue : ∀ interval id, (s'.due interval).count id ≤ (s.due interval).count id)
    (hheld : ∀ id callback, s'.timerCallbacks id = some callback →
      s.timerCallbacks id = some callback ∧ stand (standing log) e id = standing log id)
    (hkept : ∀ id callback, stand (standing log) e id = some callback →
      standing log id = some callback ∧ s'.timerCallbacks id = s.timerCallbacks id ∧
        (id ∈ s.intervalIds → id ∈ s'.intervalIds)) :
    Inv s' (log ++ [e]) := by
  have hold : ∀ {e'}, e' ∈ log ++ [e] → e ≠ e' → e' ∈ log := by
    intro e' hmem hne
    rcases mem_append.mp hmem with hmem | hmem
    · exact hmem
    · exact absurd (mem_singleton.mp hmem).symm hne
  have hmem : ∀ {interval id}, id ∈ s'.due interval → id ∈ s.due interval := fun h =>
    count_pos_iff.mp (Nat.lt_of_lt_of_le (count_pos_iff.mpr h) (hdue _ _))
  refine ⟨?_, ?_, ?_, ?_, ?_, ?_, ?_, ?_, ?_, ?_, hs.faithful.event hdelivered⟩
  · rw [hnext, hregistered]
    exact hs.next
  · rw [hregistered]
    exact hregistry
  · intro id h
    rw [hregistered]
    exact hs.due id (hmem h)
  · intro id ran h
    rw [hregistered]
    exact hs.delivered id ran (hold h (hdelivered _ _))
  · exact fun id h => hs.repeating_concat (hmem h)
  · intro kind id callback h hkind
    have hno : Event.isDelivery id e = false := by
      cases e with
      | delivered id' ran => exact absurd rfl (hdelivered id' ran)
      | set | cleared | reset => rfl
    rw [deliveries_concat, hno]
    exact Nat.le_trans (Nat.add_le_add_right (hdue false id) _)
      (hs.once kind id callback (hold h (hset _ _ _)) hkind)
  · intro id callback h
    obtain ⟨hcallback, hstand⟩ := hheld id callback h
    rw [standing_concat, hstand]
    exact hs.held id callback hcallback
  · intro id callback h
    rw [standing_concat] at h
    obtain ⟨hstanding, hsame, -⟩ := hkept id callback h
    rw [hsame]
    exact hs.kept_concat hstanding
  · intro id callback h hstanding
    rw [standing_concat] at hstanding
    obtain ⟨hstanding, -, hintervals⟩ := hkept id callback hstanding
    exact hintervals (hs.interval id callback (hold h (hset _ _ _)) hstanding)
  · intro id h
    rw [hexecuting] at h
    exact hs.executing_concat h

theorem inv_clear (hs : Inv s log) (id : CallbackId) :
    Inv { s.delete id with
      intervalIds := s.intervalIds.filter (· ≠ id)
      toScheduler := s.toScheduler ++ [.clearTimer id] } (log ++ [.cleared id]) := by
  refine inv_event hs (hs.registry.clear id) nofun nofun rfl rfl rfl ?_ ?_ ?_
  · intro interval id'
    have harms : arms interval (.clearTimer id) = none := rfl
    refine Nat.le_of_eq ?_
    simp [State.due, State.delete, harms]
  · intro id' callback h
    simp only [State.delete] at h
    by_cases hid : id' = id
    · rw [hid, update_self] at h
      cases h
    · rw [update_of_ne hid] at h
      exact ⟨h, update_of_ne hid _ _⟩
  · intro id' callback h
    rw [stand] at h
    by_cases hid : id' = id
    · rw [hid, update_self] at h
      cases h
    · rw [update_of_ne hid] at h
      refine ⟨h, update_of_ne hid _ _, fun hmem => mem_filter.mpr ⟨hmem, ?_⟩⟩
      exact decide_eq_true hid

theorem inv_reset (hs : Inv s log) :
    Inv { s with timerCallbacks := fun _ => none, intervalIds := [], toGuest := [] }
      (log ++ [.reset]) := by
  refine inv_event hs hs.registry.reset' nofun nofun rfl rfl rfl ?_ nofun nofun
  intro interval id
  simp only [count_due, filterMap_nil, count_nil]
  omega

/-- The callback of a timer that still has an expiry under way is in the map, if it stands. -/
theorem Inv.callback_eq_standing {id : CallbackId} (hs : Inv s log) (h : id ∈ s.due interval) :
    s.timerCallbacks id = standing log id := by
  cases hstanding : standing log id with
  | none =>
      cases hcallback : s.timerCallbacks id with
      | none => rfl
      | some callback =>
          rw [hs.held id callback hcallback] at hstanding
          cases hstanding
  | some callback =>
      rcases hs.kept id callback hstanding with hkept | ⟨⟨ran, hran⟩, kind, hkind, hset⟩
      · exact hkept
      -- Its one expiry was delivered, so there is none under way.
      · cases interval with
        | false =>
            have honce := hs.once kind id callback hset hkind
            have hdue := count_pos_iff.mpr h
            have hpos := deliveries_pos hran
            omega
        | true => exact absurd (hs.kind_of_repeating h hset) hkind

/-- An expiry is delivered: it runs the callback that stands, and is not under way any more. -/
theorem inv_deliver {k : Nat} {message : CallbackMessage} {id : CallbackId} (hs : Inv s log)
    (hmessage : s.toGuest[k]? = some message) (hexpired : expired message = some id)
    {executing : Option CallbackId} (hexecuting : ∀ id', executing = some id' → id' = id) :
    Inv { s with toGuest := s.toGuest.eraseIdx k, executing }
      (log ++ [.delivered id (s.timerCallbacks id)]) := by
  have hdue : ∀ interval id', (s.due interval).count id' =
      (fires interval message).toList.count id' +
        (State.due { s with toGuest := s.toGuest.eraseIdx k, executing } interval).count id' := by
    intro interval id'
    simp only [count_due, count_filterMap_eraseIdx (fires interval) hmessage]
    omega
  have hmem : ∀ {interval id'},
      id' ∈ State.due { s with toGuest := s.toGuest.eraseIdx k, executing } interval →
        id' ∈ s.due interval := by
    intro interval id' h
    rw [← count_pos_iff] at h ⊢
    rw [hdue]
    omega
  obtain ⟨interval, hfires⟩ : ∃ interval, fires interval message = some id := by
    cases message <;> cases hexpired
    · exact ⟨false, rfl⟩
    · exact ⟨true, rfl⟩
  have hid : id ∈ s.due interval := by
    rw [← count_pos_iff, hdue, hfires, toList_some, count_singleton_self]
    omega
  have hold : ∀ {kind id' callback}, .set kind id' callback ∈
      log ++ [Event.delivered id (s.timerCallbacks id)] → .set kind id' callback ∈ log := by
    intro kind id' callback h
    simpa using h
  rw [hs.callback_eq_standing hid] at hold ⊢
  refine ⟨hs.next, hs.registry.deliver _ _, fun id' h => hs.due id' (hmem h), ?_, ?_, ?_, ?_, ?_,
    ?_, ?_, hs.faithful.deliver hs.registry id⟩
  · intro id' ran h
    rcases mem_append.mp h with h | h
    · exact hs.delivered id' ran h
    · obtain ⟨rfl, -⟩ := Event.delivered.inj (mem_singleton.mp h)
      cases interval with
      | false => exact hs.due id' hid
      | true =>
          obtain ⟨callback, hset⟩ := hs.repeating id' hid
          obtain ⟨hlt, rfl⟩ := hs.registry.number _ _ _ hset
          exact hlt
  · exact fun id' h => hs.repeating_concat (hmem h)
  · intro kind id' callback h hkind
    have honce := hs.once kind id' callback (hold h) hkind
    rw [hdue] at honce
    rw [deliveries_concat]
    by_cases heq : id = id'
    · subst heq
      cases interval with
      | false =>
          rw [hfires, toList_some, count_singleton_self] at honce
          rw [if_pos (by simp [Event.isDelivery])]
          omega
      | true => exact absurd (hs.kind_of_repeating hid (hold h)) hkind
    · rw [if_neg (by simpa [Event.isDelivery] using heq)]
      omega
  · intro id' callback h
    rw [standing_concat]
    exact hs.held id' callback h
  · intro id' callback h
    rw [standing_concat] at h
    exact hs.kept_concat h
  · intro id' callback h hstanding
    rw [standing_concat] at hstanding
    exact hs.interval id' callback (hold h) hstanding
  · intro id' h
    rw [hexecuting id' h]
    exact ⟨_, mem_append_right _ mem_cons_self⟩

/-- A message that is no expiry is delivered. -/
theorem quiet_deliver {k : Nat} {message : CallbackMessage}
    (hmessage : s.toGuest[k]? = some message) (hexecuting : s.executing = none) :
    Quiet s { s with toGuest := s.toGuest.eraseIdx k, executing := none } := by
  refine .of_count rfl rfl rfl rfl hexecuting.symm fun interval id => ?_
  simp only [count_due, count_filterMap_eraseIdx (fires interval) hmessage]
  omega

/-- A callback that has run leaves the map, unless it is the one of an interval. -/
theorem inv_finish {id : CallbackId} (hs : Inv s log) (hexecuting : s.executing = some id)
    (hinterval : id ∉ s.intervalIds) : Inv { s.delete id with executing := none } log := by
  refine ⟨hs.next, hs.registry, hs.due, hs.delivered, hs.repeating, hs.once, ?_, ?_, hs.interval,
    nofun, hs.faithful⟩
  · intro id' callback h
    simp only [State.delete] at h
    by_cases hid : id' = id
    · rw [hid, update_self] at h
      cases h
    · rw [update_of_ne hid] at h
      exact hs.held id' callback h
  · intro id' callback h
    simp only [State.delete]
    by_cases hid : id' = id
    · subst hid
      obtain ⟨kind, hset⟩ := hs.registry.standing id' callback h
      refine .inr ⟨hs.executing id' hexecuting, kind, ?_, hset⟩
      rintro rfl
      exact hinterval (hs.interval id' callback hset h)
    · rw [update_of_ne hid]
      exact hs.kept id' callback h

theorem inv_set (hs : Inv s log) (interval : Bool) :
    Inv { s.register with
      intervalIds := if interval then s.nextTimerId :: s.intervalIds else s.intervalIds
      calls := (s.nextTimerId, interval) :: s.calls }
      (log ++ [.set (Kind.of interval) s.nextTimerId s.registered]) := by
  refine inv_register (Kind.of interval) hs rfl rfl rfl rfl ?_ ?_ ?_ ?_
  · cases interval with
    | false => exact List.Subset.refl _
    | true => exact subset_cons_self _ _
  · cases interval with
    | false => exact nofun
    | true => exact fun _ => mem_cons_self
  · intro id
    have hcalled : (called false (s.nextTimerId, interval)).toList =
        if Kind.of interval = .interval then [] else [s.nextTimerId] := by
      cases interval <;> rfl
    rw [← hcalled]
    simp only [State.register, count_due, count_filterMap_cons]
    omega
  · intro id h
    have hcalled : id ∈ (called true (s.nextTimerId, interval)).toList →
        Kind.of interval = .interval ∧ id = s.nextTimerId := by
      cases interval with
      | false => exact nofun
      | true => exact fun h => ⟨rfl, mem_singleton.mp h⟩
    by_cases hmem : id ∈ s.due true
    · exact .inl hmem
    · refine .inr (hcalled (count_pos_iff.mp ?_))
      rw [← count_pos_iff] at h
      rw [← count_eq_zero] at hmem
      simp only [State.register, count_due, count_filterMap_cons] at h hmem
      omega

theorem inv_wait (hs : Inv s log) (stream : StreamId) :
    Inv { s.register with
      toScheduler := s.toScheduler ++ [.scheduleWritable s.nextTimerId stream] }
      (log ++ [.set .writable s.nextTimerId s.registered]) := by
  refine inv_register .writable hs rfl rfl rfl rfl (List.Subset.refl _) nofun ?_ ?_
  · intro id
    have harms : [SchedulerMessage.scheduleWritable s.nextTimerId stream].filterMap (arms false) =
        if Kind.writable = .interval then [] else [s.nextTimerId] := rfl
    rw [← harms]
    simp only [State.register, count_due, filterMap_append, count_append]
    omega
  · intro id h
    have harms : [SchedulerMessage.scheduleWritable s.nextTimerId stream].filterMap (arms true) =
        [] := rfl
    simp only [State.register, State.due, filterMap_append, harms, append_nil] at h
    exact .inl h

theorem inv_step (s : State) (log : List Event) (op : Op) (s' : State) (hs : Inv s log)
    (hstep : machine.step s op = some s') : Inv s' (log ++ observe s op) := by
  have hnil : ∀ {s'}, Quiet s s' → Inv s' (log ++ []) := fun hquiet =>
    (append_nil log).symm ▸ hs.quiet hquiet
  cases stepped_of_step hstep with
  | set => exact inv_set hs _
  | schedule hcalls => exact hnil (quiet_schedule hcalls)
  | abandon hcalls => exact hnil (quiet_abandon hcalls)
  | wait => exact inv_wait hs _
  | clear => exact inv_clear hs _
  | send hunrelated => exact hnil (quiet_send hunrelated)
  | handle hqueue => exact hnil (quiet_handle _ hqueue)
  | expire hexpire => exact hnil (quiet_expire hexpire)
  | writable hmem => exact hnil (quiet_writable hmem)
  | answer hexpired => exact hnil (quiet_answer hexpired)
  | @deliver k message hmessage hexecuting =>
      rw [observe, hmessage, bind_some]
      cases hexpired : expired message with
      | none =>
          rw [toList_none, map_nil]
          exact hnil (quiet_deliver hmessage hexecuting)
      | some id =>
          refine inv_deliver hs hmessage hexpired fun id' h => ?_
          exact (Option.some.inj (filter_eq_some_iff.mp h).1).symm
  | finish hexecuting =>
      rw [observe, append_nil]
      split
      · exact { hs with executing := nofun }
      · next hnot =>
        refine inv_finish hs hexecuting fun h => hnot ?_
        simp [h]
  | reset => exact inv_reset hs

/-- **Timers.**  In every run a timeout callback runs at most once, no callback runs once its id
was cleared or the context reset, and the expiry of a timer that still stands runs its own
callback and no other. -/
theorem timers_fire_as_their_handles_say (ops : List Op) (s : State)
    (hrun : machine.run ops = some s) : Timely (machine.log observe ops) := by
  have hs : Inv s (machine.log observe ops) := Machine.invariant_log inv_init inv_step hrun
  refine ⟨hs.faithful, fun kind id callback hset hkind => ?_⟩
  rw [List.count, countP_filterMap]
  -- Whatever ran the callback was an expiry of its timer, and there is one of them.
  refine Nat.le_trans (countP_mono_left ?_) (Nat.le_trans (Nat.le_add_left _ _)
    (hs.once kind id callback hset hkind))
  intro e he hran
  cases e with
  | delivered id' ran =>
      obtain rfl : ran = some callback := by
        cases ran with
        | none => cases hran
        | some ran => rw [eq_of_beq hran]
      obtain ⟨kind', hsub⟩ := hs.faithful.noOther id' callback he
      obtain ⟨-, rfl⟩ := hs.registry.number _ _ _ hset
      obtain ⟨-, rfl⟩ := hs.registry.number _ _ _ (hsub.subset mem_cons_self)
      exact decide_eq_true rfl
  | set => cases hran
  | cleared => cases hran
  | reset => cases hran

/-- A timeout and an interval expire, the interval twice.  The guest clears the interval when it
runs, so its second expiry, which is under way, runs nothing.  The expiry of another timeout
crosses a reset. -/
def crossing : List Op :=
  [.set false, .schedule 1 10, .set true, .schedule 2 5, .handle true, .handle true,
    .expire 1, .expire 0, .expire 0, .deliver 0, .clear 2, .finish false, .deliver 0,
    .finish false, .deliver 0, .set false, .schedule 3 0, .handle true, .handle true, .reset,
    .expire 1, .expire 0, .deliver 0]

theorem timers_fire_as_their_handles_say_crossing :
    (∃ s, machine.run crossing = some s ∧ s.loop.timers = [] ∧ s.toGuest = []) ∧
      machine.log observe crossing =
        [.set .timeout 1 0, .set .interval 2 1, .delivered 2 (some 1), .cleared 2,
          .delivered 1 (some 0), .delivered 2 none, .set .timeout 3 2, .reset,
          .delivered 3 none] ∧
      Timely (machine.log observe crossing) :=
  ⟨⟨_, rfl, rfl, rfl⟩, rfl, timers_fire_as_their_handles_say crossing _ rfl⟩

end OpenWorkers.Scheduler.Timers
