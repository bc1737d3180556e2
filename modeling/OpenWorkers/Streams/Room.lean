import OpenWorkers.Scheduler.Firing
import OpenWorkers.Streams.Pump

/-!
# The wait of the pump for room

The wait of the pump is in one place (`Place`): its message is on the way to the loop, a task
gets the permits, or the expiry is on the way to the guest.  That it is in one place only is a
matter of the timers (`Timed`): a wait has one expiry in all, and the timers of the rest of the
guest have ids of their own.

The task ends when it has two permits.  It gives them back, and no one but the pump, which waits,
takes any: there is room for a chunk and for the terminal marker until the pump writes.
-/

namespace OpenWorkers.Streams.Pump

open List Option Function
open Object (CallbackId)
open Scheduler
open Scheduler.Timers (standing)

variable {capacity : Nat} {s s' : State capacity} {t t' : Timers.State} {op : Timers.Op}
  {stream : StreamId} {id : CallbackId}

/-! ## The timers of the rest of the guest -/

/-- The step leaves the waits of the pump alone. -/
structure Aside (stream : StreamId) (own : List CallbackId) (t t' : Timers.State) : Prop where
  sent : ∃ messages, t'.toScheduler = t.toScheduler ++ messages ∧
    ∀ message ∈ messages, waitOf stream message = none ∧ harmless stream message = true
  running : t'.loop.shutdown = t.loop.shutdown
  writables : ∀ id ∈ own, id ∈ t.writables → id ∈ t'.writables
  toGuest : t.toGuest ⊆ t'.toGuest

/-- A step that sends nothing. -/
theorem Aside.silent {own : List CallbackId} (hsent : t'.toScheduler = t.toScheduler)
    (hrunning : t'.loop.shutdown = t.loop.shutdown)
    (hwritables : ∀ id ∈ own, id ∈ t.writables → id ∈ t'.writables)
    (htoGuest : t.toGuest ⊆ t'.toGuest) : Aside stream own t t' where
  sent := ⟨[], by rw [hsent, append_nil], nofun⟩
  running := hrunning
  writables := hwritables
  toGuest := htoGuest

/-- A step that sends the loop one message. -/
theorem Aside.send {own : List CallbackId} {message : SchedulerMessage}
    (hsent : t'.toScheduler = t.toScheduler ++ [message]) (hwait : waitOf stream message = none)
    (hharmless : harmless stream message = true)
    (hrunning : t'.loop.shutdown = t.loop.shutdown) (hwritables : t'.writables = t.writables)
    (htoGuest : t'.toGuest = t.toGuest) : Aside stream own t t' where
  sent := ⟨[message], hsent, fun _ h => mem_singleton.mp h ▸ ⟨hwait, hharmless⟩⟩
  running := hrunning
  writables _ _ h := hwritables ▸ h
  toGuest := htoGuest ▸ List.Subset.refl _

theorem shutdown_expire {l loop : EventLoop} {k : Nat} {message : Option Object.CallbackMessage}
    (h : l.expire k = some (loop, message)) : loop.shutdown = l.shutdown := by
  simp only [EventLoop.expire] at h
  split at h
  · cases h
  · split at h
    · cases h
      rfl
    · split at h <;>
      · cases h
        rfl

theorem aside_of_step {waits : List Wait} (h : aside stream waits op = true)
    (hstep : Timers.step t op = some t') : Aside stream (waits.map Wait.id) t t' := by
  cases Timers.stepped_of_step hstep with
  | set => exact .silent rfl rfl (fun _ _ h => h) (List.Subset.refl _)
  | @schedule id interval delayMs calls =>
      cases interval with
      | false => exact .send rfl rfl rfl rfl rfl rfl
      | true => exact .send rfl rfl rfl rfl rfl rfl
  | abandon => exact .silent rfl rfl (fun _ _ h => h) (List.Subset.refl _)
  | wait => exact .send rfl (if_neg (of_decide_eq_true h)) rfl rfl rfl rfl
  | clear => exact .send rfl rfl rfl rfl rfl rfl
  | @send message hunrelated =>
      refine .send rfl ?_ h rfl rfl rfl
      cases message <;> first | rfl | cases hunrelated
  | expire hexpire =>
      exact .silent rfl (shutdown_expire hexpire) (fun _ _ h => h) (subset_append_left _ _)
  | writable =>
      refine .silent rfl rfl (fun id' hown hmem => ?_) (subset_append_left _ _)
      refine (mem_erase_of_ne fun heq => ?_).mpr hmem
      exact of_decide_eq_true h (heq ▸ hown)
  | answer => exact .silent rfl rfl (fun _ _ h => h) (subset_append_left _ _)
  | finish => split <;> exact .silent rfl rfl (fun _ _ h => h) (List.Subset.refl _)
  | handle => cases h
  | deliver => cases h
  | reset => cases h

/-! ## The expiry of the wait -/

/-- The wait of the pump was registered, and its callback stands. -/
def Own (log : List Timers.Event) (id : CallbackId) : Prop :=
  ∃ callback, .set .writable id callback ∈ log ∧ standing log id = some callback

/-- The timers are in order, and the callback of the wait of the pump is among them. -/
def Timed (s : State capacity) : Prop :=
  ∃ log, Timers.Inv s.timers log ∧ ∀ id, s.pc.timer = some id → Own log id

theorem Own.step {log : List Timers.Event} (hs : Timers.Inv t log) (h : Own log id)
    (hclear : op ≠ .clear id) (hreset : op ≠ .reset) : Own (log ++ Timers.observe t op) id := by
  obtain ⟨callback, hset, hstanding⟩ := h
  refine ⟨callback, mem_append_left _ hset, ?_⟩
  -- A new timer gets another id.
  have hne : id ≠ t.nextTimerId := by
    have hid := hs.registry.number _ _ _ hset
    rw [hs.next]
    exact Nat.ne_of_lt (by omega)
  cases op with
  | set interval =>
      rw [Timers.observe, Timers.standing_concat, Timers.stand, update_of_ne hne, hstanding]
  | wait stream =>
      rw [Timers.observe, Timers.standing_concat, Timers.stand, update_of_ne hne, hstanding]
  | clear id' =>
      rw [Timers.observe, Timers.standing_concat, Timers.stand,
        update_of_ne fun heq => hclear (by rw [heq]), hstanding]
  | deliver k =>
      rw [Timers.observe]
      cases t.toGuest[k]?.bind Timers.expired with
      | none =>
          rw [toList_none, map_nil, append_nil]
          exact hstanding
      | some id' =>
          rw [toList_some, map_singleton, Timers.standing_concat]
          exact hstanding
  | reset => exact absurd rfl hreset
  | _ =>
      rw [Timers.observe, append_nil]
      exact hstanding

/-- A step of the timers that clears no wait, with the pump in the same wait, or in none. -/
theorem Timed.step (h : Timed s) (hstep : Timers.step s.timers op = some s'.timers)
    (hpc : ∀ id, s'.pc.timer = some id → s.pc.timer = some id)
    (hclear : ∀ id, s.pc.timer = some id → op ≠ .clear id) (hreset : op ≠ .reset) : Timed s' := by
  obtain ⟨log, hs, hown⟩ := h
  refine ⟨_, Timers.inv_step _ _ _ s'.timers hs hstep, fun id hid => ?_⟩
  exact (hown id (hpc id hid)).step hs (hclear id (hpc id hid)) hreset

/-- The pump registers a wait. -/
theorem Timed.await (h : Timed s) (hstep : Timers.step s.timers (.wait stream) = some s'.timers)
    (hpc : s'.pc.timer = some s.timers.nextTimerId) : Timed s' := by
  obtain ⟨log, hs, -⟩ := h
  refine ⟨_, Timers.inv_step _ _ (.wait stream) s'.timers hs hstep, fun id hid => ?_⟩
  rw [hpc] at hid
  cases hid
  refine ⟨s.timers.registered, mem_append_right _ mem_cons_self, ?_⟩
  rw [Timers.observe, Timers.standing_concat, Timers.stand, update_self]

/-- The pump goes on without a step of the timers. -/
theorem Timed.same (h : Timed s) (htimers : s'.timers = s.timers)
    (hpc : ∀ id, s'.pc.timer = some id → s.pc.timer = some id) : Timed s' := by
  obtain ⟨log, hs, hown⟩ := h
  exact ⟨log, htimers ▸ hs, fun id hid => hown id (hpc id hid)⟩

/-- The wait has at most one expiry under way. -/
theorem Timed.once (h : Timed s) (hid : s.pc.timer = some id) :
    (s.timers.due false).count id ≤ 1 := by
  obtain ⟨log, hs, hown⟩ := h
  obtain ⟨callback, hset, -⟩ := hown id hid
  exact Nat.le_trans (Nat.le_add_right _ _) (hs.once .writable id callback hset nofun)

/-- The wait is no interval. -/
theorem Timed.not_repeating (h : Timed s) (hid : s.pc.timer = some id) :
    id ∉ s.timers.due true := by
  intro hmem
  obtain ⟨log, hs, hown⟩ := h
  obtain ⟨callback, hset, -⟩ := hown id hid
  obtain ⟨callback', hinterval⟩ := hs.repeating id hmem
  cases hs.registry.kind _ _ _ _ _ hset hinterval

/-- The expiry of the wait finds its callback. -/
theorem Timed.callback (h : Timed s) (hid : s.pc.timer = some id)
    (hdue : id ∈ s.timers.due false) : (s.timers.timerCallbacks id).isSome := by
  obtain ⟨log, hs, hown⟩ := h
  obtain ⟨callback, -, hstanding⟩ := hown id hid
  rw [hs.callback_eq_standing hdue, hstanding]
  rfl

/-! ## Where the wait is -/

theorem waitOf_eq_some {message : SchedulerMessage} :
    waitOf stream message = some id ↔ message = .scheduleWritable id stream := by
  constructor
  · intro h
    cases message with
    | scheduleWritable id' stream' =>
        simp only [waitOf] at h
        split at h
        · next heq =>
          cases h
          rw [heq]
        · cases h
    | _ => cases h
  · rintro rfl
    exact if_pos rfl

/-- There is no wait. -/
structure Idle (s : State capacity) : Prop where
  waits : s.waits = []
  held : s.channel.held = 0
  sent : s.timers.toScheduler.filterMap (waitOf s.stream) = []

/-- The wait that the pump is in, if it is in one. -/
inductive Place (s : State capacity) : Prop
  | idle (htimer : s.pc.timer = none) (hidle : Idle s)
      (hroom : ∀ chunk, s.pc = .writing chunk true → s.channel.buffer.length + 2 ≤ capacity)
  | sent {id : CallbackId} (htimer : s.pc.timer = some id) (hwaits : s.waits = [])
      (hheld : s.channel.held = 0)
      (hsent : s.timers.toScheduler.filterMap (waitOf s.stream) = [id])
  | reserving {id : CallbackId} {held : Nat} (htimer : s.pc.timer = some id)
      (hwaits : s.waits = [⟨id, true, held⟩]) (hheld : s.channel.held = held) (hle : held ≤ 2)
      (hsent : s.timers.toScheduler.filterMap (waitOf s.stream) = [])
      (hwritable : id ∈ s.timers.writables)
  | fired {id : CallbackId} (htimer : s.pc.timer = some id) (hidle : Idle s)
      (hfired : .executeTimeout id ∈ s.timers.toGuest)
      (hroom : s.channel.buffer.length + 2 ≤ capacity)

theorem Place.rest (h : Place s) (htimer : s.pc.timer = none) : Idle s := by
  cases h with
  | idle _ hidle => exact hidle
  | sent htimer' => cases htimer.symm.trans htimer'
  | reserving htimer' => cases htimer.symm.trans htimer'
  | fired htimer' => cases htimer.symm.trans htimer'

/-- A step that leaves the pump in its wait, takes nothing from the wait and puts nothing in the
channel. -/
theorem Place.mono (h : Place s) (hstream : s'.stream = s.stream) (hpc : s'.pc = s.pc)
    (hwaits : s'.waits = s.waits) (hheld : s'.channel.held = s.channel.held)
    (hbuffer : s'.channel.buffer.length ≤ s.channel.buffer.length)
    (hsent : s'.timers.toScheduler.filterMap (waitOf s.stream) =
      s.timers.toScheduler.filterMap (waitOf s.stream))
    (hwritables : ∀ id ∈ s.waits.map Wait.id, id ∈ s.timers.writables → id ∈ s'.timers.writables)
    (hfired : ∀ id, s.pc.timer = some id → .executeTimeout id ∈ s.timers.toGuest →
      .executeTimeout id ∈ s'.timers.toGuest) : Place s' := by
  have hidle : Idle s → Idle s' := fun hidle =>
    ⟨hwaits.trans hidle.waits, hheld.trans hidle.held, by rw [hstream, hsent, hidle.sent]⟩
  cases h with
  | idle htimer h hroom =>
      refine .idle (hpc ▸ htimer) (hidle h) fun chunk hwriting => ?_
      exact Nat.le_trans (Nat.add_le_add_right hbuffer 2) (hroom chunk (hpc ▸ hwriting))
  | sent htimer hnone hzero hone =>
      exact .sent (hpc ▸ htimer) (hwaits.trans hnone) (hheld.trans hzero)
        (by rw [hstream, hsent, hone])
  | @reserving id held htimer hone hperm hle hnone hmem =>
      refine .reserving (hpc ▸ htimer) (hwaits.trans hone) (hheld.trans hperm) hle
        (by rw [hstream, hsent, hnone]) (hwritables id ?_ hmem)
      rw [hone]
      exact mem_cons_self
  | fired htimer h hmem hroom =>
      exact .fired (hpc ▸ htimer) (hidle h) (hfired _ htimer hmem)
        (Nat.le_trans (Nat.add_le_add_right hbuffer 2) hroom)

theorem Place.aside (h : Place s) (ha : Aside s.stream (s.waits.map Wait.id) s.timers t) :
    Place { s with timers := t } := by
  refine h.mono rfl rfl rfl rfl (Nat.le_refl _) ?_ ha.writables fun id _ hmem => ha.toGuest hmem
  obtain ⟨messages, hsent, hmessages⟩ := ha.sent
  change t.toScheduler.filterMap (waitOf s.stream) = _
  rw [hsent, filterMap_append,
    filterMap_eq_nil_iff.mpr fun message hmem => (hmessages message hmem).1, append_nil]

/-! ## The steps of the wait -/

theorem of_handle {alive : Bool} {message : SchedulerMessage} {rest : List SchedulerMessage}
    (hqueue : t.toScheduler = message :: rest) (h : Timers.step t (.handle alive) = some t') :
    t' = { t with
      toScheduler := rest
      loop := (t.loop.handle alive t.handled message).1
      handled := t.handled + 1
      writables := t.writables ++
        (t.loop.handle alive t.handled message).2.filterMap Timers.waits } := by
  cases Timers.stepped_of_step h with
  | handle hqueue' =>
      cases hqueue.symm.trans hqueue'
      rfl

theorem of_deliver {k : Nat} (h : Timers.step t (.deliver k) = some t') :
    ∃ message, t.toGuest[k]? = some message ∧ t.executing = none ∧ t' = { t with
      toGuest := t.toGuest.eraseIdx k
      executing := (Timers.expired message).filter fun id => (t.timerCallbacks id).isSome } := by
  cases Timers.stepped_of_step h with
  | deliver hmessage hexecuting => exact ⟨_, hmessage, hexecuting, rfl⟩

theorem Place.await {chunk : Bytes} (h : Place s) (hpc : s.pc = .refused chunk)
    (htimers : Timers.step s.timers (.wait s.stream) = some t) :
    Place { s with timers := t, pc := .waiting chunk s.timers.nextTimerId } := by
  have hidle := h.rest (by rw [hpc]; rfl)
  cases htimers
  refine .sent rfl hidle.waits hidle.held ?_
  change (s.timers.toScheduler ++
    [SchedulerMessage.scheduleWritable s.timers.nextTimerId s.stream]).filterMap _ = _
  rw [filterMap_append, hidle.sent, nil_append, filterMap_cons_some
    (waitOf_eq_some.mpr rfl), filterMap_nil]

/-- The loop spawns the task of the wait when it gets to the message. -/
theorem Place.handle {alive : Bool} {message : SchedulerMessage} {rest : List SchedulerMessage}
    {m : StreamManager} (h : Place s) (hsender : s.manager.hasSender s.stream = true)
    (hqueue : s.timers.toScheduler = message :: rest)
    (htimers : Timers.step s.timers (.handle alive) = some t) :
    Place { s with
      timers := t, manager := m, waits := s.waits ++ (s.spawned message).toList } := by
  obtain rfl := of_handle hqueue htimers
  cases hwait : waitOf s.stream message with
  | none =>
      have hspawned : s.spawned message = none := by rw [State.spawned, hwait, map_none]
      rw [hspawned, toList_none, append_nil]
      refine h.mono rfl rfl rfl rfl (Nat.le_refl _) ?_
        (fun _ _ hmem => mem_append_left _ hmem) fun _ _ hmem => hmem
      change rest.filterMap _ = _
      rw [hqueue, filterMap_cons_none hwait]
  | some id =>
      have hspawned : s.spawned message = some ⟨id, true, 0⟩ := by
        rw [State.spawned, hwait, map_some, hsender]
      rw [hspawned, toList_some]
      have hcons : s.timers.toScheduler.filterMap (waitOf s.stream) =
          id :: rest.filterMap (waitOf s.stream) := by
        rw [hqueue, filterMap_cons_some hwait]
      -- Only the message of the wait asks for room in the stream.
      cases h with
      | idle _ hidle => cases hcons.symm.trans hidle.sent
      | reserving _ _ _ _ hsent => cases hcons.symm.trans hsent
      | fired _ hidle => cases hcons.symm.trans hidle.sent
      | @sent id' htimer hwaits hheld hsent =>
          obtain ⟨rfl, hrest⟩ := List.cons.inj (hcons.symm.trans hsent)
          refine .reserving htimer (by rw [hwaits, nil_append]) hheld (Nat.zero_le 2) hrest ?_
          refine mem_append_right _ (mem_filterMap.mpr
            ⟨.spawn (.writable id s.stream s.timers.loop.scope), ?_, rfl⟩)
          rw [waitOf_eq_some.mp hwait]
          exact mem_cons_self

theorem Place.of_wait {k : Nat} {wait : Wait} (h : Place s) (hwait : s.waits[k]? = some wait) :
    k = 0 ∧ s.waits = [wait] ∧ wait.sender = true ∧ s.pc.timer = some wait.id ∧
      s.channel.held = wait.held ∧ s.timers.toScheduler.filterMap (waitOf s.stream) = [] ∧
      wait.id ∈ s.timers.writables := by
  cases h with
  | idle _ hidle =>
      rw [hidle.waits] at hwait
      cases hwait
  | sent _ hwaits =>
      rw [hwaits] at hwait
      cases hwait
  | fired _ hidle =>
      rw [hidle.waits] at hwait
      cases hwait
  | reserving htimer hwaits hheld hle hsent hwritable =>
      rw [hwaits] at hwait
      cases k with
      | succ k => cases hwait
      | zero =>
          cases hwait
          exact ⟨rfl, hwaits, rfl, htimer, hheld, hsent, hwritable⟩

theorem Place.reserve {k : Nat} {wait : Wait} {channel : BoundedChannel capacity StreamChunk}
    (h : Place s) (hwait : s.waits[k]? = some wait) (hlt : wait.held < 2)
    (hreserve : s.channel.reserve = some channel) :
    Place { s with
      channel, waits := s.waits.modify k fun wait => { wait with held := wait.held + 1 } } := by
  obtain ⟨rfl, hwaits, hsender, htimer, hheld, hsent, hwritable⟩ := h.of_wait hwait
  obtain ⟨-, hmore⟩ := BoundedChannel.of_reserve hreserve
  have hmodified : (s.waits.modify 0 fun wait => { wait with held := wait.held + 1 }) =
      [⟨wait.id, true, wait.held + 1⟩] := by
    rw [hwaits, ← hsender]
    rfl
  exact .reserving htimer hmodified (by rw [hmore, hheld]) hlt hsent hwritable

/-- The two permits are room once they are given back. -/
theorem Place.ready {k : Nat} {wait : Wait} (h : Place s) (hwait : s.waits[k]? = some wait)
    (htwo : wait.held = 2) (htimers : Timers.step s.timers (.writable wait.id) = some t) :
    Place { s with
      timers := t, channel := s.channel.release wait.held, waits := s.waits.eraseIdx k } := by
  obtain ⟨rfl, hwaits, -, htimer, hheld, hsent, -⟩ := h.of_wait hwait
  cases Timers.stepped_of_step htimers
  have hfits := s.channel.fits
  rw [hheld, htwo] at hfits
  refine .fired htimer ⟨?_, ?_, hsent⟩ (mem_append_right _ mem_cons_self) hfits
  · change s.waits.eraseIdx 0 = []
    rw [hwaits]
    rfl
  · change (s.channel.release wait.held).held = 0
    rw [BoundedChannel.release_held, hheld, Nat.sub_self]

/-- An expiry of the wait that is under way is the only one. -/
theorem Timed.alone (h : Timed s) (stream : StreamId) (htimer : s.pc.timer = some id)
    (hfired : .executeTimeout id ∈ s.timers.toGuest) :
    id ∉ s.timers.writables ∧ .scheduleWritable id stream ∉ s.timers.toScheduler := by
  have honce := h.once htimer
  rw [Timers.count_due] at honce
  have hguest : 0 < (s.timers.toGuest.filterMap (Timers.fires false)).count id :=
    count_pos_iff.mpr (mem_filterMap.mpr ⟨_, hfired, rfl⟩)
  constructor
  · intro hmem
    have hloop : 0 < (s.timers.loop.timers.filterMap (Timers.armed false) ++
        if false then [] else s.timers.writables).count id :=
      count_pos_iff.mpr (mem_append_right _ hmem)
    omega
  · intro hmem
    have hscheduler : 0 < (s.timers.toScheduler.filterMap (Timers.arms false)).count id :=
      count_pos_iff.mpr (mem_filterMap.mpr ⟨_, hmem, rfl⟩)
    omega

/-- The message that calls the callback of the wait is its expiry. -/
theorem Timed.expiry {message : Object.CallbackMessage} (h : Timed s)
    (htimer : s.pc.timer = some id) (hmem : message ∈ s.timers.toGuest)
    (hexpired : Timers.expired message = some id) : message = .executeTimeout id := by
  cases message with
  | executeTimeout id' =>
      cases hexpired
      rfl
  | executeInterval id' =>
      cases hexpired
      refine absurd ?_ (h.not_repeating htimer)
      exact mem_append_right _ (mem_filterMap.mpr ⟨_, hmem, rfl⟩)
  | _ => cases hexpired

theorem Pc.timer_eq_some {pc : Pc} (h : pc.timer = some id) : ∃ chunk, pc = .waiting chunk id := by
  cases pc with
  | waiting chunk id' =>
      cases h
      exact ⟨chunk, rfl⟩
  | _ => cases h

/-- The pump sleeps on when another timer expires. -/
theorem Pc.resume_eq_self {pc : Pc} {executing : Option CallbackId}
    (h : ∀ id, pc.timer = some id → executing ≠ some id) : pc.resume executing = pc := by
  cases pc with
  | waiting chunk id => exact if_neg (h id rfl)
  | _ => rfl

/-- A pump that waits after an expiry was in that wait before. -/
theorem Pc.timer_of_resume {pc : Pc} {executing : Option CallbackId}
    (h : (pc.resume executing).timer = some id) : pc.timer = some id := by
  cases pc with
  | waiting chunk id' =>
      simp only [Pc.resume] at h
      split at h
      · cases h
      · exact h
  | _ => exact h

/-- The pump goes on once its timer has expired, and finds the room. -/
theorem Place.deliver {k : Nat} (h : Place s) (ht : Timed s)
    (htimers : Timers.step s.timers (.deliver k) = some t) :
    Place { s with timers := t, pc := s.pc.resume t.executing } := by
  obtain ⟨message, hmessage, -, rfl⟩ := of_deliver htimers
  have hmem := mem_of_getElem? hmessage
  by_cases hown : ∃ id, s.pc.timer = some id ∧
      (Timers.expired message).filter (fun id => (s.timers.timerCallbacks id).isSome) = some id
  · obtain ⟨id, htimer, hexecuting⟩ := hown
    obtain rfl := ht.expiry htimer hmem (filter_eq_some_iff.mp hexecuting).1
    obtain ⟨hwritable, hscheduler⟩ := ht.alone s.stream htimer hmem
    obtain ⟨chunk, hpc⟩ := Pc.timer_eq_some htimer
    have hresume : s.pc.resume (some id) = .writing chunk true := by
      rw [hpc]
      exact if_pos rfl
    rw [hexecuting, hresume]
    cases h with
    | idle hnone => cases hnone.symm.trans htimer
    | sent htimer' _ _ hsent =>
        cases htimer.symm.trans htimer'
        obtain ⟨message, hmem, hwait⟩ := mem_filterMap.mp (hsent ▸ mem_cons_self)
        exact absurd (waitOf_eq_some.mp hwait ▸ hmem) hscheduler
    | reserving htimer' _ _ _ _ hmem =>
        cases htimer.symm.trans htimer'
        exact absurd hmem hwritable
    | fired _ hidle _ hroom =>
        exact .idle rfl ⟨hidle.waits, hidle.held, hidle.sent⟩ fun _ _ => hroom
  · rw [Pc.resume_eq_self fun id htimer hexecuting => hown ⟨id, htimer, hexecuting⟩]
    refine h.mono rfl rfl rfl rfl (Nat.le_refl _) rfl (fun _ _ hmem => hmem) ?_
    intro id htimer hfired
    -- What the guest got is not the expiry of the wait, whose callback it would have found.
    refine (mem_eraseIdx_iff_getElem?).mpr ?_
    obtain ⟨j, hj⟩ := mem_iff_getElem?.mp hfired
    refine ⟨j, fun heq => hown ⟨id, htimer, ?_⟩, hj⟩
    rw [← heq, hj] at hmessage
    cases hmessage
    refine filter_eq_some_iff.mpr ⟨rfl, ht.callback htimer ?_⟩
    exact mem_append_right _ (mem_filterMap.mpr ⟨_, hfired, rfl⟩)

end OpenWorkers.Streams.Pump
