import OpenWorkers.Lib.Erase
import OpenWorkers.Lib.Fresh
import OpenWorkers.Operations.System

/-!
# Every operation is answered once

An operation is somewhere until it is answered: its message in the channel of the loop, its task,
or its item in the queue of the object.  It is in one place, it leaves it with its answer, and the
steps of the runtime lead there.  Since no id is given twice, an answer finds only the callbacks
of its own operation, and none after a reset.
-/

namespace OpenWorkers.Operations

open List Option Object Scheduler Machine

/-! ## What the loop does with an operation -/

/-- The message of an operation starts a task for it, or goes to the queue. -/
theorem operation_handle (l : EventLoop) (n : Nat) (message : SchedulerMessage) :
    (((l.handle true n message).2.filterMap startsTask).filterMap taskCallback) ++
        ((l.handle true n message).2.filterMap enqueues).filterMap queuedCallback =
      (operation message).toList := by
  have hgated : ∀ (kind : CallKind) (callback : CallbackId),
      (((l.gatedCall true n kind callback).2.filterMap startsTask).filterMap taskCallback) ++
          ((l.gatedCall true n kind callback).2.filterMap enqueues).filterMap queuedCallback =
        [callback] := by
    intro kind callback
    unfold EventLoop.gatedCall EventLoop.outputGate
    dsimp only
    split <;> rfl
  -- The other messages start no task of an operation, and queue none.
  have hnone : operation message = none →
      (∀ effect ∈ (l.handle true n message).2, startsTask effect = none) →
      (∀ effect ∈ (l.handle true n message).2, (enqueues effect).bind queuedCallback = none) →
      (((l.handle true n message).2.filterMap startsTask).filterMap taskCallback) ++
        ((l.handle true n message).2.filterMap enqueues).filterMap queuedCallback =
      (operation message).toList := by
    intro hoperation htask hqueue
    rw [hoperation, filterMap_eq_nil_iff.mpr htask, filterMap_filterMap,
      filterMap_eq_nil_iff.mpr hqueue]
    rfl
  cases message
  case fetchStreaming => exact hgated _ _
  case bindingFetch => exact hgated _ _
  case bindingWorker => exact hgated _ _
  case bindingDurableObject => exact hgated _ _
  case webSocketPair =>
    unfold EventLoop.handle
    dsimp only
    split <;> rfl
  case outputBarrier =>
    unfold EventLoop.handle
    dsimp only
    split <;> rfl
  case objectUpgrade =>
    unfold EventLoop.handle
    dsimp only
    split <;> rfl
  case webSocketUpgrade | webSocketAccept | webSocketSend | webSocketClose | beginRequest =>
    refine hnone rfl ?_ ?_ <;> intro effect heffect
    · cases EventLoop.does_of_mem_handle heffect with
      | spawn htask => cases htask
      | _ => rfl
    · cases EventLoop.does_of_mem_handle heffect with
      | @enqueue _ work hstorage =>
          cases work with
          | storage callback op => cases hstorage callback op rfl
          | socket | barrier => rfl
      | _ => rfl
  all_goals rfl

/-- A call behind a gate has its barrier in the queue. -/
theorem barrier_of_spawn {l : EventLoop} {n : Nat} {message : SchedulerMessage} {kind : CallKind}
    {callback : CallbackId} {gate : GateId} {scope : Scope}
    (h : .spawn (.call kind callback (.behind gate) scope) ∈ (l.handle true n message).2) :
    .enqueue (.barrier gate) ∈ (l.handle true n message).2 := by
  have hgated : ∀ {kind' callback'},
      .spawn (.call kind callback (.behind gate) scope) ∈
        (l.gatedCall true n kind' callback').2 →
      .enqueue (.barrier gate) ∈ (l.gatedCall true n kind' callback').2 := by
    intro kind' callback' h
    cases hqueue : l.queue <;>
      simp [EventLoop.gatedCall, EventLoop.outputGate, hqueue] at h ⊢
    exact h.2.2.1
  cases message
  case fetchStreaming => exact hgated h
  case bindingFetch => exact hgated h
  case bindingWorker => exact hgated h
  case bindingDurableObject => exact hgated h
  all_goals
    cases EventLoop.does_of_mem_handle h with
    | spawn htask => cases htask

/-! ## Where the operations are -/

section Invariant

variable {s s' : State} {log : List Event}

/-- The operations without an answer. -/
def State.pending (s : State) : List CallbackId :=
  s.toScheduler.filterMap operation ++ s.tasks.filterMap taskCallback ++
    s.queue.filterMap queuedCallback

theorem sent_append (log log' : List Event) : sent (log ++ log') = sent log ++ sent log' :=
  filterMap_append

theorem answered_append (log log' : List Event) :
    answered (log ++ log') = answered log ++ answered log' :=
  filterMap_append

theorem dispatched_append (log log' : List Event) :
    dispatched (log ++ log') = dispatched log ++ dispatched log' :=
  filterMap_append

/-- What an event of a dispatch says of the tables it found. -/
def Owned (log : List Event) : Event → Prop
  | .dispatched message request taken called =>
    (∀ entry ∈ taken, entry.2 = request ∧ (message.callback, request) ∈ sent log) ∧
      ∀ entry ∈ called, entry ∈ taken
  | _ => True

structure Inv (s : State) (log : List Event) : Prop where
  fresh : Fresh [] ((sent log).map Prod.fst) s.nextId
  /-- An operation that was sent is in one place, or answered once. -/
  flow : ∀ callback, s.pending.count callback + (answered log).count callback =
    ((sent log).map Prod.fst).count callback
  /-- An answer is dispatched once, or dropped by a reset. -/
  back : ∀ callback, (s.toGuest.map CallbackMessage.callback).count callback +
    (dispatched log).count callback ≤ (answered log).count callback
  tables : ∀ callback request, Registered s.tables callback request →
    request = s.request ∧ (callback, request) ∈ sent log
  gates : ∀ kind callback gate scope, .call kind callback (.behind gate) scope ∈ s.tasks →
    s.gates gate ≠ none ∨ .barrier gate ∈ s.queue
  owned : ∀ event ∈ log, Owned log event

theorem inv_init : Inv machine.init [] where
  fresh := Fresh.nil 1
  flow _ := rfl
  back _ := Nat.le_refl _
  tables _ _ h := by cases h <;> contradiction
  gates _ _ _ _ h := absurd h not_mem_nil
  owned _ h := absurd h not_mem_nil

theorem Owned.append {log' : List Event} {event : Event} (h : Owned log event) :
    Owned (log ++ log') event := by
  cases event with
  | sent | answered => trivial
  | dispatched message request taken called =>
      refine ⟨fun entry hmem => ?_, h.2⟩
      rw [sent_append]
      exact ⟨(h.1 entry hmem).1, mem_append_left _ (h.1 entry hmem).2⟩

theorem Inv.owned_append {log' : List Event} (h : Inv s log)
    (hnew : ∀ event ∈ log', Owned (log ++ log') event) :
    ∀ event ∈ log ++ log', Owned (log ++ log') event := by
  intro event hmem
  rcases mem_append.mp hmem with hmem | hmem
  · exact (h.owned event hmem).append
  · exact hnew event hmem

/-- An operation is sent. -/
theorem inv_sent {tables : Tables} {message : SchedulerMessage} (h : Inv s log)
    (hmessage : operation message = some s.nextId)
    (htables : ∀ callback request, Registered tables callback request →
      Registered s.tables callback request ∨ callback = s.nextId ∧ request = s.request) :
    Inv { s with tables, nextId := s.nextId + 1, toScheduler := s.toScheduler ++ [message] }
      (log ++ [.sent s.nextId s.request]) := by
  have hsent : sent (log ++ [.sent s.nextId s.request]) = sent log ++ [(s.nextId, s.request)] :=
    sent_append _ _
  have hanswered : answered (log ++ [.sent s.nextId s.request]) = answered log :=
    (answered_append _ _).trans (append_nil _)
  have hdispatched : dispatched (log ++ [.sent s.nextId s.request]) = dispatched log :=
    (dispatched_append _ _).trans (append_nil _)
  refine ⟨?_, fun callback => ?_, fun callback => ?_, ?_, h.gates, h.owned_append ?_⟩
  · rw [hsent, map_append]
    exact h.fresh.add
  · have hflow := h.flow callback
    rw [hsent, hanswered]
    simp only [State.pending, filterMap_append, map_append, count_append,
      filterMap_cons_some hmessage, filterMap_nil, map_cons, map_nil]
      at hflow ⊢
    omega
  · rw [hanswered, hdispatched]
    exact h.back callback
  · intro callback request hregistered
    rw [hsent]
    rcases htables callback request hregistered with hregistered | ⟨rfl, rfl⟩
    · obtain ⟨hrequest, hmem⟩ := h.tables callback request hregistered
      exact ⟨hrequest, mem_append_left _ hmem⟩
    · exact ⟨rfl, mem_append_right _ mem_cons_self⟩
  · intro event hmem
    cases mem_singleton.mp hmem
    trivial

/-- A step that neither sends nor answers an operation. -/
theorem Inv.quiet (h : Inv s log) (hnext : s.nextId ≤ s'.nextId)
    (hpending : ∀ callback, s'.pending.count callback = s.pending.count callback)
    (hguest : s'.toGuest.Sublist s.toGuest)
    (htables : ∀ callback request, Registered s'.tables callback request →
      request = s'.request ∧ (callback, request) ∈ sent log)
    (hgates : ∀ kind callback gate scope, .call kind callback (.behind gate) scope ∈ s'.tasks →
      s'.gates gate ≠ none ∨ .barrier gate ∈ s'.queue) : Inv s' log where
  fresh := h.fresh.mono hnext
  flow callback := by
    rw [hpending]
    exact h.flow callback
  back callback := by
    have hcount := (hguest.map CallbackMessage.callback).count_le callback
    have hback := h.back callback
    omega
  tables := htables
  gates := hgates
  owned := h.owned

/-- Operations are answered. -/
theorem inv_answered (messages : List CallbackMessage) (h : Inv s log)
    (hnext : s'.nextId = s.nextId) (hrequest : s'.request = s.request)
    (htables : s'.tables = s.tables)
    (hpending : ∀ callback, s.pending.count callback =
      (messages.map CallbackMessage.callback).count callback + s'.pending.count callback)
    (hguest : s'.toGuest = s.toGuest ++ messages)
    (hgates : ∀ kind callback gate scope, .call kind callback (.behind gate) scope ∈ s'.tasks →
      s'.gates gate ≠ none ∨ .barrier gate ∈ s'.queue) :
    Inv s' (log ++ messages.map .answered) := by
  have hsent : sent (messages.map .answered) = [] := by
    rw [sent, filterMap_map, filterMap_eq_nil_iff]
    exact fun _ _ => rfl
  have hanswered : answered (messages.map .answered) = messages.map CallbackMessage.callback := by
    rw [answered, filterMap_map, ← filterMap_eq_map]
    rfl
  have hdispatched : dispatched (messages.map .answered) = [] := by
    rw [dispatched, filterMap_map, filterMap_eq_nil_iff]
    exact fun _ _ => rfl
  refine ⟨?_, fun callback => ?_, fun callback => ?_, ?_, hgates, h.owned_append ?_⟩
  · rw [sent_append, hsent, append_nil, hnext]
    exact h.fresh
  · have hflow := h.flow callback
    rw [hpending] at hflow
    rw [sent_append, hsent, append_nil, answered_append, hanswered, count_append]
    omega
  · have hback := h.back callback
    rw [answered_append, hanswered, dispatched_append, hdispatched, append_nil, hguest,
      map_append, count_append, count_append]
    omega
  · intro callback request hregistered
    rw [htables] at hregistered
    rw [hrequest, sent_append]
    obtain ⟨hrequest, hmem⟩ := h.tables callback request hregistered
    exact ⟨hrequest, mem_append_left _ hmem⟩
  · intro event hmem
    obtain ⟨message, -, rfl⟩ := List.mem_map.mp hmem
    trivial

theorem inv_dispatched {i : Nat} {threw : Bool} {message : CallbackMessage} (h : Inv s log)
    (hmessage : s.toGuest[i]? = some message) :
    Inv { s with
        tables := (dispatch s.tables threw message).tables, toGuest := s.toGuest.eraseIdx i }
      (log ++ [.dispatched message s.request (dispatch s.tables threw message).taken
        (dispatch s.tables threw message).called]) := by
  have hown := own_dispatch s.tables threw message
  refine ⟨?_, fun callback => ?_, fun callback => ?_, ?_, h.gates, h.owned_append ?_⟩
  · rw [sent_append]
    exact (append_nil (sent log)).symm ▸ h.fresh
  · rw [sent_append, answered_append]
    exact (append_nil (sent log)).symm ▸ (append_nil (answered log)).symm ▸
      h.flow callback
  · have hback := h.back callback
    have hcount := count_filterMap_eraseIdx (some ∘ CallbackMessage.callback) hmessage callback
    rw [filterMap_eq_map] at hcount
    rw [answered_append, dispatched_append]
    change ((s.toGuest.eraseIdx i).map CallbackMessage.callback).count callback +
      (dispatched log ++ [message.callback]).count callback ≤ (answered log ++ []).count callback
    rw [append_nil, count_append]
    simp only [Function.comp_apply, toList_some] at hcount
    omega
  · intro callback request hregistered
    obtain ⟨hrequest, hmem⟩ := h.tables callback request (hown.left callback request hregistered)
    rw [sent_append]
    exact ⟨hrequest, mem_append_left _ hmem⟩
  · intro event hmem
    cases mem_singleton.mp hmem
    refine ⟨fun entry hentry => ?_, hown.called⟩
    obtain ⟨half, request⟩ := entry
    obtain ⟨rfl, hsent⟩ := h.tables _ _ (hown.taken half request hentry)
    rw [sent_append]
    exact ⟨rfl, mem_append_left _ hsent⟩

theorem inv_handle {message : SchedulerMessage} {rest : List SchedulerMessage} (h : Inv s log)
    (hqueue : s.toScheduler = message :: rest) : Inv (s.handle message rest) log := by
  refine h.quiet (Nat.le_refl _) (fun callback => ?_) (List.Sublist.refl _) h.tables ?_
  · have hcount := congrArg (List.count callback) (operation_handle s.loop s.handled message)
    simp only [State.pending, State.handle, hqueue, count_filterMap_cons,
      filterMap_append, count_append] at hcount ⊢
    omega
  · intro kind callback gate scope hmem
    rcases mem_append.mp hmem with hmem | hmem
    · exact (h.gates kind callback gate scope hmem).imp_right (mem_append_left _)
    · obtain ⟨effect, heffect, htask⟩ := mem_filterMap.mp hmem
      cases effect with
      | spawn task =>
          cases task <;> cases htask
          exact .inr (mem_append_right _
            (mem_filterMap.mpr ⟨_, barrier_of_spawn heffect, rfl⟩))
      | enqueue | openGate | command | hangUp | closeStream | cancel => cases htask

/-- The queue answers the storage ops, each once. -/
theorem queueAnswer_handle (failed : Bool) (work : Queued) (result : Object.OperationResult) :
    ((Object.handle failed work result).1.filterMap queueAnswer).map CallbackMessage.callback =
      (queuedCallback work).toList := by
  cases work <;> cases failed <;> rfl

theorem inv_work {work : Queued} {rest : List Queued} {result : Object.OperationResult}
    (h : Inv s log) (hqueue : s.queue = work :: rest) :
    Inv (s.work work rest result)
      (log ++
        ((Object.handle s.queueFailed work result).1.filterMap queueAnswer).map .answered) := by
  refine inv_answered _ h rfl rfl rfl (fun callback => ?_) rfl ?_
  · rw [queueAnswer_handle]
    simp only [State.pending, State.work, hqueue, count_filterMap_cons, count_append]
    omega
  · intro kind callback gate scope hmem
    change s.passBarrier work gate ≠ none ∨ .barrier gate ∈ rest
    have hgate := h.gates kind callback gate scope hmem
    rw [hqueue] at hgate
    cases work with
    | storage | socket => exact hgate.imp_right fun hmem => by simpa using hmem
    | barrier gate' =>
        simp only [State.passBarrier, Function.update_apply]
        split
        · exact .inl nofun
        · next hne =>
          refine hgate.imp_right fun hmem => ?_
          exact (mem_cons.mp hmem).resolve_left fun heq => hne (by cases heq; rfl)

theorem inv_finish {i : Nat} {task : Task} {ending : Ending} {message : CallbackMessage}
    (h : Inv s log) (htask : s.tasks[i]? = some task)
    (hanswer : answer task ending = some message) :
    Inv { s with tasks := s.tasks.eraseIdx i, toGuest := s.toGuest ++ [message] }
      (log ++ [.answered message]) := by
  refine inv_answered [message] h rfl rfl rfl (fun callback => ?_) rfl ?_
  · have hcount := count_filterMap_eraseIdx taskCallback htask callback
    rw [callback_answer hanswer, toList_some] at hcount
    simp only [State.pending, count_append, map_cons, map_nil]
    omega
  · intro kind callback gate scope hmem
    exact h.gates kind callback gate scope (mem_of_mem_eraseIdx hmem)

theorem operation_message (callback : CallbackId) (call : Call) :
    operation (call.message callback) = some callback := by
  cases call <;> rfl

theorem inv_step (s : State) (log : List Event) (op : Op) (s' : State) (h : Inv s log)
    (hstep : machine.step s op = some s') : Inv s' (log ++ observe s op) := by
  change step s op = some s' at hstep
  -- The steps that neither send nor answer an operation, nor dispatch an answer.
  have hsame : observe s op = [] → Inv s' log → Inv s' (log ++ observe s op) := by
    intro hnil h
    rwa [hnil, append_nil]
  cases op with
  | call call =>
      cases hstep
      refine inv_sent h (operation_message s.nextId call) fun callback request hregistered => ?_
      cases call <;>
        exact registered_register (by first | exact .inl hregistered | exact .inr hregistered)
  | invoke inline threw =>
      cases inline with
      | none =>
          cases hstep
          exact inv_sent h rfl fun callback request hregistered =>
            registered_register (.inl hregistered)
      | some result =>
          simp only [step] at hstep
          split at hstep
          · cases hstep
            refine hsame rfl (h.quiet (Nat.le_succ _) (fun _ => rfl) (List.Sublist.refl _)
              ?_ h.gates)
            intro callback request hregistered
            have hleft : Registered (s.tables.removePair s.nextId) callback request := by
              rw [← Tables.removePair_registerPair]
              exact hregistered
            exact h.tables callback request (registered_removePair hleft)
          · cases hstep
  | send message =>
      simp only [step] at hstep
      split at hstep
      · next hmessage =>
        cases hstep
        refine hsame rfl
          (h.quiet (Nat.le_refl _) (fun callback => ?_) (List.Sublist.refl _) h.tables h.gates)
        simp only [State.pending, filterMap_append, filterMap_cons_none hmessage.1,
          filterMap_nil, append_nil]
      · cases hstep
  | round =>
      cases hstep
      exact hsame rfl (h.quiet (Nat.le_refl _) (fun _ => rfl) (List.Sublist.refl _)
        h.tables h.gates)
  | handle =>
      simp only [step] at hstep
      split at hstep
      · next hqueue =>
        cases hstep
        exact hsame rfl (inv_handle h hqueue)
      · cases hstep
  | cancel scope =>
      cases hstep
      exact hsame rfl (h.quiet (Nat.le_refl _) (fun _ => rfl) (List.Sublist.refl _)
        h.tables h.gates)
  | work result =>
      simp only [step] at hstep
      split at hstep
      · next hqueue =>
        cases hstep
        simp only [observe, hqueue]
        exact inv_work h hqueue
      · cases hstep
  | finish i ending =>
      simp only [step] at hstep
      split at hstep
      · next task htask =>
        split at hstep
        · obtain ⟨message, hanswer, rfl⟩ := map_eq_some_iff.mp hstep
          simp only [observe, htask, hanswer, toList_some, map_cons, map_nil]
          exact inv_finish h htask hanswer
        · cases hstep
      · cases hstep
  | dispatch i threw =>
      simp only [step] at hstep
      split at hstep
      · next message hmessage =>
        cases hstep
        simp only [observe, hmessage]
        exact inv_dispatched h hmessage
      · cases hstep
  | reset =>
      cases hstep
      refine hsame rfl (h.quiet (Nat.le_refl _) (fun _ => rfl) (nil_sublist _) ?_ h.gates)
      intro callback request hregistered
      cases hregistered <;> contradiction

end Invariant

/-! ## The way to an answer -/

section Progress

variable {s : State} {log : List Event}

/-- A step of the loop, of the queue of the object or of a task. -/
def ofRuntime : Op → Bool
  | .handle | .work _ | .finish _ _ => true
  | _ => false

/-- The loop handles what is in its channel, and the queue works on what is in it. -/
theorem reaches_worked (s : State) :
    ∃ s', machine.Reaches (fun _ op => ofRuntime op = true) s s' ∧
      s'.toScheduler = [] ∧ s'.queue = [] := by
  have hhandled : ∃ t, machine.Reaches (fun _ op => ofRuntime op = true) s t ∧ True ∧
      t.toScheduler = [] := by
    refine reaches_of_measure (fun t => t.toScheduler.length) (fun t _ => ?_) trivial
    cases hqueue : t.toScheduler with
    | nil => exact .inl rfl
    | cons message rest =>
        refine .inr ⟨.handle, t.handle message rest, rfl, ?_, trivial, Nat.lt_succ_self _⟩
        change step t .handle = _
        rw [step, hqueue]
  obtain ⟨t, hhandled, -, hempty⟩ := hhandled
  have hworked : ∃ s', machine.Reaches (fun _ op => ofRuntime op = true) t s' ∧
      s'.toScheduler = [] ∧ s'.queue = [] := by
    refine reaches_of_measure (fun t => t.queue.length) (fun t hempty => ?_) hempty
    cases hqueue : t.queue with
    | nil => exact .inl rfl
    | cons work rest =>
        refine .inr ⟨.work .other, t.work work rest .other, rfl, ?_, hempty, Nat.lt_succ_self _⟩
        change step t (.work .other) = _
        rw [step, hqueue]
  obtain ⟨s', hworked, hdone⟩ := hworked
  exact ⟨s', hhandled.trans hworked, hdone⟩

/-- A task can end once the queue is worked off. -/
theorem Inv.allows (h : Inv s log) (hqueue : s.queue = []) {task : Task} (htask : task ∈ s.tasks)
    {callback : CallbackId} (hcallback : taskCallback task = some callback) :
    ∃ ending message, s.allows task ending = true ∧ answer task ending = some message ∧
      message.callback = callback := by
  have hfound : ∀ ending message, s.allows task ending = true → answer task ending = some message →
      ∃ ending message, s.allows task ending = true ∧ answer task ending = some message ∧
        message.callback = callback := by
    intro ending message hallows hanswer
    refine ⟨ending, message, hallows, hanswer, ?_⟩
    rw [callback_answer hanswer] at hcallback
    exact Option.some.inj hcallback
  cases task with
  | call kind callback gate scope =>
      have hdecided : s.gate gate ≠ none := by
        cases gate with
        | free | closed => exact nofun
        | behind gate =>
            refine (h.gates kind callback gate scope htask).resolve_right ?_
            rw [hqueue]
            exact not_mem_nil
      cases hgate : s.gate gate with
      | none => exact absurd hgate hdecided
      | some opened =>
          cases opened with
          | false => exact hfound .gateClosed _ (decide_eq_true hgate) rfl
          | true => exact hfound (.result .ack) _ (decide_eq_true hgate) rfl
  | streamRead => exact hfound (.chunk (.ok ())) _ rfl rfl
  | webSocket => exact hfound (.result .ack) _ rfl rfl
  | writable | serverWebSocket | forward | linkAbort => cases hcallback

/-- The runtime answers an operation that was sent. -/
theorem answer_comes {ops : List Op} (hrun : machine.run ops = some s) {callback : CallbackId}
    (hsent : callback ∈ (sent (machine.log observe ops)).map Prod.fst) :
    ∃ more s', machine.run (ops ++ more) = some s' ∧ (∀ op ∈ more, ofRuntime op = true) ∧
      callback ∈ answered (machine.log observe (ops ++ more)) := by
  obtain ⟨t, ⟨more, hmore, hmeets⟩, hempty, hqueue⟩ := reaches_worked s
  have hops := (meets_iff_forall_mem hmore).mp hmeets
  have hrun' : machine.run (ops ++ more) = some t := (run_append hrun).trans hmore
  have hinv : Inv t (machine.log observe (ops ++ more)) :=
    invariant_log inv_init inv_step hrun'
  by_cases hanswered : callback ∈ answered (machine.log observe (ops ++ more))
  · exact ⟨more, t, hrun', hops, hanswered⟩
  · -- Nothing is left in the two queues, so the operation has a task.
    have hflow := hinv.flow callback
    rw [count_eq_zero.mpr hanswered, Nat.add_zero, State.pending, hempty, hqueue,
      filterMap_nil, filterMap_nil, nil_append, append_nil,
      log_append hrun, sent_append, map_append, count_append] at hflow
    have hpos := count_pos_iff.mpr hsent
    have hmem : callback ∈ t.tasks.filterMap taskCallback := count_pos_iff.mp (by omega)
    obtain ⟨task, htask, hcallback⟩ := mem_filterMap.mp hmem
    obtain ⟨ending, message, hallows, hanswer, rfl⟩ := hinv.allows hqueue htask hcallback
    obtain ⟨i, hi⟩ := getElem?_of_mem htask
    obtain ⟨s', hstep⟩ : ∃ s', machine.step t (.finish i ending) = some s' := by
      refine ⟨{ t with tasks := t.tasks.eraseIdx i, toGuest := t.toGuest ++ [message] }, ?_⟩
      change step t (.finish i ending) = _
      rw [step, hi]
      dsimp only
      rw [if_pos hallows, hanswer]
      rfl
    refine ⟨more ++ [.finish i ending], s', ?_, ?_, ?_⟩
    · rw [← append_assoc, run_append hrun', runFrom_cons, hstep]
      rfl
    · intro op hop
      rcases mem_append.mp hop with hop | hop
      · exact hops op hop
      · cases mem_singleton.mp hop
        rfl
    · rw [← append_assoc, log_append hrun', answered_append,
        logFrom_cons hstep, answered_append]
      refine mem_append_right _ (mem_append_left _ ?_)
      simp only [observe, hi, hanswer]
      exact mem_cons_self

end Progress

/-! ## Every operation is answered once -/

/-- What holds of everything that was seen of a run. -/
structure AnsweredOnce (log : List Event) : Prop where
  /-- No two operations share an id, whatever request they are of. -/
  ids : ((sent log).map Prod.fst).Nodup
  /-- No operation has two answers, and every answer is of an operation. -/
  once : (answered log).Nodup
  own : ∀ callback ∈ answered log, callback ∈ (sent log).map Prod.fst
  /-- One answer at most gets to the callbacks of an operation. -/
  consumed : (dispatched log).Nodup
  /-- An answer takes callbacks only of the request under way, which sent its operation. -/
  taken : ∀ message request taken called, .dispatched message request taken called ∈ log →
    ∀ entry ∈ taken, entry.2 = request ∧ (message.callback, request) ∈ sent log
  called : ∀ message request taken called, .dispatched message request taken called ∈ log →
    ∀ entry ∈ called, entry ∈ taken
  /-- An answer to an operation of another request finds nothing. -/
  stale : ∀ message request taken called request',
    .dispatched message request taken called ∈ log → (message.callback, request') ∈ sent log →
      request' ≠ request → taken = [] ∧ called = []

theorem Inv.answeredOnce {s : State} {log : List Event} (h : Inv s log) : AnsweredOnce log := by
  have hids := h.fresh.taken_nodup
  have hcount := nodup_iff_count_le_one.mp hids
  have honce : ∀ callback, (answered log).count callback ≤ 1 := by
    intro callback
    have hflow := h.flow callback
    have hle := hcount callback
    omega
  have htaken : ∀ message request taken called, .dispatched message request taken called ∈ log →
      ∀ entry ∈ taken, entry.2 = request ∧ (message.callback, request) ∈ sent log :=
    fun _ _ _ _ hmem => (h.owned _ hmem).1
  refine ⟨hids, nodup_iff_count_le_one.mpr honce, ?_, ?_, htaken,
    fun _ _ _ _ hmem => (h.owned _ hmem).2, ?_⟩
  · intro callback hmem
    have hpos := count_pos_iff.mpr hmem
    have hflow := h.flow callback
    exact count_pos_iff.mp (by omega)
  · refine nodup_iff_count_le_one.mpr fun callback => ?_
    have hback := h.back callback
    have hle := honce callback
    omega
  · intro message request taken called request' hmem hsent hne
    have hnil : taken = [] := by
      refine eq_nil_iff_forall_not_mem.mpr fun entry hentry => hne ?_
      have hpair := inj_on_of_nodup_map hids hsent (htaken _ _ _ _ hmem entry hentry).2 rfl
      exact congrArg Prod.snd hpair
    refine ⟨hnil, eq_nil_iff_forall_not_mem.mpr fun entry hentry => ?_⟩
    have hentry := (h.owned _ hmem).2 entry hentry
    rw [hnil] at hentry
    cases hentry

/-- **Every operation is answered once, and only by its own answer.**  In every run, over any
number of requests: no operation has two answers, one answer at most gets to its callbacks, which
are those of its own request, and after a reset an answer to an operation of an earlier request
calls nothing.  An operation that was sent has its answer after some more steps of the runtime. -/
theorem operations_answered_once (ops : List Op) (s : State) (hrun : machine.run ops = some s) :
    AnsweredOnce (machine.log observe ops) ∧
    ∀ callback request, (callback, request) ∈ sent (machine.log observe ops) →
      ∃ more s', machine.run (ops ++ more) = some s' ∧ (∀ op ∈ more, ofRuntime op = true) ∧
        callback ∈ answered (machine.log observe (ops ++ more)) := by
  have hinv : Inv s (machine.log observe ops) := invariant_log inv_init inv_step hrun
  exact ⟨hinv.answeredOnce, fun callback request hsent =>
    answer_comes hrun (List.mem_map_of_mem hsent)⟩

/-- A request makes a fetch and ends; the next one makes a KV op.  The fetch is cancelled by
`BeginRequest`, and its answer lands in the second request. -/
def lateAnswer : List Op :=
  [.send (.beginRequest none), .handle, .call .fetch, .handle, .reset, .send (.beginRequest none),
    .handle, .call (.kv "KV"), .handle, .finish 0 .cancelled, .dispatch 0 false,
    .finish 0 (.result (.kv (.ok ()))), .dispatch 0 false]

theorem operations_answered_once_late :
    machine.log observe lateAnswer =
      [.sent 1 0, .sent 2 1, .answered (.fetchError 1 "Operation cancelled"),
        .dispatched (.fetchError 1 "Operation cancelled") 1 [] [],
        .answered (.kvResult 2 (.ok ())),
        .dispatched (.kvResult 2 (.ok ())) 1 [(.resolve, 1), (.reject, 1)] [(.resolve, 1)]] ∧
    AnsweredOnce (machine.log observe lateAnswer) := by
  refine ⟨rfl, ?_⟩
  exact (operations_answered_once lateAnswer _ rfl).1

end OpenWorkers.Operations
