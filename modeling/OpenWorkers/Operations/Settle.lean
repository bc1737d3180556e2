import OpenWorkers.Operations.Dispatch

/-!
# An answer settles its promise

`dispatch` of `src/runtime/dispatch.rs` with what the functions of the guest do: each is called
with a value, returns, throws or is terminated, and may register callbacks of its own on the way
(`State.Extends`).  `dispatch_refines` says that the tables and the calls are those of
`OpenWorkers.Operations.dispatch`, which only knows whether the resolve function threw.

A text that is too long for a V8 string gives no string, and the answer that needs it a panic
(`v8::String::new(..).unwrap()`), but for the value of an invoke call, which is refused.
-/

namespace OpenWorkers.Operations.Settle

open List Object Function

variable {Fn V : Type}

/-- `Guest`: what guest code did when called. -/
inductive Guest (V : Type) where
  | returned
  | threw (exception : V)
  | terminated

/-- The tables of callbacks and the counter of their ids, none of which is beyond the counter. -/
structure State (Fn : Type) where
  fetch : CallbackId → Option Fn
  fetchError : CallbackId → Option Fn
  stream : CallbackId → Option Fn
  nextId : CallbackId
  fetch_eq_none : ∀ id, nextId ≤ id → fetch id = none
  fetchError_eq_none : ∀ id, nextId ≤ id → fetchError id = none

namespace State

/-- Both callbacks of an operation go. -/
def removePair (s : State Fn) (callback : CallbackId) : State Fn :=
  { s with
    fetch := update s.fetch callback none
    fetchError := update s.fetchError callback none
    fetch_eq_none := fun id hid => by
      rw [update_apply, s.fetch_eq_none id hid, ite_self]
    fetchError_eq_none := fun id hid => by
      rw [update_apply, s.fetchError_eq_none id hid, ite_self] }

def removeRead (s : State Fn) (callback : CallbackId) : State Fn :=
  { s with stream := update s.stream callback none }

/-- An id that was handed out. -/
theorem lt_of_fetch {s : State Fn} {id : CallbackId} {function : Fn}
    (h : s.fetch id = some function) : id < s.nextId := by
  by_contra hle
  rw [s.fetch_eq_none id (Nat.le_of_not_lt hle)] at h
  cases h

/-- What is registered under an old id stays as it is. -/
structure Extends (s s' : State Fn) : Prop where
  nextId : s.nextId ≤ s'.nextId
  fetch : ∀ id < s.nextId, s'.fetch id = s.fetch id
  fetchError : ∀ id < s.nextId, s'.fetchError id = s.fetchError id

theorem Extends.refl (s : State Fn) : Extends s s := ⟨Nat.le_refl _, fun _ _ => rfl, fun _ _ => rfl⟩

theorem Extends.trans {s s' s'' : State Fn} (h : Extends s s') (h' : Extends s' s'') :
    Extends s s'' where
  nextId := Nat.le_trans h.nextId h'.nextId
  fetch id hid := (h'.fetch id (Nat.lt_of_lt_of_le hid h.nextId)).trans (h.fetch id hid)
  fetchError id hid :=
    (h'.fetchError id (Nat.lt_of_lt_of_le hid h.nextId)).trans (h.fetchError id hid)

end State

/-- What a function of the guest does when it is called.  It registers callbacks under new ids,
and a call that is settled inline takes its own away again. -/
structure Behaviour (s : State Fn) (V : Type) where
  outcome : Guest V
  after : State Fn
  extends_after : s.Extends after

/-- What V8 and the guest do. -/
structure Engine (Fn V : Type) where
  /-- `v8::String::new` makes a string of the text. -/
  fits : String → Bool
  /-- The object of an answer can be made: no text and no list in it is too long. -/
  makes : CallbackMessage → Bool
  /-- `v8::Exception::error`. -/
  error : String → V
  /-- The value of an answer that is not an error. -/
  value : CallbackMessage → V
  /-- What a function does when it is called with a value. -/
  guest : (s : State Fn) → Fn → V → Behaviour s V

structure Call (Fn V : Type) where
  half : Half
  function : Fn
  argument : V
  outcome : Guest V

/-- What is left of the tables, and the calls of guest functions, in their order. -/
structure Dispatched (Fn V : Type) where
  state : State Fn
  calls : List (Call Fn V)
  /-- An `unwrap` failed, and the dispatch ended there. -/
  panicked : Bool

variable (engine : Engine Fn V) (s : State Fn)

/-- `call_guest`. -/
def callGuest (half : Half) (function : Fn) (argument : V) : State Fn × Call Fn V :=
  let behaviour := engine.guest s function argument
  (behaviour.after, ⟨half, function, argument, behaviour.outcome⟩)

theorem extends_callGuest (half : Half) (function : Fn) (argument : V) :
    s.Extends (callGuest engine s half function argument).1 :=
  (engine.guest s function argument).extends_after

/-- The resolve function is called, and a throw goes to the reject function. -/
def callPair (resolve : Fn) (reject : Option Fn) (value : V) : Dispatched Fn V :=
  let (s, call) := callGuest engine s .resolve resolve value
  match call.outcome, reject with
  | .threw thrown, some reject =>
    let (s, call') := callGuest engine s .reject reject thrown
    ⟨s, [call, call'], false⟩
  | _, _ => ⟨s, [call], false⟩

/-- `dispatch_binding_callbacks`. -/
def dispatchBindingCallbacks (callback : CallbackId) (error : Option String) (value : Option V) :
    Dispatched Fn V :=
  let resolve := s.fetch callback
  let reject := s.fetchError callback
  let s := s.removePair callback
  match error with
  | some text =>
    match reject with
    | some reject =>
      if engine.fits text then
        let (s, call) := callGuest engine s .reject reject (engine.error text)
        ⟨s, [call], false⟩
      else
        ⟨s, [], true⟩
    | none => ⟨s, [], false⟩
  | none =>
    match value, resolve with
    | some value, some resolve => callPair engine s resolve reject value
    | _, _ => ⟨s, [], false⟩

/-- `FetchStreamingSuccess`. -/
def fetchStreamingSuccess (callback : CallbackId) (message : CallbackMessage) :
    Dispatched Fn V :=
  let resolve := s.fetch callback
  let onError := s.fetchError callback
  let s := s.removePair callback
  match resolve with
  | some resolve =>
    if engine.makes message then callPair engine s resolve onError (engine.value message)
    else ⟨s, [], true⟩
  | none => ⟨s, [], false⟩

/-- `BindingUpgrade`. -/
def bindingUpgrade (callback : CallbackId) (message : CallbackMessage) : Dispatched Fn V :=
  let resolve := s.fetch callback
  let s := s.removePair callback
  match resolve with
  | some resolve =>
    if engine.makes message then
      let (s, call) := callGuest engine s .resolve resolve (engine.value message)
      ⟨s, [call], false⟩
    else
      ⟨s, [], true⟩
  | none => ⟨s, [], false⟩

/-- `StreamChunk`. -/
def streamChunk (callback : CallbackId) (message : CallbackMessage) : Dispatched Fn V :=
  let read := s.stream callback
  let s := s.removeRead callback
  match read with
  | some read =>
    if engine.makes message then
      let (s, call) := callGuest engine s .read read (engine.value message)
      ⟨s, [call], false⟩
    else
      ⟨s, [], true⟩
  | none => ⟨s, [], false⟩

/-- The answer of a binding.  The object of the result is made before the callbacks are taken. -/
def settle (callback : CallbackId) (error : Option String) (message : CallbackMessage) :
    Dispatched Fn V :=
  match error with
  | some text => dispatchBindingCallbacks engine s callback (some text) none
  | none =>
    if engine.makes message then
      dispatchBindingCallbacks engine s callback none (some (engine.value message))
    else
      ⟨s, [], true⟩

/-- `dispatch`. -/
def dispatch (message : CallbackMessage) : Dispatched Fn V :=
  match message with
  | .fetchError callback text => dispatchBindingCallbacks engine s callback (some text) none
  | .fetchStreamingSuccess callback => fetchStreamingSuccess engine s callback message
  | .bindingUpgrade callback => bindingUpgrade engine s callback message
  | .streamChunk callback _ => streamChunk engine s callback message
  | .storageResult callback result | .kvResult callback result | .databaseResult callback result =>
    settle engine s callback (errorText result) message
  | .d1Result callback result =>
    let error := match result with
      | .ok _ => none
      | .error error => some error.text
    settle engine s callback error message
  | .invokeResult callback result =>
    match result.errorText with
    | some text => dispatchBindingCallbacks engine s callback (some text) none
    | none => dispatchBindingCallbacks engine s callback none (some (engine.value message))
  | .objectStorage callback result =>
    match result with
    | .error text => dispatchBindingCallbacks engine s callback (some text) none
    -- The keys are texts.
    | .entries _ => settle engine s callback none message
    | .values _ | .written _ | .alarm _ =>
      dispatchBindingCallbacks engine s callback none (some (engine.value message))
  | .webSocketConnected callback _ =>
    dispatchBindingCallbacks engine s callback none (some (engine.value message))
  | .webSocketConnectError callback text =>
    dispatchBindingCallbacks engine s callback (some text) none

/-! ## What a dispatch leaves and calls -/

/-- The text that an answer rejects with. -/
def errorOf : CallbackMessage → Option String
  | .fetchError _ text | .webSocketConnectError _ text => some text
  | .storageResult _ result | .kvResult _ result | .databaseResult _ result => errorText result
  | .d1Result _ result => match result with
    | .ok _ => none
    | .error error => some error.text
  | .invokeResult _ result => result.errorText
  | .objectStorage _ result => match result with
    | .error text => some text
    | _ => none
  | .fetchStreamingSuccess _ | .bindingUpgrade _ | .streamChunk _ _ | .webSocketConnected _ _ =>
    none

/-- The value of the answer is an object with texts. -/
def hasTexts : CallbackMessage → Bool
  | .fetchStreamingSuccess _ | .bindingUpgrade _ | .streamChunk _ _ | .storageResult _ _
  | .kvResult _ _ | .databaseResult _ _ | .d1Result _ _ | .objectStorage _ (.entries _) => true
  | .fetchError _ _ | .invokeResult _ _ | .objectStorage _ _ | .webSocketConnected _ _
  | .webSocketConnectError _ _ => false

/-- V8 has room for what the answer gives to the guest. -/
def Room (message : CallbackMessage) : Prop :=
  match errorOf message with
  | some text => engine.fits text = true
  | none => hasTexts message = true → engine.makes message = true

/-- The answer is one for a resolve/reject pair. -/
def answersPair : CallbackMessage → Bool
  | .streamChunk _ _ => false
  | _ => true

variable {engine s} {message : CallbackMessage} {resolve reject : Fn}

theorem dispatch_of_error {text : String} (h : errorOf message = some text) :
    dispatch engine s message =
      dispatchBindingCallbacks engine s message.callback (some text) none := by
  cases message with
  | fetchError | webSocketConnectError =>
      cases h
      rfl
  | storageResult callback result | kvResult callback result | databaseResult callback result =>
      cases result with
      | ok => cases h
      | error =>
          cases h
          rfl
  | d1Result callback result =>
      cases result with
      | ok => cases h
      | error =>
          cases h
          rfl
  | invokeResult callback result =>
      have herror : result.errorText = some text := h
      simp only [dispatch, herror, CallbackMessage.callback]
  | objectStorage callback result =>
      cases result <;> cases h
      rfl
  | fetchStreamingSuccess | bindingUpgrade | streamChunk | webSocketConnected => cases h

/-- An answer that is no error is given to the resolve function, and what that throws to the
reject function. -/
theorem dispatch_of_value (h : errorOf message = none) (hpair : answersPair message = true)
    (hupgrade : ∀ callback, message ≠ .bindingUpgrade callback)
    (hroom : hasTexts message = true → engine.makes message = true)
    (hresolve : s.fetch message.callback = some resolve) :
    dispatch engine s message = callPair engine (s.removePair message.callback) resolve
      (s.fetchError message.callback) (engine.value message) := by
  have hbinding : dispatchBindingCallbacks engine s message.callback none
      (some (engine.value message)) = callPair engine (s.removePair message.callback) resolve
        (s.fetchError message.callback) (engine.value message) := by
    simp only [dispatchBindingCallbacks, hresolve]
  have hsettle : hasTexts message = true → settle engine s message.callback none message =
      callPair engine (s.removePair message.callback) resolve (s.fetchError message.callback)
        (engine.value message) := by
    intro htexts
    simp only [settle, hroom htexts, if_true]
    exact hbinding
  cases message with
  | fetchError | webSocketConnectError => cases h
  | streamChunk => cases hpair
  | bindingUpgrade callback => exact absurd rfl (hupgrade callback)
  | fetchStreamingSuccess callback =>
      have hresolve : s.fetch callback = some resolve := hresolve
      simp only [dispatch, fetchStreamingSuccess, hresolve, hroom rfl, if_true]
      rfl
  | storageResult callback result | kvResult callback result | databaseResult callback result =>
      cases result with
      | ok => exact hsettle rfl
      | error => cases h
  | d1Result callback result =>
      cases result with
      | ok => exact hsettle rfl
      | error => cases h
  | invokeResult callback result =>
      have herror : result.errorText = none := h
      simp only [dispatch, herror]
      exact hbinding
  | objectStorage callback result =>
      cases result with
      | error => cases h
      | entries => exact hsettle rfl
      | values | written | alarm => exact hbinding
  | webSocketConnected => exact hbinding

/-- Without room for the answer no function is called. -/
theorem calls_of_not_room (h : ¬ Room engine message) (hpair : answersPair message = true)
    (hresolve : s.fetch message.callback = some resolve)
    (hreject : s.fetchError message.callback = some reject) :
    (dispatch engine s message).calls = [] := by
  unfold Room at h
  split at h
  · next text herror =>
    have hfits := eq_false_of_ne_true h
    simp only [dispatch_of_error herror, dispatchBindingCallbacks, hreject, hfits,
      Bool.false_eq_true, if_false]
  · next herror =>
    obtain ⟨htexts, hmakes⟩ := Classical.not_imp.mp h
    have hmakes := eq_false_of_ne_true hmakes
    have hsettle : (settle engine s message.callback none message).calls = [] := by
      simp only [settle, hmakes, Bool.false_eq_true, if_false]
    cases message with
    | fetchError | webSocketConnectError => cases herror
    | streamChunk => cases hpair
    | fetchStreamingSuccess callback =>
        have hresolve : s.fetch callback = some resolve := hresolve
        simp only [dispatch, fetchStreamingSuccess, hresolve, hmakes, Bool.false_eq_true, if_false]
    | bindingUpgrade callback =>
        have hresolve : s.fetch callback = some resolve := hresolve
        simp only [dispatch, bindingUpgrade, hresolve, hmakes, Bool.false_eq_true, if_false]
    | storageResult callback result | kvResult callback result | databaseResult callback result =>
        cases result with
        | ok => exact hsettle
        | error => cases herror
    | d1Result callback result =>
        cases result with
        | ok => exact hsettle
        | error => cases herror
    | invokeResult | webSocketConnected => cases htexts
    | objectStorage callback result =>
        cases result with
        | entries => exact hsettle
        | error => cases herror
        | values | written | alarm => cases htexts

/-! ## The promise -/

/-- The pair is gone, and the promise is settled: its resolve function returned, or its reject
function was called, with the exception of the resolve function if that threw. -/
structure Settled (callback : CallbackId) (resolve reject : Fn) (d : Dispatched Fn V) : Prop where
  fetch : d.state.fetch callback = none
  fetchError : d.state.fetchError callback = none
  promise : (∃ argument, ⟨.resolve, resolve, argument, .returned⟩ ∈ d.calls) ∨
    ∃ argument outcome, ⟨.reject, reject, argument, outcome⟩ ∈ d.calls ∧
      ∀ argument' exception, ⟨.resolve, resolve, argument', .threw exception⟩ ∈ d.calls →
        argument = exception

/-- The pair stays away, whatever the guest registers. -/
theorem State.Extends.removed {s s' : State Fn} {callback : CallbackId}
    (hlt : callback < s.nextId) (h : (s.removePair callback).Extends s') :
    s'.fetch callback = none ∧ s'.fetchError callback = none := by
  constructor
  · rw [h.fetch callback hlt]
    exact update_self _ _ _
  · rw [h.fetchError callback hlt]
    exact update_self _ _ _

theorem resolve_mem_callPair (reject : Option Fn) (value : V) :
    ⟨.resolve, resolve, value, (engine.guest s resolve value).outcome⟩ ∈
      (callPair engine s resolve reject value).calls := by
  simp only [callPair, callGuest]
  split <;> exact mem_cons_self

theorem settled_callPair {callback : CallbackId} {value : V} (hlt : callback < s.nextId)
    (hterminated : (engine.guest (s.removePair callback) resolve value).outcome ≠ .terminated) :
    Settled callback resolve reject
      (callPair engine (s.removePair callback) resolve (some reject) value) := by
  have hresolve := extends_callGuest engine (s.removePair callback) .resolve resolve value
  cases houtcome : (engine.guest (s.removePair callback) resolve value).outcome with
  | terminated => exact absurd houtcome hterminated
  | returned =>
      obtain ⟨hfetch, hfetchError⟩ := hresolve.removed hlt
      simp only [callPair, callGuest, houtcome]
      exact ⟨hfetch, hfetchError, .inl ⟨value, mem_singleton_self _⟩⟩
  | threw exception =>
      obtain ⟨hfetch, hfetchError⟩ := (hresolve.trans
        (extends_callGuest engine _ .reject reject exception)).removed hlt
      simp only [callPair, callGuest, houtcome]
      refine ⟨hfetch, hfetchError, .inr ⟨exception, _, mem_cons_of_mem _
        (mem_singleton_self _), fun argument' exception' hmem => ?_⟩⟩
      rcases mem_cons.mp hmem with heq | hmem
      · cases heq
        rfl
      · cases mem_singleton.mp hmem

theorem settled_upgrade_iff {callback : CallbackId}
    (hresolve : s.fetch callback = some resolve)
    (hmakes : engine.makes (.bindingUpgrade callback) = true)
    (hterminated : ∀ call ∈ (dispatch engine s (.bindingUpgrade callback)).calls,
      call.outcome ≠ .terminated) :
    Settled callback resolve reject (dispatch engine s (.bindingUpgrade callback)) ↔
      ∀ exception, (engine.guest (s.removePair callback) resolve
        (engine.value (.bindingUpgrade callback))).outcome ≠ .threw exception := by
  obtain ⟨hfetch, hfetchError⟩ := (extends_callGuest engine (s.removePair callback) .resolve
    resolve (engine.value (.bindingUpgrade callback))).removed (State.lt_of_fetch hresolve)
  simp only [dispatch, bindingUpgrade, hresolve, hmakes, if_true] at hterminated ⊢
  constructor
  · intro h exception houtcome
    -- The only call is the one that threw.
    rcases h.promise with ⟨_, hmem⟩ | ⟨_, _, hmem, -⟩
    · have heq := congrArg Call.outcome (mem_singleton.mp hmem)
      cases heq.trans houtcome
    · cases congrArg Call.half (mem_singleton.mp hmem)
  · intro h
    refine ⟨hfetch, hfetchError, .inl ⟨engine.value (.bindingUpgrade callback), ?_⟩⟩
    have hreturned : (engine.guest (s.removePair callback) resolve
        (engine.value (.bindingUpgrade callback))).outcome = .returned := by
      cases houtcome : (engine.guest (s.removePair callback) resolve
          (engine.value (.bindingUpgrade callback))).outcome with
      | returned => rfl
      | threw exception => exact absurd houtcome (h exception)
      | terminated => exact absurd houtcome (hterminated _ (mem_singleton_self _))
    simp only [callGuest, hreturned]
    exact mem_singleton_self _

/-- **Answers settle.**  The answer of a pair settles its promise if, and only if, V8 has room for
what it gives to the guest and it is not the one of an upgrade whose resolve function throws. -/
theorem answer_settles_iff (engine : Engine Fn V) (s : State Fn) (message : CallbackMessage)
    (resolve reject : Fn) (hpair : answersPair message = true)
    (hresolve : s.fetch message.callback = some resolve)
    (hreject : s.fetchError message.callback = some reject)
    (hterminated : ∀ call ∈ (dispatch engine s message).calls, call.outcome ≠ .terminated) :
    Settled message.callback resolve reject (dispatch engine s message) ↔
      Room engine message ∧
        ((∃ callback, message = .bindingUpgrade callback) → ∀ exception,
          (engine.guest (s.removePair message.callback) resolve (engine.value message)).outcome ≠
            .threw exception) := by
  have hlt := State.lt_of_fetch hresolve
  by_cases hroom : Room engine message
  · rw [and_iff_right hroom]
    unfold Room at hroom
    split at hroom
    · -- The reject function gets the error.
      next text herror =>
      refine iff_of_true ?_ ?_
      · obtain ⟨hfetch, hfetchError⟩ := (extends_callGuest engine
          (s.removePair message.callback) .reject reject (engine.error text)).removed hlt
        simp only [dispatch_of_error herror, dispatchBindingCallbacks, hreject, hroom, if_true]
        refine ⟨hfetch, hfetchError, .inr ⟨_, _, mem_singleton_self _, ?_⟩⟩
        intro argument' exception hmem
        cases mem_singleton.mp hmem
      · rintro ⟨callback, rfl⟩
        cases herror
    next herror =>
    by_cases hupgrade : ∃ callback, message = .bindingUpgrade callback
    · obtain ⟨callback, rfl⟩ := hupgrade
      exact (settled_upgrade_iff hresolve (hroom rfl) hterminated).trans
        ⟨fun h _ => h, fun h => h ⟨callback, rfl⟩⟩
    · refine iff_of_true ?_ fun h => absurd h hupgrade
      rw [dispatch_of_value herror hpair (fun callback h => hupgrade ⟨callback, h⟩) hroom hresolve,
        hreject] at hterminated ⊢
      exact settled_callPair hlt (hterminated _ (resolve_mem_callPair _ _))
  · refine iff_of_false (fun h => ?_) fun h => hroom h.1
    have hcalls := calls_of_not_room hroom hpair hresolve hreject
    rcases h.promise with ⟨_, hmem⟩ | ⟨_, _, hmem, -⟩ <;>
      rw [hcalls] at hmem <;> exact absurd hmem not_mem_nil

/-- A pair under the id 1, the first one, and a resolve function (1) that throws what it gets. -/
def throwing : Engine Nat String where
  fits _ := true
  makes _ := true
  error text := text
  value _ := "the answer"
  guest s function argument := ⟨if function = 1 then .threw argument else .returned, s, .refl s⟩

def onePair : State Nat where
  fetch id := if id = 1 then some 1 else none
  fetchError id := if id = 1 then some 2 else none
  stream _ := none
  nextId := 2
  fetch_eq_none _ hid := if_neg (Nat.ne_of_gt hid)
  fetchError_eq_none _ hid := if_neg (Nat.ne_of_gt hid)

theorem answer_settles_iff_throwing :
    (dispatch throwing onePair (.kvResult 1 (.ok ()))).calls =
        [⟨.resolve, 1, "the answer", .threw "the answer"⟩,
          ⟨.reject, 2, "the answer", .returned⟩] ∧
      Settled 1 1 2 (dispatch throwing onePair (.kvResult 1 (.ok ()))) := by
  refine ⟨rfl, (answer_settles_iff throwing onePair (.kvResult 1 (.ok ())) 1 2 rfl rfl rfl ?_).mpr
    ⟨fun _ => rfl, ?_⟩⟩
  · intro call hcall
    rcases mem_cons.mp hcall with rfl | hcall
    · exact nofun
    · cases mem_singleton.mp hcall
      exact nofun
  · rintro ⟨callback, h⟩
    cases h

/-- The same resolve function, and the answer of an upgrade: both functions are gone, and the
promise stays as it was.  The answer of a fetch calls the reject function. -/
theorem upgrade_leaves_the_promise_pending :
    let upgraded := dispatch throwing onePair (.bindingUpgrade 1)
    upgraded.calls = [⟨.resolve, 1, "the answer", .threw "the answer"⟩] ∧
      upgraded.state.fetch 1 = none ∧ upgraded.state.fetchError 1 = none ∧
      ¬ Settled 1 1 2 upgraded ∧
      ⟨.reject, 2, "the answer", .returned⟩ ∈
        (dispatch throwing onePair (.fetchStreamingSuccess 1)).calls := by
  refine ⟨rfl, rfl, rfl, fun h => ?_, mem_cons_of_mem _ (mem_singleton_self _)⟩
  rcases h.promise with ⟨_, hmem⟩ | ⟨_, _, hmem, -⟩ <;> cases mem_singleton.mp hmem

/-! ## The dispatch that knows no values -/

/-- The tables, with the request that registered a function in its place. -/
def State.tables (s : State Fn) (request : Fn → Nat) : Tables where
  fetch id := (s.fetch id).map request
  fetchError id := (s.fetchError id).map request
  stream id := (s.stream id).map request

/-- The resolve function throws at the answer. -/
def Throws (engine : Engine Fn V) (s : State Fn) (message : CallbackMessage) : Prop :=
  ∃ resolve exception, s.fetch message.callback = some resolve ∧
    (engine.guest (s.removePair message.callback) resolve (engine.value message)).outcome =
      .threw exception

theorem throws_iff (h : s.fetch message.callback = some resolve) :
    Throws engine s message ↔ ∃ exception, (engine.guest (s.removePair message.callback) resolve
      (engine.value message)).outcome = .threw exception := by
  constructor
  · rintro ⟨resolve', exception, h', houtcome⟩
    cases h.symm.trans h'
    exact ⟨exception, houtcome⟩
  · rintro ⟨exception, houtcome⟩
    exact ⟨resolve, exception, h, houtcome⟩

/-- The calls, as the coarser dispatch counts them. -/
def Dispatched.called (d : Dispatched Fn V) (request : Fn → Nat) : List (Half × Nat) :=
  d.calls.map fun call => (call.half, request call.function)

theorem called_callPair (reject : Option Fn) {value : V} {threw : Bool} (request : Fn → Nat)
    (h : threw = true ↔ ∃ exception, (engine.guest s resolve value).outcome = .threw exception) :
    (callPair engine s resolve reject value).called request =
      found .resolve (some (request resolve)) ++
        if threw then found .reject (reject.map request) else [] := by
  cases houtcome : (engine.guest s resolve value).outcome with
  | threw exception =>
      rw [h.mpr ⟨exception, houtcome⟩]
      cases reject <;> simp only [callPair, callGuest, houtcome] <;> rfl
  | returned | terminated =>
      have hthrew : threw = false := by
        refine eq_false_of_ne_true fun hthrew => ?_
        obtain ⟨exception, heq⟩ := h.mp hthrew
        cases houtcome.symm.trans heq
      rw [hthrew]
      simp only [callPair, callGuest, houtcome]
      rfl

theorem called_dispatchBindingCallbacks {callback : CallbackId} {error : Option String}
    {value : V} {threw : Bool} (request : Fn → Nat)
    (hpanicked : (dispatchBindingCallbacks engine s callback error
      (if error.isSome then none else some value)).panicked = false)
    (h : ∀ resolve, s.fetch callback = some resolve → (threw = true ↔ ∃ exception,
      (engine.guest (s.removePair callback) resolve value).outcome = .threw exception)) :
    (dispatchBindingCallbacks engine s callback error
      (if error.isSome then none else some value)).called request =
      (Operations.dispatchBindingCallbacks (s.tables request) callback error threw).called := by
  cases error with
  | some text =>
      cases hreject : s.fetchError callback with
      | none => simp [dispatchBindingCallbacks, Operations.dispatchBindingCallbacks, hreject,
          State.tables, Dispatched.called, found]
      | some reject =>
          cases hfits : engine.fits text with
          | true => simp [dispatchBindingCallbacks, Operations.dispatchBindingCallbacks, hreject,
              hfits, State.tables, Dispatched.called, found, callGuest]
          | false => simp [dispatchBindingCallbacks, hreject, hfits] at hpanicked
  | none =>
      cases hresolve : s.fetch callback with
      | none => simp [dispatchBindingCallbacks, Operations.dispatchBindingCallbacks, hresolve,
          State.tables, Dispatched.called, found]
      | some resolve =>
          have hcalled := called_callPair (s.fetchError callback) request (h resolve hresolve)
          simp [dispatchBindingCallbacks, Operations.dispatchBindingCallbacks, hresolve,
            State.tables, found] at hcalled ⊢
          exact hcalled

theorem extends_callPair (reject : Option Fn) (value : V) :
    s.Extends (callPair engine s resolve reject value).state := by
  have hresolve := extends_callGuest engine s .resolve resolve value
  simp only [callPair]
  split
  · exact hresolve.trans (extends_callGuest engine _ .reject _ _)
  · exact hresolve

theorem extends_dispatchBindingCallbacks (callback : CallbackId) (error : Option String)
    (value : Option V) : (s.removePair callback).Extends
      (dispatchBindingCallbacks engine s callback error value).state := by
  simp only [dispatchBindingCallbacks]
  split
  · split
    · split
      · exact extends_callGuest engine _ .reject _ _
      · exact .refl _
    · exact .refl _
  · split
    · exact extends_callPair _ _
    · exact .refl _

/-- The answer of a binding that does not panic goes to the callbacks. -/
theorem settle_of_not_panicked {callback : CallbackId} {error : Option String}
    (h : (settle engine s callback error message).panicked = false) :
    settle engine s callback error message =
      dispatchBindingCallbacks engine s callback error
        (if error.isSome then none else some (engine.value message)) := by
  cases error with
  | some text => rfl
  | none =>
      cases hmakes : engine.makes message with
      | true => exact if_pos hmakes
      | false =>
          rw [settle, hmakes] at h
          cases h

/-- A dispatch that does not panic takes the pair of its id, and the guest adds what it
registers. -/
theorem extends_dispatch (hpair : answersPair message = true)
    (hpanicked : (dispatch engine s message).panicked = false) :
    (s.removePair message.callback).Extends (dispatch engine s message).state := by
  have hsettle : ∀ {error}, (settle engine s message.callback error message).panicked = false →
      (s.removePair message.callback).Extends
        (settle engine s message.callback error message).state := by
    intro error h
    rw [settle_of_not_panicked h]
    exact extends_dispatchBindingCallbacks _ _ _
  cases message with
  | streamChunk => cases hpair
  | fetchStreamingSuccess callback =>
      simp only [dispatch, fetchStreamingSuccess]
      split
      · split
        · exact extends_callPair _ _
        · exact .refl _
      · exact .refl _
  | bindingUpgrade callback =>
      simp only [dispatch, bindingUpgrade]
      split
      · split
        · exact extends_callGuest engine _ .resolve _ _
        · exact .refl _
      · exact .refl _
  | storageResult | kvResult | databaseResult | d1Result => exact hsettle hpanicked
  | invokeResult callback result =>
      simp only [dispatch]
      split <;> exact extends_dispatchBindingCallbacks _ _ _
  | objectStorage callback result =>
      cases result with
      | entries => exact hsettle hpanicked
      | _ => exact extends_dispatchBindingCallbacks _ _ _
  | fetchError | webSocketConnected | webSocketConnectError =>
      exact extends_dispatchBindingCallbacks _ _ _

/-- The calls of a dispatch that does not panic are those of the dispatch that knows of the guest
only whether the resolve function threw. -/
theorem dispatch_refines (request : Fn → Nat) {threw : Bool}
    (hthrew : threw = true ↔ Throws engine s message)
    (hpanicked : (dispatch engine s message).panicked = false) :
    (dispatch engine s message).called request =
      (Operations.dispatch (s.tables request) threw message).called := by
  have hresolve : ∀ resolve, s.fetch message.callback = some resolve →
      (threw = true ↔ ∃ exception, (engine.guest (s.removePair message.callback) resolve
        (engine.value message)).outcome = .threw exception) := fun resolve h =>
    hthrew.trans (throws_iff h)
  have hsettle : ∀ {error}, (settle engine s message.callback error message).panicked = false →
      (settle engine s message.callback error message).called request =
        (Operations.dispatchBindingCallbacks (s.tables request) message.callback error
          threw).called := by
    intro error h
    have hsettled := settle_of_not_panicked h
    rw [hsettled] at h ⊢
    exact called_dispatchBindingCallbacks request h hresolve
  cases message with
  | fetchError | webSocketConnectError | webSocketConnected =>
      exact called_dispatchBindingCallbacks request hpanicked hresolve
  | storageResult | kvResult | databaseResult => exact hsettle hpanicked
  | d1Result callback result => cases result <;> exact hsettle hpanicked
  | invokeResult callback result =>
      cases herror : result.errorText with
      | some text =>
          simp only [dispatch, Operations.dispatch, herror] at hpanicked ⊢
          exact called_dispatchBindingCallbacks request hpanicked hresolve
      | none =>
          simp only [dispatch, Operations.dispatch, herror] at hpanicked ⊢
          exact called_dispatchBindingCallbacks request hpanicked hresolve
  | objectStorage callback result =>
      cases result with
      | entries => exact hsettle hpanicked
      | _ => exact called_dispatchBindingCallbacks request hpanicked hresolve
  | fetchStreamingSuccess callback =>
      cases hfetch : s.fetch callback with
      | none => simp [dispatch, fetchStreamingSuccess, Operations.dispatch,
          Operations.dispatchBindingCallbacks, hfetch, State.tables, Dispatched.called, found]
      | some resolve =>
          cases hmakes : engine.makes (.fetchStreamingSuccess callback) with
          | false => simp [dispatch, fetchStreamingSuccess, hfetch, hmakes] at hpanicked
          | true =>
              have hcalled := called_callPair (s.fetchError callback) request
                (hresolve resolve hfetch)
              simp [dispatch, fetchStreamingSuccess, Operations.dispatch,
                Operations.dispatchBindingCallbacks, hfetch, hmakes, State.tables, found,
                CallbackMessage.callback] at hcalled ⊢
              exact hcalled
  | bindingUpgrade callback =>
      cases hfetch : s.fetch callback with
      | none => simp [dispatch, bindingUpgrade, Operations.dispatch,
          Operations.dispatchBindingCallbacks, hfetch, State.tables, Dispatched.called, found]
      | some resolve =>
          cases hmakes : engine.makes (.bindingUpgrade callback) with
          | false => simp [dispatch, bindingUpgrade, hfetch, hmakes] at hpanicked
          | true => simp [dispatch, bindingUpgrade, Operations.dispatch,
              Operations.dispatchBindingCallbacks, hfetch, hmakes, State.tables,
              Dispatched.called, found, callGuest]
  | streamChunk callback chunk =>
      cases hread : s.stream callback with
      | none => simp [dispatch, streamChunk, Operations.dispatch, hread, State.tables,
          Dispatched.called, found]
      | some read =>
          cases hmakes : engine.makes (.streamChunk callback chunk) with
          | false => simp [dispatch, streamChunk, hread, hmakes] at hpanicked
          | true => simp [dispatch, streamChunk, Operations.dispatch, hread, hmakes, State.tables,
              Dispatched.called, found, callGuest]

theorem dispatch_refines_throwing :
    (dispatch throwing onePair (.kvResult 1 (.ok ()))).called id =
      (Operations.dispatch (onePair.tables id) true (.kvResult 1 (.ok ()))).called :=
  dispatch_refines id (iff_of_true rfl ⟨1, _, rfl, rfl⟩) rfl

/-- Under the ids that were handed out, the tables are those of the other dispatch. -/
theorem tables_refine (request : Fn → Nat) (threw : Bool) (hpair : answersPair message = true)
    (hpanicked : (dispatch engine s message).panicked = false) {id : CallbackId}
    (hid : id < s.nextId) :
    ((dispatch engine s message).state.tables request).fetch id =
        (Operations.dispatch (s.tables request) threw message).tables.fetch id ∧
      ((dispatch engine s message).state.tables request).fetchError id =
        (Operations.dispatch (s.tables request) threw message).tables.fetchError id := by
  have hextends := extends_dispatch hpair hpanicked
  have htables : (Operations.dispatch (s.tables request) threw message).tables =
      (s.tables request).removePair message.callback := by
    cases message with
    | streamChunk => cases hpair
    | _ => rfl
  have hupdate : ∀ table : CallbackId → Option Fn,
      (update table message.callback none id).map request =
        update (fun id => (table id).map request) message.callback none id := by
    intro table
    rw [update_apply, update_apply]
    split <;> rfl
  rw [htables]
  constructor
  · refine (congrArg (Option.map request) (hextends.fetch id hid)).trans ?_
    exact hupdate s.fetch
  · refine (congrArg (Option.map request) (hextends.fetchError id hid)).trans ?_
    exact hupdate s.fetchError

theorem tables_refine_throwing :
    ((dispatch throwing onePair (.kvResult 1 (.ok ()))).state.tables id).fetch 1 =
      (Operations.dispatch (onePair.tables id) true (.kvResult 1 (.ok ()))).tables.fetch 1 :=
  (tables_refine id true rfl rfl (show 1 < onePair.nextId by decide)).1

end OpenWorkers.Operations.Settle
