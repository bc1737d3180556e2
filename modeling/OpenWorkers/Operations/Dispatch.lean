import OpenWorkers.Sockets.Socket

/-!
# The answers of operations

What the task of an operation answers (`src/runtime/scheduler.rs`) and what the answer does to the
tables of callbacks (`src/runtime/dispatch.rs`, `src/runtime/mod.rs`).  Of a value that the host
gives only that it is one is kept, and a callback is the request that registered it.

The messages of timers and of the events of a socket are left out: they do not touch these
tables.
-/

namespace OpenWorkers.Operations

open Function
open Object Scheduler

/-- A value, or an error with its text. -/
abbrev Result := Except String Unit

inductive D1ErrorKind where
  | type
  | range
  | sql
  | interrupted
  | overloaded
  | unavailable
deriving DecidableEq, Repr

structure D1Error where
  kind : D1ErrorKind
  message : String
deriving DecidableEq, Repr

/-- `d1_error_message`. -/
def D1Error.text (error : D1Error) : String :=
  let code := match error.kind with
    | .type => "D1_TYPE_ERROR"
    | .range => "D1_RANGE_ERROR"
    | .sql | .interrupted | .overloaded | .unavailable => "D1_ERROR"
  code ++ ": " ++ error.message

inductive InvokeResult where
  | error (message : String)
  /-- A value, and whether it is too large for a V8 string. -/
  | value (tooLarge : Bool)
deriving DecidableEq, Repr

inductive OperationResult where
  | ack
  | http (result : Result)
  /-- A 101, with the socket that it hands over. -/
  | upgrade
  | storage (result : Result)
  | kv (result : Result)
  | database (result : Result)
  | d1 (result : Except D1Error Unit)
  | webSocket (result : Result)
  | images
  | invoke (result : InvokeResult)
  | objectStorage
deriving DecidableEq, Repr

inductive CallbackMessage where
  | fetchError (callback : CallbackId) (message : String)
  | fetchStreamingSuccess (callback : CallbackId)
  | bindingUpgrade (callback : CallbackId)
  | streamChunk (callback : CallbackId) (chunk : Result)
  | storageResult (callback : CallbackId) (result : Result)
  | kvResult (callback : CallbackId) (result : Result)
  | databaseResult (callback : CallbackId) (result : Result)
  | invokeResult (callback : CallbackId) (result : InvokeResult)
  | d1Result (callback : CallbackId) (result : Except D1Error Unit)
  | objectStorage (callback : CallbackId) (result : ObjectStorageResult)
  | webSocketConnected (callback : CallbackId) (socket : WebSocketId)
  | webSocketConnectError (callback : CallbackId) (message : String)
deriving DecidableEq, Repr

def CallbackMessage.callback : CallbackMessage → CallbackId
  | .fetchError callback _ | .fetchStreamingSuccess callback | .bindingUpgrade callback
  | .streamChunk callback _ | .storageResult callback _ | .kvResult callback _
  | .databaseResult callback _ | .invokeResult callback _ | .d1Result callback _
  | .objectStorage callback _ | .webSocketConnected callback _
  | .webSocketConnectError callback _ => callback

/-! ## What a task answers -/

/-- `convert_fetch_result_to_stream`. -/
def convertFetchResultToStream : OperationResult → Result
  | .http result => result
  | .ack => .error "Unexpected Ack result for fetch"
  | .storage _ => .error "Unexpected Storage result for fetch"
  | .kv _ => .error "Unexpected Kv result for fetch"
  | .database _ => .error "Unexpected Database result for fetch"
  | .d1 _ => .error "Unexpected D1 result for fetch"
  | .webSocket _ => .error "Unexpected WebSocket result for fetch"
  | .images => .error "Unexpected Images result for fetch"
  | .invoke _ => .error "Unexpected Invoke result for fetch"
  | .objectStorage => .error "Unexpected ObjectStorage result for fetch"
  | .upgrade => .error "Unexpected Upgrade result for fetch"

/-- The answer of `FetchStreaming` and `BindingFetch`. -/
def fetchAnswer (callback : CallbackId) : Result → CallbackMessage
  | .ok _ => .fetchStreamingSuccess callback
  | .error message => .fetchError callback message

/-- The answer of `answer_binding_request`. -/
def answerBindingRequest (callback : CallbackId) : OperationResult → CallbackMessage
  | .http (.ok _) => .fetchStreamingSuccess callback
  | .upgrade => .bindingUpgrade callback
  | .http (.error message) => .fetchError callback message
  | _ => .fetchError callback "Unexpected result type for a binding request"

/-- What the host gave where a result of another type was asked for. -/
def unexpected : Result := .error "Unexpected result type"

/-- The answer of a call that the host ended. -/
def CallKind.answer (callback : CallbackId) (result : OperationResult) :
    CallKind → CallbackMessage
  | .fetch | .bindingFetch => fetchAnswer callback (convertFetchResultToStream result)
  | .worker | .durableObject => answerBindingRequest callback result
  | .storage => .storageResult callback <| match result with
    | .storage result => result
    | _ => unexpected
  | .kv => .kvResult callback <| match result with
    | .kv result => result
    | _ => unexpected
  | .database => .databaseResult callback <| match result with
    | .database result => result
    | _ => unexpected
  | .d1 => .d1Result callback <| match result with
    | .d1 result => result
    | _ => .error ⟨.unavailable, "Unexpected result type"⟩
  | .invoke => .invokeResult callback <| match result with
    | .invoke result => result
    | _ => .error "Unexpected result type"

/-- The answer of a call that was cancelled. -/
def CallKind.cancelled (callback : CallbackId) : CallKind → CallbackMessage
  | .fetch | .bindingFetch | .worker | .durableObject =>
    .fetchError callback Sockets.cancelledText
  | .storage => .storageResult callback (.error Sockets.cancelledText)
  | .kv => .kvResult callback (.error Sockets.cancelledText)
  | .database => .databaseResult callback (.error Sockets.cancelledText)
  | .d1 => .d1Result callback (.error ⟨.interrupted, Sockets.cancelledText⟩)
  | .invoke => .invokeResult callback (.error Sockets.cancelledText)

/-- The answer of `run_websocket`. -/
def connectAnswer (callback : CallbackId) (socket : WebSocketId) :
    OperationResult → CallbackMessage
  | .webSocket (.ok _) => .webSocketConnected callback socket
  | .webSocket (.error message) => .webSocketConnectError callback message
  | _ => .webSocketConnectError callback "Unexpected result type for WebSocket connect"

/-- The branch of its `select!` in which a task ends. -/
inductive Ending where
  /-- `cancel.cancelled()`. -/
  | cancelled
  /-- The gate closed before the call was made. -/
  | gateClosed
  /-- The host has ended the call. -/
  | result (result : OperationResult)
  /-- `read_chunk` has ended. -/
  | chunk (chunk : Result)
deriving DecidableEq, Repr

/-- What a task answers, if it can end this way. -/
def answer : Task → Ending → Option CallbackMessage
  | .call kind callback _ _, .cancelled => some (CallKind.cancelled callback kind)
  | .call _ callback _ _, .gateClosed => some (.fetchError callback storageFailed)
  | .call kind callback _ _, .result result => some (CallKind.answer callback result kind)
  | .streamRead callback _ _, .cancelled =>
    some (.streamChunk callback (.error Sockets.cancelledText))
  | .streamRead callback _ _, .chunk chunk => some (.streamChunk callback chunk)
  | .webSocket callback _ _, .cancelled =>
    some (.webSocketConnectError callback Sockets.cancelledText)
  | .webSocket callback socket _, .result result => some (connectAnswer callback socket result)
  | _, _ => none

/-- The operation that a task answers. -/
def taskCallback : Task → Option CallbackId
  | .call _ callback _ _ | .streamRead callback _ _ | .webSocket callback _ _ => some callback
  | .writable _ _ _ | .serverWebSocket _ _ _ | .forward _ | .linkAbort _ _ => none

/-- A task answers its own operation. -/
theorem callback_answer {task : Task} {ending : Ending} {message : CallbackMessage}
    (h : answer task ending = some message) : taskCallback task = some message.callback := by
  cases task with
  | call kind callback gate scope =>
      cases ending with
      | cancelled => cases h; cases kind <;> rfl
      | gateClosed => cases h; rfl
      | result result =>
          cases h
          cases kind with
          | fetch | bindingFetch =>
              simp only [CallKind.answer]
              cases convertFetchResultToStream result <;> rfl
          | worker | durableObject =>
              simp only [CallKind.answer]
              unfold answerBindingRequest
              split <;> rfl
          | _ => rfl
      | chunk => cases h
  | streamRead => cases ending <;> cases h <;> rfl
  | webSocket callback socket scope =>
      cases ending with
      | cancelled => cases h; rfl
      | result result =>
          cases h
          unfold connectAnswer
          split <;> rfl
      | gateClosed | chunk => cases h
  | writable | serverWebSocket | forward | linkAbort => cases ending <;> cases h

/-! ## The tables -/

/-- A table of callbacks: for each id the request that registered one. -/
abbrev Callbacks := CallbackId → Option Nat

/-- `Tables`. -/
structure Tables where
  fetch : Callbacks
  fetchError : Callbacks
  stream : Callbacks

/-- Which function of an operation. -/
inductive Half where
  | resolve
  | reject
  | read
deriving DecidableEq, Repr

namespace Tables

def empty : Tables := ⟨fun _ => none, fun _ => none, fun _ => none⟩

/-- `register_callbacks_with_error`. -/
def registerPair (tables : Tables) (callback : CallbackId) (request : Nat) : Tables :=
  { tables with
    fetch := update tables.fetch callback (some request)
    fetchError := update tables.fetchError callback (some request) }

/-- The callback of `native_stream_read`. -/
def registerRead (tables : Tables) (callback : CallbackId) (request : Nat) : Tables :=
  { tables with stream := update tables.stream callback (some request) }

/-- Both callbacks of an operation go. -/
def removePair (tables : Tables) (callback : CallbackId) : Tables :=
  { tables with
    fetch := update tables.fetch callback none
    fetchError := update tables.fetchError callback none }

def removeRead (tables : Tables) (callback : CallbackId) : Tables :=
  { tables with stream := update tables.stream callback none }

theorem removePair_registerPair (tables : Tables) (callback : CallbackId) (request : Nat) :
    (tables.registerPair callback request).removePair callback = tables.removePair callback := by
  simp only [registerPair, removePair, update_idem]

end Tables

/-- What the dispatch of a message leaves of the tables, what it takes out of them, and what of
that it calls. -/
structure Dispatched where
  tables : Tables
  taken : List (Half × Nat)
  called : List (Half × Nat)

def found (half : Half) (callback : Option Nat) : List (Half × Nat) :=
  (callback.map fun request => (half, request)).toList

/-- `dispatch_binding_callbacks`.  A resolve that throws still owes the promise an answer. -/
def dispatchBindingCallbacks (tables : Tables) (callback : CallbackId) (error : Option String)
    (threw : Bool) : Dispatched :=
  let resolve := found .resolve (tables.fetch callback)
  let reject := found .reject (tables.fetchError callback)
  { tables := tables.removePair callback
    taken := resolve ++ reject
    called :=
      if error.isSome then reject
      else if resolve = [] then []
      else resolve ++ if threw then reject else [] }

/-- The text of an error. -/
def errorText : Result → Option String
  | .ok _ => none
  | .error message => some message

/-- `settle_invoke`, the error. -/
def InvokeResult.errorText : InvokeResult → Option String
  | .error message => some message
  | .value tooLarge => if tooLarge then some "invoke: the answer is too large" else none

/-- `dispatch`.  `threw` says that the guest's resolve threw. -/
def dispatch (tables : Tables) (threw : Bool) : CallbackMessage → Dispatched
  | .fetchError callback message =>
    dispatchBindingCallbacks tables callback (some message) threw
  | .fetchStreamingSuccess callback => dispatchBindingCallbacks tables callback none threw
  | .bindingUpgrade callback =>
    -- The reject goes with the resolve and is not called, whatever the resolve does.
    dispatchBindingCallbacks tables callback none false
  | .streamChunk callback _ =>
    let read := found .read (tables.stream callback)
    ⟨tables.removeRead callback, read, read⟩
  | .storageResult callback result | .kvResult callback result | .databaseResult callback result =>
    dispatchBindingCallbacks tables callback (errorText result) threw
  | .invokeResult callback result =>
    dispatchBindingCallbacks tables callback result.errorText threw
  | .d1Result callback result =>
    let error := match result with
      | .ok _ => none
      | .error error => some error.text
    dispatchBindingCallbacks tables callback error threw
  | .objectStorage callback result =>
    let error := match result with
      | .error message => some message
      | _ => none
    dispatchBindingCallbacks tables callback error threw
  | .webSocketConnected callback _ => dispatchBindingCallbacks tables callback none threw
  | .webSocketConnectError callback message =>
    dispatchBindingCallbacks tables callback (some message) threw

/-! ## What a dispatch can do -/

/-- The callback is in a table under the id. -/
inductive Registered (tables : Tables) (callback : CallbackId) (request : Nat) : Prop
  | fetch (h : tables.fetch callback = some request)
  | fetchError (h : tables.fetchError callback = some request)
  | stream (h : tables.stream callback = some request)

section Dispatch

variable {tables : Tables} {callback callback' : CallbackId} {request request' : Nat}

theorem registered_removePair (h : Registered (tables.removePair callback') callback request) :
    Registered tables callback request := by
  have hupdate : ∀ {table : Callbacks},
      update table callback' none callback = some request →
        table callback = some request := by
    intro table h
    rw [update_apply] at h
    split at h
    · cases h
    · exact h
  cases h with
  | fetch h => exact .fetch (hupdate h)
  | fetchError h => exact .fetchError (hupdate h)
  | stream h => exact .stream h

theorem registered_removeRead (h : Registered (tables.removeRead callback') callback request) :
    Registered tables callback request := by
  cases h with
  | fetch h => exact .fetch h
  | fetchError h => exact .fetchError h
  | stream h =>
      simp only [Tables.removeRead, update_apply] at h
      split at h
      · cases h
      · exact .stream h

/-- What is registered was, or is just registered. -/
theorem registered_register
    (h : Registered (tables.registerPair callback' request') callback request ∨
      Registered (tables.registerRead callback' request') callback request) :
    Registered tables callback request ∨ callback = callback' ∧ request = request' := by
  have hupdate : ∀ {table : Callbacks},
      update table callback' (some request') callback = some request →
        table callback = some request ∨ callback = callback' ∧ request = request' := by
    intro table h
    rw [update_apply] at h
    split at h
    · next heq =>
      cases h
      exact .inr ⟨heq, rfl⟩
    · exact .inl h
  rcases h with h | h
  · cases h with
    | fetch h => exact (hupdate h).imp_left .fetch
    | fetchError h => exact (hupdate h).imp_left .fetchError
    | stream h => exact .inl (.stream h)
  · cases h with
    | fetch h => exact .inl (.fetch h)
    | fetchError h => exact .inl (.fetchError h)
    | stream h => exact (hupdate h).imp_left .stream

theorem mem_found {half half' : Half} {registered : Option Nat}
    (h : (half', request) ∈ found half registered) : registered = some request := by
  obtain ⟨request', hregistered, heq⟩ := Option.map_eq_some_iff.mp (Option.mem_toList.mp h)
  cases heq
  exact hregistered

/-- A dispatch takes only what is registered under the id of its message, calls only what it
takes, and registers nothing. -/
structure Own (tables : Tables) (callback : CallbackId) (d : Dispatched) : Prop where
  taken : ∀ half request, (half, request) ∈ d.taken → Registered tables callback request
  called : ∀ entry ∈ d.called, entry ∈ d.taken
  left : ∀ callback request, Registered d.tables callback request →
    Registered tables callback request

theorem own_dispatchBindingCallbacks (tables : Tables) (callback : CallbackId)
    (error : Option String) (threw : Bool) :
    Own tables callback (dispatchBindingCallbacks tables callback error threw) where
  taken half request hmem := by
    rcases List.mem_append.mp hmem with hmem | hmem
    · exact .fetch (mem_found hmem)
    · exact .fetchError (mem_found hmem)
  called entry hmem := by
    simp only [dispatchBindingCallbacks] at hmem ⊢
    split at hmem
    · exact List.mem_append_right _ hmem
    · split at hmem
      · cases hmem
      · split at hmem
        · exact hmem
        · rw [List.append_nil] at hmem
          exact List.mem_append_left _ hmem
  left _ _ h := registered_removePair h

theorem own_dispatch (tables : Tables) (threw : Bool) (message : CallbackMessage) :
    Own tables message.callback (dispatch tables threw message) := by
  cases message with
  | streamChunk callback chunk =>
      refine ⟨fun half request hmem => .stream (mem_found hmem), fun entry hmem => hmem, ?_⟩
      exact fun _ _ h => registered_removeRead h
  | _ => exact own_dispatchBindingCallbacks tables _ _ _

end Dispatch

end OpenWorkers.Operations
