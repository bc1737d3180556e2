import OpenWorkers.Core
import OpenWorkers.Lib.Machine
import Mathlib.Data.List.Basic

/-!
# Turns on a shared isolate

`src/security/turn.rs` and the places of `src/execution_context.rs` that run JavaScript.

Requests that share an isolate run their JavaScript one at a time, under its lock.  What the
isolate keeps is not theirs: a termination flag, raised by the guard of a request through
`Turn::terminate` and by the heap callback, and one flag for the memory limits, set by the
heap callback and by the ArrayBuffer allocator.  The first is lowered where a turn begins, the
second is handed over where a turn ends.

Both flags are modelled by what has raised them since they were last lowered, so a flag is up
when its list is not empty and the list says for whom.

A request of the machine is one call of `execute_pinned`.  On the cold path it builds its
context under the lock, before it has a turn; then it loads the script as a turn of an id of
its own, and checks what happened.  On the warm path it resets its context as a turn.  After
that it runs its event, and the `waitUntil` work after it, in any number of turns under one
id.  A guard may call `Turn::terminate` at any moment, with any id that was ever handed out.
-/

namespace OpenWorkers.Security

/-- `next_request_id`: what guards and turns refer to. -/
abbrev RequestId := Nat

/-- Which kind of run a memory limit was hit in. -/
inductive During where
  | setUp
  | load
  | reset
  | event
deriving DecidableEq, Repr

/-- A memory limit that was hit while JavaScript ran for a request. -/
structure Hit where
  request : Nat
  during : During
deriving DecidableEq, Repr

/-- Who called `terminate_execution`. -/
inductive Raiser where
  /-- The wall-clock or CPU guard of this id. -/
  | guard (id : RequestId)
  /-- `near_heap_limit_callback`. -/
  | heap
deriving DecidableEq, Repr

structure Turn where
  holder : Option RequestId
  /-- Since the last `cancel_terminate_execution`. -/
  raised : List Raiser
  /-- `memory_limit_hit`, since it was last taken. -/
  memory : List Hit
deriving DecidableEq, Repr

namespace Turn

def new : Turn := ⟨none, [], []⟩

/-- `cancel_terminate_execution`. -/
def cancel (t : Turn) : Turn := { t with raised := [] }

/-- `Turn::begin`. -/
def begin (t : Turn) (id : RequestId) : Turn := { t with holder := some id, raised := [] }

/-- `Turn::end`; what it answers is `memory` before it. -/
def endTurn (t : Turn) : Turn := { t with holder := none, memory := [] }

/-- `Turn::terminate`. -/
def terminate (t : Turn) (id : RequestId) : Turn :=
  if t.holder = some id then { t with raised := t.raised ++ [.guard id] } else t

end Turn

/-! ## Requests -/

/-- How `new_with_pooled_isolate` returns before its load turn. -/
inductive SetUpFailure where
  | dispatch (e : String)
  | env (e : String)
  | clear
  /-- The CPU enforcer of the load starts spent. -/
  | cpuSpent
deriving DecidableEq, Repr

def SetUpFailure.reason : SetUpFailure → TerminationReason
  | .dispatch e => .initializationError ("Failed to install the dispatch: " ++ e)
  | .env e => .initializationError ("Failed to setup env: " ++ e)
  | .clear => .initializationError "the reset function"
  | .cpuSpent => .cpuTimeLimit

/-- How `evaluate_script` fails. -/
inductive EvaluateFailure where
  | exception (message : String)
  | initialization (message : String)
deriving DecidableEq, Repr

def EvaluateFailure.reason : EvaluateFailure → TerminationReason
  | .exception message => .exception message
  | .initialization message => .initializationError message

/-- How `exec` returns before its first turn. -/
inductive ExecFailure where
  | aborted
  | cpuSpent
  | consumed (message : String)
deriving DecidableEq, Repr

def ExecFailure.reason : ExecFailure → TerminationReason
  | .aborted => .aborted
  | .cpuSpent => .cpuTimeLimit
  | .consumed message => .other message

/-- What `new_with_pooled_isolate` checks after the load turn: whether the guards stopped it,
its `memory_hit`, the flag of the isolate, and what the script did. -/
def checkLoad (cpu wall : Bool) (hit memory : List Hit) (evaluated : Except EvaluateFailure Unit) :
    Outcome :=
  if cpu then .error .cpuTimeLimit
  else if wall then .error .wallClockTimeout
  else if hit ≠ [] ∨ memory ≠ [] then .error .memoryLimit
  else evaluated.mapError EvaluateFailure.reason

/-- What `check_termination_reason` makes of the error message of an event. -/
def eventFailure (e : String) : TerminationReason :=
  if (e.splitOn "Max event loop iterations").length ≠ 1 then .maxIterationsReached else .exception e

/-- `check_termination_reason`. -/
def checkTerminationReason (cpu wall : Bool) (hit : List Hit) (aborted : Bool)
    (result : Except String Unit) : Outcome :=
  if cpu then .error .cpuTimeLimit
  else if wall then .error .wallClockTimeout
  else if hit ≠ [] then .error .memoryLimit
  else if aborted then .error .aborted
  else result.mapError eventFailure

/-- Where a request stands; `hit` is the `memory_hit` it reads. -/
inductive Pc where
  /-- Before its reset, or before its set-up. -/
  | arrived (warm : Bool)
  /-- It builds its context, under the lock and without a turn. -/
  | settingUp
  | loading (id : RequestId)
  /-- The load turn has ended; the lock is still held. -/
  | loaded (hit : List Hit)
  | resetting (id : RequestId)
  | ready
  /-- Between two turns of its event, or of its `waitUntil` work. -/
  | waiting (id : RequestId) (hit : List Hit) (draining : Bool)
  | running (id : RequestId) (hit : List Hit) (draining : Bool)
  | ended (outcome : Outcome)
deriving DecidableEq

namespace Pc

/-- The id of the turn that a request has. -/
def turn : Pc → Option RequestId
  | .loading id | .resetting id | .running id _ _ => some id
  | .arrived _ | .settingUp | .loaded _ | .ready | .waiting _ _ _ | .ended _ => none

/-- The id that a request has, in its turn or between two turns. -/
def id : Pc → Option RequestId
  | .loading id | .resetting id | .waiting id _ _ | .running id _ _ => some id
  | .arrived _ | .settingUp | .loaded _ | .ready | .ended _ => none

/-- The kind of JavaScript that may run for a request. -/
def runs : Pc → Option During
  | .settingUp => some .setUp
  | .loading _ => some .load
  | .resetting _ => some .reset
  | .running _ _ _ => some .event
  | .arrived _ | .loaded _ | .ready | .waiting _ _ _ | .ended _ => none

/-- Whether a request has the lock of the isolate. -/
def locks : Pc → Bool
  | .settingUp | .loading _ | .loaded _ | .resetting _ | .running _ _ _ => true
  | .arrived _ | .ready | .waiting _ _ _ | .ended _ => false

/-- The `memory_hit` of a request. -/
def hit : Pc → List Hit
  | .loaded hit | .waiting _ hit _ | .running _ hit _ => hit
  | .arrived _ | .settingUp | .loading _ | .resetting _ | .ready | .ended _ => []

theorem id_of_turn {pc : Pc} {id : RequestId} (h : pc.turn = some id) : pc.id = some id := by
  cases pc <;> first | exact h | cases h

theorem locks_of_turn {pc : Pc} {id : RequestId} (h : pc.turn = some id) : pc.locks = true := by
  cases pc <;> first | rfl | cases h

theorem locks_of_runs {pc : Pc} {during : During} (h : pc.runs = some during) :
    pc.locks = true := by
  cases pc <;> first | rfl | cases h

/-- JavaScript runs in a turn, or for a set-up. -/
theorem eq_settingUp_or_turn {pc : Pc} {during : During} (h : pc.runs = some during) :
    pc = .settingUp ∨ ∃ id, pc.turn = some id := by
  cases pc <;> first | exact .inl rfl | exact .inr ⟨_, rfl⟩ | cases h

end Pc

/-- An isolate and the requests that share it. -/
structure Isolate where
  lock : Option Nat
  turn : Turn
  /-- The request that each id was handed out to. -/
  owners : List Nat
  requests : List Pc
deriving DecidableEq

inductive Op where
  /-- A request comes in, with a warm context or without. -/
  | arrive (warm : Bool)
  | setUp (request : Nat)
  | failSetUp (request : Nat) (failure : SetUpFailure)
  | load (request : Nat)
  | endLoad (request : Nat)
  | checkLoad (request : Nat) (cpu wall : Bool) (evaluated : Except EvaluateFailure Unit)
  /-- `reset`, which runs no JavaScript if the CPU enforcer starts spent. -/
  | reset (request : Nat) (spent : Bool)
  | endReset (request : Nat) (failed : Bool)
  | exec (request : Nat) (failure : Option ExecFailure)
  | begin (request : Nat)
  | endTurn (request : Nat)
  | check (request : Nat) (cpu wall aborted : Bool) (result : Except String Unit)
  /-- The guard of an id calls `Turn::terminate`. -/
  | terminate (id : RequestId)
  /-- JavaScript of the request hits the heap limit. -/
  | heapLimit (request : Nat)
  /-- JavaScript of the request hits the limit of the ArrayBuffer allocator. -/
  | bufferLimit (request : Nat)
deriving DecidableEq

namespace Isolate

def setPc (s : Isolate) (request : Nat) (pc : Pc) : Isolate :=
  { s with requests := s.requests.set request pc }

def unlock (s : Isolate) : Isolate := { s with lock := none }

/-- Hand out an id to a request and give it the turn. -/
def beginNew (s : Isolate) (request : Nat) : Isolate :=
  { s with turn := s.turn.begin s.owners.length, owners := s.owners ++ [request] }

def setMemory (s : Isolate) (hit : Hit) : Isolate :=
  { s with turn := { s.turn with memory := s.turn.memory ++ [hit] } }

def raise (s : Isolate) (raiser : Raiser) : Isolate :=
  { s with turn := { s.turn with raised := s.turn.raised ++ [raiser] } }

end Isolate

def step (s : Isolate) : Op → Option Isolate
  | .arrive warm => some { s with requests := s.requests ++ [.arrived warm] }
  | .setUp r =>
    match s.lock, s.requests[r]? with
    | none, some (.arrived false) => some { s.setPc r .settingUp with lock := some r }
    | _, _ => none
  | .failSetUp r failure =>
    match s.requests[r]? with
    | some .settingUp => some (s.setPc r (.ended (.error failure.reason))).unlock
    | _ => none
  | .load r =>
    match s.requests[r]? with
    | some .settingUp => some ((s.setPc r (.loading s.owners.length)).beginNew r)
    | _ => none
  | .endLoad r =>
    match s.requests[r]? with
    | some (.loading _) => some { s.setPc r (.loaded s.turn.memory) with turn := s.turn.endTurn }
    | _ => none
  | .checkLoad r cpu wall evaluated =>
    match s.requests[r]? with
    | some (.loaded hit) =>
      let pc := match checkLoad cpu wall hit s.turn.memory evaluated with
        | .ok () => .ready
        | .error reason => .ended (.error reason)
      -- the flag of the isolate is taken only if the check gets that far
      let turn := if ¬ cpu ∧ ¬ wall ∧ hit = [] then { s.turn with memory := [] } else s.turn
      some ({ s with turn }.setPc r pc).unlock
    | _ => none
  | .reset r spent =>
    match s.lock, s.requests[r]? with
    | none, some (.arrived true) =>
      let s := { s with turn := s.turn.cancel }
      if spent then
        some (s.setPc r (.arrived false))
      else
        some { (s.setPc r (.resetting s.owners.length)).beginNew r with lock := some r }
    | _, _ => none
  | .endReset r failed =>
    match s.requests[r]? with
    | some (.resetting _) =>
      let pc := if failed then .arrived false else .ready
      some ({ s with turn := s.turn.endTurn }.setPc r pc).unlock
    | _ => none
  | .exec r failure =>
    match s.requests[r]? with
    | some .ready =>
      match failure with
      | some failure => some (s.setPc r (.ended (.error failure.reason)))
      | none =>
        let s' := s.setPc r (.waiting s.owners.length [] false)
        some { s' with owners := s.owners ++ [r] }
    | _ => none
  | .begin r =>
    match s.lock, s.requests[r]? with
    | none, some (.waiting id hit draining) =>
      some { s.setPc r (.running id hit draining) with lock := some r, turn := s.turn.begin id }
    | _, _ => none
  | .endTurn r =>
    match s.requests[r]? with
    | some (.running id hit draining) =>
      let s' := s.setPc r (.waiting id (hit ++ s.turn.memory) draining)
      some { s' with turn := s.turn.endTurn }.unlock
    | _ => none
  | .check r cpu wall aborted result =>
    match s.requests[r]? with
    | some (.waiting id hit draining) =>
      match checkTerminationReason cpu wall hit aborted result, draining with
      | .ok (), false => some (s.setPc r (.waiting id hit true))
      | outcome, _ => some (s.setPc r (.ended outcome))
    | _ => none
  | .terminate id =>
    if id < s.owners.length then some { s with turn := s.turn.terminate id } else none
  | .heapLimit r =>
    match s.requests[r]? with
    | some pc => pc.runs.map fun during => (s.setMemory ⟨r, during⟩).raise .heap
    | none => none
  | .bufferLimit r =>
    match s.requests[r]? with
    | some pc => pc.runs.map fun during => s.setMemory ⟨r, during⟩
    | none => none

/-- An isolate before its first request. -/
def machine : Machine Isolate Op where
  init := ⟨none, .new, [], []⟩
  step := step

/-! ## What is seen of the memory flag -/

inductive MemoryEvent where
  /-- A memory limit is hit. -/
  | set (hit : Hit)
  /-- The flag that this hit has set is taken by a request. -/
  | taken (hit : Hit) (request : Nat)
deriving DecidableEq

/-- What a step does to the memory flag, seen from the state before it. -/
def observe (s : Isolate) : Op → List MemoryEvent
  | .heapLimit r | .bufferLimit r =>
    match s.requests[r]? with
    | some pc => pc.runs.toList.map fun during => .set ⟨r, during⟩
    | none => []
  | .endLoad r | .endTurn r | .endReset r _ => s.turn.memory.map (.taken · r)
  | .checkLoad r cpu wall _ =>
    match s.requests[r]? with
    | some (.loaded hit) =>
      if ¬ cpu ∧ ¬ wall ∧ hit = [] then s.turn.memory.map (.taken · r) else []
    | _ => []
  | .arrive _ | .setUp _ | .failSetUp _ _ | .load _ | .reset _ _ | .exec _ _ | .begin _
  | .check _ _ _ _ _ | .terminate _ => []

/-! ## What a step does -/

/-- The limits that end a request before its own result is read. -/
def IsLimit (reason : TerminationReason) : Prop :=
  reason = .cpuTimeLimit ∨ reason = .wallClockTimeout ∨ reason = .memoryLimit

theorem checkLoad_cases (cpu wall : Bool) (hit memory : List Hit)
    (evaluated : Except EvaluateFailure Unit) :
    (hit ≠ [] → ∃ reason, checkLoad cpu wall hit memory evaluated = .error reason ∧
      IsLimit reason) ∧
    (checkLoad cpu wall hit memory evaluated = .error .memoryLimit → hit ≠ [] ∨ memory ≠ []) := by
  unfold checkLoad
  split
  · exact ⟨fun _ => ⟨_, rfl, .inl rfl⟩, nofun⟩
  split
  · exact ⟨fun _ => ⟨_, rfl, .inr (.inl rfl)⟩, nofun⟩
  split
  · next hmem => exact ⟨fun _ => ⟨_, rfl, .inr (.inr rfl)⟩, fun _ => hmem⟩
  · next hmem =>
      refine ⟨fun hhit => absurd (.inl hhit) hmem, ?_⟩
      rcases evaluated with (_ | _) | _ <;> rintro ⟨⟩

theorem checkTerminationReason_cases (cpu wall : Bool) (hit : List Hit) (aborted : Bool)
    (result : Except String Unit) :
    (hit ≠ [] → ∃ reason, checkTerminationReason cpu wall hit aborted result = .error reason ∧
      IsLimit reason) ∧
    (checkTerminationReason cpu wall hit aborted result = .error .memoryLimit → hit ≠ []) := by
  unfold checkTerminationReason
  split
  · exact ⟨fun _ => ⟨_, rfl, .inl rfl⟩, nofun⟩
  split
  · exact ⟨fun _ => ⟨_, rfl, .inr (.inl rfl)⟩, nofun⟩
  split
  · next hmem => exact ⟨fun _ => ⟨_, rfl, .inr (.inr rfl)⟩, fun _ => hmem⟩
  · next hmem =>
      refine ⟨fun hhit => absurd hhit hmem, ?_⟩
      split
      · rintro ⟨⟩
      · cases result with
        | ok => rintro ⟨⟩
        | error e =>
            simp only [Except.mapError, eventFailure]
            split <;> rintro ⟨⟩

/-- What a step does to the isolate and to the request that takes it. -/
inductive Moved (s : Isolate) (op : Op) (s' : Isolate) : Prop
  | arrives (warm : Bool) (hop : op = .arrive warm)
      (heq : s' = { s with requests := s.requests ++ [.arrived warm] })
      (hseen : observe s op = [])
  /-- A request takes the lock and builds its context. -/
  | setsUp (r : Nat) (hop : op = .setUp r) (hlock : s.lock = none)
      (hpc : s.requests[r]? = some (.arrived false))
      (heq : s' = { s.setPc r .settingUp with lock := some r }) (hseen : observe s op = [])
  /-- A request that has the lock, or takes it, begins a turn. -/
  | begins (r : Nat) (pc pc' : Pc) (id : RequestId) (hpc : s.requests[r]? = some pc)
      (hended : ∀ outcome, pc ≠ .ended outcome) (hturn : pc.turn = none)
        (hturn' : pc'.turn = some id)
      (hlocks : pc'.locks = true) (hhit : pc'.hit = pc.hit)
      (hid : id = s.owners.length ∧ s'.owners = s.owners ++ [r] ∨
        pc.id = some id ∧ s'.owners = s.owners)
      (hlock : pc = .settingUp ∧ s'.lock = s.lock ∨
        pc.locks = false ∧ s.lock = none ∧ s'.lock = some r)
      (hrequests : s'.requests = s.requests.set r pc') (heq : s'.turn = s.turn.begin id)
      (hseen : observe s op = [])
  /-- A request ends its turn. -/
  | ends (r : Nat) (pc pc' : Pc) (id : RequestId) (hpc : s.requests[r]? = some pc)
      (hturn : pc.turn = some id) (hturn' : pc'.turn = none)
      (hruns : pc'.runs = none)
      (hhit : pc'.hit = pc.hit ++ s.turn.memory ∨ pc.runs = some .reset ∧ pc'.hit = [])
      (hended : ∀ outcome, pc' ≠ .ended outcome)
      (hid : ∀ id, pc'.id = some id → pc.turn = some id)
      (hrequests : s'.requests = s.requests.set r pc') (howners : s'.owners = s.owners)
      (hlock : s'.lock = if pc'.locks then s.lock else none)
      (heq : s'.turn = s.turn.endTurn) (hseen : observe s op = s.turn.memory.map (.taken · r))
  /-- A request goes on without a turn, and without the lock. -/
  | goesOn (r : Nat) (pc pc' : Pc) (hpc : s.requests[r]? = some pc)
      (hended : ∀ outcome, pc ≠ .ended outcome) (hturn : pc.turn = none)
      (hturn' : pc'.turn = none) (hlocks : pc'.locks = false)
      (hlimit : pc.hit ≠ [] → ∃ reason, pc' = .ended (.error reason) ∧ IsLimit reason)
      (hmemory : pc' = .ended (.error .memoryLimit) →
        pc.hit ≠ [] ∨ pc.locks = true ∧ s.turn.memory ≠ [])
      (hhit : pc'.hit = [])
      (hid : ∀ id, pc'.id = some id → pc.id = some id ∨
        id = s.owners.length ∧ s'.owners = s.owners ++ [r])
      (howners : s'.owners = s.owners ∨ s'.owners = s.owners ++ [r])
      (hrequests : s'.requests = s.requests.set r pc')
      (hlock : s'.lock = if pc.locks then none else s.lock)
      (hholder : s'.turn.holder = s.turn.holder)
      (hraised : s'.turn.raised = s.turn.raised ∨ s'.turn.raised = [])
      (htaken : s'.turn.memory = s.turn.memory ∧ observe s op = [] ∨ pc.locks = true ∧
        s'.turn.memory = [] ∧ observe s op = s.turn.memory.map (.taken · r))
      (hfails : pc = .settingUp → ∃ failure, op = .failSetUp r failure)
  /-- A guard calls `Turn::terminate`. -/
  | terminates (id : RequestId) (hid : id < s.owners.length)
      (heq : s' = { s with turn := s.turn.terminate id }) (hseen : observe s op = [])
  /-- JavaScript hits a memory limit. -/
  | hits (r : Nat) (pc : Pc) (during : During) (hpc : s.requests[r]? = some pc)
      (hruns : pc.runs = some during)
      (heq : s' = s.setMemory ⟨r, during⟩ ∨ s' = (s.setMemory ⟨r, during⟩).raise .heap)
      (hseen : observe s op = [.set ⟨r, during⟩])

theorem moved_checkLoad {s s' : Isolate} {r : Nat} {cpu wall : Bool}
    {evaluated : Except EvaluateFailure Unit}
    (hstep : step s (.checkLoad r cpu wall evaluated) = some s') :
    Moved s (.checkLoad r cpu wall evaluated) s' := by
  simp only [step] at hstep
  split at hstep
  · next hit hpc =>
      obtain ⟨hlimit, hmemory⟩ := checkLoad_cases cpu wall hit s.turn.memory evaluated
      have htaken : ∀ turn : Turn, turn = (if ¬ cpu ∧ ¬ wall ∧ hit = [] then
          { s.turn with memory := [] } else s.turn) →
          turn.holder = s.turn.holder ∧ turn.raised = s.turn.raised ∧
            (turn.memory = s.turn.memory ∧ observe s (.checkLoad r cpu wall evaluated) = [] ∨
              (Pc.loaded hit).locks = true ∧ turn.memory = [] ∧
                observe s (.checkLoad r cpu wall evaluated) =
                  s.turn.memory.map (.taken · r)) := by
        rintro turn rfl
        simp only [observe, hpc]
        split
        · exact ⟨rfl, rfl, .inr ⟨rfl, rfl, rfl⟩⟩
        · exact ⟨rfl, rfl, .inl ⟨rfl, rfl⟩⟩
      obtain ⟨hholder, hraised, htaken⟩ := htaken _ rfl
      cases houtcome : checkLoad cpu wall hit s.turn.memory evaluated with
      | ok =>
          rw [houtcome] at hstep hlimit
          cases hstep
          refine .goesOn r _ .ready hpc nofun rfl rfl rfl ?_ nofun rfl nofun (.inl rfl) rfl rfl
            hholder (.inl hraised) htaken nofun
          intro hhit
          obtain ⟨reason, heq, -⟩ := hlimit hhit
          cases heq
      | error reason =>
          rw [houtcome] at hstep hlimit hmemory
          cases hstep
          refine .goesOn r _ (.ended (.error reason))
            hpc nofun rfl rfl rfl ?_ ?_ rfl nofun
            (.inl rfl) rfl rfl hholder (.inl hraised) htaken nofun
          · intro hhit
            obtain ⟨reason', heq, hreason⟩ := hlimit hhit
            cases heq
            exact ⟨reason, rfl, hreason⟩
          · rintro ⟨⟩
            exact (hmemory rfl).imp_right (And.intro rfl)
  · cases hstep

theorem moved_check {s s' : Isolate} {r : Nat} {cpu wall aborted : Bool}
    {result : Except String Unit} (hstep : step s (.check r cpu wall aborted result) = some s') :
    Moved s (.check r cpu wall aborted result) s' := by
  simp only [step] at hstep
  split at hstep
  · next id hit draining hpc =>
      obtain ⟨hlimit, hmemory⟩ := checkTerminationReason_cases cpu wall hit aborted result
      split at hstep
      · next houtcome =>
          cases hstep
          rw [houtcome] at hlimit
          have hhit : hit = [] := by
            by_contra hhit
            obtain ⟨reason, heq, -⟩ := hlimit hhit
            cases heq
          refine .goesOn r _ (.waiting id hit true) hpc nofun rfl rfl rfl (absurd hhit ·)
            nofun hhit ?_
            (.inl rfl) rfl rfl rfl (.inl rfl) (.inl ⟨rfl, rfl⟩) nofun
          rintro _ ⟨⟩
          exact .inl rfl
      · next =>
          cases hstep
          refine .goesOn r _ (.ended _) hpc nofun rfl rfl rfl ?_ ?_ rfl nofun (.inl rfl) rfl rfl rfl
            (.inl rfl) (.inl ⟨rfl, rfl⟩) nofun
          · intro hhit
            obtain ⟨reason, heq, hreason⟩ := hlimit hhit
            exact ⟨reason, by rw [heq], hreason⟩
          · intro heq
            exact .inl (hmemory (Pc.ended.inj heq))
  · cases hstep

theorem moved_reset {s s' : Isolate} {r : Nat} {spent : Bool}
    (hstep : step s (.reset r spent) = some s') : Moved s (.reset r spent) s' := by
  simp only [step] at hstep
  split at hstep
  · next hlock hpc =>
      split at hstep
      · cases hstep
        exact .goesOn r _ (.arrived false) hpc nofun rfl rfl rfl (absurd rfl ·) nofun rfl nofun
          (.inl rfl) rfl rfl rfl (.inr rfl) (.inl ⟨rfl, rfl⟩) nofun
      · cases hstep
        exact .begins r _ (.resetting _) _ hpc nofun rfl rfl rfl rfl (.inl ⟨rfl, rfl⟩)
          (.inr ⟨rfl, hlock, rfl⟩) rfl rfl rfl
  · cases hstep

theorem moved_exec {s s' : Isolate} {r : Nat} {failure : Option ExecFailure}
    (hstep : step s (.exec r failure) = some s') : Moved s (.exec r failure) s' := by
  simp only [step] at hstep
  split at hstep
  · next hpc =>
      cases failure with
      | some failure =>
          cases hstep
          refine .goesOn r _ (.ended _) hpc nofun rfl rfl rfl (absurd rfl ·) ?_ rfl nofun
            (.inl rfl) rfl
            rfl rfl (.inl rfl) (.inl ⟨rfl, rfl⟩) nofun
          cases failure <;> rintro ⟨⟩
      | none =>
          cases hstep
          refine .goesOn r _ (.waiting s.owners.length [] false)
            hpc nofun rfl rfl rfl (absurd rfl ·)
            nofun rfl ?_ (.inr rfl) rfl rfl rfl (.inl rfl) (.inl ⟨rfl, rfl⟩) nofun
          rintro _ ⟨⟩
          exact .inr ⟨rfl, rfl⟩
  · cases hstep

/-- **Inversion of a step.** -/
theorem moved_step {s s' : Isolate} {op : Op} (hstep : step s op = some s') : Moved s op s' := by
  cases op with
  | arrive warm =>
      cases hstep
      exact .arrives warm rfl rfl rfl
  | setUp r =>
      simp only [step] at hstep
      split at hstep
      · next hlock hpc =>
          cases hstep
          exact .setsUp r rfl hlock hpc rfl rfl
      · cases hstep
  | failSetUp r failure =>
      simp only [step] at hstep
      split at hstep
      · next hpc =>
          cases hstep
          refine .goesOn r _ (.ended _) hpc nofun rfl rfl rfl (absurd rfl ·) ?_ rfl nofun
            (.inl rfl) rfl
            rfl rfl (.inl rfl) (.inl ⟨rfl, rfl⟩) fun _ => ⟨failure, rfl⟩
          cases failure <;> rintro ⟨⟩
      · cases hstep
  | load r =>
      simp only [step] at hstep
      split at hstep
      · next hpc =>
          cases hstep
          exact .begins r _ (.loading _) _ hpc nofun rfl rfl rfl rfl (.inl ⟨rfl, rfl⟩)
            (.inl ⟨rfl, rfl⟩) rfl rfl rfl
      · cases hstep
  | endLoad r =>
      simp only [step] at hstep
      split at hstep
      · next id hpc =>
          cases hstep
          exact .ends r _ (.loaded _) id hpc rfl rfl rfl (.inl rfl) nofun nofun rfl rfl
            rfl rfl rfl
      · cases hstep
  | checkLoad r cpu wall evaluated => exact moved_checkLoad hstep
  | reset r spent => exact moved_reset hstep
  | endReset r failed =>
      simp only [step] at hstep
      split at hstep
      · next id hpc =>
          cases hstep
          cases failed with
          | true =>
              exact .ends r _ (.arrived false) id hpc rfl rfl rfl (.inr ⟨rfl, rfl⟩) nofun nofun rfl
                rfl rfl rfl rfl
          | false =>
              exact .ends r _ .ready id hpc rfl rfl rfl (.inr ⟨rfl, rfl⟩) nofun nofun rfl rfl rfl
                rfl rfl
      · cases hstep
  | exec r failure => exact moved_exec hstep
  | begin r =>
      simp only [step] at hstep
      split at hstep
      · next id hit draining hlock hpc =>
          cases hstep
          exact .begins r _ (.running id hit draining) id hpc nofun rfl rfl rfl rfl
            (.inr ⟨rfl, rfl⟩) (.inr ⟨rfl, hlock, rfl⟩) rfl rfl rfl
      · cases hstep
  | endTurn r =>
      simp only [step] at hstep
      split at hstep
      · next id hit draining hpc =>
          cases hstep
          refine .ends r _ (.waiting id (hit ++ s.turn.memory) draining) id hpc rfl rfl rfl
            (.inl rfl) nofun ?_ rfl rfl rfl rfl rfl
          rintro _ ⟨⟩
          rfl
      · cases hstep
  | check r cpu wall aborted result => exact moved_check hstep
  | terminate id =>
      simp only [step] at hstep
      split at hstep
      · next hid =>
          cases hstep
          exact .terminates id hid rfl rfl
      · cases hstep
  | heapLimit r =>
      simp only [step] at hstep
      split at hstep
      · next pc hpc =>
          obtain ⟨during, hruns, rfl⟩ := Option.map_eq_some_iff.mp hstep
          refine .hits r pc during hpc hruns (.inr rfl) ?_
          simp [observe, hpc, hruns]
      · cases hstep
  | bufferLimit r =>
      simp only [step] at hstep
      split at hstep
      · next pc hpc =>
          obtain ⟨during, hruns, rfl⟩ := Option.map_eq_some_iff.mp hstep
          refine .hits r pc during hpc hruns (.inl rfl) ?_
          simp [observe, hpc, hruns]
      · cases hstep

end OpenWorkers.Security
