import OpenWorkers.Foreground.Tasks
import OpenWorkers.Lib.Erase
import OpenWorkers.Lib.Log
import OpenWorkers.Lib.Tally
import OpenWorkers.Security.Cpu
import OpenWorkers.Security.Turn

/-!
# Whose turn a foreground task runs in

`pump_and_checkpoint` of `src/execution_context.rs` for requests that share an isolate.  A
request that has the turn runs every foreground task of the isolate that is due, and then every
reaction of the promises they resolved.  The turn, the CPU budget and the guards are those of
the request that pumps; the task may be the end of something another request started.

A task is modelled by the request whose JavaScript it resumes, if any; reactions are kept in the
queue of the isolate, by the request that they belong to.  What the log says of a stretch of CPU
time is whose JavaScript ran and who had the turn.

Two invariants are apart.  `Charged` holds of every run: the time is taken from the budget of
the request that has the turn.  `Owned` needs that a request pumps only tasks of its own and of
V8; then the two are the same request.  Only the reactions that tasks bring about are modelled,
not those that the callbacks of a request queue.
-/

namespace OpenWorkers.Foreground.Attribution

open List Security

/-- A foreground task: the request whose JavaScript it resumes, or none if it is V8's own. -/
abbrev Task := Option RequestId

structure Request where
  cpu : Option CpuEnforcer
  /-- `WallClock::PerTurn`: the budget is refilled before each turn. -/
  perTurn : Bool
deriving DecidableEq

namespace Request

/-- Whether the budget is refilled where the next turn begins. -/
def refills (q : Request) : Bool := q.perTurn && q.cpu.any fun e => !e.terminated

def beginTurn (q : Request) (clock : Nat) : Request :=
  { q with cpu := q.cpu.map fun e => (if q.perTurn then e.refill else e).beginTurn clock }

def endTurn (q : Request) (clock : Nat) : Request :=
  { q with cpu := q.cpu.map fun e => e.endTurn clock }

/-- The timer or the watchdog of the CPU limit has fired. -/
def flag (q : Request) : Request := { q with cpu := q.cpu.map CpuEnforcer.flag }

end Request

/-- Where the request that has the turn stands; `callbacks` if nobody has it. -/
inductive Phase where
  /-- It runs its own callbacks. -/
  | callbacks
  /-- It is in `ForegroundTasks::run`, with the task that runs. -/
  | pumping (task : Option Task)
  /-- It is in the microtask checkpoint, with the request of the reaction that runs. -/
  | checkpoint (reaction : Option RequestId)
deriving DecidableEq, Repr

structure State where
  now : Nat
  /-- The CPU clock of the thread. -/
  clock : Nat
  tasks : ForegroundTasks Task
  reactions : List RequestId
  turn : Turn
  requests : List Request
  phase : Phase
deriving DecidableEq

/-- The request whose JavaScript runs. -/
def State.js (s : State) : Option RequestId :=
  match s.phase with
  | .callbacks => s.turn.holder
  | .pumping task => task.join
  | .checkpoint reaction => reaction

inductive Action where
  | tick (time : Nat)
  /-- CPU time of the thread while nobody has the turn. -/
  | other (time : Nat)
  | arrive (timeoutMs : Nat) (perTurn : Bool)
  /-- V8 posts a task, from any thread. -/
  | post (task : Task) (delay : Option Int)
  /-- A poll that does not get the turn. -/
  | poll (r : RequestId)
  | begin (r : RequestId)
  /-- CPU time in a turn. -/
  | work (time : Nat)
  | startPump
  | runTask
  /-- The task returns; a promise it resolved may have reactions. -/
  | endTask (reacts : Bool)
  | endRun
  | runReaction
  | endReaction (reacts : Bool)
  | endCheckpoint
  | endTurn
  | flag (r : RequestId)
  /-- A guard of `r`. -/
  | terminate (r : RequestId)
deriving DecidableEq, Repr

def step (s : State) : Action → Option State
  | .tick time => some { s with now := s.now + time }
  | .other time =>
    if s.turn.holder = none then some { s with clock := s.clock + time } else none
  | .arrive timeoutMs perTurn =>
    some { s with requests := s.requests ++ [⟨CpuEnforcer.new timeoutMs, perTurn⟩] }
  | .post task delay => some { s with tasks := s.tasks.post s.now task delay }
  | .poll r => some { s with tasks := s.tasks.poll r }
  | .begin r =>
    if s.turn.holder = none ∧ r < s.requests.length then
      some { s with
        tasks := s.tasks.poll r
        turn := s.turn.begin r
        requests := s.requests.modify r fun q => q.beginTurn s.clock }
    else
      none
  | .work time =>
    if s.turn.holder = none then none else some { s with clock := s.clock + time }
  | .startPump =>
    if s.turn.holder ≠ none ∧ s.phase = .callbacks then
      some { s with phase := .pumping none }
    else
      none
  | .runTask =>
    match s.phase, s.tasks.next s.now with
    | .pumping none, some (task, tasks) => some { s with tasks, phase := .pumping (some task) }
    | _, _ => none
  | .endTask reacts =>
    match s.phase with
    | .pumping (some task) =>
      some { s with
        reactions := s.reactions ++ if reacts then task.toList else []
        phase := .pumping none }
    | _ => none
  | .endRun =>
    match s.phase, s.tasks.next s.now with
    | .pumping none, none => some { s with phase := .checkpoint none }
    | _, _ => none
  | .runReaction =>
    match s.phase, s.reactions with
    | .checkpoint none, reaction :: reactions =>
      some { s with reactions, phase := .checkpoint (some reaction) }
    | _, _ => none
  | .endReaction reacts =>
    match s.phase with
    | .checkpoint (some reaction) =>
      some { s with
        reactions := s.reactions ++ if reacts then [reaction] else []
        phase := .checkpoint none }
    | _ => none
  | .endCheckpoint =>
    match s.phase, s.reactions with
    | .checkpoint none, [] => some { s with phase := .callbacks }
    | _, _ => none
  | .endTurn =>
    match s.turn.holder, s.phase with
    | some r, .callbacks =>
      some { s with
        turn := s.turn.endTurn
        requests := s.requests.modify r fun q => q.endTurn s.clock }
    | _, _ => none
  | .flag r => some { s with requests := s.requests.modify r Request.flag }
  | .terminate r => some { s with turn := s.turn.terminate r }

def machine : Machine State Action where
  init := ⟨0, 0, .new, [], .new, [], .callbacks⟩
  step := step

/-! ## What is seen -/

inductive Seen where
  /-- A task resumes JavaScript of `owner`. -/
  | resumed (owner : RequestId) (holder : Option RequestId)
  /-- CPU time in a turn, with the request whose JavaScript ran. -/
  | ran (js : Option RequestId) (holder : RequestId) (time : Nat)
  /-- A termination by the guards of a request cuts this JavaScript. -/
  | cut (guard : RequestId) (js : Option RequestId)
  | refilled (r : RequestId)
deriving DecidableEq, Repr

/-- JavaScript that begins while a termination is pending. -/
def cuts (raised : List Raiser) (js : Option RequestId) : List Seen :=
  raised.filterMap fun
    | .guard r => some (.cut r js)
    | .heap => none

def observe (s : State) : Action → List Seen
  | .work time =>
    match s.turn.holder with
    | some holder => [.ran s.js holder time]
    | none => []
  | .begin r =>
    match s.requests[r]? with
    | some q => if q.refills then [.refilled r] else []
    | none => []
  | .runTask =>
    match s.tasks.next s.now with
    | some (some owner, _) => .resumed owner s.turn.holder :: cuts s.turn.raised (some owner)
    | _ => []
  | .runReaction =>
    match s.reactions with
    | reaction :: _ => cuts s.turn.raised (some reaction)
    | [] => []
  | .terminate r => if s.turn.holder = some r then [.cut r s.js] else []
  | .tick _ | .other _ | .arrive _ _ | .post _ _ | .poll _ | .startPump | .endTask _ | .endRun
  | .endReaction _ | .endCheckpoint | .endTurn | .flag _ => []

/-- A request, or nobody, is the one that has the turn. -/
def Own (holder js : Option RequestId) : Prop := js = none ∨ js = holder

instance (holder js : Option RequestId) : Decidable (Own holder js) :=
  inferInstanceAs (Decidable (_ ∨ _))

/-- The JavaScript that is seen is that of the request of the turn, of the budget, and of the
guards. -/
def Seen.Own : Seen → Prop
  | .resumed owner holder => holder = some owner
  | .ran js holder _ => Attribution.Own (some holder) js
  | .cut guard js => Attribution.Own (some guard) js
  | .refilled _ => True

/-- What the holder of the turn is charged. -/
def charged (r : RequestId) : Seen → Entry
  | .ran _ holder time => .add (if holder = r then time else 0)
  | .refilled q => if q = r then .reset else .add 0
  | .resumed _ _ | .cut _ _ => .add 0

/-- What a request has used: its JavaScript, and what V8 does for itself in its turns. -/
def used (r : RequestId) : Seen → Entry
  | .ran js holder time => .add (if js.getD holder = r then time else 0)
  | .refilled q => if q = r then .reset else .add 0
  | .resumed _ _ | .cut _ _ => .add 0

/-! ## What a step can do -/

/-- The steps of the machine, one constructor for each way a step can go. -/
inductive Step (s : State) : Action → State → Prop where
  | tick (time : Nat) : Step s (.tick time) { s with now := s.now + time }
  | other (time : Nat) (hidle : s.turn.holder = none) :
      Step s (.other time) { s with clock := s.clock + time }
  | arrive (timeoutMs : Nat) (perTurn : Bool) : Step s (.arrive timeoutMs perTurn)
      { s with requests := s.requests ++ [⟨CpuEnforcer.new timeoutMs, perTurn⟩] }
  | post (task : Task) (delay : Option Int) :
      Step s (.post task delay) { s with tasks := s.tasks.post s.now task delay }
  | poll (r : RequestId) : Step s (.poll r) { s with tasks := s.tasks.poll r }
  | begin {r : RequestId} {q : Request} (hidle : s.turn.holder = none)
      (hq : s.requests[r]? = some q) : Step s (.begin r)
      { s with
        tasks := s.tasks.poll r
        turn := s.turn.begin r
        requests := s.requests.modify r fun q => q.beginTurn s.clock }
  | work {holder : RequestId} (time : Nat) (hholder : s.turn.holder = some holder) :
      Step s (.work time) { s with clock := s.clock + time }
  | startPump (hholder : s.turn.holder ≠ none) (hphase : s.phase = .callbacks) :
      Step s .startPump { s with phase := .pumping none }
  | runTask {task : Task} {tasks : ForegroundTasks Task} (hphase : s.phase = .pumping none)
      (hnext : s.tasks.next s.now = some (task, tasks)) :
      Step s .runTask { s with tasks, phase := .pumping (some task) }
  | endTask {task : Task} (reacts : Bool) (hphase : s.phase = .pumping (some task)) :
      Step s (.endTask reacts)
        { s with
          reactions := s.reactions ++ if reacts then task.toList else []
          phase := .pumping none }
  | endRun (hphase : s.phase = .pumping none) (hnext : s.tasks.next s.now = none) :
      Step s .endRun { s with phase := .checkpoint none }
  | runReaction {reaction : RequestId} {reactions : List RequestId}
      (hphase : s.phase = .checkpoint none) (hreactions : s.reactions = reaction :: reactions) :
      Step s .runReaction { s with reactions, phase := .checkpoint (some reaction) }
  | endReaction {reaction : RequestId} (reacts : Bool)
      (hphase : s.phase = .checkpoint (some reaction)) :
      Step s (.endReaction reacts)
        { s with
          reactions := s.reactions ++ if reacts then [reaction] else []
          phase := .checkpoint none }
  | endCheckpoint (hphase : s.phase = .checkpoint none) (hreactions : s.reactions = []) :
      Step s .endCheckpoint { s with phase := .callbacks }
  | endTurn {r : RequestId} (hholder : s.turn.holder = some r) (hphase : s.phase = .callbacks) :
      Step s .endTurn
        { s with
          turn := s.turn.endTurn
          requests := s.requests.modify r fun q => q.endTurn s.clock }
  | flag (r : RequestId) :
      Step s (.flag r) { s with requests := s.requests.modify r Request.flag }
  | terminate (r : RequestId) : Step s (.terminate r) { s with turn := s.turn.terminate r }

theorem of_step {s s' : State} {a : Action} (h : step s a = some s') : Step s a s' := by
  cases a with
  | tick time =>
      cases h
      exact .tick time
  | other time =>
      obtain ⟨hidle, ⟨⟩⟩ := Option.ite_none_right_eq_some.mp h
      exact .other time hidle
  | arrive timeoutMs perTurn =>
      cases h
      exact .arrive timeoutMs perTurn
  | post task delay =>
      cases h
      exact .post task delay
  | poll r =>
      cases h
      exact .poll r
  | begin r =>
      obtain ⟨⟨hidle, hlt⟩, ⟨⟩⟩ := Option.ite_none_right_eq_some.mp h
      exact .begin hidle (getElem?_eq_getElem hlt)
  | work time =>
      obtain ⟨hholder, ⟨⟩⟩ := Option.ite_none_left_eq_some.mp h
      obtain ⟨holder, hholder⟩ := Option.ne_none_iff_exists'.mp hholder
      exact .work time hholder
  | startPump =>
      obtain ⟨⟨hholder, hphase⟩, ⟨⟩⟩ := Option.ite_none_right_eq_some.mp h
      exact .startPump hholder hphase
  | runTask =>
      simp only [step] at h
      split at h
      · next hphase hnext =>
          cases h
          exact .runTask hphase hnext
      · cases h
  | endTask reacts =>
      simp only [step] at h
      split at h
      · next hphase =>
          cases h
          exact .endTask reacts hphase
      · cases h
  | endRun =>
      simp only [step] at h
      split at h
      · next hphase hnext =>
          cases h
          exact .endRun hphase hnext
      · cases h
  | runReaction =>
      simp only [step] at h
      split at h
      · next hphase hreactions =>
          cases h
          exact .runReaction hphase hreactions
      · cases h
  | endReaction reacts =>
      simp only [step] at h
      split at h
      · next hphase =>
          cases h
          exact .endReaction reacts hphase
      · cases h
  | endCheckpoint =>
      simp only [step] at h
      split at h
      · next hphase hreactions =>
          cases h
          exact .endCheckpoint hphase hreactions
      · cases h
  | endTurn =>
      simp only [step] at h
      split at h
      · next hholder hphase =>
          cases h
          exact .endTurn hholder hphase
      · cases h
  | flag r =>
      cases h
      exact .flag r
  | terminate r =>
      cases h
      exact .terminate r

/-! ## The request that has the turn is charged -/

variable {s s' : State} {log new : List Seen} {r : RequestId} {q : Request} {e e' : CpuEnforcer}

theorem Request.of_cpu_beginTurn {clock : Nat} (h : (q.beginTurn clock).cpu = some e') :
    ∃ e, q.cpu = some e ∧
      e' = (if q.refills then { e with remaining := e.budget } else e).beginTurn clock := by
  obtain ⟨e, he, rfl⟩ := Option.map_eq_some_iff.mp h
  refine ⟨e, he, ?_⟩
  have hrefills : q.refills = (q.perTurn && !e.terminated) := by
    rw [refills, he]
    rfl
  rw [hrefills, CpuEnforcer.refill]
  cases q.perTurn <;> cases e.terminated <;> rfl

@[simp] theorem terminate_holder {t : Turn} : (t.terminate r).holder = t.holder := by
  unfold Turn.terminate
  split <;> rfl

/-- What an enforcer has left, by what its request was charged. -/
def Ledger (s : State) (r : RequestId) (e : CpuEnforcer) (spent : Nat) : Prop :=
  (s.turn.holder = some r → e.Inside s.clock spent) ∧ (s.turn.holder ≠ some r → e.Outside spent)

structure Charged (s : State) (log : List Seen) : Prop where
  ledger : ∀ r q e, s.requests[r]? = some q → q.cpu = some e →
    Ledger s r e (tally (charged r) log)
  unknown : ∀ r, s.requests.length ≤ r → ∀ x ∈ log, charged r x = .add 0
  holder : ∀ r, s.turn.holder = some r → r < s.requests.length

namespace Charged

/-- A step that changes no budget and charges nobody. -/
theorem congr (h : Charged s log) (hrequests : s'.requests = s.requests)
    (hclock : s'.clock = s.clock) (hholder : s'.turn.holder = s.turn.holder)
    (hnew : ∀ x ∈ new, ∀ r, charged r x = .add 0) : Charged s' (log ++ new) where
  ledger r q e hq he := by
    rw [hrequests] at hq
    rw [Ledger, hclock, hholder, tally_append_zero fun x hx => hnew x hx r]
    exact h.ledger r q e hq he
  unknown r hr x hx := by
    rw [hrequests] at hr
    rcases mem_append.mp hx with hx | hx
    · exact h.unknown r hr x hx
    · exact hnew x hx r
  holder r hr := by
    rw [hholder] at hr
    rw [hrequests]
    exact h.holder r hr

theorem silent (h : Charged s log) (hrequests : s'.requests = s.requests)
    (hclock : s'.clock = s.clock) (hholder : s'.turn.holder = s.turn.holder) :
    Charged s' (log ++ []) :=
  h.congr hrequests hclock hholder fun _ hx => absurd hx not_mem_nil

theorem other (h : Charged s log) (hidle : s.turn.holder = none) (time : Nat) :
    Charged { s with clock := s.clock + time } (log ++ []) := by
  rw [append_nil]
  refine ⟨fun r q e hq he => ⟨fun hr => ?_, (h.ledger r q e hq he).2⟩, h.unknown, h.holder⟩
  have hr : s.turn.holder = some r := hr
  rw [hidle] at hr
  cases hr

theorem work (h : Charged s log) {holder : RequestId} (hholder : s.turn.holder = some holder)
    (js : Option RequestId) (time : Nat) :
    Charged { s with clock := s.clock + time } (log ++ [.ran js holder time]) where
  ledger r q e hq he := by
    obtain ⟨hinside, houtside⟩ := h.ledger r q e hq he
    refine ⟨fun hr => ?_, fun hr => ?_⟩
    · have hr : s.turn.holder = some r := hr
      rw [tally_concat_add (n := time)]
      · exact (hinside hr).tick time
      · rw [hholder] at hr
        exact congrArg Entry.add (if_pos (Option.some.inj hr))
    · rw [tally_concat_zero]
      · exact houtside hr
      · exact congrArg Entry.add (if_neg fun heq : holder = r => hr (heq ▸ hholder))
  unknown r hr x hx := by
    rcases mem_append.mp hx with hx | hx
    · exact h.unknown r hr x hx
    · cases mem_singleton.mp hx
      have hlt := h.holder holder hholder
      refine congrArg Entry.add (if_neg fun heq : holder = r => ?_)
      exact absurd hlt (heq ▸ Nat.not_lt.mpr hr)
  holder := h.holder

theorem arrive (h : Charged s log) (timeoutMs : Nat) (perTurn : Bool) :
    Charged { s with requests := s.requests ++ [⟨CpuEnforcer.new timeoutMs, perTurn⟩] }
      (log ++ []) := by
  rw [append_nil]
  have hlength : (s.requests ++ [Request.mk (CpuEnforcer.new timeoutMs) perTurn]).length =
      s.requests.length + 1 := by simp
  refine ⟨fun r q e hq he => ?_, fun r hr => ?_, fun r hr => ?_⟩
  · rcases of_getElem?_concat hq with ⟨rfl, rfl⟩ | hq
    · -- Nothing was charged to it before it arrived.
      refine ⟨fun hr => absurd (h.holder _ hr) (Nat.lt_irrefl _), fun _ => ?_⟩
      rw [tally_eq_zero (h.unknown _ (Nat.le_refl _))]
      exact (CpuEnforcer.of_new he).1
    · exact h.ledger r q e hq he
  · have hr : s.requests.length + 1 ≤ r := hlength ▸ hr
    exact h.unknown r (Nat.le_of_succ_le hr)
  · exact hlength ▸ Nat.lt_succ_of_lt (h.holder r hr)

theorem begin (h : Charged s log) (hidle : s.turn.holder = none) (hq : s.requests[r]? = some q)
    {tasks : ForegroundTasks Task} :
    Charged { s with
        tasks
        turn := s.turn.begin r
        requests := s.requests.modify r fun q => q.beginTurn s.clock }
      (log ++ if q.refills then [.refilled r] else []) where
  ledger r' q' e' hq' he' := by
    rcases of_getElem?_modify hq' with ⟨rfl, q₀, hq₀, rfl⟩ | ⟨hne, hq'⟩
    · rw [hq] at hq₀
      cases hq₀
      refine ⟨fun _ => ?_, fun hr => absurd rfl hr⟩
      obtain ⟨e, he, rfl⟩ := Request.of_cpu_beginTurn he'
      have houtside := (h.ledger r' q e hq he).2 (by rw [hidle]; rintro ⟨⟩)
      cases q.refills with
      | true =>
          have hreset : charged r' (.refilled r') = .reset := if_pos rfl
          rw [if_pos rfl, if_pos rfl, tally_concat_reset hreset]
          exact CpuEnforcer.Outside.beginTurn (Nat.sub_zero _).symm
      | false =>
          rw [if_neg Bool.false_ne_true, if_neg Bool.false_ne_true, append_nil]
          exact houtside.beginTurn
    · refine ⟨fun hr => absurd (Option.some.inj hr).symm hne, fun _ => ?_⟩
      rw [tally_append_zero]
      · exact (h.ledger r' q' e' hq' he').2 (by rw [hidle]; rintro ⟨⟩)
      · intro x hx
        split at hx
        · cases mem_singleton.mp hx
          exact if_neg (Ne.symm hne)
        · cases hx
  unknown r' hr' x hx := by
    rw [length_modify] at hr'
    rcases mem_append.mp hx with hx | hx
    · exact h.unknown r' hr' x hx
    · split at hx
      · cases mem_singleton.mp hx
        have hlt := (List.getElem?_eq_some_iff.mp hq).1
        exact if_neg fun heq : r = r' => absurd hlt (heq ▸ Nat.not_lt.mpr hr')
      · cases hx
  holder r' hr' := by
    cases hr'
    rw [length_modify]
    exact (List.getElem?_eq_some_iff.mp hq).1

theorem endTurn (h : Charged s log) (hholder : s.turn.holder = some r) :
    Charged { s with
        turn := s.turn.endTurn
        requests := s.requests.modify r fun q => q.endTurn s.clock } (log ++ []) := by
  rw [append_nil]
  refine ⟨fun r' q' e' hq' he' => ⟨by rintro ⟨⟩, fun _ => ?_⟩, fun r' hr' => ?_, by rintro _ ⟨⟩⟩
  · rcases of_getElem?_modify hq' with ⟨rfl, q, hq, rfl⟩ | ⟨hne, hq'⟩
    · obtain ⟨e, he, rfl⟩ := Option.map_eq_some_iff.mp he'
      exact ((h.ledger r' q e hq he).1 hholder).endTurn
    · refine (h.ledger r' q' e' hq' he').2 fun hr => hne ?_
      rw [hholder] at hr
      exact (Option.some.inj hr).symm
  · rw [length_modify] at hr'
    exact h.unknown r' hr'

theorem flag (h : Charged s log) (r : RequestId) :
    Charged { s with requests := s.requests.modify r Request.flag } (log ++ []) := by
  rw [append_nil]
  refine ⟨fun r' q' e' hq' he' => ?_, fun r' hr' => ?_, fun r' hr' => ?_⟩
  · rcases of_getElem?_modify hq' with ⟨rfl, q, hq, rfl⟩ | ⟨-, hq'⟩
    · obtain ⟨e, he, rfl⟩ := Option.map_eq_some_iff.mp he'
      exact h.ledger r' q e hq he
    · exact h.ledger r' q' e' hq' he'
  · rw [length_modify] at hr'
    exact h.unknown r' hr'
  · rw [length_modify]
    exact h.holder r' hr'

end Charged

/-- A cut charges nobody. -/
theorem charged_of_mem_cuts {raised : List Raiser} {js : Option RequestId} {x : Seen}
    (h : x ∈ cuts raised js) (r : RequestId) : charged r x = .add 0 := by
  obtain ⟨raiser, -, hx⟩ := mem_filterMap.mp h
  cases raiser with
  | guard id =>
      cases hx
      rfl
  | heap => cases hx

theorem charged_init : Charged machine.init [] where
  ledger _ _ _ hq _ := absurd (mem_of_getElem? hq) not_mem_nil
  unknown _ _ _ hx := absurd hx not_mem_nil
  holder := by rintro _ ⟨⟩

theorem charged_step (s : State) (log : List Seen) (a : Action) (s' : State) (h : Charged s log)
    (hstep : step s a = some s') : Charged s' (log ++ observe s a) := by
  cases of_step hstep with
  | tick | post | poll | startPump | endTask | endRun | endReaction | endCheckpoint =>
      exact h.silent rfl rfl rfl
  | other time hidle => exact h.other hidle time
  | arrive timeoutMs perTurn => exact h.arrive timeoutMs perTurn
  | begin hidle hq =>
      simp only [observe, hq]
      exact h.begin hidle hq
  | work time hholder =>
      simp only [observe, hholder]
      exact h.work hholder s.js time
  | @runTask task tasks hphase hnext =>
      simp only [observe, hnext]
      cases task with
      | none => exact h.silent rfl rfl rfl
      | some owner =>
          refine h.congr rfl rfl rfl fun x hx r => ?_
          rcases mem_cons.mp hx with rfl | hx
          · rfl
          · exact charged_of_mem_cuts hx r
  | runReaction hphase hreactions =>
      simp only [observe, hreactions]
      exact h.congr rfl rfl rfl fun x hx r => charged_of_mem_cuts hx r
  | endTurn hholder hphase => exact h.endTurn hholder
  | flag r => exact h.flag r
  | terminate r =>
      refine h.congr rfl rfl terminate_holder fun x hx r => ?_
      rw [observe] at hx
      split at hx
      · cases mem_singleton.mp hx
        rfl
      · cases hx

/-! ## A request that pumps its own tasks -/

/-- When a request starts to pump, what waits is its own or V8's, and so is what is posted until
it has pumped. -/
def PumpsOwn (s : State) : Action → Prop
  | .startPump => ∀ task ∈ s.tasks.queued, Own s.turn.holder task
  | .post task _ =>
    match s.phase with
    | .pumping _ => Own s.turn.holder task
    | .callbacks | .checkpoint _ => True
  | .tick _ | .other _ | .arrive _ _ | .poll _ | .begin _ | .work _ | .runTask | .endTask _
  | .endRun | .runReaction | .endReaction _ | .endCheckpoint | .endTurn | .flag _
  | .terminate _ => True

instance (s : State) (a : Action) : Decidable (PumpsOwn s a) := by
  cases a <;> dsimp only [PumpsOwn] <;> try split
  all_goals infer_instance

structure Owned (s : State) (log : List Seen) : Prop where
  seen : ∀ x ∈ log, x.Own
  js : Own s.turn.holder s.js
  /-- A turn ends where no reaction waits. -/
  idle : s.turn.holder = none → s.phase = .callbacks
  tasks : ∀ task, s.phase = .pumping task → ∀ waiting ∈ s.tasks.queued, Own s.turn.holder waiting
  reactions : ∀ reaction ∈ s.reactions, s.turn.holder = some reaction ∧ s.phase ≠ .callbacks
  raised : ∀ x ∈ s.turn.raised, ∀ holder, s.turn.holder = some holder → x = .guard holder

theorem owned_init : Owned machine.init [] where
  seen _ hx := absurd hx not_mem_nil
  js := .inl rfl
  idle _ := rfl
  tasks := by rintro _ ⟨⟩
  reactions _ hx := absurd hx not_mem_nil
  raised _ hx := absurd hx not_mem_nil

namespace Owned

/-- JavaScript that begins is cut by the guards of its own request only. -/
theorem own_of_mem_cuts (h : Owned s log) {owner : RequestId}
    (hholder : s.turn.holder = some owner) {x : Seen} (hx : x ∈ cuts s.turn.raised (some owner)) :
    x.Own := by
  obtain ⟨raiser, hraiser, hx⟩ := mem_filterMap.mp hx
  cases h.raised raiser hraiser owner hholder
  cases hx
  exact .inr rfl

/-- The reactions that wait are of the turn, wherever it goes on before it ends. -/
theorem reactions_of_ne (h : Owned s log) {phase : Phase} (hphase : phase ≠ .callbacks) :
    ∀ reaction ∈ s.reactions, s.turn.holder = some reaction ∧ phase ≠ .callbacks :=
  fun reaction hmem => ⟨(h.reactions reaction hmem).1, hphase⟩

theorem seen_append (h : Owned s log) (hnew : ∀ x ∈ new, x.Own) : ∀ x ∈ log ++ new, x.Own := by
  intro x hx
  rcases mem_append.mp hx with hx | hx
  · exact h.seen x hx
  · exact hnew x hx

/-- A step that leaves the turn, the tasks, the reactions and the phase as they are. -/
theorem congr (h : Owned s log) (hturn : s'.turn = s.turn)
    (hqueued : s'.tasks.queued = s.tasks.queued)
    (hreactions : s'.reactions = s.reactions) (hphase : s'.phase = s.phase)
    (hnew : ∀ x ∈ new, x.Own) : Owned s' (log ++ new) where
  seen := h.seen_append hnew
  js := by
    rw [State.js, hphase, hturn]
    exact h.js
  idle := by
    rw [hturn, hphase]
    exact h.idle
  tasks := by
    rw [hturn, hphase, hqueued]
    exact h.tasks
  reactions := by
    rw [hturn, hphase, hreactions]
    exact h.reactions
  raised := by
    rw [hturn]
    exact h.raised

theorem post (h : Owned s log) {task : Task} {delay : Option Int}
    (hown : ∀ running, s.phase = .pumping running → Own s.turn.holder task) :
    Owned { s with tasks := s.tasks.post s.now task delay } log where
  seen := h.seen
  js := h.js
  idle := h.idle
  tasks := by
    intro running hphase waiting hmem
    rcases ForegroundTasks.mem_queued_of_post hmem with hmem | rfl
    · exact h.tasks running hphase waiting hmem
    · exact hown running hphase
  reactions := h.reactions
  raised := h.raised

theorem begin (h : Owned s log) (hidle : s.turn.holder = none) {requests : List Request}
    (hnew : ∀ x ∈ new, x.Own) :
    Owned { s with tasks := s.tasks.poll r, turn := s.turn.begin r, requests } (log ++ new) := by
  have hphase := h.idle hidle
  refine ⟨h.seen_append hnew, ?_, by rintro ⟨⟩, fun task htask => ?_, fun reaction hmem => ?_, ?_⟩
  · show Own (some r) (State.js _)
    simp only [State.js, hphase]
    exact .inr rfl
  · rw [hphase] at htask
    cases htask
  · exact absurd hphase (h.reactions reaction hmem).2
  · exact fun _ hx => absurd hx not_mem_nil

theorem endTurn (h : Owned s log) (hphase : s.phase = .callbacks) {requests : List Request} :
    Owned { s with turn := s.turn.endTurn, requests } log := by
  refine ⟨h.seen, ?_, fun _ => hphase, fun task htask => ?_,
    fun reaction hmem => ?_, by rintro _ _ _ ⟨⟩⟩
  · simp only [State.js, hphase]
    exact .inl rfl
  · rw [hphase] at htask
    cases htask
  · exact absurd hphase (h.reactions reaction hmem).2

/-- The phase changes to another one of the same turn, in which JavaScript of its request runs,
or none. -/
theorem phase (h : Owned s log) {phase : Phase} {tasks : ForegroundTasks Task}
    {reactions : List RequestId} (hjs : Own s.turn.holder { s with phase }.js)
    (hidle : s.phase ≠ .callbacks ∨ s.turn.holder ≠ none)
    (htasks : ∀ task, phase = .pumping task → ∀ waiting ∈ tasks.queued, Own s.turn.holder waiting)
    (hreactions : ∀ reaction ∈ reactions, s.turn.holder = some reaction ∧ phase ≠ .callbacks)
    (hnew : ∀ x ∈ new, x.Own) : Owned { s with phase, tasks, reactions } (log ++ new) where
  seen := h.seen_append hnew
  js := hjs
  idle hholder := by
    rcases hidle with hphase | hne
    · exact absurd (h.idle hholder) hphase
    · exact absurd hholder hne
  tasks := htasks
  reactions := hreactions
  raised := h.raised

theorem terminate (h : Owned s log) (r : RequestId) :
    Owned { s with turn := s.turn.terminate r }
      (log ++ if s.turn.holder = some r then [.cut r s.js] else []) := by
  unfold Turn.terminate
  split
  · next hholder =>
      have hown : Seen.Own (.cut r s.js) := by
        rw [Seen.Own, ← hholder]
        exact h.js
      refine ⟨h.seen_append (by simpa using hown), h.js, h.idle, h.tasks, h.reactions, ?_⟩
      intro x hx holder hholder'
      rcases mem_append.mp hx with hx | hx
      · exact h.raised x hx holder hholder'
      · rw [mem_singleton.mp hx, Option.some.inj (hholder'.symm.trans hholder)]
  · rw [append_nil]
    exact h

end Owned

/-- Nothing that could be somebody else's is seen in a step that is silent. -/
theorem own_of_mem_nil : ∀ x ∈ ([] : List Seen), x.Own := fun _ hx => absurd hx not_mem_nil

theorem owned_step (s : State) (log : List Seen) (a : Action) (s' : State) (h : Owned s log)
    (hG : PumpsOwn s a) (hstep : step s a = some s') : Owned s' (log ++ observe s a) := by
  cases of_step hstep with
  | tick | other | arrive | flag => exact h.congr rfl rfl rfl rfl own_of_mem_nil
  | poll r => exact h.congr rfl ForegroundTasks.queued_poll rfl rfl own_of_mem_nil
  | post task delay =>
      rw [observe, append_nil]
      refine h.post fun running hphase => ?_
      rw [PumpsOwn, hphase] at hG
      exact hG
  | begin hidle hq =>
      refine h.begin hidle fun x hx => ?_
      simp only [observe, hq] at hx
      split at hx
      · cases mem_singleton.mp hx
        trivial
      · cases hx
  | work time hholder =>
      refine h.congr rfl rfl rfl rfl fun x hx => ?_
      simp only [observe, hholder, mem_singleton] at hx
      cases hx
      rw [Seen.Own, ← hholder]
      exact h.js
  | startPump hholder hphase =>
      refine h.phase (.inl rfl) (.inr hholder) (fun _ _ => hG) (fun reaction hmem => ?_)
        own_of_mem_nil
      exact absurd hphase (h.reactions reaction hmem).2
  | @runTask task tasks hphase hnext =>
      obtain ⟨hmem, hsub⟩ := ForegroundTasks.queued_of_next hnext
      have htask := h.tasks none hphase task hmem
      refine h.phase htask (.inl (by rw [hphase]; rintro ⟨⟩)) (fun _ _ waiting hwaiting => ?_)
        (h.reactions_of_ne (by rintro ⟨⟩)) fun x hx => ?_
      · exact h.tasks none hphase waiting (hsub waiting hwaiting)
      · simp only [observe, hnext] at hx
        cases task with
        | none => cases hx
        | some owner =>
            have hholder : s.turn.holder = some owner :=
              (htask.resolve_left (Option.some_ne_none owner)).symm
            rcases mem_cons.mp hx with rfl | hx
            · exact hholder
            · exact h.own_of_mem_cuts hholder hx
  | @endTask task reacts hphase =>
      have htask : Own s.turn.holder task := by
        have hjs := h.js
        simp only [State.js, hphase, Option.join_some] at hjs
        exact hjs
      refine h.phase (.inl rfl) (.inl (by rw [hphase]; rintro ⟨⟩)) (fun _ _ => h.tasks _ hphase)
        (fun reaction hmem => ⟨?_, by rintro ⟨⟩⟩) own_of_mem_nil
      rcases mem_append.mp hmem with hmem | hmem
      · exact (h.reactions reaction hmem).1
      · split at hmem
        · rw [Option.mem_toList] at hmem
          rcases htask with hnone | heq
          · rw [hnone] at hmem
            cases hmem
          · exact heq ▸ hmem
        · cases hmem
  | endRun hphase hnext =>
      exact h.phase (.inl rfl) (.inl (by rw [hphase]; rintro ⟨⟩)) (by rintro _ ⟨⟩)
        (h.reactions_of_ne (by rintro ⟨⟩)) own_of_mem_nil
  | @runReaction reaction reactions hphase hreactions =>
      have hall := h.reactions
      rw [hreactions] at hall
      have hholder := (hall reaction mem_cons_self).1
      refine h.phase (.inr hholder.symm) (.inl (by rw [hphase]; rintro ⟨⟩)) (by rintro _ ⟨⟩)
        (fun other hmem => ⟨(hall other (mem_cons_of_mem _ hmem)).1, by rintro ⟨⟩⟩)
        fun x hx => ?_
      simp only [observe, hreactions] at hx
      exact h.own_of_mem_cuts hholder hx
  | @endReaction reaction reacts hphase =>
      have hjs : some reaction = s.turn.holder := by
        have hjs := h.js
        simp only [State.js, hphase] at hjs
        exact hjs.resolve_left (Option.some_ne_none reaction)
      refine h.phase (.inl rfl) (.inl (by rw [hphase]; rintro ⟨⟩)) (by rintro _ ⟨⟩)
        (fun other hmem => ⟨?_, by rintro ⟨⟩⟩) own_of_mem_nil
      rcases mem_append.mp hmem with hmem | hmem
      · exact (h.reactions other hmem).1
      · split at hmem
        · cases mem_singleton.mp hmem
          exact hjs.symm
        · cases hmem
  | endCheckpoint hphase hreactions =>
      refine h.phase (.inr rfl) (.inl (by rw [hphase]; rintro ⟨⟩)) (by rintro _ ⟨⟩)
        (fun other hmem => ?_) own_of_mem_nil
      rw [hreactions] at hmem
      cases hmem
  | endTurn hholder hphase =>
      rw [observe, append_nil]
      exact h.endTurn hphase
  | terminate r => exact h.terminate r

/-- Where the JavaScript that is seen is that of the holder, what a request has used is what it
was charged. -/
theorem used_eq_charged {x : Seen} (h : x.Own) (r : RequestId) : used r x = charged r x := by
  cases x with
  | ran js holder time =>
      rcases h with rfl | rfl
      · rfl
      · rfl
  | resumed owner holder => rfl
  | cut guard js => rfl
  | refilled q => rfl

/-- In a run in which every request pumps only tasks of its own and of V8: JavaScript that a
foreground task resumes runs while its own request has the turn, only the guards of that request
cut it, and between its turns a request has of its budget what its own JavaScript has left. -/
theorem task_runs_in_own_turn {as : List Action} {t : State}
    (hown : machine.Meets PumpsOwn machine.init as) (hrun : machine.run as = some t) :
    let log := machine.log observe as
    (∀ owner holder, .resumed owner holder ∈ log → holder = some owner) ∧
      (∀ owner holder time, .ran (some owner) holder time ∈ log → holder = owner) ∧
      (∀ guard owner, .cut guard (some owner) ∈ log → guard = owner) ∧
      ∀ r q e, t.requests[r]? = some q → q.cpu = some e → t.turn.holder ≠ some r →
        e.remaining = e.budget - tally (used r) log := by
  have howned := Machine.invariant_log_of_meets owned_init owned_step hown hrun
  have hcharged := Machine.invariant_log charged_init charged_step hrun
  refine ⟨fun owner holder hmem => howned.seen _ hmem, fun owner holder time hmem => ?_,
    fun guard owner hmem => ?_, fun r q e hq he hout => ?_⟩
  · have hjs := (howned.seen _ hmem).resolve_left (Option.some_ne_none owner)
    exact (Option.some.inj hjs).symm
  · have hjs := (howned.seen _ hmem).resolve_left (Option.some_ne_none owner)
    exact (Option.some.inj hjs).symm
  · rw [tally_congr fun x hx => used_eq_charged (howned.seen x hx) r]
    exact (hcharged.ledger r q e hq he).2 hout

/-- Two requests: the first compiles, gets its answer in a turn of its own and spends 3 on it,
the second one spends 5. -/
def compiles : List Action :=
  [.arrive 1 false, .arrive 1 false, .begin 0, .work 2, .endTurn, .post (some 0) none, .begin 0,
    .startPump, .runTask, .work 1, .endTask true, .endRun, .runReaction, .work 2,
    .endReaction false, .endCheckpoint, .endTurn, .begin 1, .startPump, .endRun, .endCheckpoint,
    .work 5, .endTurn]

theorem task_runs_in_own_turn_compiles :
    ∃ t q e, machine.run compiles = some t ∧ machine.Meets PumpsOwn machine.init compiles ∧
      t.requests[0]? = some q ∧ q.cpu = some e ∧ t.turn.holder = none ∧ e.remaining = 1000000 - 5 ∧
      machine.log observe compiles = [.ran (some 0) 0 2, .resumed 0 (some 0), .ran (some 0) 0 1,
        .ran (some 0) 0 2, .ran (some 1) 1 5] := by
  have hrun : machine.run compiles = some _ := rfl
  have hown : machine.Meets PumpsOwn machine.init compiles := by decide
  have hleft := (task_runs_in_own_turn hown hrun).2.2.2 0 _ _ rfl rfl (by decide)
  exact ⟨_, _, _, hrun, hown, rfl, rfl, rfl, hleft, rfl⟩

/-- Both requests wait.  The task that ends the compilation of the first wakes both, and the
second is polled first: it resumes the first one's JavaScript in its own turn, pays for it, and
its guards cut it. -/
theorem neighbour_resumes_task : ∃ t q e,
    machine.run [.arrive 1 false, .arrive 1 false, .begin 0, .endTurn, .begin 1, .endTurn,
      .post (some 0) none, .begin 1, .startPump, .runTask, .work 500, .terminate 1,
      .endTask false, .endRun, .endCheckpoint, .endTurn] = some t ∧
    machine.log observe [.arrive 1 false, .arrive 1 false, .begin 0, .endTurn, .begin 1, .endTurn,
      .post (some 0) none, .begin 1, .startPump, .runTask, .work 500, .terminate 1,
      .endTask false, .endRun, .endCheckpoint, .endTurn] =
      [.resumed 0 (some 1), .ran (some 0) 1 500, .cut 1 (some 0)] ∧
    t.requests[1]? = some q ∧ q.cpu = some e ∧ e.remaining = e.budget - 500 :=
  ⟨_, _, _, rfl, rfl, rfl, rfl, rfl⟩

end OpenWorkers.Foreground.Attribution
