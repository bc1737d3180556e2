import OpenWorkers.Lib.Erase
import OpenWorkers.Lib.Log
import OpenWorkers.Lib.Tally
import OpenWorkers.Security.Cpu

/-!
# CPU accounting

The requests of one thread and their CPU enforcers: `src/security/cpu_enforcer.rs`, `TurnGuard`
of `src/security/turn.rs`, and `exec` and `drain_waituntil` of `src/execution_context.rs`.

A thread runs one turn at a time.  Its CPU clock goes on in the turn of a request and between
turns.  A context makes an enforcer for each event in `exec`, runs any number of turns under
it, and hands it to `drain_waituntil` if the event ended well; the load of a script, a reset
and the constructor of an object have an enforcer of their own for a single turn.  A refill
comes before a turn, never in one.  Where something cuts a turn, it does so only when the
thread has spent in the turn what the timer was armed with, which on macOS may be up to
`CpuEnforcer.slack` less than what is left; a signal may be handled late.

The log says who had the turn whenever the clock went on, so that what a request has spent is
the tally of the log, and nothing the enforcers keep.
-/

namespace OpenWorkers.Security.Accounting

open List Option

/-- Where an `ExecutionContext` stands, with the enforcer of its event; `none` is no limit. -/
inductive Phase where
  /-- After `reset`: no event has run. -/
  | fresh
  | executing (cpu : Option Nat)
  /-- `exec` has answered `Ok` and kept its guards. -/
  | executed (cpu : Option Nat)
  | failed (cpu : Option Nat)
  | draining (cpu : Option Nat)
  | drained (cpu : Option Nat)
deriving DecidableEq, Repr

namespace Phase

/-- The enforcer of the last event. -/
def current : Phase → Option (Option Nat)
  | .fresh => none
  | .executing cpu | .executed cpu | .failed cpu | .draining cpu | .drained cpu => some cpu

/-- The enforcer of the turns that the context may have now. -/
def active : Phase → Option (Option Nat)
  | .executing cpu | .draining cpu => some cpu
  | .fresh | .executed _ | .failed _ | .drained _ => none

theorem current_of_active {phase : Phase} {cpu : Option Nat} (h : phase.active = some cpu) :
    phase.current = some cpu := by
  cases phase <;> first | exact h | cases h

end Phase

structure Context where
  maxCpuTimeMs : Nat
  phase : Phase
deriving DecidableEq, Repr

/-- A turn that runs: the context it belongs to, unless it is a single one, and its enforcer. -/
structure Running where
  context : Option Nat
  cpu : Option Nat
deriving DecidableEq, Repr

structure State where
  /-- The CPU clock of the thread. -/
  clock : Nat
  enforcers : List CpuEnforcer
  contexts : List Context
  running : Option Running
  /-- The timers that have fired, for the thread that handles the signals. -/
  signals : List Nat
deriving DecidableEq

inductive Action where
  | tick (time : Nat)
  | newContext (maxCpuTimeMs : Nat)
  | reset (context : Nat)
  | exec (context : Nat)
  /-- `exec` returns. -/
  | answer (context : Nat) (ok : Bool)
  | drain (context : Nat)
  | endDrain (context : Nat)
  | refill (context : Nat)
  | begin (context : Nat)
  /-- A turn with an enforcer of its own. -/
  | single (timeoutMs : Nat)
  | endTurn
  /-- What watches the turn sees that its time is spent. -/
  | fire
  | signal (cpu : Nat)
deriving DecidableEq, Repr

namespace State

/-- The turn of this enforcer runs. -/
def Runs (s : State) (cpu : Nat) : Prop :=
  ∃ running, s.running = some running ∧ running.cpu = some cpu

/-- A turn of this context runs. -/
def inTurn (s : State) (context : Nat) : Bool := (s.running.bind Running.context) == some context

/-- `CpuEnforcer::new`, with the number of the new enforcer. -/
def make (s : State) (timeoutMs : Nat) : Option Nat × State :=
  match CpuEnforcer.new timeoutMs with
  | none => (none, s)
  | some e => (some s.enforcers.length, { s with enforcers := s.enforcers ++ [e] })

def setPhase (s : State) (context : Nat) (phase : Phase) : State :=
  { s with contexts := s.contexts.modify context fun k => { k with phase } }

def modifyCpu (s : State) (cpu : Option Nat) (f : CpuEnforcer → CpuEnforcer) : State :=
  match cpu with
  | none => s
  | some id => { s with enforcers := s.enforcers.modify id f }

/-- `TurnGuard::begin`. -/
def beginTurn (s : State) (running : Running) : State :=
  { s.modifyCpu running.cpu fun e => e.beginTurn s.clock with running := some running }

def terminated (s : State) (cpu : Option Nat) : Bool :=
  (cpu.bind fun id => s.enforcers[id]?).any CpuEnforcer.terminated

end State

def step (os : Os) (s : State) : Action → Option State
  | .tick time => some { s with clock := s.clock + time }
  | .newContext maxCpuTimeMs => some { s with contexts := s.contexts ++ [⟨maxCpuTimeMs, .fresh⟩] }
  | .reset c =>
    match s.contexts[c]? with
    | some ⟨_, phase⟩ => if phase.active.isSome then none else some (s.setPhase c .fresh)
    | none => none
  | .exec c =>
    match s.contexts[c]? with
    | some ⟨maxCpuTimeMs, phase⟩ =>
      if phase.active.isSome then none
      else
        let made := s.make maxCpuTimeMs
        some (made.2.setPhase c (.executing made.1))
    | none => none
  | .answer c ok =>
    match s.contexts[c]? with
    | some ⟨_, .executing cpu⟩ =>
      -- `check_termination_reason` looks at the guard first
      if s.inTurn c ∨ (ok ∧ s.terminated cpu) then none
      else some (s.setPhase c (if ok then .executed cpu else .failed cpu))
    | _ => none
  | .drain c =>
    match s.contexts[c]? with
    | some ⟨_, .executed cpu⟩ => some (s.setPhase c (.draining cpu))
    | some ⟨maxCpuTimeMs, .fresh⟩ =>
      let made := s.make maxCpuTimeMs
      some (made.2.setPhase c (.draining made.1))
    | _ => none
  | .endDrain c =>
    match s.contexts[c]? with
    | some ⟨_, .draining cpu⟩ => if s.inTurn c then none else some (s.setPhase c (.drained cpu))
    | _ => none
  | .refill c =>
    match s.running, s.contexts[c]? with
    | none, some ⟨_, .executing cpu⟩ => some (s.modifyCpu cpu CpuEnforcer.refill)
    | _, _ => none
  | .begin c =>
    match s.running, s.contexts[c]? with
    | none, some k => k.phase.active.map fun cpu => s.beginTurn ⟨some c, cpu⟩
    | _, _ => none
  | .single timeoutMs =>
    match s.running with
    | none =>
      let made := s.make timeoutMs
      some (made.2.beginTurn ⟨none, made.1⟩)
    | some _ => none
  | .endTurn =>
    s.running.map fun running =>
      { s.modifyCpu running.cpu fun e => e.endTurn s.clock with running := none }
  | .fire => do
    let running ← s.running
    let cpu ← running.cpu
    let e ← s.enforcers[cpu]?
    let started ← e.turnStarted
    if e.due started s.clock os then some { s with signals := s.signals ++ [cpu] } else none
  | .signal cpu =>
    if cpu ∈ s.signals then
      some { s.modifyCpu (some cpu) CpuEnforcer.flag with signals := s.signals.erase cpu }
    else
      none

def machine (os : Os) : Machine State Action where
  init := ⟨0, [], [], none, []⟩
  step := step os

/-! ## What is seen of a run -/

inductive Seen where
  /-- CPU time of the thread, and whose turn it was. -/
  | cpu (running : Option Running) (time : Nat)
  /-- A refill took effect. -/
  | refilled (cpu : Nat)
  /-- The context has no event any more, or a new one. -/
  | renewed (context : Nat)
deriving DecidableEq, Repr

def observe (s : State) : Action → List Seen
  | .tick time => [.cpu s.running time]
  | .reset c | .exec c => [.renewed c]
  | .drain c =>
    match s.contexts[c]? with
    | some ⟨_, .fresh⟩ => [.renewed c]
    | _ => []
  | .refill c =>
    match s.contexts[c]? with
    | some ⟨_, .executing (some id)⟩ => if s.terminated (some id) then [] else [.refilled id]
    | _ => []
  | .newContext _ | .answer _ _ | .endDrain _ | .begin _ | .single _ | .endTurn | .fire
  | .signal _ => []

/-- What an event of the log is for the budget of an enforcer. -/
def entry (id : Nat) : Seen → Entry
  | .cpu running time => .add (if running.bind Running.cpu = some id then time else 0)
  | .refilled cpu => if cpu = id then .reset else .add 0
  | .renewed _ => .add 0

/-- The CPU time of the turns of an enforcer since its last refill that took effect. -/
def spent (id : Nat) (log : List Seen) : Nat := tally (entry id) log

/-- The turns of an enforcer have spent its budget, in some refill period. -/
def Spent (id budget : Nat) (log : List Seen) : Prop := Reached (entry id) budget log

/-! ## What a step can do -/

/-- The steps of the machine, one constructor for each way a step can go. -/
inductive Step (os : Os) (s : State) : Action → State → Prop where
  | tick (time : Nat) : Step os s (.tick time) { s with clock := s.clock + time }
  | newContext (maxCpuTimeMs : Nat) : Step os s (.newContext maxCpuTimeMs)
      { s with contexts := s.contexts ++ [⟨maxCpuTimeMs, .fresh⟩] }
  | reset {c : Nat} {k : Context} (hk : s.contexts[c]? = some k) (hout : k.phase.active = none) :
      Step os s (.reset c) (s.setPhase c .fresh)
  | exec {c : Nat} {k : Context} (hk : s.contexts[c]? = some k) (hout : k.phase.active = none) :
      Step os s (.exec c)
        ((s.make k.maxCpuTimeMs).2.setPhase c (.executing (s.make k.maxCpuTimeMs).1))
  | answer {c maxCpuTimeMs : Nat} {ok : Bool} {cpu : Option Nat}
      (hk : s.contexts[c]? = some ⟨maxCpuTimeMs, .executing cpu⟩) (hout : s.inTurn c = false)
      (hok : ok = true → s.terminated cpu = false) :
      Step os s (.answer c ok) (s.setPhase c (if ok then .executed cpu else .failed cpu))
  | drain {c maxCpuTimeMs : Nat} {cpu : Option Nat}
      (hk : s.contexts[c]? = some ⟨maxCpuTimeMs, .executed cpu⟩) :
      Step os s (.drain c) (s.setPhase c (.draining cpu))
  | drainFresh {c maxCpuTimeMs : Nat} (hk : s.contexts[c]? = some ⟨maxCpuTimeMs, .fresh⟩) :
      Step os s (.drain c)
        ((s.make maxCpuTimeMs).2.setPhase c (.draining (s.make maxCpuTimeMs).1))
  | endDrain {c maxCpuTimeMs : Nat} {cpu : Option Nat}
      (hk : s.contexts[c]? = some ⟨maxCpuTimeMs, .draining cpu⟩) (hout : s.inTurn c = false) :
      Step os s (.endDrain c) (s.setPhase c (.drained cpu))
  | refill {c maxCpuTimeMs : Nat} {cpu : Option Nat} (hidle : s.running = none)
      (hk : s.contexts[c]? = some ⟨maxCpuTimeMs, .executing cpu⟩) :
      Step os s (.refill c) (s.modifyCpu cpu CpuEnforcer.refill)
  | begin {c : Nat} {k : Context} {cpu : Option Nat} (hidle : s.running = none)
      (hk : s.contexts[c]? = some k) (hactive : k.phase.active = some cpu) :
      Step os s (.begin c) (s.beginTurn ⟨some c, cpu⟩)
  | single (timeoutMs : Nat) (hidle : s.running = none) : Step os s (.single timeoutMs)
      ((s.make timeoutMs).2.beginTurn ⟨none, (s.make timeoutMs).1⟩)
  | endTurn {running : Running} (hrunning : s.running = some running) : Step os s .endTurn
      { s.modifyCpu running.cpu fun e => e.endTurn s.clock with running := none }
  | fire {cpu started : Nat} {e : CpuEnforcer} (hruns : s.Runs cpu)
      (he : s.enforcers[cpu]? = some e) (hstarted : e.turnStarted = some started)
      (hdue : e.due started s.clock os = true) :
      Step os s .fire { s with signals := s.signals ++ [cpu] }
  | signal {cpu : Nat} (hmem : cpu ∈ s.signals) : Step os s (.signal cpu)
      { s.modifyCpu (some cpu) CpuEnforcer.flag with signals := s.signals.erase cpu }

theorem of_step {os : Os} {s s' : State} {a : Action} (h : step os s a = some s') :
    Step os s a s' := by
  cases a with
  | tick time =>
      cases h
      exact .tick time
  | newContext maxCpuTimeMs =>
      cases h
      exact .newContext maxCpuTimeMs
  | reset c =>
      simp only [step] at h
      split at h
      · next hk =>
          obtain ⟨hout, ⟨⟩⟩ := ite_none_left_eq_some.mp h
          exact .reset hk (not_isSome_iff_eq_none.mp hout)
      · cases h
  | exec c =>
      simp only [step] at h
      split at h
      · next hk =>
          obtain ⟨hout, ⟨⟩⟩ := ite_none_left_eq_some.mp h
          exact .exec hk (not_isSome_iff_eq_none.mp hout)
      · cases h
  | answer c ok =>
      simp only [step] at h
      split at h
      · next hk =>
          obtain ⟨hallowed, ⟨⟩⟩ := ite_none_left_eq_some.mp h
          refine .answer hk ?_ fun hok => ?_
          · exact (Bool.not_eq_true _).mp fun hin => hallowed (.inl hin)
          · exact (Bool.not_eq_true _).mp fun hflag => hallowed (.inr ⟨hok, hflag⟩)
      · cases h
  | drain c =>
      simp only [step] at h
      split at h
      · next hk =>
          cases h
          exact .drain hk
      · next hk =>
          cases h
          exact .drainFresh hk
      · cases h
  | endDrain c =>
      simp only [step] at h
      split at h
      · next hk =>
          obtain ⟨hout, ⟨⟩⟩ := ite_none_left_eq_some.mp h
          exact .endDrain hk ((Bool.not_eq_true _).mp hout)
      · cases h
  | refill c =>
      simp only [step] at h
      split at h
      · next hidle hk =>
          cases h
          exact .refill hidle hk
      · cases h
  | begin c =>
      simp only [step] at h
      split at h
      · next hidle hk =>
          obtain ⟨cpu, hactive, rfl⟩ := map_eq_some_iff.mp h
          exact .begin hidle hk hactive
      · cases h
  | single timeoutMs =>
      simp only [step] at h
      split at h
      · next hidle =>
          cases h
          exact .single timeoutMs hidle
      · cases h
  | endTurn =>
      obtain ⟨running, hrunning, rfl⟩ := map_eq_some_iff.mp h
      exact .endTurn hrunning
  | fire =>
      obtain ⟨running, hrunning, h⟩ := bind_eq_some_iff.mp h
      obtain ⟨cpu, hcpu, h⟩ := bind_eq_some_iff.mp h
      obtain ⟨e, he, h⟩ := bind_eq_some_iff.mp h
      obtain ⟨started, hstarted, h⟩ := bind_eq_some_iff.mp h
      obtain ⟨hdue, ⟨⟩⟩ := ite_none_right_eq_some.mp h
      exact .fire ⟨running, hrunning, hcpu⟩ he hstarted hdue
  | signal cpu =>
      obtain ⟨hmem, ⟨⟩⟩ := ite_none_right_eq_some.mp h
      exact .signal hmem

/-! ## One enforcer -/

variable {os : Os} {s s' : State} {log log' : List Seen} {id : Nat} {e : CpuEnforcer}

/-- What an enforcer has kept of the log. -/
structure Accounts (os : Os) (s : State) (log : List Seen) (id : Nat) (e : CpuEnforcer) : Prop where
  flagged : e.terminated = true → Spent id (e.budget - CpuEnforcer.slack os) log
  outside : ¬ s.Runs id →
    e.remaining = e.budget - spent id log ∧ (Spent id e.budget log → e.terminated = true)
  /-- In a turn, what is left is what was left when it began. -/
  inside : s.Runs id → ∃ started before, e.turnStarted = some started ∧ started ≤ s.clock ∧
    spent id log = before + (s.clock - started) ∧ e.remaining = e.budget - before ∧
      (Spent id e.budget log → e.terminated = true ∨ e.budget ≤ spent id log)

namespace Accounts

/-- In a turn the enforcer is as the time of its turns says. -/
theorem ledger (h : Accounts os s log id e) (hruns : s.Runs id) :
    e.Inside s.clock (spent id log) := by
  obtain ⟨started, before, hstarted, hle, htime, hleft, -⟩ := h.inside hruns
  exact ⟨started, before, hstarted, hle, htime, hleft⟩

theorem congr (h : Accounts os s log id e) (hruns : s'.Runs id ↔ s.Runs id)
    (hclock : s'.clock = s.clock) (hspent : spent id log' = spent id log)
    (hSpent : ∀ bound, Spent id bound log' ↔ Spent id bound log) : Accounts os s' log' id e := by
  refine ⟨?_, ?_, ?_⟩
  · rw [hSpent]
    exact h.flagged
  · rw [hruns, hspent, hSpent]
    exact h.outside
  · rw [hruns, hspent, hSpent, hclock]
    exact h.inside

/-- An event that does not concern the enforcer. -/
theorem concat_zero {x : Seen} (h : Accounts os s log id e) (hx : entry id x = .add 0) :
    Accounts os s (log ++ [x]) id e :=
  h.congr Iff.rfl rfl (tally_concat_zero hx) fun _ => Reached.concat_zero_iff hx

theorem tick (h : Accounts os s log id e) (time : Nat) :
    Accounts os { s with clock := s.clock + time } (log ++ [.cpu s.running time]) id e := by
  by_cases hruns : s.Runs id
  · obtain ⟨running, hrunning, hcpu⟩ := hruns
    have hentry : entry id (.cpu s.running time) = .add time := by
      rw [entry, hrunning]
      exact congrArg Entry.add (if_pos hcpu)
    have hspent : spent id (log ++ [.cpu s.running time]) = spent id log + time :=
      tally_concat_add hentry
    refine ⟨fun hflag => Reached.concat_iff.mpr (.inl (h.flagged hflag)), fun hout => ?_,
      fun _ => ?_⟩
    · exact absurd ⟨running, hrunning, hcpu⟩ hout
    · obtain ⟨started, before, hstarted, hle, htime, hleft, hreached⟩ :=
        h.inside ⟨running, hrunning, hcpu⟩
      refine ⟨started, before, hstarted, Nat.le_add_right_of_le hle, ?_, hleft, fun hSpent => ?_⟩
      · show _ = before + (s.clock + time - started)
        omega
      · rcases Reached.concat_iff.mp hSpent with hSpent | hSpent
        · exact (hreached hSpent).imp_right fun hle => hspent ▸ Nat.le_add_right_of_le hle
        · exact .inr hSpent
  · have hentry : entry id (.cpu s.running time) = .add 0 := by
      refine congrArg Entry.add (if_neg fun hcpu => hruns ?_)
      obtain ⟨running, hrunning, hcpu⟩ := bind_eq_some_iff.mp hcpu
      exact ⟨running, hrunning, hcpu⟩
    have h' := h.concat_zero hentry
    exact ⟨h'.flagged, h'.outside, fun hin => absurd hin hruns⟩

theorem begin (h : Accounts os s log id e) (hidle : s.running = none) {running : Running}
    (hcpu : running.cpu = some id) (hclock : s'.clock = s.clock)
    (hrunning : s'.running = some running) : Accounts os s' log id (e.beginTurn s.clock) := by
  obtain ⟨hleft, hreached⟩ := h.outside (by rintro ⟨r, hr, -⟩; rw [hidle] at hr; cases hr)
  refine ⟨h.flagged, fun hout => absurd ⟨running, hrunning, hcpu⟩ hout, fun _ => ?_⟩
  refine ⟨s.clock, spent id log, rfl, Nat.le_of_eq hclock.symm, ?_, hleft, fun hSpent => ?_⟩
  · rw [hclock, Nat.sub_self, Nat.add_zero]
  · exact .inl (hreached hSpent)

theorem endTurn (h : Accounts os s log id e) (hruns : s.Runs id) (hidle : s'.running = none) :
    Accounts os s' log id (e.endTurn s.clock) := by
  obtain ⟨started, before, hstarted, hle, htime, hleft, hreached⟩ := h.inside hruns
  have hzero := (h.ledger hruns).left_eq_zero_iff hstarted
  have hend := (h.ledger hruns).endTurn
  rw [CpuEnforcer.endTurn_of_started hstarted] at hend ⊢
  refine ⟨fun hflag => ?_, fun _ => ⟨?_, fun hSpent => ?_⟩, ?_⟩
  · rcases Bool.or_eq_true_iff.mp hflag with hflag | hflag
    · exact h.flagged hflag
    · exact Reached.of_le ((Nat.sub_le _ _).trans (hzero.mp (beq_iff_eq.mp hflag)))
  · exact hend
  · rcases hreached hSpent with hflag | hle
    · exact Bool.or_eq_true_iff.mpr (.inl hflag)
    · exact Bool.or_eq_true_iff.mpr (.inr (beq_iff_eq.mpr (hzero.mpr hle)))
  · rintro ⟨r, hr, -⟩
    rw [hidle] at hr
    cases hr

/-- A refill that takes effect starts a new period. -/
theorem refill (h : Accounts os s log id e) (hout : ¬ s.Runs id) (hflag : e.terminated = false) :
    Accounts os s (log ++ [.refilled id]) id e.refill := by
  have hentry : entry id (.refilled id) = .reset := if_pos rfl
  have hspent : spent id (log ++ [.refilled id]) = 0 := tally_concat_reset hentry
  have hSpent : ¬ Spent id e.budget (log ++ [.refilled id]) := by
    rw [Spent, Reached.concat_reset_iff hentry e.pos]
    intro hreached
    rw [(h.outside hout).2 hreached] at hflag
    cases hflag
  have hrefill : e.refill = { e with remaining := e.budget } := by
    rw [CpuEnforcer.refill, hflag]
    rfl
  rw [hrefill]
  refine ⟨fun hflag' => ?_, fun _ => ⟨?_, fun hreached => absurd hreached hSpent⟩, fun hin => ?_⟩
  · rw [hflag] at hflag'
    cases hflag'
  · rw [hspent]
    rfl
  · exact absurd hin hout

/-- A refill after the budget was spent does nothing. -/
theorem refill_of_terminated (h : Accounts os s log id e) (hflag : e.terminated = true) :
    Accounts os s log id e.refill := by
  rw [CpuEnforcer.refill, if_pos hflag]
  exact h

theorem flag (h : Accounts os s log id e)
    (hSpent : Spent id (e.budget - CpuEnforcer.slack os) log) :
    Accounts os s log id e.flag := by
  refine ⟨fun _ => hSpent, fun hout => ⟨(h.outside hout).1, fun _ => rfl⟩, fun hin => ?_⟩
  obtain ⟨started, before, hstarted, hle, htime, hleft, -⟩ := h.inside hin
  exact ⟨started, before, hstarted, hle, htime, hleft, fun _ => .inl rfl⟩

/-- The turn of a timer that has fired has spent the budget, but for the slack. -/
theorem spent_of_due (h : Accounts os s log id e) (hruns : s.Runs id) {started : Nat}
    (hstarted : e.turnStarted = some started) (hdue : e.due started s.clock os = true) :
    Spent id (e.budget - CpuEnforcer.slack os) log := by
  obtain ⟨started', before, hstarted', hle, htime, hleft⟩ := h.ledger hruns
  rw [hstarted] at hstarted'
  cases hstarted'
  have hremaining := CpuEnforcer.remaining_le_of_due hdue
  rw [hleft] at hremaining
  refine Reached.of_le ?_
  show e.budget - CpuEnforcer.slack os ≤ spent id log
  omega

theorem new {timeoutMs : Nat} (hnew : CpuEnforcer.new timeoutMs = some e) (hout : ¬ s.Runs id)
    (hlog : ∀ x ∈ log, entry id x = .add 0) : Accounts os s log id e := by
  obtain ⟨hleft, -, hflag⟩ := CpuEnforcer.of_new hnew
  have hSpent : ¬ Spent id e.budget log := Reached.not_of_zero hlog e.pos
  refine ⟨fun hflag' => ?_, fun _ => ⟨?_, fun hreached => absurd hreached hSpent⟩, fun hin => ?_⟩
  · rw [hflag] at hflag'
    cases hflag'
  · rw [hleft, spent, tally_eq_zero hlog]
    rfl
  · exact absurd hin hout

end Accounts

/-! ## All enforcers -/

structure Inv (os : Os) (s : State) (log : List Seen) : Prop where
  accounts : ∀ id e, s.enforcers[id]? = some e → Accounts os s log id e
  signals : ∀ id ∈ s.signals, ∃ e, s.enforcers[id]? = some e ∧
    Spent id (e.budget - CpuEnforcer.slack os) log
  /-- Nothing was seen of an enforcer before it was made. -/
  unknown : ∀ id, s.enforcers.length ≤ id → ∀ x ∈ log, entry id x = .add 0
  running : ∀ id, s.Runs id → id < s.enforcers.length
  contexts : ∀ k ∈ s.contexts, ∀ id, k.phase.current = some (some id) → id < s.enforcers.length

theorem inv_init : Inv os (machine os).init [] where
  accounts id e h := absurd (mem_of_getElem? h) not_mem_nil
  signals _ h := absurd h not_mem_nil
  unknown _ _ _ h := absurd h not_mem_nil
  running id h := by
    obtain ⟨running, hrunning, -⟩ := h
    cases hrunning
  contexts _ h := absurd h not_mem_nil

namespace Inv

/-- What is known of a context that is there. -/
theorem context {c : Nat} {k : Context} (h : Inv os s log) (hk : s.contexts[c]? = some k)
    {cpu : Nat}
    (hcpu : k.phase.current = some (some cpu)) : cpu < s.enforcers.length :=
  h.contexts k (mem_of_getElem? hk) cpu hcpu

theorem setPhase (h : Inv os s log) (c : Nat) {phase : Phase}
    (hphase : ∀ id, phase.current = some (some id) → id < s.enforcers.length) :
    Inv os (s.setPhase c phase) log where
  accounts id e he := (h.accounts id e he).congr Iff.rfl rfl rfl fun _ => Iff.rfl
  signals := h.signals
  unknown := h.unknown
  running := h.running
  contexts := forall_mem_modify h.contexts fun _ _ => hphase

theorem renewed (h : Inv os s log) (c : Nat) : Inv os s (log ++ [.renewed c]) where
  accounts id e he := (h.accounts id e he).concat_zero rfl
  signals id hid := by
    obtain ⟨e, he, hSpent⟩ := h.signals id hid
    exact ⟨e, he, Reached.concat_iff.mpr (.inl hSpent)⟩
  unknown id hid x hx := by
    rcases mem_append.mp hx with hx | hx
    · exact h.unknown id hid x hx
    · cases mem_singleton.mp hx
      rfl
  running := h.running
  contexts := h.contexts

theorem make (h : Inv os s log) (timeoutMs : Nat) :
    Inv os (s.make timeoutMs).2 log ∧
      ∀ id, (s.make timeoutMs).1 = some id → id < (s.make timeoutMs).2.enforcers.length := by
  unfold State.make
  cases hnew : CpuEnforcer.new timeoutMs with
  | none => exact ⟨h, by rintro _ ⟨⟩⟩
  | some e =>
      have hlength : (s.enforcers ++ [e]).length = s.enforcers.length + 1 := by simp
      refine ⟨⟨fun id e' he' => ?_, fun id hid => ?_, fun id hid => ?_, fun id hid => ?_, ?_⟩, ?_⟩
      · rcases of_getElem?_concat he' with ⟨rfl, rfl⟩ | he'
        · refine .new hnew (fun hruns => ?_) (h.unknown _ (Nat.le_refl _))
          exact Nat.lt_irrefl _ (h.running _ hruns)
        · exact (h.accounts id e' he').congr Iff.rfl rfl rfl fun _ => Iff.rfl
      · obtain ⟨e', he', hSpent⟩ := h.signals id hid
        refine ⟨e', ?_, hSpent⟩
        rw [getElem?_append_left (List.getElem?_eq_some_iff.mp he').1, he']
      · have hid' : s.enforcers.length + 1 ≤ id := hlength ▸ hid
        exact h.unknown id (Nat.le_of_succ_le hid')
      · exact hlength ▸ Nat.lt_succ_of_lt (h.running id hid)
      · intro k hk id hid
        exact hlength ▸ Nat.lt_succ_of_lt (h.contexts k hk id hid)
      · rintro _ ⟨⟩
        exact hlength ▸ Nat.lt_succ_self _

/-- An enforcer changes, and so may the turn that runs and what is seen; the others are as they
were. -/
theorem modify (h : Inv os s log) {cpu : Nat} {f : CpuEnforcer → CpuEnforcer}
    {running : Option Running}
    {signals : List Nat} (hbudget : ∀ e, (f e).budget = e.budget)
    (hsignals : signals ⊆ s.signals)
    (hcpu : ∀ e, s.enforcers[cpu]? = some e → Accounts os s log cpu e →
      Accounts os { s with running } log' cpu (f e))
    (hother : ∀ id e, id ≠ cpu → Accounts os s log id e → Accounts os { s with running } log' id e)
    (hlog : ∀ id budget, Spent id budget log → Spent id budget log')
    (hunknown : ∀ id, s.enforcers.length ≤ id → ∀ x ∈ log', entry id x = .add 0)
    (hrunning : ∀ r id, running = some r → r.cpu = some id → id < s.enforcers.length) :
    Inv os { s with enforcers := s.enforcers.modify cpu f, running, signals } log' where
  accounts id e he := by
    rcases of_getElem?_modify he with ⟨rfl, e₀, he₀, rfl⟩ | ⟨hne, he⟩
    · exact (hcpu e₀ he₀ (h.accounts _ e₀ he₀)).congr Iff.rfl rfl rfl fun _ => Iff.rfl
    · exact (hother id e hne (h.accounts id e he)).congr Iff.rfl rfl rfl fun _ => Iff.rfl
  signals id hid := by
    obtain ⟨e, he, hSpent⟩ := h.signals id (hsignals hid)
    by_cases hne : cpu = id
    · subst hne
      refine ⟨f e, ?_, ?_⟩
      · rw [getElem?_modify_eq, he]
        rfl
      · rw [hbudget]
        exact hlog _ _ hSpent
    · refine ⟨e, ?_, hlog _ _ hSpent⟩
      show (s.enforcers.modify cpu f)[id]? = some e
      rw [getElem?_modify_ne _ _ hne]
      exact he
  unknown := by
    rw [length_modify]
    exact hunknown
  running := by
    rintro id ⟨r, hr, hcpu⟩
    rw [length_modify]
    exact hrunning r id hr hcpu
  contexts := by
    rw [length_modify]
    exact h.contexts

theorem tick (h : Inv os s log) (time : Nat) :
    Inv os { s with clock := s.clock + time } (log ++ [.cpu s.running time]) where
  accounts id e he := (h.accounts id e he).tick time
  signals id hid := by
    obtain ⟨e, he, hSpent⟩ := h.signals id hid
    exact ⟨e, he, Reached.concat_iff.mpr (.inl hSpent)⟩
  unknown id hid x hx := by
    rcases mem_append.mp hx with hx | hx
    · exact h.unknown id hid x hx
    · cases mem_singleton.mp hx
      refine congrArg Entry.add (if_neg fun hcpu => ?_)
      obtain ⟨running, hrunning, hcpu⟩ := bind_eq_some_iff.mp hcpu
      exact absurd (h.running id ⟨running, hrunning, hcpu⟩) (Nat.not_lt.mpr hid)
  running := h.running
  contexts := h.contexts

theorem beginTurn (h : Inv os s log) (hidle : s.running = none) {running : Running}
    (hcpu : ∀ id, running.cpu = some id → id < s.enforcers.length) :
    Inv os (s.beginTurn running) log := by
  have hout : ∀ id, ¬ s.Runs id := by
    rintro id ⟨r, hr, -⟩
    rw [hidle] at hr
    cases hr
  unfold State.beginTurn State.modifyCpu
  cases hid : running.cpu with
  | none =>
      have hout' : ∀ id, ¬ { s with running := some running }.Runs id := by
        rintro id ⟨r, hr, hr'⟩
        cases hr
        rw [hid] at hr'
        cases hr'
      refine ⟨fun id e he => ?_, h.signals, h.unknown, fun id hin => absurd hin (hout' id),
        h.contexts⟩
      exact (h.accounts id e he).congr (iff_of_false (hout' id) (hout id)) rfl rfl fun _ => Iff.rfl
  | some cpu =>
      refine h.modify (fun _ => rfl) (List.Subset.refl _) (fun e _ ha => ?_) (fun id e hne ha => ?_)
        (fun _ _ => id) h.unknown ?_
      · exact ha.begin hidle hid rfl rfl
      · refine ha.congr (iff_of_false ?_ (hout id)) rfl rfl fun _ => Iff.rfl
        rintro ⟨r, hr, hr'⟩
        cases hr
        rw [hid] at hr'
        cases hr'
        exact hne rfl
      · rintro r id ⟨⟩ hr
        exact hcpu id hr

theorem endTurn (h : Inv os s log) {running : Running} (hrunning : s.running = some running) :
    Inv os { s.modifyCpu running.cpu fun e => e.endTurn s.clock with running := none } log := by
  have hout' : ∀ id, ¬ { s with running := none }.Runs id := by
    rintro id ⟨r, hr, -⟩
    cases hr
  have hother : ∀ id, running.cpu ≠ some id → ¬ s.Runs id := by
    rintro id hne ⟨r, hr, hr'⟩
    rw [hrunning] at hr
    cases hr
    exact hne hr'
  unfold State.modifyCpu
  cases hid : running.cpu with
  | none =>
      refine ⟨fun id e he => ?_, h.signals, h.unknown, fun id hin => absurd hin (hout' id),
        h.contexts⟩
      refine (h.accounts id e he).congr (iff_of_false (hout' id) (hother id ?_))
        rfl rfl fun _ => Iff.rfl
      rw [hid]
      rintro ⟨⟩
  | some cpu =>
      refine h.modify (fun _ => CpuEnforcer.budget_endTurn) (List.Subset.refl _) (fun e _ ha => ?_)
        (fun id e hne ha => ?_) (fun _ _ => id) h.unknown (by rintro _ _ ⟨⟩)
      · exact ha.endTurn ⟨running, hrunning, hid⟩ rfl
      · refine ha.congr (iff_of_false (hout' id) (hother id ?_)) rfl rfl fun _ => Iff.rfl
        rw [hid]
        rintro ⟨⟩
        exact hne rfl

theorem refill (h : Inv os s log) {cpu : Nat} (hcpu : cpu < s.enforcers.length)
    (hout : ¬ s.Runs cpu) :
    Inv os (s.modifyCpu (some cpu) CpuEnforcer.refill)
      (log ++ if s.terminated (some cpu) then [] else [.refilled cpu]) := by
  have hterminated : ∀ e, s.enforcers[cpu]? = some e → s.terminated (some cpu) = e.terminated := by
    intro e he
    show (s.enforcers[cpu]?).any CpuEnforcer.terminated = e.terminated
    rw [he]
    rfl
  cases hflag : s.terminated (some cpu) with
  | true =>
      rw [if_pos rfl, append_nil]
      refine h.modify (fun _ => CpuEnforcer.budget_refill) (List.Subset.refl _) (fun e he ha => ?_)
        (fun _ _ _ ha => ha) (fun _ _ => id) h.unknown fun r id hr hr' => h.running id ⟨r, hr, hr'⟩
      exact ha.refill_of_terminated (hterminated e he ▸ hflag)
  | false =>
      rw [if_neg Bool.false_ne_true]
      refine h.modify (fun _ => CpuEnforcer.budget_refill) (List.Subset.refl _) (fun e he ha => ?_)
        (fun id e hne ha => ?_) (fun _ _ hSpent => Reached.concat_iff.mpr (.inl hSpent))
        (fun id hid x hx => ?_) fun r id hr hr' => h.running id ⟨r, hr, hr'⟩
      · exact ha.refill hout (hterminated e he ▸ hflag)
      · exact ha.concat_zero (if_neg fun heq => hne heq.symm)
      · rcases mem_append.mp hx with hx | hx
        · exact h.unknown id hid x hx
        · cases mem_singleton.mp hx
          exact if_neg fun heq : cpu = id => absurd hcpu (heq ▸ Nat.not_lt.mpr hid)

theorem signal (h : Inv os s log) {cpu : Nat} (hmem : cpu ∈ s.signals) :
    Inv os { s.modifyCpu (some cpu) CpuEnforcer.flag with signals := s.signals.erase cpu } log := by
  refine h.modify (fun _ => rfl) erase_subset (fun e he ha => ?_) (fun _ _ _ ha => ha)
    (fun _ _ => id) h.unknown fun r id hr hr' => h.running id ⟨r, hr, hr'⟩
  obtain ⟨e', he', hSpent⟩ := h.signals cpu hmem
  rw [he] at he'
  cases he'
  exact ha.flag hSpent

end Inv

theorem not_runs_of_idle (h : s.running = none) (id : Nat) : ¬ s.Runs id := by
  rintro ⟨running, hrunning, -⟩
  rw [h] at hrunning
  cases hrunning

theorem inv_step (s : State) (log : List Seen) (a : Action) (s' : State) (h : Inv os s log)
    (hstep : step os s a = some s') : Inv os s' (log ++ observe s a) := by
  cases of_step hstep with
  | tick time => exact h.tick time
  | newContext maxCpuTimeMs =>
      rw [observe, append_nil]
      refine ⟨fun id e he => ?_, h.signals, h.unknown, h.running, ?_⟩
      · exact (h.accounts id e he).congr Iff.rfl rfl rfl fun _ => Iff.rfl
      · intro k hk id hid
        rcases mem_append.mp hk with hk | hk
        · exact h.contexts k hk id hid
        · cases mem_singleton.mp hk
          cases hid
  | reset hk hout => exact (h.setPhase _ (by rintro _ ⟨⟩)).renewed _
  | @exec c k hk hout =>
      obtain ⟨hmade, hid⟩ := h.make k.maxCpuTimeMs
      refine (hmade.setPhase c ?_).renewed c
      exact fun id heq => hid id (Option.some.inj heq)
  | @answer c _ ok cpu hk hout hok =>
      rw [observe, append_nil]
      refine h.setPhase c fun id heq => h.context hk ?_
      cases ok <;> exact heq
  | drain hk =>
      simp only [observe, hk, append_nil]
      exact h.setPhase _ fun id heq => h.context hk heq
  | @drainFresh c maxCpuTimeMs hk =>
      simp only [observe, hk]
      obtain ⟨hmade, hid⟩ := h.make maxCpuTimeMs
      refine (hmade.setPhase c ?_).renewed c
      exact fun id heq => hid id (Option.some.inj heq)
  | endDrain hk hout =>
      rw [observe, append_nil]
      exact h.setPhase _ fun id heq => h.context hk heq
  | @refill c _ cpu hidle hk =>
      cases cpu with
      | none =>
          simp only [observe, hk, append_nil]
          exact h
      | some cpu =>
          simp only [observe, hk]
          exact h.refill (h.context hk rfl) (not_runs_of_idle hidle cpu)
  | begin hidle hk hactive =>
      rw [observe, append_nil]
      refine h.beginTurn hidle fun id heq => h.context hk ?_
      rw [Phase.current_of_active hactive]
      exact congrArg some heq
  | single timeoutMs hidle =>
      rw [observe, append_nil]
      obtain ⟨hmade, hid⟩ := h.make timeoutMs
      refine hmade.beginTurn ?_ hid
      unfold State.make
      split <;> exact hidle
  | endTurn hrunning =>
      rw [observe, append_nil]
      exact h.endTurn hrunning
  | fire hruns he hstarted hdue =>
      rw [observe, append_nil]
      have hSpent := (h.accounts _ _ he).spent_of_due hruns hstarted hdue
      refine ⟨fun id e he => ?_, fun id hid => ?_, h.unknown, h.running, h.contexts⟩
      · exact (h.accounts id e he).congr Iff.rfl rfl rfl fun _ => Iff.rfl
      · rcases mem_append.mp hid with hid | hid
        · exact h.signals id hid
        · cases mem_singleton.mp hid
          exact ⟨_, he, hSpent⟩
  | signal hmem =>
      rw [observe, append_nil]
      exact h.signal hmem

/-! ## One budget for an event -/

/-- The context gets a new event. -/
def isRenewed (c : Nat) (x : Seen) : Bool := x = .renewed c

/-- The turns of a context since its last new event were charged to the enforcer it has. -/
structure Charged (s : State) (log : List Seen) : Prop where
  turn : ∀ c cpu, s.running = some ⟨some c, cpu⟩ →
    ∃ k, s.contexts[c]? = some k ∧ k.phase.active = some cpu
  since : ∀ c cpu time, Since (isRenewed c) (.cpu (some ⟨some c, cpu⟩) time) log →
    ∃ k, s.contexts[c]? = some k ∧ k.phase.current = some cpu

namespace Charged

variable {c : Nat} {k : Context} {phase : Phase}

theorem congr (h : Charged s log) (hrunning : s'.running = s.running)
    (hcontexts : s'.contexts = s.contexts) : Charged s' log := by
  refine ⟨?_, ?_⟩
  · rw [hrunning, hcontexts]
    exact h.turn
  · rw [hcontexts]
    exact h.since

/-- What is neither CPU time nor a new event. -/
theorem concat {x : Seen} (h : Charged s log) (hrenewed : ∀ c, x ≠ .renewed c)
    (hcpu : ∀ running time, x ≠ .cpu running time) : Charged s (log ++ [x]) where
  turn := h.turn
  since c cpu time hsince := by
    rw [since_append (by simpa [isRenewed] using hrenewed c)] at hsince
    rcases hsince with hmem | hsince
    · exact absurd (mem_singleton.mp hmem).symm (hcpu _ _)
    · exact h.since c cpu time hsince

theorem tick (h : Charged s log) (time : Nat) :
    Charged { s with clock := s.clock + time } (log ++ [.cpu s.running time]) where
  turn := h.turn
  since c cpu time' hsince := by
    rw [since_append (by simp [isRenewed])] at hsince
    rcases hsince with hmem | hsince
    · obtain ⟨hrunning, -⟩ := Seen.cpu.inj (mem_singleton.mp hmem)
      obtain ⟨k, hk, hactive⟩ := h.turn c cpu hrunning.symm
      exact ⟨k, hk, Phase.current_of_active hactive⟩
    · exact h.since c cpu time' hsince

theorem setPhase_self (hk : s.contexts[c]? = some k) :
    (s.setPhase c phase).contexts[c]? = some { k with phase } := by
  show (s.contexts.modify c fun k => { k with phase })[c]? = _
  rw [getElem?_modify_eq, hk]
  rfl

theorem setPhase_ne {c' : Nat} (hne : c ≠ c') :
    (s.setPhase c phase).contexts[c']? = s.contexts[c']? :=
  getElem?_modify_ne _ _ hne

/-- The turn that runs is not one of the context whose phase changes. -/
theorem turn_setPhase (h : Charged s log) (hout : ∀ cpu, s.running ≠ some ⟨some c, cpu⟩) :
    ∀ c' cpu, s.running = some ⟨some c', cpu⟩ →
      ∃ k, (s.setPhase c phase).contexts[c']? = some k ∧ k.phase.active = some cpu := by
  intro c' cpu hrunning
  have hne : c ≠ c' := by
    rintro rfl
    exact hout cpu hrunning
  rw [setPhase_ne hne]
  exact h.turn c' cpu hrunning

/-- The event goes on under the enforcer that it has. -/
theorem setPhase (h : Charged s log) (hk : s.contexts[c]? = some k)
    (hphase : phase.current = k.phase.current) (hout : ∀ cpu, s.running ≠ some ⟨some c, cpu⟩) :
    Charged (s.setPhase c phase) log where
  turn := h.turn_setPhase hout
  since c' cpu time hsince := by
    obtain ⟨k', hk', hcurrent⟩ := h.since c' cpu time hsince
    by_cases heq : c = c'
    · subst heq
      rw [hk] at hk'
      cases hk'
      exact ⟨_, setPhase_self hk, hphase.trans hcurrent⟩
    · rw [setPhase_ne heq]
      exact ⟨k', hk', hcurrent⟩

/-- The context has a new event, and nothing was charged to it yet. -/
theorem renew (h : Charged s log) (hout : ∀ cpu, s.running ≠ some ⟨some c, cpu⟩) :
    Charged (s.setPhase c phase) (log ++ [.renewed c]) where
  turn := h.turn_setPhase hout
  since c' cpu time hsince := by
    by_cases heq : c = c'
    · subst heq
      exact absurd hsince (not_since_concat (decide_eq_true rfl))
    · rw [since_append (by simp [isRenewed, heq])] at hsince
      rcases hsince with hmem | hsince
      · cases mem_singleton.mp hmem
      · rw [setPhase_ne heq]
        exact h.since c' cpu time hsince

theorem make (h : Charged s log) (timeoutMs : Nat) : Charged (s.make timeoutMs).2 log := by
  unfold State.make
  split
  · exact h
  · exact h.congr rfl rfl

theorem modifyCpu (h : Charged s log) (cpu : Option Nat) (f : CpuEnforcer → CpuEnforcer) :
    Charged (s.modifyCpu cpu f) log := by
  cases cpu with
  | none => exact h
  | some cpu => exact h.congr rfl rfl

/-- A context that may have no turn does not have one. -/
theorem not_running (h : Charged s log) (hk : s.contexts[c]? = some k)
    (hactive : k.phase.active = none) : ∀ cpu, s.running ≠ some ⟨some c, cpu⟩ := by
  intro cpu hrunning
  obtain ⟨k', hk', hcpu⟩ := h.turn c cpu hrunning
  rw [hk] at hk'
  cases hk'
  rw [hactive] at hcpu
  cases hcpu

theorem beginTurn (h : Charged s log) {running : Running}
    (hrunning : ∀ c, running.context = some c →
      ∃ k, s.contexts[c]? = some k ∧ k.phase.active = some running.cpu) :
    Charged (s.beginTurn running) log := by
  have hcontexts : (s.beginTurn running).contexts = s.contexts := by
    unfold State.beginTurn State.modifyCpu
    split <;> rfl
  refine ⟨?_, ?_⟩
  · rw [hcontexts]
    rintro c cpu ⟨⟩
    exact hrunning c rfl
  · rw [hcontexts]
    exact h.since

end Charged

theorem not_running_of_inTurn {c : Nat} (h : s.inTurn c = false) :
    ∀ cpu, s.running ≠ some ⟨some c, cpu⟩ := by
  intro cpu hrunning
  simp [State.inTurn, hrunning] at h

theorem charged_step (s : State) (log : List Seen) (a : Action) (s' : State) (h : Charged s log)
    (hstep : step os s a = some s') : Charged s' (log ++ observe s a) := by
  cases of_step hstep with
  | tick time => exact h.tick time
  | newContext maxCpuTimeMs =>
      rw [observe, append_nil]
      have hold : ∀ {c : Nat} {k : Context}, s.contexts[c]? = some k →
          (s.contexts ++ [⟨maxCpuTimeMs, .fresh⟩])[c]? = some k := by
        intro c k hk
        rw [getElem?_append_left (List.getElem?_eq_some_iff.mp hk).1, hk]
      refine ⟨fun c cpu hrunning => ?_, fun c cpu time hsince => ?_⟩
      · obtain ⟨k, hk, hactive⟩ := h.turn c cpu hrunning
        exact ⟨k, hold hk, hactive⟩
      · obtain ⟨k, hk, hcurrent⟩ := h.since c cpu time hsince
        exact ⟨k, hold hk, hcurrent⟩
  | reset hk hout => exact h.renew (h.not_running hk hout)
  | @exec c k hk hout =>
      refine (h.make k.maxCpuTimeMs).renew ?_
      unfold State.make
      split <;> exact h.not_running hk hout
  | @answer c _ ok cpu hk hout hok =>
      rw [observe, append_nil]
      refine h.setPhase hk ?_ (not_running_of_inTurn hout)
      cases ok <;> rfl
  | drain hk =>
      simp only [observe, hk, append_nil]
      exact h.setPhase hk rfl (h.not_running hk rfl)
  | @drainFresh c maxCpuTimeMs hk =>
      simp only [observe, hk]
      refine (h.make maxCpuTimeMs).renew ?_
      unfold State.make
      split <;> exact h.not_running hk rfl
  | endDrain hk hout =>
      rw [observe, append_nil]
      exact h.setPhase hk rfl (not_running_of_inTurn hout)
  | @refill c _ cpu hidle hk =>
      cases cpu with
      | none =>
          simp only [observe, hk, append_nil]
          exact h
      | some cpu =>
          simp only [observe, hk]
          cases s.terminated (some cpu) with
          | true =>
              rw [if_pos rfl, append_nil]
              exact h.modifyCpu (some cpu) _
          | false =>
              rw [if_neg Bool.false_ne_true]
              exact (h.modifyCpu (some cpu) _).concat (by rintro _ ⟨⟩) (by rintro _ _ ⟨⟩)
  | begin hidle hk hactive =>
      rw [observe, append_nil]
      refine h.beginTurn ?_
      rintro c ⟨⟩
      exact ⟨_, hk, hactive⟩
  | single timeoutMs hidle =>
      rw [observe, append_nil]
      exact (h.make timeoutMs).beginTurn (by rintro _ ⟨⟩)
  | @endTurn running hrunning =>
      rw [observe, append_nil]
      have h' := h.modifyCpu running.cpu fun e => e.endTurn s.clock
      exact ⟨by rintro _ _ ⟨⟩, h'.since⟩
  | fire =>
      rw [observe, append_nil]
      exact h.congr rfl rfl
  | signal hmem =>
      rw [observe, append_nil]
      exact h.congr rfl rfl

/-! ## A spent budget stays spent -/

/-- The flag of an enforcer is set. -/
def Flagged (id : Nat) (s : State) : Prop := ∃ e, s.enforcers[id]? = some e ∧ e.terminated = true

namespace Flagged

theorem make (h : Flagged id s) (timeoutMs : Nat) : Flagged id (s.make timeoutMs).2 := by
  obtain ⟨e, he, hflag⟩ := h
  unfold State.make
  split
  · exact ⟨e, he, hflag⟩
  · refine ⟨e, ?_, hflag⟩
    rw [getElem?_append_left (List.getElem?_eq_some_iff.mp he).1, he]

theorem modifyCpu (h : Flagged id s) (cpu : Option Nat) {f : CpuEnforcer → CpuEnforcer}
    (hf : ∀ e, e.terminated = true → (f e).terminated = true) : Flagged id (s.modifyCpu cpu f) := by
  obtain ⟨e, he, hflag⟩ := h
  cases cpu with
  | none => exact ⟨e, he, hflag⟩
  | some cpu =>
      by_cases heq : cpu = id
      · subst heq
        refine ⟨f e, ?_, hf e hflag⟩
        show (s.enforcers.modify cpu f)[cpu]? = some (f e)
        rw [getElem?_modify_eq, he]
        rfl
      · refine ⟨e, ?_, hflag⟩
        show (s.enforcers.modify cpu f)[id]? = some e
        rw [getElem?_modify_ne _ _ heq]
        exact he

theorem step (s : State) (a : Action) (s' : State) (h : Flagged id s)
    (hstep : step os s a = some s') : Flagged id s' := by
  cases of_step hstep with
  | tick | newContext | reset | answer | drain | endDrain | fire => exact h
  | @exec _ k => exact h.make k.maxCpuTimeMs
  | @drainFresh _ maxCpuTimeMs => exact h.make maxCpuTimeMs
  | @refill _ _ cpu =>
      exact h.modifyCpu cpu fun e hflag => CpuEnforcer.terminated_refill.trans hflag
  | @begin _ _ cpu => exact h.modifyCpu cpu fun _ hflag => hflag
  | single timeoutMs => exact (h.make timeoutMs).modifyCpu _ fun _ hflag => hflag
  | @endTurn running => exact h.modifyCpu running.cpu fun _ => CpuEnforcer.terminated_endTurn
  | @signal cpu => exact h.modifyCpu (some cpu) fun _ _ => rfl

end Flagged

/-- **CPU accounting.**  After every run of a thread, for every enforcer: outside its turns,
what is left of its budget is the budget less the CPU time of its turns since the last refill
that took effect, and its flag is set if that time reached the budget in some period; the flag is
never set before that, but for the slack of macOS, and it stays.  The turns of a context, from the
beginning of its event to the end of the `waitUntil` work, are charged to one enforcer. -/
theorem budget_is_charged_for_own_turns (os : Os) (ops : List Action) (s : State)
    (hrun : (machine os).run ops = some s) :
    (∀ id e, s.enforcers[id]? = some e →
      (¬ s.Runs id →
        e.remaining = e.budget - spent id ((machine os).log observe ops) ∧
        (Spent id e.budget ((machine os).log observe ops) → e.terminated = true)) ∧
      (e.terminated = true →
        Spent id (e.budget - CpuEnforcer.slack os) ((machine os).log observe ops) ∧
        ∀ more s', (machine os).runFrom s more = some s' → Flagged id s')) ∧
    ∀ c cpu cpu' time time',
      Since (isRenewed c) (.cpu (some ⟨some c, cpu⟩) time) ((machine os).log observe ops) →
      Since (isRenewed c) (.cpu (some ⟨some c, cpu'⟩) time') ((machine os).log observe ops) →
        cpu = cpu' := by
  have hinv : Inv os s _ := Machine.invariant_log inv_init inv_step hrun
  have hcharged : Charged s ((machine os).log observe ops) := by
    refine Machine.invariant_log ⟨?_, ?_⟩ charged_step hrun
    · rintro _ _ ⟨⟩
    · exact fun _ _ _ hsince => absurd hsince.mem not_mem_nil
  constructor
  · intro id e he
    have ha := hinv.accounts id e he
    refine ⟨ha.outside, fun hflag => ?_⟩
    refine ⟨ha.flagged hflag, fun more s' hmore => ?_⟩
    exact Machine.invariant_from (I := Flagged id) Flagged.step ⟨e, he, hflag⟩ hmore
  · intro c cpu cpu' time time' hsince hsince'
    obtain ⟨k, hk, hcpu⟩ := hcharged.since c cpu time hsince
    obtain ⟨k', hk', hcpu'⟩ := hcharged.since c cpu' time' hsince'
    rw [hk] at hk'
    cases hk'
    rw [hcpu] at hcpu'
    exact Option.some.inj hcpu'

/-- Two requests on one thread, with limits of 2 ms and 1 ms.  The second one is over its limit
after its second turn; the first one has spent half of its budget in `exec` and the rest of it
in `drain_waituntil`. -/
def neighbours : List Action :=
  [.newContext 2, .newContext 1, .exec 0, .exec 1,
    .begin 0, .tick 1000000, .endTurn, .begin 1, .tick 600000, .endTurn, .tick 50,
    .answer 0 true, .begin 1, .tick 400000, .fire, .tick 5, .endTurn, .signal 1, .answer 1 false,
    .drain 0, .begin 0, .tick 1000000, .endTurn, .endDrain 0]

theorem budget_is_charged_for_own_turns_neighbours :
    ∃ s, (machine .linux).run neighbours = some s ∧ s.running = none ∧
      (∀ e, s.enforcers[0]? = some e →
        e.remaining = e.budget - spent 0 ((machine .linux).log observe neighbours) ∧
        (e.terminated = true ↔ Spent 0 e.budget ((machine .linux).log observe neighbours))) ∧
      spent 0 ((machine .linux).log observe neighbours) = 2000000 ∧
      spent 1 ((machine .linux).log observe neighbours) = 1000005 := by
  have hrun : (machine .linux).run neighbours = some _ := rfl
  refine ⟨_, hrun, rfl, fun e he => ?_, rfl, rfl⟩
  have haccounts := (budget_is_charged_for_own_turns .linux neighbours _ hrun).1 0 e he
  obtain ⟨hleft, hflag⟩ := haccounts.1 (not_runs_of_idle rfl 0)
  exact ⟨hleft, fun h => (haccounts.2 h).1, hflag⟩

/-- A limit of 1 ms on macOS.  The second turn begins 999 ns into a microsecond with 499999 ns
left, for which the watchdog counts 499 microseconds. -/
def roundedDown : List Action :=
  [.newContext 1, .exec 0, .begin 0, .tick 500001, .endTurn, .tick 998,
    .begin 0, .tick 498001, .fire, .signal 0, .endTurn]

/-- The watchdog of macOS ends a request that has 1998 ns of its budget left. -/
theorem flagged_before_the_budget_is_spent :
    ∃ s, (machine .macos).run roundedDown = some s ∧ s.running = none ∧
      (∃ e, s.enforcers[0]? = some e ∧ e.terminated = true ∧ e.remaining = 1998 ∧
        ¬ Spent 0 e.budget ((machine .macos).log observe roundedDown)) := by
  refine ⟨_, rfl, rfl, _, rfl, rfl, rfl, ?_⟩
  rintro ⟨before, hbefore, hle⟩
  have hall : ∀ part ∈ ((machine .macos).log observe roundedDown).inits,
      tally (entry 0) part < 1000000 := by decide
  exact Nat.not_le_of_lt (hall before ((mem_inits _ _).mpr hbefore)) hle

end OpenWorkers.Security.Accounting
