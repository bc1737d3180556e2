import Mathlib.Data.Option.Basic
import Mathlib.Order.Basic

/-!
# The CPU time limit of a request

`CpuEnforcer` of `src/security/cpu_enforcer.rs`.  Times are in nanoseconds.

The clock of the thread is read where a turn begins and where it ends, and the difference is
taken from what is left of the budget.  On Linux a timer on that clock is armed for the length
of the turn, on macOS a watchdog thread reads it, in whole microseconds; either sets the flag of
the enforcer while the turn still runs.
-/

namespace OpenWorkers.Security

/-- `target_os`, as far as it decides what cuts a turn. -/
inductive Os where
  | linux
  | macos
  | other
deriving DecidableEq, Repr

structure CpuEnforcer where
  budget : Nat
  remaining : Nat
  turnStarted : Option Nat
  terminated : Bool
  /-- There is no enforcer for a limit of 0. -/
  pos : 0 < budget
deriving DecidableEq

namespace CpuEnforcer

/-- The smallest time a timer is armed with. -/
def leastTimer : Nat := 1000

def new (timeoutMs : Nat) : Option CpuEnforcer :=
  if h : timeoutMs = 0 then
    none
  else
    some {
      budget := timeoutMs * 1000000
      remaining := timeoutMs * 1000000
      turnStarted := none
      terminated := false
      pos := Nat.mul_pos (Nat.pos_of_ne_zero h) (by decide) }

/-- What watches a turn that began at `started` sees its time spent.  `macos::arm` keeps the start
and what is left in whole microseconds, and `check` reads the clock in them. -/
def due (e : CpuEnforcer) (started now : Nat) : Os → Bool
  | .linux => max e.remaining leastTimer ≤ now - started
  | .macos => e.remaining / 1000 ≤ now / 1000 - started / 1000
  | .other => false

/-- How much too early a turn may be cut: two roundings to microseconds. -/
def slack : Os → Nat
  | .macos => 1998
  | .linux | .other => 0

def beginTurn (e : CpuEnforcer) (now : Nat) : CpuEnforcer := { e with turnStarted := some now }

def endTurn (e : CpuEnforcer) (now : Nat) : CpuEnforcer :=
  match e.turnStarted with
  | none => e
  | some started =>
    let left := e.remaining - (now - started)
    { e with
      turnStarted := none
      remaining := left
      terminated := e.terminated || left == 0 }

def refill (e : CpuEnforcer) : CpuEnforcer :=
  if e.terminated then e else { e with remaining := e.budget }

/-- What cuts a turn sets the flag first. -/
def flag (e : CpuEnforcer) : CpuEnforcer := { e with terminated := true }

/-! ## What the operations keep -/

variable {e : CpuEnforcer} {now started : Nat}

theorem of_new {timeoutMs : Nat} (h : new timeoutMs = some e) :
    e.remaining = e.budget ∧ e.turnStarted = none ∧ e.terminated = false := by
  unfold new at h
  split at h
  · cases h
  · cases h
    exact ⟨rfl, rfl, rfl⟩

/-- A turn that is cut has spent what was left, but for the slack. -/
theorem remaining_le_of_due {os : Os} (h : e.due started now os = true) :
    e.remaining ≤ now - started + slack os := by
  cases os with
  | linux =>
      have hmax : max e.remaining leastTimer ≤ now - started := of_decide_eq_true h
      exact Nat.le_trans (Nat.le_max_left _ _) hmax
  | macos =>
      have hmicros : e.remaining / 1000 ≤ now / 1000 - started / 1000 := of_decide_eq_true h
      show e.remaining ≤ now - started + 1998
      omega
  | other => cases h

theorem endTurn_of_started (h : e.turnStarted = some started) :
    e.endTurn now = { e with
      turnStarted := none
      remaining := e.remaining - (now - started)
      terminated := e.terminated || e.remaining - (now - started) == 0 } := by
  rw [endTurn, h]

@[simp] theorem budget_endTurn : (e.endTurn now).budget = e.budget := by
  unfold endTurn
  split <;> rfl

@[simp] theorem budget_refill : e.refill.budget = e.budget := by
  unfold refill
  split <;> rfl

theorem terminated_endTurn (h : e.terminated = true) : (e.endTurn now).terminated = true := by
  unfold endTurn
  split
  · exact h
  · exact Bool.or_eq_true_iff.mpr (.inl h)

/-! ## What is left of the budget -/

/-- Outside a turn, what is left is the budget less what the turns have spent. -/
def Outside (e : CpuEnforcer) (spent : Nat) : Prop := e.remaining = e.budget - spent

/-- In a turn, what is left is what was left when the turn began. -/
def Inside (e : CpuEnforcer) (clock spent : Nat) : Prop :=
  ∃ started before, e.turnStarted = some started ∧ started ≤ clock ∧
    spent = before + (clock - started) ∧ e.Outside before

variable {clock spent : Nat}

theorem Outside.beginTurn (h : e.Outside spent) : (e.beginTurn clock).Inside clock spent := by
  refine ⟨clock, spent, rfl, Nat.le_refl _, ?_, h⟩
  rw [Nat.sub_self, Nat.add_zero]

theorem Inside.tick (h : e.Inside clock spent) (time : Nat) :
    e.Inside (clock + time) (spent + time) := by
  obtain ⟨started, before, hstarted, hle, rfl, hleft⟩ := h
  refine ⟨started, before, hstarted, Nat.le_add_right_of_le hle, ?_, hleft⟩
  omega

theorem Inside.endTurn (h : e.Inside clock spent) : (e.endTurn clock).Outside spent := by
  obtain ⟨started, before, hstarted, hle, rfl, hleft⟩ := h
  rw [endTurn_of_started hstarted]
  show e.remaining - (clock - started) = e.budget - (before + (clock - started))
  rw [hleft, Nat.sub_sub]

/-- What is left at the end of a turn is nothing exactly if the turns have spent the budget. -/
theorem Inside.left_eq_zero_iff (h : e.Inside clock spent)
    (hstarted : e.turnStarted = some started) :
    e.remaining - (clock - started) = 0 ↔ e.budget ≤ spent := by
  obtain ⟨started', before, hstarted', hle, rfl, hleft⟩ := h
  rw [hstarted] at hstarted'
  cases hstarted'
  rw [hleft, Nat.sub_sub, Nat.sub_eq_zero_iff_le]

theorem terminated_refill : e.refill.terminated = e.terminated := by
  unfold refill
  split <;> rfl

end CpuEnforcer

end OpenWorkers.Security
