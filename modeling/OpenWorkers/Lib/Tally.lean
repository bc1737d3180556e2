import Mathlib.Data.List.Basic
import Mathlib.Data.List.Infix

/-!
# Tallies of a log

A tally adds up what the events of a log say, and starts again from nothing at some of them.
`Reached` says that at some point of the log, whatever came after it, the tally was at a bound.
-/

universe u

namespace OpenWorkers

open List

/-- What an event does to a tally. -/
inductive Entry where
  | add (n : Nat)
  | reset
deriving DecidableEq, Repr

variable {β : Type u} {entry : β → Entry} {log : List β} {x : β} {bound n : Nat}

/-- The sum of what was added since the last reset. -/
def tally (entry : β → Entry) (log : List β) : Nat :=
  log.foldl (fun total e => match entry e with
    | .add n => total + n
    | .reset => 0) 0

theorem tally_concat_add (h : entry x = .add n) :
    tally entry (log ++ [x]) = tally entry log + n := by
  rw [tally, foldl_append, foldl_cons, foldl_nil, h]
  rfl

theorem tally_concat_reset (h : entry x = .reset) : tally entry (log ++ [x]) = 0 := by
  rw [tally, foldl_append, foldl_cons, foldl_nil, h]

theorem tally_concat_zero (h : entry x = .add 0) : tally entry (log ++ [x]) = tally entry log :=
  tally_concat_add h

/-- Two tallies that read every event of the log alike. -/
theorem tally_congr {entry' : β → Entry} (h : ∀ e ∈ log, entry e = entry' e) :
    tally entry log = tally entry' log := by
  induction log using List.reverseRecOn with
  | nil => rfl
  | append_singleton log x ih =>
      have ih := ih fun e he => h e (mem_append_left _ he)
      have hx := h x (mem_append_right _ mem_cons_self)
      rw [tally, tally, foldl_append, foldl_append, foldl_cons, foldl_nil,
        foldl_cons, foldl_nil, hx]
      show (match entry' x with | .add n => tally entry log + n | .reset => 0) = _
      rw [ih]
      rfl

/-- Events that add nothing. -/
theorem tally_append_zero {new : List β} (h : ∀ e ∈ new, entry e = .add 0) :
    tally entry (log ++ new) = tally entry log := by
  induction new using List.reverseRecOn with
  | nil => rw [append_nil]
  | append_singleton new x ih =>
      rw [← append_assoc, tally_concat_zero (h x (by simp))]
      exact ih fun e he => h e (mem_append_left _ he)

theorem tally_eq_zero (h : ∀ e ∈ log, entry e = .add 0) : tally entry log = 0 := by
  rw [← nil_append log, tally_append_zero h]
  rfl

/-- The tally of some prefix of the log is at the bound. -/
def Reached (entry : β → Entry) (bound : Nat) (log : List β) : Prop :=
  ∃ before, before <+: log ∧ bound ≤ tally entry before

namespace Reached

theorem of_le (h : bound ≤ tally entry log) : Reached entry bound log :=
  ⟨log, prefix_rfl, h⟩

theorem concat_iff : Reached entry bound (log ++ [x]) ↔
    Reached entry bound log ∨ bound ≤ tally entry (log ++ [x]) := by
  constructor
  · rintro ⟨before, hbefore, hle⟩
    rcases prefix_concat_iff.mp hbefore with rfl | hbefore
    · exact .inr hle
    · exact .inl ⟨before, hbefore, hle⟩
  · rintro (⟨before, hbefore, hle⟩ | hle)
    · exact ⟨before, hbefore.trans (prefix_append _ _), hle⟩
    · exact of_le hle

/-- An event that adds nothing does not get the tally to a bound. -/
theorem concat_zero_iff (h : entry x = .add 0) :
    Reached entry bound (log ++ [x]) ↔ Reached entry bound log := by
  rw [concat_iff, tally_concat_zero h]
  exact or_iff_left_of_imp of_le

/-- Neither does a reset. -/
theorem concat_reset_iff (h : entry x = .reset) (hbound : 0 < bound) :
    Reached entry bound (log ++ [x]) ↔ Reached entry bound log := by
  rw [concat_iff, tally_concat_reset h]
  exact or_iff_left fun hle => absurd hbound (Nat.not_lt.mpr hle)

theorem not_of_zero (h : ∀ e ∈ log, entry e = .add 0) (hbound : 0 < bound) :
    ¬ Reached entry bound log := by
  rintro ⟨before, hbefore, hle⟩
  rw [tally_eq_zero fun e he => h e (hbefore.subset he)] at hle
  exact absurd hbound (Nat.not_lt.mpr hle)

end Reached

end OpenWorkers
