import Mathlib.Data.List.Basic
import Mathlib.Data.List.Nodup
import Mathlib.Data.List.Perm.Subperm

/-!
# Numbers of a counter

A program that names things by a counter often gives a number out long before the thing is
there: the number waits in a message, and is taken when the message is handled.  `Fresh` says of
the numbers that wait and those that are taken that no number was given twice, and the lemmas
follow a number on its way.
-/

namespace OpenWorkers

open List

/-- No number was given twice, and the next one was not given. -/
structure Fresh (waiting taken : List Nat) (next : Nat) : Prop where
  nodup : (waiting ++ taken).Nodup
  lt : ∀ n ∈ waiting ++ taken, n < next

namespace Fresh

variable {waiting taken : List Nat} {next : Nat}

theorem nil (next : Nat) : Fresh [] [] next where
  nodup := nodup_nil
  lt _ h := absurd h not_mem_nil

theorem mono {next' : Nat} (h : Fresh waiting taken next) (hle : next ≤ next') :
    Fresh waiting taken next' where
  nodup := h.nodup
  lt n hn := Nat.lt_of_lt_of_le (h.lt n hn) hle

theorem taken_nodup (h : Fresh waiting taken next) : taken.Nodup :=
  (nodup_append.mp h.nodup).2.1

/-- A number that waits is not taken. -/
theorem not_taken {n : Nat} (h : Fresh waiting taken next) (hn : n ∈ waiting) : n ∉ taken :=
  fun htaken => (nodup_append.mp h.nodup).2.2 n hn n htaken rfl

theorem next_not_taken (h : Fresh waiting taken next) : next ∉ taken :=
  fun htaken => absurd (h.lt next (mem_append_right _ htaken)) (Nat.lt_irrefl _)

/-- Of numbers that were given once, some can be forgotten, and the rest can move. -/
theorem of_subperm {waiting' taken' : List Nat} (h : Fresh waiting taken next)
    (hsub : (waiting' ++ taken').Subperm (waiting ++ taken)) : Fresh waiting' taken' next := by
  refine ⟨?_, fun n hn => h.lt n (hsub.subset hn)⟩
  obtain ⟨l, hperm, hsub⟩ := hsub
  exact hperm.nodup_iff.mp (hsub.nodup h.nodup)

/-- The numbers of a message that is handled are taken, or dropped. -/
theorem take {numbers taken' : List Nat} (h : Fresh (numbers ++ waiting) taken next)
    (hsub : taken'.Sublist numbers) : Fresh waiting (taken ++ taken') next := by
  refine h.of_subperm ?_
  rw [← append_assoc, append_assoc numbers]
  exact perm_append_comm.subperm.trans (hsub.append (List.Sublist.refl _)).subperm

theorem of_perm_cons {waiting' taken' : List Nat} (h : Fresh waiting taken next)
    (hperm : (waiting' ++ taken').Perm (next :: (waiting ++ taken))) :
    Fresh waiting' taken' (next + 1) := by
  refine ⟨?_, fun n hn => ?_⟩
  · refine hperm.nodup_iff.mpr (nodup_cons.mpr ⟨fun hmem => ?_, h.nodup⟩)
    exact absurd (h.lt next hmem) (Nat.lt_irrefl _)
  · rcases mem_cons.mp (hperm.subset hn) with rfl | hn
    · exact Nat.lt_succ_self _
    · exact Nat.lt_succ_of_lt (h.lt n hn)

/-- The next number is given out in a message. -/
theorem give (h : Fresh waiting taken next) : Fresh (waiting ++ [next]) taken (next + 1) := by
  refine h.of_perm_cons ?_
  rw [append_assoc]
  exact perm_middle

/-- The next number is taken at once. -/
theorem add (h : Fresh waiting taken next) : Fresh waiting (taken ++ [next]) (next + 1) := by
  refine h.of_perm_cons ?_
  rw [← append_assoc]
  exact perm_append_comm

end Fresh

end OpenWorkers
