import OpenWorkers.Lib.Erase
import Mathlib.Algebra.BigOperators.Group.Finset.Piecewise
import Mathlib.Algebra.BigOperators.Group.List.Basic

/-!
# Sums over a list

What the elements of a list amount to, where one of them is added, changes or goes; and what
an entry does to the books of many accounts.
-/

universe u v

namespace List

variable {α : Type u} {M : Type v} {l : List α} {i : Nat} {a : α}

section Monoid

variable [AddCommMonoid M]

theorem sum_map_concat (f : α → M) (l : List α) (a : α) :
    ((l ++ [a]).map f).sum = (l.map f).sum + f a := by
  rw [map_append, sum_append, map_singleton, sum_singleton]

/-- An element apart. -/
theorem sum_map_eraseIdx (f : α → M) (h : l[i]? = some a) :
    (l.map f).sum = f a + ((l.eraseIdx i).map f).sum := by
  rw [((modify_perm h id).1.map f).sum_eq, map_cons, sum_cons]

theorem sum_map_modify (f : α → M) (g : α → α) (h : l[i]? = some a) :
    ((l.modify i g).map f).sum = f (g a) + ((l.eraseIdx i).map f).sum := by
  rw [((modify_perm h g).2.map f).sum_eq, map_cons, sum_cons]

/-- A change that does not change what the element amounts to. -/
theorem sum_map_modify_of_eq {f : α → M} {g : α → α} (hg : ∀ x, l[i]? = some x → f (g x) = f x) :
    ((l.modify i g).map f).sum = (l.map f).sum := by
  rw [map_modify_of_eq hg]

/-- A change by which the element amounts to `d` more. -/
theorem sum_map_modify_add {f : α → M} {g : α → α} {d : M} (h : l[i]? = some a)
    (hg : f (g a) = f a + d) : ((l.modify i g).map f).sum = (l.map f).sum + d := by
  rw [sum_map_modify f g h, sum_map_eraseIdx f h, hg, add_right_comm]

end Monoid

theorem sum_map_eraseIdx_eq_add_neg [AddCommGroup M] (f : α → M) (h : l[i]? = some a) :
    ((l.eraseIdx i).map f).sum = (l.map f).sum + -f a := by
  rw [sum_map_eraseIdx f h, add_comm (f a), add_neg_cancel_right]

end List

namespace OpenWorkers.Ledger

variable {ι : Type u} {M : Type v} [DecidableEq ι]

section Monoid

variable [AddCommMonoid M]

/-- An entry in the books of many accounts: `d` for the account, if there is one. -/
def entry (account : Option ι) (d : M) (i : ι) : M := if account = some i then d else 0

@[simp] theorem entry_none (d : M) (i : ι) : entry none d i = 0 := rfl

@[simp] theorem entry_zero (account : Option ι) (i : ι) : entry account (0 : M) i = 0 := ite_self 0

theorem entry_some (account : ι) (d : M) (i : ι) :
    entry (some account) d i = if account = i then d else 0 := by
  simp only [entry, Option.some.injEq]

theorem entry_add (account : Option ι) (d e : M) (i : ι) :
    entry account (d + e) i = entry account d i + entry account e i := by
  unfold entry
  split
  · rfl
  · rw [add_zero]

/-- Entries are the same if they are for the same account, or of nothing. -/
theorem entry_eq_entry_iff {x y : Option ι} {d : M} :
    (entry x d : ι → M) = entry y d ↔ d = 0 ∨ x = y := by
  constructor
  · intro h
    by_cases hd : d = 0
    · exact .inl hd
    · refine .inr (Option.ext fun i => ?_)
      have hi := congrFun h i
      simp only [entry] at hi
      split at hi <;> split at hi <;> simp_all
  · rintro (rfl | rfl)
    · funext i
      rw [entry_zero, entry_zero]
    · rfl

/-- An entry made in the books. -/
theorem update_add_eq (f : ι → M) (account : ι) (d : M) :
    Function.update f account (f account + d) = f + entry (some account) d := by
  funext i
  rw [Pi.add_apply, entry_some]
  by_cases hi : account = i
  · subst hi
    rw [Function.update_self, if_pos rfl]
  · rw [Function.update_of_ne (Ne.symm hi), if_neg hi, add_zero]

/-- An account is cleared, and what was in it is entered again. -/
theorem update_zero_add_entry (f : ι → M) (account : ι) :
    Function.update f account 0 + entry (some account) (f account) = f := by
  funext i
  rw [Pi.add_apply, entry_some]
  by_cases hi : account = i
  · subst hi
    rw [Function.update_self, if_pos rfl, zero_add]
  · rw [Function.update_of_ne (Ne.symm hi), if_neg hi, add_zero]

theorem sum_entry [Fintype ι] (account : ι) (d : M) : ∑ i, entry (some account) d i = d := by
  simp only [entry_some, Finset.sum_ite_eq, Finset.mem_univ, if_true]

end Monoid

theorem entry_neg [AddCommGroup M] (account : Option ι) (d : M) (i : ι) :
    entry account (-d) i = -entry account d i := by
  unfold entry
  split
  · rfl
  · rw [neg_zero]

end OpenWorkers.Ledger
