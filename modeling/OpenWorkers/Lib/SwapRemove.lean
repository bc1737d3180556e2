import Mathlib.Data.List.Infix
import Mathlib.Data.List.Perm.Subperm

/-!
# Removal that does not keep the order

`Vec::swap_remove`: the last element takes the place of the one that goes.  What is left is the
same list up to order, and what stands before the position is left as it is.
-/

universe u

namespace OpenWorkers

open List

variable {α : Type u} {l : List α} {index : Nat} {x : α}

def swapRemove (l : List α) (index : Nat) : List α :=
  match l.getLast? with
  | none => []
  | some last => (l.set index last).dropLast

/-- `swap_remove` takes out the element at the position, and nothing else. -/
theorem swapRemove_perm (h : l[index]? = some x) : l.Perm (x :: swapRemove l index) := by
  obtain ⟨hlt, rfl⟩ := List.getElem?_eq_some_iff.mp h
  obtain rfl | ⟨init, last, rfl⟩ := l.eq_nil_or_concat'
  · exact absurd hlt (Nat.not_lt_zero index)
  simp only [swapRemove, getLast?_concat]
  -- Either the last element itself goes, or it takes the place of the one that goes.
  by_cases hinit : index < init.length
  · rw [set_append_left _ _ hinit, dropLast_concat, getElem_append_left hinit]
    calc
      (init ++ [last]).Perm (last :: init) := perm_append_singleton last init
      _ |>.Perm (last :: init[index] :: init.eraseIdx index) :=
        (getElem_cons_eraseIdx_perm hinit).symm.cons last
      _ |>.Perm (init[index] :: last :: init.eraseIdx index) := List.Perm.swap _ _ _
      _ |>.Perm (init[index] :: init.set index last) :=
        (set_perm_cons_eraseIdx hinit last).symm.cons _
  · have hlast : index = init.length := by
      rw [length_append, length_singleton] at hlt
      omega
    subst hlast
    rw [set_append_right _ _ le_rfl, Nat.sub_self]
    simp

theorem length_swapRemove (h : l[index]? = some x) : (swapRemove l index).length + 1 = l.length :=
  (swapRemove_perm h).length_eq.symm

/-- What stands before the position stays where it is. -/
theorem take_swapRemove (h : index < l.length) :
    (swapRemove l index).take index = l.take index := by
  have hne : l ≠ [] := ne_nil_of_length_pos (Nat.zero_lt_of_lt h)
  rw [swapRemove, getLast?_eq_some_getLast hne]
  show (l.set index _).dropLast.take index = l.take index
  rw [dropLast_eq_take, take_take, length_set, Nat.min_eq_left (by omega)]
  exact take_set_of_le (Nat.le_refl index)

theorem mem_of_mem_swapRemove (h : x ∈ swapRemove l index) : x ∈ l := by
  unfold swapRemove at h
  split at h
  · cases h
  · next last hlast =>
      rcases mem_or_eq_of_mem_set (mem_of_mem_dropLast h) with hmem | rfl
      · exact hmem
      · exact mem_of_getLast? hlast

end OpenWorkers
