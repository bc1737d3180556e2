import Mathlib.Data.List.Basic
import Mathlib.Data.List.Pairwise

/-!
# Lists in the order of a key

A list whose elements come in the order of a key is the concatenation of its parts, one for
each value of the key.  This is how "first everything of the first, then everything of the
second, …" is read off a log that was only ever appended to in order.
-/

namespace List

variable {α : Type*} (key : α → Nat)

/-- A list in the order of its keys splits at a bound. -/
theorem filter_lt_append_filter_ge {l : List α} (hsorted : l.Pairwise fun x y => key x ≤ key y)
    (n : Nat) : (l.filter fun x => key x < n) ++ (l.filter fun x => n ≤ key x) = l := by
  induction l with
  | nil => rfl
  | cons x l ih =>
      obtain ⟨hx, hl⟩ := pairwise_cons.mp hsorted
      by_cases hlt : key x < n
      · rw [filter_cons_of_pos (by simpa using hlt), filter_cons_of_neg (by simpa using hlt),
          cons_append, ih hl]
      · have hge : ∀ y ∈ x :: l, n ≤ key y := by
          intro y hy
          rcases mem_cons.mp hy with rfl | hy
          · exact Nat.le_of_not_lt hlt
          · exact Nat.le_trans (Nat.le_of_not_lt hlt) (hx y hy)
        have hnil : (x :: l).filter (fun y => key y < n) = [] :=
          filter_eq_nil_iff.mpr fun y hy => by simpa using hge y hy
        rw [hnil, nil_append]
        exact filter_eq_self.mpr fun y hy => by simpa using hge y hy

/-- A list in the order of its keys is its parts by key, one after the other. -/
theorem eq_flatMap_filter_key {l : List α} (hsorted : l.Pairwise fun x y => key x ≤ key y) {n : Nat}
    (hlt : ∀ x ∈ l, key x < n) : l = (range n).flatMap fun i => l.filter fun x => key x = i := by
  induction n generalizing l with
  | zero => exact eq_nil_iff_forall_not_mem.mpr fun x hx => absurd (hlt x hx) (Nat.not_lt_zero _)
  | succ n ih =>
      have hlow := ih (hsorted.filter fun x => key x < n)
        fun x hx => by simpa using (mem_filter.mp hx).2
      have hparts : ∀ i ∈ range n, ((l.filter fun x => key x < n).filter fun x => key x = i) =
          l.filter fun x => key x = i := by
        intro i hi
        rw [filter_filter]
        refine filter_congr fun x _ => ?_
        have := mem_range.mp hi
        by_cases hkey : key x = i <;> simp [hkey, this]
      have hhigh : (l.filter fun x => n ≤ key x) = l.filter fun x => key x = n := by
        refine filter_congr fun x hx => ?_
        have := hlt x hx
        by_cases hkey : key x = n
        · simp [hkey]
        · simp only [hkey, decide_false, decide_eq_false_iff_not]
          omega
      rw [range_succ, flatMap_append, flatMap_singleton, ← flatMap_congr hparts, ← hlow, ← hhigh]
      exact (filter_lt_append_filter_ge key hsorted n).symm

end List
