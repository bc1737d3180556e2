import Mathlib.Data.List.Basic
import Mathlib.Data.List.Enum
import Mathlib.Data.List.Perm.Basic
import Mathlib.Data.List.Perm.Subperm

/-!
# Positions of a list

What changing a list at given positions does to its elements.

Removing positions one at a time moves the elements behind them, so a program that has
computed an increasing list of positions removes them from the last to the first.
`List.foldl_eraseIdx_reverse` says that this removes exactly the elements at those
positions.  `List.modify_perm` says that changing the element at one position leaves the
others as they are, and the lemmas `of_getElem?_*` tell the changed element from the others.
-/

namespace List

variable {α : Type*}

/-- Removals behind the head leave the head alone. -/
theorem foldl_eraseIdx_cons (x : α) (xs : List α) (k : Nat) (is : List Nat)
    (h : ∀ i ∈ is, k < i) :
    is.foldl (fun l i => l.eraseIdx (i - k)) (x :: xs) =
      x :: is.foldl (fun l i => l.eraseIdx (i - (k + 1))) xs := by
  induction is generalizing xs with
  | nil => rfl
  | cons i is ih =>
      have hi : k < i := h i mem_cons_self
      have hsub : i - k = (i - (k + 1)) + 1 := by omega
      rw [foldl_cons, foldl_cons, hsub, eraseIdx_cons_succ]
      exact ih _ fun j hj => h j (mem_cons_of_mem i hj)

theorem foldl_eraseIdx_reverse_from (l : List α) (k : Nat) (is : List Nat)
    (hsorted : is.Pairwise (· < ·)) (hk : ∀ i ∈ is, k ≤ i) :
    is.reverse.foldl (fun l i => l.eraseIdx (i - k)) l =
      ((l.zipIdx k).filter fun p => p.2 ∉ is).map Prod.fst := by
  induction l generalizing k is with
  | nil =>
      suffices h : ∀ js : List Nat, js.foldl (fun l i => l.eraseIdx (i - k)) ([] : List α) = [] by
        simp [h]
      intro js
      induction js with
      | nil => rfl
      | cons j js ih => simpa using ih
  | cons x xs ih =>
      rw [zipIdx_cons]
      -- The positions are increasing and at least `k`, so only the first can be `k`.
      by_cases hmem : k ∈ is
      · obtain ⟨js, rfl⟩ : ∃ js, is = k :: js := by
          cases is with
          | nil => cases hmem
          | cons i js =>
              rcases mem_cons.mp hmem with rfl | hjs
              · exact ⟨js, rfl⟩
              · have := hk i mem_cons_self
                have := rel_of_pairwise_cons hsorted hjs
                omega
        have hjs : ∀ i ∈ js, k < i := fun i hi => rel_of_pairwise_cons hsorted hi
        rw [reverse_cons, foldl_append,
          foldl_eraseIdx_cons x xs k js.reverse (by simpa using hjs)]
        simp only [foldl_cons, foldl_nil, Nat.sub_self, eraseIdx_cons_zero]
        rw [ih (k + 1) js hsorted.of_cons hjs, filter_cons_of_neg (by simp)]
        congr 1
        apply filter_congr
        rintro ⟨y, j⟩ hy
        have hj : k + 1 ≤ j := le_snd_of_mem_zipIdx hy
        have hne : j ≠ k := by omega
        simp [hne]
      · have hlt : ∀ i ∈ is, k < i := by
          intro i hi
          have := hk i hi
          have : i ≠ k := fun e => hmem (e ▸ hi)
          omega
        rw [foldl_eraseIdx_cons x xs k is.reverse (by simpa using hlt),
          ih (k + 1) is hsorted hlt, filter_cons_of_pos (by simpa using hmem), map_cons]

/-- Removing increasing positions from the last to the first removes exactly the elements
at those positions. -/
theorem foldl_eraseIdx_reverse (l : List α) (is : List Nat) (hsorted : is.Pairwise (· < ·)) :
    is.reverse.foldl List.eraseIdx l = (l.zipIdx.filter fun p => p.2 ∉ is).map Prod.fst := by
  simpa using foldl_eraseIdx_reverse_from l 0 is hsorted fun _ _ => Nat.zero_le _

/-- Removing positions that are all in the list shortens it by at least their number. -/
theorem length_filter_zipIdx_notMem_le (l : List α) {is : List Nat} (hnodup : is.Nodup)
    (hlt : ∀ i ∈ is, i < l.length) :
    (l.zipIdx.filter fun p => p.2 ∉ is).length + is.length ≤ l.length := by
  have hsub : is ⊆ (l.zipIdx.filter fun p => p.2 ∈ is).map Prod.snd := by
    intro i hi
    refine mem_map.mpr ⟨(l.get ⟨i, hlt i hi⟩, i), mem_filter.mpr ⟨?_, by simpa using hi⟩, rfl⟩
    exact mem_zipIdx_iff_getElem?.mpr (getElem?_eq_getElem (hlt i hi))
  have hle := (hnodup.subperm hsub).length_le
  have hsplit := length_eq_length_filter_add (l := l.zipIdx) fun p => decide (p.2 ∈ is)
  simp only [length_zipIdx, length_map, ← decide_not] at hle hsplit
  omega

/-- Changing the element at a position leaves the other elements as they are. -/
theorem modify_perm {l : List α} {i : Nat} {a : α} (h : l[i]? = some a) (f : α → α) :
    l.Perm (a :: l.eraseIdx i) ∧ (l.modify i f).Perm (f a :: l.eraseIdx i) := by
  obtain ⟨hlt, rfl⟩ := getElem?_eq_some_iff.mp h
  refine ⟨(getElem_cons_eraseIdx_perm hlt).symm, ?_⟩
  rw [modify_eq_set_get f hlt]
  exact set_perm_cons_eraseIdx hlt _

theorem modify_concat (l : List α) (a : α) (f : α → α) :
    (l ++ [a]).modify l.length f = l ++ [f a] := by
  induction l with
  | nil => rfl
  | cons x l ih => exact congrArg (x :: ·) ih

theorem mem_iff_mem_eraseIdx {l : List α} {i : Nat} {a : α} (h : l[i]? = some a) {x : α} :
    x ∈ l ↔ x = a ∨ x ∈ l.eraseIdx i := by
  rw [(modify_perm h id).1.mem_iff, mem_cons]

theorem mem_modify_iff {l : List α} {i : Nat} {a : α} (h : l[i]? = some a) {f : α → α} {x : α} :
    x ∈ l.modify i f ↔ x = f a ∨ x ∈ l.eraseIdx i := by
  rw [(modify_perm h f).2.mem_iff, mem_cons]

/-- A change keeps an element with a property if the changed one did not have it, or still has
it. -/
theorem exists_mem_modify {l : List α} {i : Nat} {a : α} (h : l[i]? = some a) {f : α → α}
    {Q : α → Prop} (hf : Q a → Q (f a)) (hQ : ∃ x ∈ l, Q x) : ∃ x ∈ l.modify i f, Q x := by
  obtain ⟨x, hx, hQx⟩ := hQ
  rcases (mem_iff_mem_eraseIdx h).mp hx with rfl | hx
  · exact ⟨f x, (mem_modify_iff h).mpr (.inl rfl), hf hQx⟩
  · exact ⟨x, (mem_modify_iff h).mpr (.inr hx), hQx⟩

/-- A change that a function does not see leaves the values of the function as they are. -/
theorem map_modify_of_eq {β : Type*} {l : List α} {i : Nat} {f : α → α} {g : α → β}
    (h : ∀ x, l[i]? = some x → g (f x) = g x) : (l.modify i f).map g = l.map g := by
  apply ext_getElem?
  intro j
  rw [getElem?_map, getElem?_map, getElem?_modify]
  by_cases heq : i = j
  · subst heq
    cases hx : l[i]? with
    | none => rfl
    | some x => simpa using h x hx
  · simp [heq]

/-- What holds of all elements, and of the changed one, holds of all elements after a change. -/
theorem forall_mem_modify {l : List α} {i : Nat} {f : α → α} {Q : α → Prop}
    (h : ∀ x ∈ l, Q x) (hi : ∀ x, l[i]? = some x → Q (f x)) : ∀ x ∈ l.modify i f, Q x := by
  intro x hx
  obtain ⟨j, hj⟩ := mem_iff_getElem?.mp hx
  rw [getElem?_modify] at hj
  obtain ⟨y, hy, rfl⟩ := Option.map_eq_some_iff.mp hj
  by_cases heq : i = j
  · subst heq
    simpa using hi y hy
  · simpa [heq] using h y (mem_of_getElem? hy)

/-- After a change of an element that has a property, all elements have it exactly if all had it
and the changed one has it. -/
theorem forall_mem_modify_iff {l : List α} {i : Nat} {a : α} {f : α → α} {Q : α → Prop}
    (h : l[i]? = some a) (ha : Q a) :
    (∀ x ∈ l.modify i f, Q x) ↔ (∀ x ∈ l, Q x) ∧ Q (f a) := by
  obtain ⟨hl, hmodify⟩ := modify_perm h f
  constructor
  · intro hall
    have hall' := forall_mem_cons.mp fun x hx => hall x (hmodify.symm.subset hx)
    refine ⟨fun x hx => ?_, hall'.1⟩
    rcases mem_cons.mp (hl.subset hx) with rfl | hx
    · exact ha
    · exact hall'.2 x hx
  · rintro ⟨hall, hf⟩
    refine forall_mem_modify hall fun x hx => ?_
    cases h.symm.trans hx
    exact hf

/-! ## What is at a position after a change -/

theorem of_getElem?_set {l : List α} {i j : Nat} {a b : α} (h : (l.set i a)[j]? = some b) :
    j = i ∧ b = a ∨ j ≠ i ∧ l[j]? = some b := by
  by_cases heq : i = j
  · subst heq
    rw [getElem?_set_self (by simpa using (getElem?_eq_some_iff.mp h).1)] at h
    exact .inl ⟨rfl, (Option.some.inj h).symm⟩
  · rw [getElem?_set_ne heq] at h
    exact .inr ⟨Ne.symm heq, h⟩

theorem of_getElem?_modify {l : List α} {i j : Nat} {f : α → α} {b : α}
    (h : (l.modify i f)[j]? = some b) :
    (j = i ∧ ∃ a, l[i]? = some a ∧ b = f a) ∨ j ≠ i ∧ l[j]? = some b := by
  rw [getElem?_modify] at h
  obtain ⟨a, ha, rfl⟩ := Option.map_eq_some_iff.mp h
  by_cases heq : i = j
  · subst heq
    exact .inl ⟨rfl, a, ha, if_pos rfl⟩
  · rw [if_neg heq]
    exact .inr ⟨Ne.symm heq, ha⟩

theorem of_getElem?_concat {l : List α} {j : Nat} {a b : α} (h : (l ++ [a])[j]? = some b) :
    j = l.length ∧ b = a ∨ l[j]? = some b := by
  rw [getElem?_append] at h
  split at h
  · exact .inr h
  · next hge =>
    have hlt := (getElem?_eq_some_iff.mp h).1
    rw [length_singleton] at hlt
    exact .inl ⟨by omega, mem_singleton.mp (mem_of_getElem? h)⟩

/-- The last element has all others before it. -/
theorem take_of_getElem?_concat {l : List α} {j : Nat} {a b : α} (h : (l ++ [a])[j]? = some b) :
    b = a ∧ (l ++ [a]).take j = l ∨ l[j]? = some b ∧ (l ++ [a]).take j = l.take j := by
  rcases of_getElem?_concat h with ⟨rfl, hb⟩ | h
  · exact .inl ⟨hb, take_left⟩
  · exact .inr ⟨h, take_append_of_le_length (Nat.le_of_lt (getElem?_eq_some_iff.mp h).1)⟩

/-! ## Counting what a function finds -/

section Count

variable {β : Type*} [BEq β]

theorem count_filterMap_cons (f : α → Option β) (x : α) (l : List α) (y : β) :
    ((x :: l).filterMap f).count y = (f x).toList.count y + (l.filterMap f).count y := by
  cases h : f x <;> simp [h, count_cons, Nat.add_comm]

theorem count_filterMap_eraseIdx (f : α → Option β) {l : List α} {k : Nat} {x : α}
    (h : l[k]? = some x) (y : β) :
    (l.filterMap f).count y = (f x).toList.count y + ((l.eraseIdx k).filterMap f).count y := by
  obtain ⟨hlt, rfl⟩ := getElem?_eq_some_iff.mp h
  rw [((getElem_cons_eraseIdx_perm hlt).symm.filterMap f).count_eq, count_filterMap_cons]

end Count

end List
