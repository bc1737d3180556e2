import Mathlib.Data.List.DropRight
import Mathlib.Data.List.Infix

/-!
# Reading a list from its front

What a reader of a textual format does: take a fixed text off the front, take what belongs to a
field, look for the delimiter that ends it.
-/

universe u

namespace List

variable {α : Type u}

theorem takeWhile_append_stop {p : α → Bool} {l : List α} {a : α} (hl : ∀ x ∈ l, p x = true)
    (ha : p a = false) (rest : List α) : (l ++ a :: rest).takeWhile p = l := by
  rw [takeWhile_append_of_pos hl, takeWhile_cons_of_neg (by rw [ha]; exact Bool.false_ne_true),
    append_nil]

theorem dropWhile_append_stop {p : α → Bool} {l : List α} {a : α} (hl : ∀ x ∈ l, p x = true)
    (ha : p a = false) (rest : List α) : (l ++ a :: rest).dropWhile p = a :: rest := by
  rw [dropWhile_append_of_pos hl, dropWhile_cons_of_neg (by rw [ha]; exact Bool.false_ne_true)]

/-- What a list begins with after `dropWhile` has nothing to drop. -/
theorem dropWhile_initial {p : α → Bool} {l l' : List α} (h : l' <+: l.dropWhile p) :
    l'.dropWhile p = l' := by
  rw [dropWhile_eq_self_iff]
  intro hpos
  rw [h.getElem hpos]
  exact dropWhile_get_zero_not p l (hpos.trans_le h.length_le)

/-- Nothing is dropped from a list with more behind it, if nothing was before. -/
theorem dropWhile_append_of_self {p : α → Bool} {l : List α} {a : α} (hl : l.dropWhile p = l)
    (ha : p a = false) (rest : List α) : (l ++ a :: rest).dropWhile p = l ++ a :: rest := by
  rw [dropWhile_eq_self_iff] at hl ⊢
  intro hpos
  cases l with
  | nil => simp [ha]
  | cons x l => exact hl (Nat.succ_pos _)

theorem dropWhile_eq_self_iff_head? {p : α → Bool} {l : List α} :
    l.dropWhile p = l ↔ ∀ a ∈ l.head?, p a = false := by
  cases l with
  | nil => exact iff_of_true rfl fun a ha => absurd ha (Option.not_mem_none a)
  | cons a l =>
      rw [dropWhile_eq_self_iff]
      simp

theorem rdropWhile_eq_self_iff_getLast? {p : α → Bool} {l : List α} :
    l.rdropWhile p = l ↔ ∀ a ∈ l.getLast?, p a = false := by
  rw [← head?_reverse, ← dropWhile_eq_self_iff_head?, rdropWhile, reverse_eq_iff]

/-- Every element of a list has its image. -/
theorem mapM_eq_some_iff_map {β : Type u} {f : α → Option β} {l : List α} {l' : List β} :
    l.mapM f = some l' ↔ l.map f = l'.map some := by
  induction l generalizing l' with
  | nil => cases l' <;> simp
  | cons a l ih =>
      rw [mapM_cons, map_cons]
      constructor
      · intro h
        obtain ⟨b, hb, h⟩ := Option.bind_eq_some_iff.mp h
        obtain ⟨l'', hl, heq⟩ := Option.bind_eq_some_iff.mp h
        cases heq
        rw [hb, ih.mp hl, map_cons]
      · intro h
        cases l' with
        | nil => cases h
        | cons b l' =>
            rw [map_cons, cons.injEq] at h
            rw [h.1, ih.mpr h.2]
            rfl

variable [DecidableEq α]

theorem dropPrefix?_eq_some {front data rest : List α} :
    data.dropPrefix? front = some rest ↔ data = front ++ rest := by
  rw [dropPrefix?_eq_some_iff]
  constructor
  · rintro ⟨front', rfl, heq⟩
    rw [eq_of_beq heq]
  · rintro rfl
    exact ⟨front, rfl, beq_self_eq_true front⟩

theorem dropPrefix?_append_self (front rest : List α) :
    (front ++ rest).dropPrefix? front = some rest :=
  dropPrefix?_eq_some.mpr rfl

theorem dropPrefix?_cons_of_ne {a b : α} (h : a ≠ b) (front data : List α) :
    (b :: data).dropPrefix? (a :: front) = none := by
  cases hdrop : (b :: data).dropPrefix? (a :: front) with
  | none => rfl
  | some rest =>
      cases dropPrefix?_eq_some.mp hdrop
      exact absurd rfl h

/-- What stands before the first occurrence of a delimiter, and what after it. -/
def splitFirst : List α → List α → Option (List α × List α)
  | [], delimiter => (([] : List α).dropPrefix? delimiter).map ([], ·)
  | a :: data, delimiter =>
    match (a :: data).dropPrefix? delimiter with
    | some rest => some ([], rest)
    | none => (data.splitFirst delimiter).map fun (before, after) => (a :: before, after)

/-- A delimiter whose first element does not come again in it cannot begin in the content and end
in the delimiter after it, so the first occurrence is the one that was put there. -/
theorem splitFirst_append {d : α} {delimiter content : List α} (hd : d ∉ delimiter)
    (hcontent : ¬ (d :: delimiter) <:+: content) (rest : List α) :
    (content ++ (d :: delimiter ++ rest)).splitFirst (d :: delimiter) = some (content, rest) := by
  induction content with
  | nil => rw [nil_append, cons_append, splitFirst, ← cons_append, dropPrefix?_append_self]
  | cons a content ih =>
      have hnone : (a :: (content ++ (d :: delimiter ++ rest))).dropPrefix? (d :: delimiter) =
          none := by
        cases hdrop : (a :: (content ++ (d :: delimiter ++ rest))).dropPrefix? (d :: delimiter) with
        | none => rfl
        | some rest' =>
            have heq : (a :: content) ++ (d :: delimiter ++ rest) = (d :: delimiter) ++ rest' :=
              dropPrefix?_eq_some.mp hdrop
            rcases append_eq_append_iff.mp heq with ⟨more, hdelim, hrest⟩ | ⟨more, hcont, -⟩
            · -- the occurrence ends in the delimiter, whose first element it then has twice
              cases more with
              | nil =>
                  rw [append_nil] at hdelim
                  exact absurd (hdelim ▸ infix_rfl) hcontent
              | cons b more =>
                  have hb : d = b := (cons.inj hrest).1
                  have htail : delimiter = content ++ b :: more := (cons.inj hdelim).2
                  refine absurd ?_ hd
                  rw [htail, hb]
                  exact mem_append_right content mem_cons_self
            · refine absurd ?_ hcontent
              rw [hcont]
              exact (prefix_append _ _).isInfix
      have hcontent' : ¬ (d :: delimiter) <:+: content := fun hinfix =>
        hcontent (infix_cons hinfix)
      rw [cons_append, splitFirst, hnone, ih hcontent']
      rfl

end List
