import Mathlib.Data.List.Forall2

/-!
# Computations that can fail

What a computation in `Except` that has not failed was made of.
-/

universe u v

namespace OpenWorkers

open List

variable {ε : Type u} {α : Type v} {β : Type v}

theorem map_eq_ok {x : Except ε α} {f : α → β} {b : β} :
    x.map f = .ok b ↔ ∃ a, x = .ok a ∧ f a = b := by
  cases x with
  | error e => exact iff_of_false nofun (by rintro ⟨_, ⟨⟩, _⟩)
  | ok a =>
      constructor
      · rintro ⟨⟩
        exact ⟨a, rfl, rfl⟩
      · rintro ⟨_, ⟨⟩, rfl⟩
        rfl

theorem bind_eq_ok {x : Except ε α} {f : α → Except ε β} {b : β} :
    x.bind f = .ok b ↔ ∃ a, x = .ok a ∧ f a = .ok b := by
  cases x with
  | error e => exact iff_of_false nofun (by rintro ⟨_, ⟨⟩, _⟩)
  | ok a =>
      constructor
      · intro h
        exact ⟨a, rfl, h⟩
      · rintro ⟨_, ⟨⟩, h⟩
        exact h

theorem mapM_eq_ok {l : List α} {f : α → Except ε β} {l' : List β} :
    l.mapM f = .ok l' ↔ List.Forall₂ (fun a b => f a = .ok b) l l' := by
  induction l generalizing l' with
  | nil =>
      rw [mapM_nil, forall₂_nil_left_iff]
      constructor
      · rintro ⟨⟩
        rfl
      · rintro rfl
        rfl
  | cons a l ih =>
      rw [mapM_cons, forall₂_cons_left_iff]
      constructor
      · intro h
        obtain ⟨b, hb, h⟩ := bind_eq_ok.mp h
        obtain ⟨bs, hbs, h⟩ := bind_eq_ok.mp h
        cases h
        exact ⟨b, bs, hb, ih.mp hbs, rfl⟩
      · rintro ⟨b, bs, hb, hbs, rfl⟩
        exact bind_eq_ok.mpr ⟨b, hb, bind_eq_ok.mpr ⟨bs, ih.mpr hbs, rfl⟩⟩

/-- A fold none of whose steps fails, through what is seen of its result. -/
theorem foldlM_eq_ok {γ : Type v} {δ : Type v} {f : γ → α → Except ε γ} {see : γ → δ}
    {g : δ → α → δ} {l : List α} {b c : γ}
    (hf : ∀ a ∈ l, ∀ b c, f b a = .ok c → see c = g (see b) a) (h : l.foldlM f b = .ok c) :
    see c = l.foldl g (see b) := by
  induction l generalizing b with
  | nil =>
      cases h
      rfl
  | cons a l ih =>
      rw [foldlM_cons] at h
      obtain ⟨b', hb', h⟩ := bind_eq_ok.mp h
      rw [foldl_cons, ← hf a mem_cons_self b b' hb']
      exact ih (fun x hx => hf x (mem_cons_of_mem a hx)) h

end OpenWorkers
