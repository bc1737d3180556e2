import Mathlib.Data.List.Basic

/-!
# Bounded channels

A channel for at most `capacity` items, first in, first out.  An item takes a permit as long as
it is in the channel, and a sender that waits for several permits holds those it has got so far.
What is neither taken nor held is `free`.

A step of the channel is one item or one permit.  A reservation of `k` permits is `k` steps, with
anything in between.
-/

universe u

namespace OpenWorkers

structure BoundedChannel (capacity : Nat) (α : Type u) where
  buffer : List α
  /-- The permits of reservations. -/
  held : Nat
  fits : buffer.length + held ≤ capacity

namespace BoundedChannel

variable {capacity : Nat} {α : Type u} (c : BoundedChannel capacity α)

def empty : BoundedChannel capacity α := ⟨[], 0, Nat.zero_le _⟩

/-- The permits that nobody has. -/
def free : Nat := capacity - (c.buffer.length + c.held)

/-- An item goes into the channel, if there is a free permit. -/
def trySend (a : α) : Option (BoundedChannel capacity α) :=
  if h : 0 < c.free then
    some ⟨c.buffer ++ [a], c.held, by
      rw [free] at h
      rw [List.length_append, List.length_singleton]
      omega⟩
  else
    none

/-- The first item leaves the channel, and its permit is free again. -/
def receive : Option (α × BoundedChannel capacity α) :=
  match c with
  | ⟨[], _, _⟩ => none
  | ⟨a :: buffer, held, fits⟩ =>
    some (a, ⟨buffer, held, by
      rw [List.length_cons] at fits
      omega⟩)

/-- A reservation gets a permit. -/
def reserve : Option (BoundedChannel capacity α) :=
  if h : 0 < c.free then
    some ⟨c.buffer, c.held + 1, by
      rw [free] at h
      omega⟩
  else
    none

/-- A reservation gives back its permits. -/
def release (n : Nat) : BoundedChannel capacity α :=
  ⟨c.buffer, c.held - n, Nat.le_trans (Nat.add_le_add_left (Nat.sub_le _ _) _) c.fits⟩

/-- The receiver is gone, with all that was in the channel. -/
def drop : BoundedChannel capacity α :=
  ⟨[], c.held, Nat.le_trans (Nat.add_le_add_right (Nat.zero_le _) _) c.fits⟩

variable {c} {c' : BoundedChannel capacity α} {a : α}

@[simp] theorem release_buffer (n : Nat) : (c.release n).buffer = c.buffer := rfl

@[simp] theorem release_held (n : Nat) : (c.release n).held = c.held - n := rfl

theorem free_pos : 0 < c.free ↔ c.buffer.length + c.held < capacity := Nat.sub_pos_iff_lt

theorem isSome_trySend : (c.trySend a).isSome ↔ 0 < c.free := by
  rw [trySend]
  split
  · next h => exact iff_of_true rfl h
  · next h => exact iff_of_false nofun h

theorem of_trySend (h : c.trySend a = some c') :
    c'.buffer = c.buffer ++ [a] ∧ c'.held = c.held := by
  rw [trySend] at h
  split at h
  · cases h
    exact ⟨rfl, rfl⟩
  · cases h

theorem of_receive (h : c.receive = some (a, c')) :
    c.buffer = a :: c'.buffer ∧ c'.held = c.held := by
  obtain ⟨buffer, held, fits⟩ := c
  cases buffer with
  | nil => cases h
  | cons b buffer =>
      cases h
      exact ⟨rfl, rfl⟩

theorem isSome_receive : c.receive.isSome ↔ c.buffer ≠ [] := by
  obtain ⟨buffer, held, fits⟩ := c
  cases buffer with
  | nil => exact iff_of_false nofun fun h => h rfl
  | cons b buffer => exact iff_of_true rfl nofun

theorem isSome_reserve : c.reserve.isSome ↔ 0 < c.free := by
  rw [reserve]
  split
  · next h => exact iff_of_true rfl h
  · next h => exact iff_of_false nofun h

theorem of_reserve (h : c.reserve = some c') :
    c'.buffer = c.buffer ∧ c'.held = c.held + 1 := by
  rw [reserve] at h
  split at h
  · cases h
    exact ⟨rfl, rfl⟩
  · cases h

end BoundedChannel

end OpenWorkers
