import Mathlib.Data.List.Nodup

/-!
# Maps in the order of insertion

A finite map that remembers in which order its keys came, as the `Map` of JavaScript does: a key
that is set again keeps its place, a new one goes to the end, and one that was deleted and comes
again is new.  A set in the order of insertion is such a map with values in `Unit`.

The reads are determined by `get?`, and `get?_set` and `get?_delete` say what an update does to
it; the order is only that of `entries`.
-/

universe u v w

namespace OpenWorkers

open List Option

structure InsertionMap (α : Type u) (β : Type v) where
  entries : List (α × β)
  nodup : (entries.map Prod.fst).Nodup

namespace InsertionMap

variable {α : Type u} {β : Type v} {γ : Type w}

@[ext] theorem ext {m m' : InsertionMap α β} (h : m.entries = m'.entries) : m = m' := by
  cases m
  cases m'
  cases h
  rfl

def empty : InsertionMap α β := ⟨[], nodup_nil⟩

def size (m : InsertionMap α β) : Nat := m.entries.length

def keys (m : InsertionMap α β) : List α := m.entries.map Prod.fst

/-- The values are replaced, each in its place. -/
def map (f : β → γ) (m : InsertionMap α β) : InsertionMap α γ :=
  ⟨m.entries.map fun entry => (entry.1, f entry.2), by
    rw [List.map_map]
    exact m.nodup⟩

theorem keys_map (f : β → γ) (m : InsertionMap α β) : (m.map f).keys = m.keys := by
  rw [keys, map, List.map_map]
  rfl

variable [DecidableEq α] (m : InsertionMap α β) (key : α) (value : β)

def get? : Option β := m.entries.lookup key

def has : Bool := (m.get? key).isSome

def delete : InsertionMap α β :=
  ⟨m.entries.filter fun entry => entry.1 ≠ key, m.nodup.sublist (filter_sublist.map _)⟩

variable {m key}

theorem get?_eq_some_iff : m.get? key = some value ↔ (key, value) ∈ m.entries := by
  obtain ⟨entries, nodup⟩ := m
  rw [get?]
  induction entries with
  | nil => exact iff_of_false nofun not_mem_nil
  | cons entry entries ih =>
      obtain ⟨k, v⟩ := entry
      obtain ⟨hnotMem, nodup⟩ := nodup_cons.mp nodup
      rw [lookup_cons, mem_cons]
      by_cases hkey : key = k
      · subst hkey
        simp only [beq_self_eq_true]
        constructor
        · rintro ⟨⟩
          exact .inl rfl
        · rintro (⟨⟨⟩⟩ | hmem)
          · rfl
          · exact absurd (List.mem_map_of_mem hmem) hnotMem
      · simp only [beq_false_of_ne hkey, ih nodup]
        refine (or_iff_right ?_).symm
        rintro ⟨⟩
        exact hkey rfl

theorem has_iff_mem_keys : m.has key = true ↔ key ∈ m.keys := by
  rw [has, isSome_iff_exists, keys, List.mem_map]
  constructor
  · rintro ⟨value, h⟩
    exact ⟨(key, value), (get?_eq_some_iff value).mp h, rfl⟩
  · rintro ⟨⟨_, value⟩, h, rfl⟩
    exact ⟨value, (get?_eq_some_iff value).mpr h⟩

variable (m key)

/-- The entries with the value under a key replaced. -/
def replace : InsertionMap α β :=
  ⟨m.entries.map fun entry => (entry.1, if entry.1 = key then value else entry.2), by
    rw [List.map_map]
    exact m.nodup⟩

/-- A new key goes to the end. -/
def append (h : m.has key = false) : InsertionMap α β :=
  ⟨m.entries ++ [(key, value)], by
    rw [map_append]
    refine m.nodup.append (nodup_singleton key) ?_
    rw [map_singleton, disjoint_singleton]
    intro hmem
    rw [has_iff_mem_keys.mpr hmem] at h
    cases h⟩

def set : InsertionMap α β :=
  if h : m.has key = false then m.append key value h else m.replace key value

variable {m key value} {other : α}

@[simp] theorem get?_empty : (empty : InsertionMap α β).get? key = none := rfl

theorem get?_replace :
    (m.replace key value).get? other = if other = key then (m.get? key).map fun _ => value
      else m.get? other := by
  ext b
  rw [get?_eq_some_iff, replace, List.mem_map]
  split
  next hkey =>
    subst hkey
    rw [map_eq_some_iff]
    constructor
    · rintro ⟨⟨k, v⟩, hmem, hentry⟩
      obtain ⟨rfl, rfl⟩ := Prod.mk.inj hentry
      exact ⟨v, (get?_eq_some_iff v).mpr hmem, (if_pos rfl).symm⟩
    · rintro ⟨v, hget, rfl⟩
      exact ⟨(other, v), (get?_eq_some_iff v).mp hget, Prod.ext rfl (if_pos rfl)⟩
  next hkey =>
    rw [get?_eq_some_iff]
    constructor
    · rintro ⟨⟨k, v⟩, hmem, hentry⟩
      obtain ⟨rfl, rfl⟩ := Prod.mk.inj hentry
      rwa [if_neg hkey]
    · intro hmem
      exact ⟨(other, b), hmem, Prod.ext rfl (if_neg hkey)⟩

theorem get?_append {h : m.has key = false} :
    (m.append key value h).get? other = if other = key then some value else m.get? other := by
  have hnone : m.get? key = none := not_isSome_iff_eq_none.mp (by rw [← has, h]; exact nofun)
  ext b
  rw [get?_eq_some_iff, append, mem_append, mem_singleton, ← get?_eq_some_iff]
  split
  next hkey =>
    subst hkey
    rw [hnone]
    constructor
    · rintro (⟨⟨⟩⟩ | hentry)
      rw [(Prod.mk.inj hentry).2]
    · rintro ⟨⟩
      exact .inr rfl
  next hkey =>
    refine or_iff_left ?_
    intro hentry
    exact hkey (Prod.mk.inj hentry).1

@[simp] theorem get?_set :
    (m.set key value).get? other = if other = key then some value else m.get? other := by
  rw [set]
  split
  next h => exact get?_append
  next h =>
    rw [get?_replace]
    obtain ⟨v, hv⟩ := isSome_iff_exists.mp (eq_true_of_ne_false h)
    rw [hv, map_some]

@[simp] theorem get?_delete :
    (m.delete key).get? other = if other = key then none else m.get? other := by
  ext b
  rw [get?_eq_some_iff, delete, mem_filter, decide_eq_true_iff]
  split
  next hkey => exact iff_of_false (fun h => h.2 hkey) nofun
  next hkey => exact (and_iff_left hkey).trans (get?_eq_some_iff b).symm

@[simp] theorem has_empty : (empty : InsertionMap α β).has key = false := rfl

@[simp] theorem has_set : (m.set key value).has other = (decide (other = key) || m.has other) := by
  rw [has, get?_set]
  split
  next hkey => rw [decide_eq_true hkey, Bool.true_or, isSome_some]
  next hkey => rw [decide_eq_false hkey, Bool.false_or, has]

@[simp] theorem has_delete :
    (m.delete key).has other = (!decide (other = key) && m.has other) := by
  rw [has, get?_delete]
  split
  next hkey => rw [decide_eq_true hkey, Bool.not_true, Bool.false_and, isSome_none]
  next hkey => rw [decide_eq_false hkey, Bool.not_false, Bool.true_and, has]

theorem map_set (f : β → γ) : (m.set key value).map f = (m.map f).set key (f value) := by
  have hhas : (m.map f).has key = m.has key := by
    rw [Bool.eq_iff_iff, has_iff_mem_keys, has_iff_mem_keys, keys_map]
  rw [set, set]
  ext1
  split
  next h =>
    rw [dif_pos (hhas.trans h)]
    exact map_append
  next h =>
    rw [dif_neg (hhas ▸ h)]
    simp only [replace, map, List.map_map]
    refine map_congr_left fun entry _ => Prod.ext rfl ?_
    exact apply_ite f (entry.1 = key) value entry.2

end InsertionMap

end OpenWorkers
