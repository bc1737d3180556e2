import OpenWorkers.Pool.Execute
import Mathlib.Data.List.MinMax
import Mathlib.Data.List.Perm.Subperm

/-!
# The cache of an isolate

What the lookup block and the save block of `execute_pinned` do to the contexts that an
isolate caches.  Both move contexts by `swap_remove`, which changes their order, so what is
said of a cache is said up to order: no context appears, none is doubled, and the cache
stays within its bound.
-/

namespace OpenWorkers.Pool

open List PoolPolicy

/-- Each context stays or is put aside. -/
theorem sweep_perm (wanted : ContextKey) (idx : Nat) (cached aside : List CachedContext) :
    ((sweep wanted idx cached aside).2 ++ (sweep wanted idx cached aside).1).Perm
      (aside ++ cached) := by
  fun_induction sweep wanted idx cached aside with
  | case1 idx cached aside h hsuperseded ih =>
      refine ih.trans ?_
      rw [append_assoc]
      exact (swapRemove_perm (getElem?_eq_getElem h)).symm.append_left aside
  | case2 idx cached aside h hkept ih => exact ih
  | case3 idx cached aside h => exact List.Perm.refl _

theorem sweep_subperm (wanted : ContextKey) (cached : List CachedContext) :
    (sweep wanted 0 cached []).1.Subperm cached :=
  (sublist_append_right _ _).subperm.trans (sweep_perm wanted 0 cached []).subperm

namespace TaggedIsolateInner

variable {inner : TaggedIsolateInner} {wanted : ContextKey} {maxReuses : Nat}

/-- A warm hit is a context of the cache with the wanted key that has served fewer than
`maxReuses` events. -/
theorem of_warmHit {index : Nat}
    (h : warmHit (inner.cachedContexts.map fun c => (c.key, c.reuseCount)) wanted maxReuses =
      some index) :
    ∃ context, inner.cachedContexts[index]? = some context ∧ context.key = wanted ∧
      context.reuseCount < maxReuses := by
  obtain ⟨hlt, hp, -⟩ := findIdx?_eq_some_iff_getElem.mp h
  rw [length_map] at hlt
  rw [getElem_map] at hp
  simp only [Bool.and_eq_true, decide_eq_true_eq] at hp
  exact ⟨inner.cachedContexts[index], getElem?_eq_getElem hlt, hp.1, hp.2⟩

/-- **What the lookup does.**  The context it answers and those that stay were in the cache,
and the answered one is fit for reuse. -/
theorem lookup_subperm (inner : TaggedIsolateInner) (wanted : ContextKey) (maxReuses : Nat) :
    ((inner.lookup wanted maxReuses).1.toList ++
        (inner.lookup wanted maxReuses).2.cachedContexts).Subperm inner.cachedContexts ∧
      ∀ context ∈ (inner.lookup wanted maxReuses).1,
        context.key = wanted ∧ context.reuseCount < maxReuses := by
  unfold lookup
  dsimp only
  split
  · exact ⟨sweep_subperm _ _, nofun⟩
  · next index hhit =>
      obtain ⟨context, hget, hkey, hreuses⟩ := of_warmHit hhit
      rw [hget]
      refine ⟨?_, ?_⟩
      · refine List.Subperm.trans ?_ (swapRemove_perm hget).symm.subperm
        exact (subperm_cons context).mpr (sweep_subperm _ _)
      · rintro _ ⟨⟩
        exact ⟨hkey, hreuses⟩

theorem maxCached_lookup : (inner.lookup wanted maxReuses).2.maxCached = inner.maxCached := by
  unfold lookup
  dsimp only
  split <;> rfl

theorem cacheEvict_lt {lastUsed : List Nat} {maxCached index : Nat}
    (h : cacheEvict lastUsed maxCached = some index) : index < lastUsed.length := by
  unfold cacheEvict at h
  split at h
  · cases h
  · obtain ⟨⟨used, i⟩, hmin, rfl⟩ := Option.map_eq_some_iff.mp h
    exact snd_lt_of_mem_zipIdx (argmin_mem hmin)

/-- A full cache that may hold something gives one context up. -/
theorem cacheEvict_isSome {lastUsed : List Nat} {maxCached : Nat} (hpos : 0 < maxCached)
    (hfull : maxCached ≤ lastUsed.length) : (cacheEvict lastUsed maxCached).isSome := by
  unfold cacheEvict
  rw [if_neg (not_lt.mpr hfull), Option.isSome_map]
  rw [← Option.ne_none_iff_isSome]
  intro hnone
  have hnil := congrArg List.length (argmin_eq_none.mp hnone)
  rw [length_zipIdx, length_nil] at hnil
  omega

/-- **What the save does.**  The saved context joins those of the cache. -/
theorem save_subperm (inner : TaggedIsolateInner) (context : CachedContext) :
    (inner.save context).cachedContexts.Subperm (context :: inner.cachedContexts) := by
  unfold save
  dsimp only
  refine (perm_append_singleton context _).subperm.trans ?_
  rw [subperm_cons]
  split
  · exact List.Subperm.refl _
  · next index hevict =>
      have hlt := cacheEvict_lt hevict
      rw [length_map] at hlt
      have hperm := swapRemove_perm (getElem?_eq_getElem hlt)
      exact (sublist_cons_self _ _).subperm.trans hperm.symm.subperm

/-- A cache within its bound is within it after a save. -/
theorem length_save_le {context : CachedContext} (hpos : 0 < inner.maxCached)
    (hlen : inner.cachedContexts.length ≤ inner.maxCached) :
    (inner.save context).cachedContexts.length ≤ inner.maxCached := by
  unfold save
  dsimp only
  rw [length_append, length_singleton]
  split
  · next hnone =>
      by_contra hover
      have hfull : inner.maxCached ≤ (inner.cachedContexts.map CachedContext.lastUsed).length := by
        rw [length_map]
        omega
      have hsome := cacheEvict_isSome hpos hfull
      rw [hnone] at hsome
      cases hsome
  · next index hevict =>
      have hlt := cacheEvict_lt hevict
      rw [length_map] at hlt
      have := length_swapRemove (getElem?_eq_getElem hlt)
      omega

end TaggedIsolateInner

end OpenWorkers.Pool
