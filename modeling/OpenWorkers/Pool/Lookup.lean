import OpenWorkers.Pool.Cache

/-!
# The lookup block

The block of `execute_pinned` that looks for a warm context and takes the contexts of replaced
deployments out of the cache.  `TaggedIsolateInner.lookup` is what the rest of the model uses of
it; here the block is given with the contexts that it puts aside.

`swap_remove` puts the last context in the place of the one that goes, so the loop looks at the
same index again, and a context that moves is one the loop has not passed yet.  The loop has passed
the first `idx` contexts: `sweep_kept` is about those.
-/

namespace OpenWorkers.Pool

open List PoolPolicy

/-! ## The block -/

/-- What the block makes of the cache. -/
structure Looked where
  hit : Option CachedContext
  superseded : List CachedContext
  kept : List CachedContext

/-- The lookup block. -/
def lookupBlock (cached : List CachedContext) (wanted : ContextKey) (maxReuses : Nat) : Looked :=
  let keys := cached.map fun context => (context.key, context.reuseCount)
  let found := warmHit keys wanted maxReuses
  let rest := match found with
    | some idx => swapRemove cached idx
    | none => cached
  let swept := sweep wanted 0 rest []
  { hit := found.bind fun idx => cached[idx]?, superseded := swept.2, kept := swept.1 }

/-! ## The loop -/

section Sweep

variable {wanted : ContextKey} {idx : Nat} {cached aside : List CachedContext}

/-- What is put aside is superseded. -/
theorem sweep_aside (haside : ∀ context ∈ aside, superseded context.key wanted = true) :
    ∀ context ∈ (sweep wanted idx cached aside).2, superseded context.key wanted = true := by
  fun_induction sweep wanted idx cached aside with
  | case1 idx cached aside h hsuperseded ih =>
      refine ih fun context hmem => ?_
      rcases mem_append.mp hmem with hmem | hmem
      · exact haside context hmem
      · cases mem_singleton.mp hmem
        exact hsuperseded
  | case2 idx cached aside h hkept ih => exact ih haside
  | case3 idx cached aside h => exact haside

/-- If the contexts that the loop has passed are not superseded, then none that stays is. -/
theorem sweep_kept (hpassed : ∀ context ∈ cached.take idx, superseded context.key wanted = false) :
    ∀ context ∈ (sweep wanted idx cached aside).1, superseded context.key wanted = false := by
  fun_induction sweep wanted idx cached aside with
  | case1 idx cached aside h hsuperseded ih =>
      refine ih fun context hmem => ?_
      rw [take_swapRemove h] at hmem
      exact hpassed context hmem
  | case2 idx cached aside h hkept ih =>
      refine ih fun context hmem => ?_
      rw [take_succ_eq_append_getElem h] at hmem
      rcases mem_append.mp hmem with hmem | hmem
      · exact hpassed context hmem
      · cases mem_singleton.mp hmem
        exact (Bool.not_eq_true _).mp hkept
  | case3 idx cached aside h =>
      rw [take_of_length_le (not_lt.mp h)] at hpassed
      exact hpassed

end Sweep

/-! ## The partition -/

/-- A warm hit is there exactly if some cached context is fit for reuse. -/
theorem isSome_warmHit {cached : List CachedContext} {wanted : ContextKey} {maxReuses : Nat} :
    (warmHit (cached.map fun context => (context.key, context.reuseCount)) wanted
      maxReuses).isSome =
        true ↔
      ∃ context ∈ cached, context.key = wanted ∧ context.reuseCount < maxReuses := by
  simp [warmHit, findIdx?_isSome]

/-- What the block makes of the cache, once it is known where the hit is. -/
theorem lookupBlock_perm (cached : List CachedContext) (wanted : ContextKey) (maxReuses : Nat) :
    let looked := lookupBlock cached wanted maxReuses
    (looked.hit.toList ++ looked.superseded ++ looked.kept).Perm cached ∧
      (looked.hit.isSome = true ↔
        ∃ context ∈ cached, context.key = wanted ∧ context.reuseCount < maxReuses) ∧
      ∀ context ∈ looked.hit, context.key = wanted ∧ context.reuseCount < maxReuses := by
  rw [← isSome_warmHit]
  simp only [lookupBlock]
  cases hfound : warmHit (cached.map fun context => (context.key, context.reuseCount)) wanted
      maxReuses with
  | none => exact ⟨sweep_perm wanted 0 cached [], Iff.rfl, by rintro _ ⟨⟩⟩
  | some idx =>
      obtain ⟨context, hget, hfit⟩ : ∃ context, cached[idx]? = some context ∧
          context.key = wanted ∧ context.reuseCount < maxReuses :=
        @TaggedIsolateInner.of_warmHit ⟨cached, 0, 0, 0⟩ wanted maxReuses idx hfound
      rw [Option.bind_some, hget]
      refine ⟨?_, iff_of_true rfl rfl, ?_⟩
      · exact ((sweep_perm wanted 0 (swapRemove cached idx) []).cons context).trans
          (swapRemove_perm hget).symm
      · rintro _ ⟨⟩
        exact hfit

/-- The block is what the model of `execute_pinned` uses. -/
theorem lookup_eq_lookupBlock (inner : TaggedIsolateInner) (wanted : ContextKey) (maxReuses : Nat) :
    inner.lookup wanted maxReuses = ((lookupBlock inner.cachedContexts wanted maxReuses).hit,
      { inner with
        cachedContexts := (lookupBlock inner.cachedContexts wanted maxReuses).kept }) := by
  simp only [TaggedIsolateInner.lookup, lookupBlock]
  split
  · next hfound => rw [hfound, Option.bind_none]
  · next idx hfound => rw [hfound, Option.bind_some]

/-- The lookup of a request ends, and each turn of its loop passes a context or puts one aside.  The
hit, the contexts put aside and those that stay are the cached ones, each once.  There is a hit
exactly if some cached context has the wanted key and fewer than `maxReuses` reuses, and it is such
a one; what is put aside is superseded, and nothing that stays is. -/
theorem lookup_partitions_the_cache (inner : TaggedIsolateInner) (wanted : ContextKey)
    (maxReuses : Nat) :
    let looked := lookupBlock inner.cachedContexts wanted maxReuses
    inner.lookup wanted maxReuses = (looked.hit, { inner with cachedContexts := looked.kept }) ∧
      (looked.hit.toList ++ looked.superseded ++ looked.kept).Perm inner.cachedContexts ∧
      (looked.hit.isSome = true ↔ ∃ context ∈ inner.cachedContexts,
        context.key = wanted ∧ context.reuseCount < maxReuses) ∧
      (∀ context ∈ looked.hit, context.key = wanted ∧ context.reuseCount < maxReuses) ∧
      (∀ context ∈ looked.kept, superseded context.key wanted = false) ∧
      ∀ context ∈ looked.superseded, superseded context.key wanted = true := by
  obtain ⟨hperm, hhit, hfit⟩ := lookupBlock_perm inner.cachedContexts wanted maxReuses
  refine ⟨lookup_eq_lookupBlock inner wanted maxReuses, hperm, hhit, hfit, ?_, ?_⟩
  · exact sweep_kept (by rw [take_zero]; rintro _ ⟨⟩)
  · exact sweep_aside (by rintro _ ⟨⟩)

end OpenWorkers.Pool
