import Mathlib.Data.List.MinMax
import Mathlib.Data.List.Basic
import Mathlib.Data.List.Enum
import Mathlib.Order.Basic

/-!
# The pool's decisions

`src/pool_policy.rs`: pure functions of what the pool observes.  The pool reports a
`PoolLoad` and performs the `Acquire` it is told; the cache of warm contexts asks
`warmHit`, `superseded`, `keepContext` and `cacheEvict`.

Instants are natural numbers.  The lemmas below say, for each decision, exactly what the
snapshot looked like when it was taken; nothing else about `acquire` is used later.
-/

namespace OpenWorkers.PoolPolicy

open List

/-- What the pool observes about one isolate. -/
structure IsolateLoad where
  owner : String
  /-- A request can take a slot on it now. -/
  hasCapacity : Bool
  /-- When its last request ended, if no request runs on it. -/
  idleSince : Option Nat
deriving DecidableEq, Repr

structure Limits where
  maxIsolates : Nat
  /-- `none` leaves an owner bounded by `maxIsolates` alone. -/
  maxPerOwner : Option Nat
  /-- Build past `maxIsolates` when every isolate is in use. -/
  overcommit : Bool
deriving DecidableEq, Repr

/-- The pool as it is seen, indexed like its isolate list. -/
structure PoolLoad where
  isolates : List IsolateLoad
  limits : Limits
deriving DecidableEq, Repr

inductive Refusal where
  | ownerAtLimit
  /-- Every isolate is in use and the pool must not overcommit. -/
  | poolFull
deriving DecidableEq, Repr

def Refusal.message : Refusal → String
  | .ownerAtLimit => "Pool at capacity: the owner is at its isolate limit"
  | .poolFull => "Pool at capacity: every isolate is in use"

/-- What to do for an owner that asks for an isolate. -/
inductive Acquire where
  /-- Take a slot on this isolate of the owner. -/
  | reuse (index : Nat)
  /-- Build one: the pool is under its ceiling. -/
  | build
  /-- Drop this idle isolate, then build one in its place. -/
  | evict (index : Nat)
  /-- Build one past the ceiling: every isolate is in use. -/
  | overcommit
  | refuse (refusal : Refusal)
deriving DecidableEq, Repr

/-- The number of isolates of an owner. -/
def PoolLoad.owned (load : PoolLoad) (owner : String) : Nat :=
  load.isolates.countP fun isolate => isolate.owner = owner

/-- The idle isolates, each with its index. -/
def PoolLoad.idle (load : PoolLoad) : List (Nat × Nat) :=
  load.isolates.zipIdx.filterMap fun (isolate, index) => isolate.idleSince.map (index, ·)

/-- Choose for `owner`: an isolate of the owner with capacity comes first, then a new one
under the ceiling, then the idle isolate unused for longest, then overcommit. -/
def acquire (load : PoolLoad) (owner : String) : Acquire :=
  match load.isolates.findIdx? fun isolate => isolate.owner = owner && isolate.hasCapacity with
  | some index => .reuse index
  | none =>
    if load.limits.maxPerOwner.any fun limit => limit ≤ load.owned owner then
      .refuse .ownerAtLimit
    else if load.isolates.length < load.limits.maxIsolates then
      .build
    else
      match load.idle.argmin Prod.snd with
      | some (index, _) => .evict index
      | none => if load.limits.overcommit then .overcommit else .refuse .poolFull

/-- The isolates to drop once the pool stands past its ceiling: the first idle ones, in
index order, as many as the excess allows. -/
def reclaim (load : PoolLoad) : List Nat :=
  ((load.isolates.zipIdx.filter fun (isolate, _) => isolate.idleSince.isSome).map Prod.snd).take
    (load.isolates.length - load.limits.maxIsolates)

/-- What a cached context was built for. -/
structure ContextKey where
  workerId : String
  version : Int
  envUpdatedAt : Option Int
deriving DecidableEq, Repr

/-- The cached context to reuse for `wanted`: the first match that has not served
`maxReuses` requests. -/
def warmHit (cached : List (ContextKey × Nat)) (wanted : ContextKey) (maxReuses : Nat) :
    Option Nat :=
  cached.findIdx? fun (key, reuses) => key = wanted && reuses < maxReuses

/-- Whether `cached` belongs to a deployment of the wanted worker that `wanted` replaces:
an older version, or the same version with another environment. -/
def superseded (cached wanted : ContextKey) : Bool :=
  if cached.workerId ≠ wanted.workerId then
    false
  else if cached.version ≠ wanted.version then
    cached.version < wanted.version
  else
    match cached.envUpdatedAt, wanted.envUpdatedAt with
    | some cachedEnv, some wantedEnv => cachedEnv < wantedEnv
    | cachedEnv, wantedEnv => cachedEnv ≠ wantedEnv

/-- Whether a context that has served `reuses` requests goes back to the cache. -/
def keepContext (reuses maxReuses maxCached : Nat) : Bool :=
  0 < maxCached && reuses < maxReuses

/-- The cached context to drop before another is added: the one unused for longest, and
only when the cache is full. -/
def cacheEvict (lastUsed : List Nat) (maxCached : Nat) : Option Nat :=
  if lastUsed.length < maxCached then
    none
  else
    (lastUsed.zipIdx.argmin Prod.fst).map Prod.snd

/-! ## What each decision says about the snapshot -/

section Acquire

variable {load : PoolLoad} {owner : String}

/-- No isolate of the owner can take a request. -/
def PoolLoad.NoCapacity (load : PoolLoad) (owner : String) : Prop :=
  ∀ isolate ∈ load.isolates, isolate.owner = owner → isolate.hasCapacity = false

/-- The owner has as many isolates as it may. -/
def PoolLoad.AtLimit (load : PoolLoad) (owner : String) : Prop :=
  ∃ limit, load.limits.maxPerOwner = some limit ∧ limit ≤ load.owned owner

/-- Nothing in the pool is idle. -/
def PoolLoad.AllBusy (load : PoolLoad) : Prop :=
  ∀ isolate ∈ load.isolates, isolate.idleSince = none

theorem mem_idle {index since : Nat} :
    (index, since) ∈ load.idle ↔
      ∃ isolate, load.isolates[index]? = some isolate ∧ isolate.idleSince = some since := by
  simp only [PoolLoad.idle, mem_filterMap, Option.map_eq_some_iff, Prod.exists]
  constructor
  · rintro ⟨isolate, i, hmem, t, ht, heq⟩
    cases heq
    exact ⟨isolate, mem_zipIdx_iff_getElem?.mp hmem, ht⟩
  · rintro ⟨isolate, hget, ht⟩
    exact ⟨isolate, index, mem_zipIdx_iff_getElem?.mpr hget, since, ht, rfl⟩

theorem idle_eq_nil : load.idle = [] ↔ load.AllBusy := by
  rw [eq_nil_iff_forall_not_mem]
  constructor
  · intro h isolate hmem
    obtain ⟨index, hget⟩ := mem_iff_getElem?.mp hmem
    cases hidle : isolate.idleSince with
    | none => rfl
    | some since => exact absurd (mem_idle.mpr ⟨isolate, hget, hidle⟩) (h (index, since))
  · rintro h ⟨index, since⟩ hmem
    obtain ⟨isolate, hget, hidle⟩ := mem_idle.mp hmem
    rw [h isolate (mem_of_getElem? hget)] at hidle
    cases hidle

theorem atLimit_iff :
    (load.limits.maxPerOwner.any fun limit => limit ≤ load.owned owner) = true ↔
      load.AtLimit owner := by
  cases h : load.limits.maxPerOwner <;> simp [PoolLoad.AtLimit, h]

/-- What a decision says about the snapshot it was taken on. -/
def Acquire.Sound (load : PoolLoad) (owner : String) : Acquire → Prop
  | .reuse index => ∃ isolate, load.isolates[index]? = some isolate ∧
      isolate.owner = owner ∧ isolate.hasCapacity = true
  | .build => load.NoCapacity owner ∧ ¬ load.AtLimit owner ∧
      load.isolates.length < load.limits.maxIsolates
  | .evict index => load.NoCapacity owner ∧ ¬ load.AtLimit owner ∧
      load.limits.maxIsolates ≤ load.isolates.length ∧
      ∃ isolate since, load.isolates[index]? = some isolate ∧ isolate.idleSince = some since ∧
        ∀ other ∈ load.isolates, ∀ t, other.idleSince = some t → since ≤ t
  | .overcommit => load.NoCapacity owner ∧ ¬ load.AtLimit owner ∧
      load.limits.maxIsolates ≤ load.isolates.length ∧ load.AllBusy ∧
      load.limits.overcommit = true
  | .refuse .ownerAtLimit => load.NoCapacity owner ∧ load.AtLimit owner
  | .refuse .poolFull => load.NoCapacity owner ∧ ¬ load.AtLimit owner ∧
      load.limits.maxIsolates ≤ load.isolates.length ∧ load.AllBusy ∧
      load.limits.overcommit = false

/-- **Inversion of `acquire`.**  Each decision is taken only on the snapshots that
justify it. -/
theorem acquire_sound (load : PoolLoad) (owner : String) :
    (acquire load owner).Sound load owner := by
  unfold acquire
  split
  · next index hfind =>
      obtain ⟨hlt, hp, -⟩ := findIdx?_eq_some_iff_getElem.mp hfind
      simp only [Bool.and_eq_true, decide_eq_true_eq] at hp
      exact ⟨_, getElem?_eq_getElem hlt, hp.1, hp.2⟩
  · next hfind =>
      have hcap : load.NoCapacity owner := by
        intro isolate hmem howner
        simpa [howner] using findIdx?_eq_none_iff.mp hfind isolate hmem
      split
      · next hlimit => exact ⟨hcap, atLimit_iff.mp hlimit⟩
      · next hlimit =>
          have hnot : ¬ load.AtLimit owner := mt atLimit_iff.mpr hlimit
          split
          · next hlen => exact ⟨hcap, hnot, hlen⟩
          · next hlen =>
              rw [not_lt] at hlen
              split
              · next index since hmin =>
                  obtain ⟨isolate, hget, hidle⟩ := mem_idle.mp (argmin_mem hmin)
                  refine ⟨hcap, hnot, hlen, isolate, since, hget, hidle, ?_⟩
                  intro other hmem t ht
                  obtain ⟨i, hi⟩ := mem_iff_getElem?.mp hmem
                  exact le_of_mem_argmin (mem_idle.mpr ⟨other, hi, ht⟩) hmin
              · next hmin =>
                  have hbusy : load.AllBusy := idle_eq_nil.mp (argmin_eq_none.mp hmin)
                  split
                  · next hover => exact ⟨hcap, hnot, hlen, hbusy, hover⟩
                  · next hover => exact ⟨hcap, hnot, hlen, hbusy, by simpa using hover⟩

end Acquire

/-! ## What `reclaim` names -/

section Reclaim

variable {load : PoolLoad}

/-- The indices of the idle isolates, in order. -/
def PoolLoad.idleIndices (load : PoolLoad) : List Nat :=
  (load.isolates.zipIdx.filter fun (isolate, _) => isolate.idleSince.isSome).map Prod.snd

theorem reclaim_eq_take : reclaim load =
    load.idleIndices.take (load.isolates.length - load.limits.maxIsolates) := rfl

theorem mem_idleIndices {index : Nat} :
    index ∈ load.idleIndices ↔
      ∃ isolate, load.isolates[index]? = some isolate ∧ isolate.idleSince.isSome := by
  simp only [PoolLoad.idleIndices, mem_map, mem_filter, Prod.exists,
    mem_zipIdx_iff_getElem?]
  constructor
  · rintro ⟨isolate, i, ⟨hget, hidle⟩, rfl⟩
    exact ⟨isolate, hget, hidle⟩
  · rintro ⟨isolate, hget, hidle⟩
    exact ⟨isolate, index, ⟨hget, hidle⟩, rfl⟩

/-- The idle indices are listed in increasing order. -/
theorem idleIndices_pairwise : load.idleIndices.Pairwise (· < ·) := by
  have hall : (load.isolates.zipIdx.map Prod.snd).Pairwise (· < ·) := by
    rw [zipIdx_map_snd]
    exact pairwise_lt_range'
  exact hall.sublist (filter_sublist.map Prod.snd)

/-- Only idle isolates are named. -/
theorem idle_of_mem_reclaim {index : Nat} (h : index ∈ reclaim load) :
    ∃ isolate, load.isolates[index]? = some isolate ∧ isolate.idleSince.isSome :=
  mem_idleIndices.mp (mem_of_mem_take h)

theorem reclaim_pairwise : (reclaim load).Pairwise (· < ·) :=
  idleIndices_pairwise.sublist (take_sublist _ _)

end Reclaim

end OpenWorkers.PoolPolicy
