import OpenWorkers.Lib.Erase
import OpenWorkers.Pool.Policy

/-!
# The thread-local pool

`src/pool.rs`: isolates tagged with their owner, the slots of each, and the pool that
performs the decisions of `OpenWorkers.PoolPolicy`.

An `Arc<TaggedIsolate>` is a *handle*: the position of the isolate in the heap of all
isolates ever built.  The pool holds a list of handles and a call holds one of its own, so
an isolate that left the pool is still there for the calls that hold it.

The `inner` mutex of an isolate is only ever held over a stretch of code without an
`await`, so on its one thread the pool always finds it free: `TaggedIsolate.load` reads
`lastUsed` whenever no slot is taken.
-/

namespace OpenWorkers.Pool

open List PoolPolicy

/-- `usize` arithmetic wraps at this value, on a 64-bit target. -/
def usizeSize : Nat := UInt64.size

/-- `fetch_sub(1)`. -/
def wrappingPred : Nat → Nat
  | 0 => usizeSize - 1
  | n + 1 => n

/-- `PinnedPoolConfig`, with what `init_pinned_pool` asserts. -/
structure PinnedPoolConfig where
  maxPerThread : Nat
  maxPerOwner : Option Nat
  maxConcurrentPerIsolate : Nat
  maxCachedContexts : Nat
  overcommit : Bool
  maxContextReuses : Nat
  one_le_maxConcurrent : 1 ≤ maxConcurrentPerIsolate

/-- The limits `ensure_pool_initialized` gives the pool of a thread. -/
def PinnedPoolConfig.policy (cfg : PinnedPoolConfig) : Limits where
  maxIsolates := cfg.maxPerThread
  maxPerOwner := cfg.maxPerOwner
  overcommit := cfg.overcommit

/-! ## Slots -/

/-- The slots of one isolate. -/
structure ConcurrencyState where
  active : Nat
  maxConcurrent : Nat
deriving DecidableEq, Repr, Inhabited

namespace ConcurrencyState

/-- Take a slot; `none` when `try_acquire` answers `false`.  The compare-exchange loop of
the source has no competitor on the thread of the pool. -/
def tryAcquire (c : ConcurrencyState) : Option ConcurrencyState :=
  if c.maxConcurrent ≤ c.active then none else some { c with active := c.active + 1 }

def release (c : ConcurrencyState) : ConcurrencyState :=
  { c with active := wrappingPred c.active }

def isFree (c : ConcurrencyState) : Bool := c.active = 0

def hasCapacity (c : ConcurrencyState) : Bool := c.active < c.maxConcurrent

/-- A release that gives back a taken slot does not wrap. -/
theorem release_active {c : ConcurrencyState} {n : Nat} (hactive : c.active = n + 1) :
    c.release.active = n := by
  rw [release, hactive, wrappingPred]

end ConcurrencyState

/-! ## Isolates -/

/-- A cached context for warm reuse; `request` is the identity of its `RequestContext`. -/
structure CachedContext where
  request : Nat
  workerId : String
  version : Int
  reuseCount : Nat
  lastUsed : Nat
  envUpdatedAt : Option Int
deriving DecidableEq, Repr

def CachedContext.key (c : CachedContext) : ContextKey :=
  ⟨c.workerId, c.version, c.envUpdatedAt⟩

structure TaggedIsolateInner where
  cachedContexts : List CachedContext
  maxCached : Nat
  lastUsed : Nat
  totalRequests : Nat
deriving DecidableEq, Repr, Inhabited

structure TaggedIsolate where
  ownerId : String
  concurrency : ConcurrencyState
  inner : TaggedIsolateInner
deriving DecidableEq, Repr, Inhabited

namespace TaggedIsolate

def new (ownerId : String) (maxConcurrent maxCached now : Nat) : TaggedIsolate where
  ownerId := ownerId
  concurrency := ⟨0, maxConcurrent⟩
  inner := ⟨[], maxCached, now, 0⟩

def tryAcquire (i : TaggedIsolate) : Option TaggedIsolate :=
  i.concurrency.tryAcquire.map fun c => { i with concurrency := c }

def release (i : TaggedIsolate) : TaggedIsolate :=
  { i with concurrency := i.concurrency.release }

def isFree (i : TaggedIsolate) : Bool := i.concurrency.isFree

/-- What a request that has just got its slot writes down. -/
def noteRequest (now : Nat) (i : TaggedIsolate) : TaggedIsolate :=
  { i with inner := { i.inner with lastUsed := now, totalRequests := i.inner.totalRequests + 1 } }

/-- What the policy sees. -/
def load (i : TaggedIsolate) : IsolateLoad where
  owner := i.ownerId
  hasCapacity := i.concurrency.hasCapacity
  idleSince := if i.isFree then some i.inner.lastUsed else none

/-- One more taken slot. -/
def take (i : TaggedIsolate) : TaggedIsolate :=
  { i with concurrency := { i.concurrency with active := i.concurrency.active + 1 } }

theorem tryAcquire_eq_some {i : TaggedIsolate}
    (hroom : i.concurrency.active < i.concurrency.maxConcurrent) :
    i.tryAcquire = some i.take := by
  rw [tryAcquire, ConcurrencyState.tryAcquire, if_neg (not_le.mpr hroom)]
  rfl

@[simp] theorem load_hasCapacity (i : TaggedIsolate) :
    i.load.hasCapacity = decide (i.concurrency.active < i.concurrency.maxConcurrent) := rfl

theorem load_idleSince_isSome (i : TaggedIsolate) :
    i.load.idleSince.isSome ↔ i.concurrency.active = 0 := by
  simp [load, isFree, ConcurrencyState.isFree]

theorem load_idleSince_eq_none (i : TaggedIsolate) :
    i.load.idleSince = none ↔ i.concurrency.active ≠ 0 := by
  rw [ne_eq, ← load_idleSince_isSome, Bool.not_eq_true, Option.isSome_eq_false_iff,
    Option.isNone_iff_eq_none]

end TaggedIsolate

/-! ## The pool -/

/-- An `Arc<TaggedIsolate>`: a position in the heap. -/
abbrev Handle := Nat

/-- The pool of a thread, with every isolate it ever built. -/
structure ThreadLocalPool where
  heap : List TaggedIsolate
  isolates : List Handle
deriving DecidableEq, Repr

/-- What `ThreadLocalPool::acquire` does: it answers an isolate with a slot taken, refuses,
or fails one of its assertions. -/
inductive Acquired where
  | ok (isolate : Handle) (cacheHit : Bool)
  | refused (refusal : Refusal)
  | panicked
deriving DecidableEq, Repr

namespace ThreadLocalPool

def empty : ThreadLocalPool := ⟨[], []⟩

/-- The isolate behind a handle. -/
def get (p : ThreadLocalPool) (h : Handle) : TaggedIsolate := p.heap.getD h default

/-- Change the isolate behind a handle. -/
def modify (p : ThreadLocalPool) (h : Handle) (f : TaggedIsolate → TaggedIsolate) :
    ThreadLocalPool :=
  { p with heap := p.heap.modify h f }

/-- The number of taken slots of the isolate behind a handle. -/
def active (p : ThreadLocalPool) (h : Handle) : Nat := (p.get h).concurrency.active

variable (cfg : PinnedPoolConfig)

def load (p : ThreadLocalPool) : PoolLoad where
  isolates := p.isolates.map fun h => (p.get h).load
  limits := cfg.policy

/-- Take the isolate at a position out of the pool; the calls that hold it keep it. -/
def remove (p : ThreadLocalPool) (index : Nat) : ThreadLocalPool :=
  { p with isolates := p.isolates.eraseIdx index }

/-- Add an isolate that is not in the heap yet. -/
def push (p : ThreadLocalPool) (isolate : TaggedIsolate) : ThreadLocalPool where
  heap := p.heap ++ [isolate]
  isolates := p.isolates ++ [p.heap.length]

/-- Build an isolate for the owner with its first slot taken. -/
def build (p : ThreadLocalPool) (owner : String) (now : Nat) : Acquired × ThreadLocalPool :=
  let isolate :=
    TaggedIsolate.new owner cfg.maxConcurrentPerIsolate cfg.maxCachedContexts now
  match isolate.tryAcquire with
  | none => (.panicked, p)
  | some isolate => (.ok p.heap.length false, p.push isolate)

def acquire (p : ThreadLocalPool) (owner : String) (now : Nat) : Acquired × ThreadLocalPool :=
  match PoolPolicy.acquire (p.load cfg) owner with
  | .reuse index =>
    match p.isolates[index]? with
    | none => (.panicked, p)
    | some h =>
      match (p.get h).tryAcquire with
      | none => (.panicked, p)
      | some isolate => (.ok h true, p.modify h fun _ => isolate)
  | .build => p.build cfg owner now
  | .evict index =>
    if index < p.isolates.length then
      (p.remove index).build cfg owner now
    else
      (.panicked, p)
  | .overcommit => p.build cfg owner now
  | .refuse refusal => (.refused refusal, p)

/-- Drop the idle isolates past the ceiling, from the last to the first. -/
def reclaim (p : ThreadLocalPool) : ThreadLocalPool :=
  { p with isolates := (PoolPolicy.reclaim (p.load cfg)).reverse.foldl List.eraseIdx p.isolates }

/-- `release_to_local_pool`: give the slot back, then reclaim. -/
def releaseToLocalPool (p : ThreadLocalPool) (h : Handle) : ThreadLocalPool :=
  (p.modify h TaggedIsolate.release).reclaim cfg

/-! ## Looking at a changed pool -/

section Lookup

variable {cfg} {p : ThreadLocalPool} {h g : Handle} {f : TaggedIsolate → TaggedIsolate}

theorem get_modify_self (hlt : h < p.heap.length) : (p.modify h f).get h = f (p.get h) := by
  simp [get, modify, getD_eq_getElem?_getD, hlt]

theorem get_modify_ne (hne : g ≠ h) : (p.modify h f).get g = p.get g := by
  simp [get, modify, getD_eq_getElem?_getD, hne.symm]

theorem ownerId_modify (hf : ∀ i, (f i).ownerId = i.ownerId) :
    ((p.modify h f).get g).ownerId = (p.get g).ownerId := by
  rcases eq_or_ne g h with rfl | hne
  · rcases lt_or_ge g p.heap.length with hlt | hge
    · rw [get_modify_self hlt, hf]
    · simp [get, modify, getD_eq_getElem?_getD, getElem?_eq_none hge]
  · rw [get_modify_ne hne]

theorem active_modify (hf : ∀ i, (f i).concurrency = i.concurrency) :
    (p.modify h f).active g = p.active g := by
  rcases eq_or_ne g h with rfl | hne
  · rcases lt_or_ge g p.heap.length with hlt | hge
    · rw [active, get_modify_self hlt, hf, active]
    · simp [active, get, modify, getD_eq_getElem?_getD, getElem?_eq_none hge]
  · rw [active, get_modify_ne hne, active]

@[simp] theorem length_heap_modify : (p.modify h f).heap.length = p.heap.length := by
  simp [modify]

@[simp] theorem isolates_push (isolate : TaggedIsolate) :
    (p.push isolate).isolates = p.isolates ++ [p.heap.length] := rfl

theorem get_push_self (isolate : TaggedIsolate) :
    (p.push isolate).get p.heap.length = isolate := by
  simp [get, push, getD_eq_getElem?_getD]

theorem get_push_ne (isolate : TaggedIsolate) (hne : h ≠ p.heap.length) :
    (p.push isolate).get h = p.get h := by
  rcases Nat.lt_or_gt_of_ne hne with hlt | hgt
  · simp [get, push, getD_eq_getElem?_getD, getElem?_append_left hlt]
  · have hout : (p.heap ++ [isolate]).length ≤ h := by simpa using Nat.succ_le_of_lt hgt
    simp [get, push, getD_eq_getElem?_getD, getElem?_eq_none hout,
      getElem?_eq_none hgt.le]

/-- Outside the heap there is no isolate, and so no taken slot. -/
theorem active_of_length_le (hle : p.heap.length ≤ h) : p.active h = 0 := by
  simp only [active, get, getD_eq_getElem?_getD, getElem?_eq_none hle]
  rfl

theorem ownerId_release : ((p.releaseToLocalPool cfg h).get g).ownerId = (p.get g).ownerId :=
  ownerId_modify (f := TaggedIsolate.release) fun _ => rfl

end Lookup

/-! ## What the operations do -/

/-- The isolate that `build` adds: new, with its first slot taken. -/
def fresh (owner : String) (now : Nat) : TaggedIsolate where
  ownerId := owner
  concurrency := ⟨1, cfg.maxConcurrentPerIsolate⟩
  inner := ⟨[], cfg.maxCachedContexts, now, 0⟩

/-- The assertion of `build` holds: a new isolate has room for its first request. -/
theorem build_eq (p : ThreadLocalPool) (owner : String) (now : Nat) :
    p.build cfg owner now = (.ok p.heap.length false, p.push (fresh cfg owner now)) := by
  have hroom : ¬ cfg.maxConcurrentPerIsolate = 0 := by
    have := cfg.one_le_maxConcurrent
    omega
  simp [build, TaggedIsolate.new, TaggedIsolate.tryAcquire, ConcurrencyState.tryAcquire, hroom,
    fresh]

/-- Every way `acquire` can go, with what the pool was like before. -/
inductive AcquireCase (p : ThreadLocalPool) (owner : String) (now : Nat) :
    Acquired × ThreadLocalPool → Prop
  | reuse (h : Handle) (hmem : h ∈ p.isolates) (howner : (p.get h).ownerId = owner)
      (hroom : p.active h < (p.get h).concurrency.maxConcurrent) :
      AcquireCase p owner now (.ok h true, p.modify h fun _ => (p.get h).take)
  | build (hlimit : ¬ (p.load cfg).AtLimit owner) (hlen : p.isolates.length < cfg.maxPerThread) :
      AcquireCase p owner now (.ok p.heap.length false, p.push (fresh cfg owner now))
  | evict (index : Nat) (h : Handle) (hlimit : ¬ (p.load cfg).AtLimit owner)
      (hlen : cfg.maxPerThread ≤ p.isolates.length) (hget : p.isolates[index]? = some h)
      (hidle : p.active h = 0) :
      AcquireCase p owner now
        (.ok p.heap.length false, (p.remove index).push (fresh cfg owner now))
  | overcommit (hlimit : ¬ (p.load cfg).AtLimit owner)
      (hbusy : ∀ h ∈ p.isolates, p.active h ≠ 0) (hover : cfg.overcommit = true) :
      AcquireCase p owner now (.ok p.heap.length false, p.push (fresh cfg owner now))
  | atLimit (hcap : (p.load cfg).NoCapacity owner) (hlimit : (p.load cfg).AtLimit owner) :
      AcquireCase p owner now (.refused .ownerAtLimit, p)
  | full (hcap : (p.load cfg).NoCapacity owner) (hlen : cfg.maxPerThread ≤ p.isolates.length)
      (hbusy : ∀ h ∈ p.isolates, p.active h ≠ 0) (hover : cfg.overcommit = false) :
      AcquireCase p owner now (.refused .poolFull, p)

@[simp] theorem length_load {p : ThreadLocalPool} :
    (p.load cfg).isolates.length = p.isolates.length := by
  simp [load]

theorem getElem?_load {p : ThreadLocalPool} {index : Nat} {isolate : IsolateLoad}
    (hget : (p.load cfg).isolates[index]? = some isolate) :
    ∃ h, p.isolates[index]? = some h ∧ (p.get h).load = isolate := by
  rw [load, getElem?_map, Option.map_eq_some_iff] at hget
  exact hget

theorem allBusy_load {p : ThreadLocalPool} :
    (p.load cfg).AllBusy ↔ ∀ h ∈ p.isolates, p.active h ≠ 0 := by
  simp [PoolLoad.AllBusy, load, TaggedIsolate.load_idleSince_eq_none, active]

/-- **Inversion of `acquire`.**  In particular neither of its assertions fails: the slot
that the snapshot showed is still there. -/
theorem acquire_cases (p : ThreadLocalPool) (owner : String) (now : Nat) :
    AcquireCase cfg p owner now (p.acquire cfg owner now) := by
  have hsound := PoolPolicy.acquire_sound (p.load cfg) owner
  unfold acquire
  split
  · next index hacq =>
      rw [hacq] at hsound
      obtain ⟨isolate, hget, howner, hcap⟩ := hsound
      obtain ⟨h, hh, rfl⟩ := getElem?_load cfg hget
      have hroom : p.active h < (p.get h).concurrency.maxConcurrent := of_decide_eq_true hcap
      rw [hh]
      simp only [TaggedIsolate.tryAcquire_eq_some hroom]
      exact .reuse h (mem_of_getElem? hh) howner hroom
  · next hacq =>
      rw [hacq] at hsound
      obtain ⟨-, hlimit, hlen⟩ := hsound
      rw [build_eq]
      exact .build hlimit (by rwa [length_load] at hlen)
  · next index hacq =>
      rw [hacq] at hsound
      obtain ⟨-, hlimit, hlen, isolate, since, hget, hidle, -⟩ := hsound
      obtain ⟨h, hh, rfl⟩ := getElem?_load cfg hget
      have hlt : index < p.isolates.length := (List.getElem?_eq_some_iff.mp hh).1
      have hzero : p.active h = 0 :=
        (p.get h).load_idleSince_isSome.mp (by rw [hidle]; rfl)
      rw [if_pos hlt, build_eq]
      exact .evict index h hlimit (by rwa [length_load] at hlen) hh hzero
  · next hacq =>
      rw [hacq] at hsound
      obtain ⟨-, hlimit, -, hbusy, hover⟩ := hsound
      rw [build_eq]
      exact .overcommit hlimit ((allBusy_load cfg).mp hbusy) hover
  · next refusal hacq =>
      rw [hacq] at hsound
      cases refusal with
      | ownerAtLimit => exact .atLimit hsound.1 hsound.2
      | poolFull =>
          obtain ⟨hcap, -, hlen, hbusy, hover⟩ := hsound
          exact .full hcap (by rwa [length_load] at hlen) ((allBusy_load cfg).mp hbusy) hover

/-- No isolate changes hands, and the one that is answered is the owner's. -/
theorem ownerId_acquire (p : ThreadLocalPool) (owner : String) (now : Nat) :
    (∀ h < p.heap.length, ((p.acquire cfg owner now).2.get h).ownerId = (p.get h).ownerId) ∧
      ∀ h hit, (p.acquire cfg owner now).1 = .ok h hit →
        ((p.acquire cfg owner now).2.get h).ownerId = owner := by
  have hcases := acquire_cases cfg p owner now
  generalize p.acquire cfg owner now = r at hcases
  have hpush : ∀ q : ThreadLocalPool, q.heap = p.heap →
      (∀ h < p.heap.length, ((q.push (fresh cfg owner now)).get h).ownerId = (p.get h).ownerId) ∧
        ∀ h hit, Acquired.ok p.heap.length false = .ok h hit →
          ((q.push (fresh cfg owner now)).get h).ownerId = owner := by
    intro q hq
    refine ⟨fun h hlt => ?_, fun h hit heq => ?_⟩
    · rw [get_push_ne _ (by rw [hq]; exact hlt.ne), get, hq, get]
    · cases heq
      rw [← hq, get_push_self]
      rfl
  cases hcases with
  | reuse h hmem howner hroom =>
      have hsame : ∀ g, ((p.modify h fun _ => (p.get h).take).get g).ownerId =
        (p.get g).ownerId := by
        intro g
        rcases eq_or_ne g h with rfl | hne
        · rcases lt_or_ge g p.heap.length with hlt | hge
          · rw [get_modify_self hlt, TaggedIsolate.take]
          · simp [get, modify, getD_eq_getElem?_getD, getElem?_eq_none hge]
        · rw [get_modify_ne hne]
      refine ⟨fun g _ => hsame g, fun g hit heq => ?_⟩
      cases heq
      rw [hsame, howner]
  | build => exact hpush p rfl
  | evict index => exact hpush (p.remove index) rfl
  | overcommit => exact hpush p rfl
  | atLimit => exact ⟨fun _ _ => rfl, fun _ _ heq => by cases heq⟩
  | full => exact ⟨fun _ _ => rfl, fun _ _ heq => by cases heq⟩

end ThreadLocalPool

end OpenWorkers.Pool
