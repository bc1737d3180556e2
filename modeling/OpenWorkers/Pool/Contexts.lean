import OpenWorkers.Lib.Log
import OpenWorkers.Pool.Cache
import OpenWorkers.Pool.Slots
import Mathlib.Data.List.Flatten

/-!
# Warm contexts

A context is built by a call that finds no warm one, serves the event of that call, and
then waits in the cache of its isolate for the next call that wants it.  On the way it goes
through the hands of one call at a time; a call that does not put it back drops it.

The state of the machine does not say what a context has gone through, so a run is watched:
`observe` notes when a context is built, when it begins an event, how the event and its
`waitUntil` work end.  `life` is what is noted about one context.  `Recorded` ties the two
together: the life of a context that a call holds, or that a cache holds, is a row of events
that all ended well.
-/

namespace OpenWorkers.Pool

open List PoolPolicy

/-! ## Where contexts are -/

/-- The context that a call holds. -/
def Pc.context : Pc → Option CachedContext
  | .exec _ _ context | .drain _ _ context | .save _ _ context => some context
  | .lookup _ | .returned _ | .dropped _ | .unwound _ => none

/-- Whether a call runs on a context that it found in the cache. -/
def Pc.isWarm : Pc → Bool
  | .exec _ warm _ | .drain _ warm _ | .save _ warm _ => warm
  | .lookup _ | .returned _ | .dropped _ | .unwound _ => false

def Pc.isSaving : Pc → Bool
  | .save _ _ _ => true
  | .lookup _ | .exec _ _ _ | .drain _ _ _ | .returned _ | .dropped _ | .unwound _ => false

theorem Pc.context_of_isSaving {pc : Pc} (h : pc.isSaving = true) :
    ∃ context, pc.context = some context := by
  cases pc <;> first | exact ⟨_, rfl⟩ | cases h

/-- The context of a call, by its identity. -/
def Pc.holds (pc : Pc) : Option Nat := pc.context.map CachedContext.request

/-- The contexts in a cache, by their identity. -/
def TaggedIsolateInner.ids (inner : TaggedIsolateInner) : List Nat :=
  inner.cachedContexts.map CachedContext.request

namespace Execute

variable {cfg : PinnedPoolConfig} {s s' : State}

/-- The contexts that calls hold. -/
def State.held (s : State) : List Nat := s.calls.filterMap fun c => c.pc.holds

/-- The contexts in the caches of the pool.  An isolate leaves the pool when it is idle, and
its cache is dropped with it. -/
def State.cached (s : State) : List Nat :=
  s.pool.isolates.flatMap fun h => (s.pool.get h).inner.ids

/-- Every place where a context is, named by the context. -/
def State.places (s : State) : List Nat := s.held ++ s.cached

/-! ## What is noted of a run -/

inductive What where
  | built (key : ContextKey) (isolate : Handle) (owner : String)
  | began (call : Nat)
  /-- How the event of the call ended. -/
  | ended (call : Nat) (outcome : Outcome)
  /-- How the `waitUntil` work of the call ended. -/
  | drained (call : Nat) (outcome : Outcome)
deriving DecidableEq

def What.isBegan : What → Bool
  | .began _ => true
  | .built _ _ _ | .ended _ _ | .drained _ _ => false

/-- Something that a context went through. -/
structure Event where
  context : Nat
  what : What
deriving DecidableEq

/-- What a step does to contexts, seen from the state before it. -/
def observe (cfg : PinnedPoolConfig) (s : State) : Op → List Event
  | .lookup call now setup =>
    match s.calls[call]? with
    | some ⟨req, .lookup h⟩ =>
      match setup, (s.lookup cfg req h now).1 with
      | .resetOk, some context => [⟨context.request, .began call⟩]
      | .created, _ =>
        [⟨s.nextContext, .built req.wanted h (s.pool.get h).ownerId⟩,
          ⟨s.nextContext, .began call⟩]
      | .resetOk, none | .creationFailed _, _ => []
    | _ => []
  | .exec call outcome =>
    match s.calls[call]? with
    | some ⟨_, .exec _ _ context⟩ => [⟨context.request, .ended call outcome⟩]
    | _ => []
  | .drain call _ outcome =>
    match s.calls[call]? with
    | some ⟨_, .drain _ _ context⟩ => [⟨context.request, .drained call outcome⟩]
    | _ => []
  | .start _ _ | .save _ _ | .drop _ | .unwind _ _ _ => []

/-- What a context went through. -/
def life (log : List Event) (id : Nat) : List What :=
  log.filterMap fun event => if event.context = id then some event.what else none

/-- What the event of a call adds to the life of its context when all ends well. -/
def served (call : Nat) : List What :=
  [.began call, .ended call (.ok ()), .drained call (.ok ())]

/-- What the call that holds a context has added to its life so far. -/
def added (call : Nat) : Pc → List What
  | .exec _ _ _ => [.began call]
  | .drain _ _ _ => [.began call, .ended call (.ok ())]
  | .save _ _ _ => served call
  | .lookup _ | .returned _ | .dropped _ | .unwound _ => []

@[simp] theorem life_append (log log' : List Event) (id : Nat) :
    life (log ++ log') id = life log id ++ life log' id := by
  simp [life]

theorem life_eq_nil {log : List Event} {id : Nat} (h : ∀ event ∈ log, event.context ≠ id) :
    life log id = [] := by
  refine filterMap_eq_nil_iff.mpr ?_
  intro event hmem
  rw [if_neg (h event hmem)]

/-! ## What a step does to contexts -/

/-- A change of the pool that touches the inside of one isolate, which becomes `inner`, and
otherwise only slots, and that may drop idle isolates. -/
structure Recached (h : Handle) (inner : TaggedIsolateInner) (p p' : ThreadLocalPool) :
    Prop where
  isolates : p'.isolates.Sublist p.isolates
  length : p'.heap.length = p.heap.length
  owner : ∀ g, (p'.get g).ownerId = (p.get g).ownerId
  inner_self : (p'.get h).inner = inner
  inner_ne : ∀ g, g ≠ h → (p'.get g).inner = (p.get g).inner

theorem Recached.refl (h : Handle) (p : ThreadLocalPool) : Recached h (p.get h).inner p p where
  isolates := List.Sublist.refl _
  length := rfl
  owner _ := rfl
  inner_self := rfl
  inner_ne _ _ := rfl

/-- What a call does to the isolate of its slot. -/
theorem Recached.modify {h : Handle} {p : ThreadLocalPool} {f : TaggedIsolate → TaggedIsolate}
    (hlt : h < p.heap.length) (howner : ∀ i, (f i).ownerId = i.ownerId) :
    Recached h (f (p.get h)).inner p (p.modify h f) where
  isolates := List.Sublist.refl _
  length := ThreadLocalPool.length_heap_modify
  owner _ := ThreadLocalPool.ownerId_modify howner
  inner_self := by rw [ThreadLocalPool.get_modify_self hlt]
  inner_ne _ hne := by rw [ThreadLocalPool.get_modify_ne hne]

theorem inner_release (p : ThreadLocalPool) (h g : Handle) :
    ((p.releaseToLocalPool cfg h).get g).inner = (p.get g).inner := by
  change ((p.modify h TaggedIsolate.release).get g).inner = _
  rcases eq_or_ne g h with rfl | hne
  · rcases lt_or_ge g p.heap.length with hlt | hge
    · rw [ThreadLocalPool.get_modify_self hlt, TaggedIsolate.release]
    · simp [ThreadLocalPool.get, ThreadLocalPool.modify, getD_eq_getElem?_getD,
        getElem?_eq_none hge]
  · rw [ThreadLocalPool.get_modify_ne hne]

/-- Giving the slot back afterwards changes no cache. -/
theorem Recached.release {h : Handle} {inner : TaggedIsolateInner} {p p' : ThreadLocalPool}
    (hchange : Recached h inner p p') : Recached h inner p (p'.releaseToLocalPool cfg h) where
  isolates := (reclaim_sublist (p := p'.modify h TaggedIsolate.release)).trans hchange.isolates
  length := ThreadLocalPool.length_heap_modify.trans hchange.length
  owner g := by rw [ThreadLocalPool.ownerId_release, hchange.owner]
  inner_self := by rw [inner_release, hchange.inner_self]
  inner_ne g hne := by rw [inner_release, hchange.inner_ne g hne]

/-- What a stretch of a call does to contexts: `isolate` and `inner` are the isolate of its
slot before it and the inside of that isolate after it, `next` and `next'` the identities of
the next context. -/
inductive Stretch (cfg : PinnedPoolConfig) (call : Nat) (c : Call) (h : Handle)
    (isolate : TaggedIsolate) (inner : TaggedIsolateInner) (next : Nat) :
    Pc → List Event → Nat → Prop
  /-- The call takes a warm context out of the cache. -/
  | warm (context : CachedContext) (hkey : context.key = c.req.wanted)
      (hreuses : context.reuseCount < cfg.maxContextReuses)
      (hsub : (context :: inner.cachedContexts).Subperm isolate.inner.cachedContexts) :
      Stretch cfg call c h isolate inner next
        (.exec h true { context with reuseCount := context.reuseCount + 1 })
        [⟨context.request, .began call⟩] next
  /-- The call builds a context. -/
  | cold (now : Nat) (hsub : inner.cachedContexts.Subperm isolate.inner.cachedContexts) :
      Stretch cfg call c h isolate inner next
        (.exec h false ⟨next, c.req.workerId, c.req.version, 1, now, c.req.envUpdatedAt⟩)
        [⟨next, .built c.req.wanted h isolate.ownerId⟩, ⟨next, .began call⟩] (next + 1)
  /-- The call goes on with the context it has. -/
  | goesOn (context context' : CachedContext) (pc : Pc) (what : What)
      (hcontext : c.pc.context = some context) (hcontext' : pc.context = some context')
      (hsame : context'.request = context.request ∧ context'.key = context.key ∧
        context'.reuseCount = context.reuseCount)
      (hslot : pc.slot = c.pc.slot) (hwarm : pc.isWarm = c.pc.isWarm)
      (hadded : added call pc = added call c.pc ++ [what]) (hwhat : what.isBegan = false)
      (hsaving : pc.isSaving = true → 0 < cfg.maxCachedContexts)
      (hinner : inner = isolate.inner) :
      Stretch cfg call c h isolate inner next pc [⟨context.request, what⟩] next
  /-- The call puts its context into the cache. -/
  | saved (context context' : CachedContext) (pc : Pc) (hcontext : c.pc.context = some context)
      (hsaving : c.pc.isSaving = true) (hcontext' : pc.context = none)
      (hsame : context'.request = context.request ∧ context'.key = context.key ∧
        context'.reuseCount = context.reuseCount)
      (hinner : inner = isolate.inner.save context') :
      Stretch cfg call c h isolate inner next pc [] next
  /-- The call drops the context it has, if it has one. -/
  | drops (pc : Pc) (events : List Event) (hcontext' : pc.context = none)
      (hevents : ∀ event ∈ events, event.context ∈ c.pc.holds ∧ event.what.isBegan = false)
      (hsub : inner.cachedContexts.Subperm isolate.inner.cachedContexts) :
      Stretch cfg call c h isolate inner next pc events next

/-- What taking a slot does to the caches: isolates may leave the pool, and one with an empty
cache may join it. -/
structure Grown (cfg : PinnedPoolConfig) (p p' : ThreadLocalPool) : Prop where
  isolates : ∃ kept, kept.Sublist p.isolates ∧
    (p'.isolates = kept ∨ p'.isolates = kept ++ [p.heap.length])
  length : p.heap.length ≤ p'.heap.length
  owner : ∀ g < p.heap.length, (p'.get g).ownerId = (p.get g).ownerId
  inner : ∀ g < p.heap.length, (p'.get g).inner = (p.get g).inner
  fresh : ∀ g, p.heap.length ≤ g → g < p'.heap.length →
    (p'.get g).inner.cachedContexts = [] ∧ (p'.get g).inner.maxCached = cfg.maxCachedContexts
  /-- There is no isolate outside the heap. -/
  empty : ∀ g, p.heap.length ≤ g → (p'.get g).inner.cachedContexts = []

theorem get_of_length_le {p : ThreadLocalPool} {h : Handle} (hle : p.heap.length ≤ h) :
    p.get h = default := by
  simp [ThreadLocalPool.get, getD_eq_getElem?_getD, getElem?_eq_none hle]

theorem Grown.refl (p : ThreadLocalPool) : Grown cfg p p where
  isolates := ⟨p.isolates, List.Sublist.refl _, .inl rfl⟩
  length := le_rfl
  owner _ _ := rfl
  inner _ _ := rfl
  fresh _ hle hlt := absurd hlt (not_lt.mpr hle)
  empty g hle := by
    rw [get_of_length_le hle]
    rfl

theorem Grown.push {p q : ThreadLocalPool} (owner : String) (now : Nat) (hheap : q.heap = p.heap)
    (hisolates : q.isolates.Sublist p.isolates) :
    Grown cfg p (q.push (ThreadLocalPool.fresh cfg owner now)) := by
  have hlen : (q.push (ThreadLocalPool.fresh cfg owner now)).heap.length = p.heap.length + 1 := by
    simp [ThreadLocalPool.push, hheap]
  have hget : ∀ g, q.get g = p.get g := by
    intro g
    rw [ThreadLocalPool.get, hheap, ThreadLocalPool.get]
  have hself : (q.push (ThreadLocalPool.fresh cfg owner now)).get p.heap.length =
      ThreadLocalPool.fresh cfg owner now := by
    rw [← hheap, ThreadLocalPool.get_push_self]
  have hne : ∀ g, g ≠ p.heap.length →
      (q.push (ThreadLocalPool.fresh cfg owner now)).get g = p.get g := by
    intro g hne
    rw [ThreadLocalPool.get_push_ne _ (by rwa [hheap]), hget]
  refine ⟨⟨q.isolates, hisolates, .inr ?_⟩, by omega, fun g hlt => ?_, fun g hlt => ?_,
    fun g hle hlt => ?_, fun g hle => ?_⟩
  · rw [ThreadLocalPool.isolates_push, hheap]
  · rw [hne g hlt.ne]
  · rw [hne g hlt.ne]
  · rw [hlen] at hlt
    obtain rfl : g = p.heap.length := by omega
    rw [hself]
    exact ⟨rfl, rfl⟩
  · rcases hle.eq_or_lt with rfl | hlt
    · rw [hself]
      rfl
    · rw [hne g hlt.ne', get_of_length_le hle]
      rfl

theorem grown_acquire (cfg : PinnedPoolConfig) (p : ThreadLocalPool) (owner : String) (now : Nat) :
    Grown cfg p (p.acquire cfg owner now).2 := by
  have hcases := ThreadLocalPool.acquire_cases cfg p owner now
  generalize p.acquire cfg owner now = r at hcases
  cases hcases with
  | reuse h hmem howner hroom =>
      have hsame : ∀ g, ((p.modify h fun _ => (p.get h).take).get g).inner = (p.get g).inner ∧
          ((p.modify h fun _ => (p.get h).take).get g).ownerId = (p.get g).ownerId := by
        intro g
        rcases eq_or_ne g h with rfl | hne
        · rcases lt_or_ge g p.heap.length with hlt | hge
          · rw [ThreadLocalPool.get_modify_self hlt]
            exact ⟨rfl, rfl⟩
          · rw [get_of_length_le hge, get_of_length_le (by simpa using hge)]
            exact ⟨rfl, rfl⟩
        · rw [ThreadLocalPool.get_modify_ne hne]
          exact ⟨rfl, rfl⟩
      refine ⟨⟨p.isolates, List.Sublist.refl _, .inl rfl⟩,
        ThreadLocalPool.length_heap_modify.ge, fun g _ => (hsame g).2, fun g _ => (hsame g).1,
        fun g hle hlt => ?_, fun g hle => ?_⟩
      · rw [ThreadLocalPool.length_heap_modify] at hlt
        exact absurd hlt (not_lt.mpr hle)
      · rw [(hsame g).1, get_of_length_le hle]
        rfl
  | build => exact .push owner now rfl (List.Sublist.refl _)
  | evict index => exact .push owner now rfl (eraseIdx_sublist _ _)
  | overcommit => exact .push owner now rfl (List.Sublist.refl _)
  | atLimit => exact .refl p
  | full => exact .refl p

/-- What a step does to contexts. -/
inductive Handled (cfg : PinnedPoolConfig) (s : State) (op : Op) (s' : State) : Prop
  /-- A call comes in. -/
  | started (req : PinnedExecuteRequest) (pc : Pc) (hcontext : pc.context = none)
      (howner : ∀ h, pc.slot = some h → (s'.pool.get h).ownerId = req.ownerId)
      (hpool : Grown cfg s.pool s'.pool) (hcalls : s'.calls = s.calls ++ [⟨req, pc⟩])
      (hnext : s'.nextContext = s.nextContext) (hevents : observe cfg s op = [])
  /-- A call runs to its next await or to its end. -/
  | moved (call : Nat) (c : Call) (pc : Pc) (h : Handle) (inner : TaggedIsolateInner)
      (hcall : s.calls[call]? = some c) (hslot : c.pc.slot = some h)
      (hslot' : ∀ g, pc.slot = some g → g = h) (hpool : Recached h inner s.pool s'.pool)
      (hmax : inner.maxCached = (s.pool.get h).inner.maxCached)
      (hcalls : s'.calls = s.calls.modify call fun c => { c with pc })
      (hstretch : Stretch cfg call c h (s.pool.get h) inner s.nextContext pc
        (observe cfg s op) s'.nextContext)

/-- A slot that a call holds is on an isolate of the pool. -/
theorem Inv.slot_pooled {call : Nat} {c : Call} {h : Handle} (hs : Inv cfg s)
    (hcall : s.calls[call]? = some c) (hslot : c.pc.slot = some h) : h ∈ s.pool.isolates :=
  Accounted.pooled hs h (mem_append_left _
    (mem_filterMap.mpr ⟨c, mem_of_getElem? hcall, hslot⟩))

theorem Inv.slot_valid {call : Nat} {c : Call} {h : Handle} (hs : Inv cfg s)
    (hcall : s.calls[call]? = some c) (hslot : c.pc.slot = some h) : h < s.pool.heap.length :=
  Accounted.valid hs h (hs.slot_pooled hcall hslot)

/-- What the lookup of a call does to the isolate of its slot. -/
theorem recached_lookup (cfg : PinnedPoolConfig) (s : State) (req : PinnedExecuteRequest)
    {h : Handle} (now : Nat) (hlt : h < s.pool.heap.length) :
    Recached h ((s.pool.get h).lookup req.wanted cfg.maxContextReuses now).2.inner s.pool
      (s.lookup cfg req h now).2.pool :=
  Recached.modify (f := fun i => (i.lookup req.wanted cfg.maxContextReuses now).2) hlt fun _ => rfl

theorem recached_save (s : State) {h : Handle} (context : CachedContext)
    (hlt : h < s.pool.heap.length) :
    Recached h ((s.pool.get h).inner.save context) s.pool (s.save h context).pool :=
  Recached.modify (f := TaggedIsolate.save context) hlt fun _ => rfl

theorem lookup_isolate_subperm (i : TaggedIsolate) (wanted : ContextKey) (maxReuses now : Nat) :
    ((i.lookup wanted maxReuses now).1.toList ++
        (i.lookup wanted maxReuses now).2.inner.cachedContexts).Subperm
        i.inner.cachedContexts ∧
      ∀ context ∈ (i.lookup wanted maxReuses now).1,
        context.key = wanted ∧ context.reuseCount < maxReuses :=
  (i.noteRequest now).inner.lookup_subperm wanted maxReuses

theorem lookup_isolate_kept (i : TaggedIsolate) (wanted : ContextKey) (maxReuses now : Nat) :
    (i.lookup wanted maxReuses now).2.inner.cachedContexts.Subperm i.inner.cachedContexts :=
  (sublist_append_right _ _).subperm.trans (lookup_isolate_subperm i wanted maxReuses now).1

theorem stamped_same (warm : Bool) (context : CachedContext) (now : Nat) :
    (stamped warm context now).request = context.request ∧
      (stamped warm context now).key = context.key ∧
      (stamped warm context now).reuseCount = context.reuseCount := by
  cases warm <;> exact ⟨rfl, rfl, rfl⟩

/-- A call that ends at an await, without a change of the pool. -/
theorem handled_leave {op : Op} {call : Nat} {c : Call} {pc : Pc} {h : Handle}
    (hcall : s.calls[call]? = some c) (hslot : c.pc.slot = some h) (hcontext : pc.context = none)
    (hslot' : pc.slot = none) (hevents : observe cfg s op = []) :
    Handled cfg s op (s.setPc call pc) := by
  refine .moved call c pc h _ hcall hslot ?_ (Recached.refl h s.pool) rfl rfl ?_
  · intro g hg
    rw [hslot'] at hg
    cases hg
  · rw [hevents]
    exact .drops pc [] hcontext nofun (List.Subperm.refl _)

theorem maxCached_lookup (i : TaggedIsolate) (wanted : ContextKey) (maxReuses now : Nat) :
    (i.lookup wanted maxReuses now).2.inner.maxCached = i.inner.maxCached :=
  TaggedIsolateInner.maxCached_lookup

/-- A call that drops its context, after one more thing was seen of it. -/
theorem Stretch.drops_seen {call next : Nat} {c : Call} {h : Handle} {isolate : TaggedIsolate}
    {context : CachedContext} {pc : Pc} {what : What} (hcontext : c.pc.context = some context)
    (hnone : pc.context = none) (hwhat : what.isBegan = false) :
    Stretch cfg call c h isolate isolate.inner next pc [⟨context.request, what⟩] next := by
  refine .drops pc _ hnone ?_ (List.Subperm.refl _)
  rw [forall_mem_singleton]
  refine ⟨?_, hwhat⟩
  rw [Pc.holds, hcontext]
  rfl

/-- A call that comes in. -/
theorem handled_start {req : PinnedExecuteRequest} {now : Nat} {pc : Pc}
    {acquired : Acquired} {pool : ThreadLocalPool}
    (hpool : s.pool.acquire cfg req.ownerId now = (acquired, pool)) (hcontext : pc.context = none)
    (hslot : ∀ h, pc.slot = some h → ∃ hit, acquired = .ok h hit) :
    Handled cfg s (.start req now) { s with pool, calls := s.calls ++ [⟨req, pc⟩] } := by
  have hgrown := grown_acquire cfg s.pool req.ownerId now
  have howner := (ThreadLocalPool.ownerId_acquire cfg s.pool req.ownerId now).2
  rw [hpool] at hgrown howner
  refine .started req pc hcontext (fun h hh => ?_) hgrown rfl rfl rfl
  obtain ⟨hit, rfl⟩ := hslot h hh
  exact howner h hit rfl

/-- **Inversion of a step**, for contexts. -/
theorem handled_step {op : Op} (hs : Inv cfg s) (hstep : step cfg s op = some s') :
    Handled cfg s op s' := by
  have hpool (h : Handle) := Recached.refl h s.pool
  cases of_step hstep with
  | @taken req now h hit pool hpool =>
      refine handled_start hpool rfl ?_
      rintro _ ⟨⟩
      exact ⟨hit, rfl⟩
  | refused hpool => exact handled_start hpool rfl (by rintro _ ⟨⟩)
  | panicked hpool => exact handled_start hpool rfl (by rintro _ ⟨⟩)
  | @warm call now req h context hcall hfound =>
      have hevents : observe cfg s (.lookup call now .resetOk) =
          [⟨context.request, .began call⟩] := by
        simp only [observe, hcall]
        rw [hfound]
      obtain ⟨hsub, hwarm⟩ :=
        lookup_isolate_subperm (s.pool.get h) req.wanted cfg.maxContextReuses now
      have hfound : ((s.pool.get h).lookup req.wanted cfg.maxContextReuses now).1 = some context :=
        hfound
      obtain ⟨hkey, hreuses⟩ := hwarm context hfound
      rw [hfound] at hsub
      refine .moved call _ _ h _ hcall rfl ?_
        (recached_lookup cfg s req now (hs.slot_valid hcall rfl)) (maxCached_lookup _ _ _ _) rfl ?_
      · rintro _ ⟨⟩
        rfl
      · rw [hevents]
        exact .warm context hkey hreuses hsub
  | @cold call now req h hcall =>
      have hevents : observe cfg s (.lookup call now .created) =
          [⟨s.nextContext, .built req.wanted h (s.pool.get h).ownerId⟩,
            ⟨s.nextContext, .began call⟩] := by
        simp only [observe, hcall]
      refine .moved call _ _ h _ hcall rfl ?_
        (recached_lookup cfg s req now (hs.slot_valid hcall rfl)) (maxCached_lookup _ _ _ _) rfl ?_
      · rintro _ ⟨⟩
        rfl
      · rw [hevents]
        exact .cold now (lookup_isolate_kept _ _ _ _)
  | @notCreated call now reason req h hcall =>
      have hevents : observe cfg s (.lookup call now (.creationFailed reason)) = [] := by
        simp only [observe, hcall]
      refine .moved call _ (.returned _) h _ hcall rfl (by rintro _ ⟨⟩)
        (recached_lookup cfg s req now (hs.slot_valid hcall rfl)).release
        (maxCached_lookup _ _ _ _) rfl ?_
      rw [hevents]
      exact .drops _ [] rfl (by rintro _ ⟨⟩) (lookup_isolate_kept _ _ _ _)
  | @ran call req h warm context hcall =>
      have hevents : observe cfg s (.exec call (.ok ())) =
          [⟨context.request, .ended call (.ok ())⟩] := by
        simp only [observe, hcall]
      refine .moved call _ (.drain h warm context) h _ hcall rfl ?_ (hpool h) rfl rfl ?_
      · rintro _ ⟨⟩
        rfl
      · rw [hevents]
        exact .goesOn context context _ _ rfl rfl ⟨rfl, rfl, rfl⟩ rfl rfl rfl rfl (by rintro ⟨⟩) rfl
  | @failed call reason req h warm context hcall =>
      have hevents : observe cfg s (.exec call (.error reason)) =
          [⟨context.request, .ended call (.error reason)⟩] := by
        simp only [observe, hcall]
      refine .moved call _ (.returned _) h _ hcall rfl (by rintro _ ⟨⟩) (hpool h).release rfl rfl ?_
      rw [hevents]
      exact .drops_seen rfl rfl rfl
  | @keeps call now req h warm context hcall hkeep =>
      have hevents : observe cfg s (.drain call now (.ok ())) =
          [⟨context.request, .drained call (.ok ())⟩] := by
        simp only [observe, hcall]
      refine .moved call _ (.save h warm { context with lastUsed := now }) h _ hcall rfl ?_
        (hpool h) rfl rfl ?_
      · rintro _ ⟨⟩
        rfl
      · rw [hevents]
        refine .goesOn context _ _ _ rfl rfl ⟨rfl, rfl, rfl⟩ rfl rfl rfl rfl ?_ rfl
        intro
        simp only [keepContext, Bool.and_eq_true, decide_eq_true_eq] at hkeep
        exact hkeep.1
  | @drops call now outcome req h warm context hcall =>
      have hevents : observe cfg s (.drain call now outcome) =
          [⟨context.request, .drained call outcome⟩] := by
        simp only [observe, hcall]
      refine .moved call _ (.returned _) h _ hcall rfl (by rintro _ ⟨⟩) (hpool h).release rfl rfl ?_
      rw [hevents]
      exact .drops_seen rfl rfl rfl
  | @saved call now req h warm context hcall =>
      exact .moved call _ (.returned _) h _ hcall rfl (by rintro _ ⟨⟩)
        (recached_save s (stamped warm context now) (hs.slot_valid hcall rfl)).release rfl rfl
        (.saved context _ _ rfl rfl rfl (stamped_same warm context now) rfl)
  | dropped hcall hslot => exact handled_leave hcall hslot rfl rfl rfl
  | @lateLookup call now req h hcall =>
      exact .moved call _ (.unwound _) h _ hcall rfl (by rintro _ ⟨⟩)
        (recached_lookup cfg s req now (hs.slot_valid hcall rfl)) (maxCached_lookup _ _ _ _) rfl
        (.drops _ [] rfl (by rintro _ ⟨⟩) (lookup_isolate_kept _ _ _ _))
  | @lateSave call now req h warm context hcall =>
      exact .moved call _ (.unwound _) h _ hcall rfl (by rintro _ ⟨⟩)
        (recached_save s (stamped warm context now) (hs.slot_valid hcall rfl)) rfl rfl
        (.saved context _ _ rfl rfl rfl (stamped_same warm context now) rfl)
  | unwound hcall hslot => exact handled_leave hcall hslot rfl rfl rfl

/-! ## The ledger of places -/

/-- The contexts that are neither with the call nor in the cache of the isolate. -/
def State.others (s : State) (call : Nat) (h : Handle) : List Nat :=
  ((s.calls.eraseIdx call).filterMap fun c => c.pc.holds) ++
    (s.pool.isolates.erase h).flatMap fun g => (s.pool.get g).inner.ids

theorem mem_others_of_call {call k : Nat} {c : Call} {context : CachedContext} {h : Handle}
    (hk : s.calls[k]? = some c) (hne : k ≠ call) (hcontext : c.pc.context = some context) :
    context.request ∈ s.others call h := by
  refine mem_append_left _ (mem_filterMap.mpr ⟨c, ?_, ?_⟩)
  · exact mem_eraseIdx_iff_getElem?.mpr ⟨k, hne, hk⟩
  · rw [Pc.holds, hcontext]
    rfl

theorem mem_others_of_cached {call : Nat} {h g : Handle} {context : CachedContext}
    (hg : g ∈ s.pool.isolates) (hne : g ≠ h)
    (hmem : context ∈ (s.pool.get g).inner.cachedContexts) :
    context.request ∈ s.others call h := by
  refine mem_append_right _ (mem_flatMap.mpr ⟨g, ?_, ?_⟩)
  · exact (mem_erase_of_ne hne).mpr hg
  · exact mem_map_of_mem hmem

/-- The places, with the call and the isolate set apart. -/
theorem places_perm {call : Nat} {c : Call} {h : Handle} (hcall : s.calls[call]? = some c)
    (hmem : h ∈ s.pool.isolates) :
    s.places.Perm (c.pc.holds.toList ++ (s.pool.get h).inner.ids ++ s.others call h) := by
  obtain ⟨hheld, -⟩ := modify_perm hcall id
  have hcalls : s.held.Perm
      (c.pc.holds.toList ++ (s.calls.eraseIdx call).filterMap fun c => c.pc.holds) := by
    refine (hheld.filterMap fun c => c.pc.holds).trans (List.Perm.of_eq ?_)
    cases hf : c.pc.holds <;> simp [hf]
  have hcaches : s.cached.Perm ((s.pool.get h).inner.ids ++
      (s.pool.isolates.erase h).flatMap fun g => (s.pool.get g).inner.ids) :=
    (perm_cons_erase hmem).flatMap_right _
  refine (hcalls.append hcaches).trans ?_
  rw [State.others, append_assoc, append_assoc]
  exact perm_append_comm_assoc _ _ _ |>.append_left _

/-- The places after a stretch of a call: the others have not moved. -/
theorem places_moved {call : Nat} {c : Call} {pc : Pc} {h : Handle} {inner : TaggedIsolateInner}
    (hs : Inv cfg s) (hcall : s.calls[call]? = some c) (hslot : c.pc.slot = some h)
    (hpool : Recached h inner s.pool s'.pool)
    (hcalls : s'.calls = s.calls.modify call fun c => { c with pc }) :
    s'.places.Subperm (pc.holds.toList ++ inner.ids ++ s.others call h) := by
  have hmem := hs.slot_pooled hcall hslot
  have hheld : s'.held.Perm
      (pc.holds.toList ++ (s.calls.eraseIdx call).filterMap fun c => c.pc.holds) := by
    rw [State.held, hcalls]
    refine ((modify_perm hcall _).2.filterMap fun c => c.pc.holds).trans (List.Perm.of_eq ?_)
    cases hf : pc.holds <;> simp [hf]
  have hcached : s'.cached.Subperm (inner.ids ++
      (s.pool.isolates.erase h).flatMap fun g => (s.pool.get g).inner.ids) := by
    refine (hpool.isolates.flatMap _).subperm.trans ?_
    refine ((perm_cons_erase hmem).flatMap_right _).subperm.trans (List.Perm.subperm ?_)
    rw [flatMap_cons, hpool.inner_self]
    refine (List.Perm.of_eq (flatMap_congr ?_)).append_left _
    intro g hg
    rw [hpool.inner_ne g (hs.nodup.mem_erase_iff.mp hg).1]
  refine (hheld.subperm.append hcached).trans (List.Perm.subperm ?_)
  rw [State.others, append_assoc, append_assoc]
  exact perm_append_comm_assoc _ _ _ |>.append_left _

theorem requests_subperm {l l' : List CachedContext} (h : l.Subperm l') :
    (l.map CachedContext.request).Subperm (l'.map CachedContext.request) := by
  obtain ⟨kept, hperm, hsub⟩ := h
  exact ⟨kept.map CachedContext.request, hperm.map _, hsub.map _⟩

theorem nodup_of_subperm {l l' : List Nat} (h : l.Subperm l') (hnodup : l'.Nodup) : l.Nodup := by
  obtain ⟨kept, hperm, hsub⟩ := h
  exact hperm.nodup_iff.mp (hnodup.sublist hsub)

/-- The contexts that a stretch is about, and those it builds. -/
structure Focus (c : Call) (isolate : TaggedIsolate) (inner : TaggedIsolateInner) (next : Nat)
    (pc : Pc) (events : List Event) (next' : Nat) (focus new : List Nat) : Prop where
  sub : (focus ++ inner.ids).Subperm (new ++ (c.pc.holds.toList ++ isolate.inner.ids))
  holds : pc.holds.toList.Sublist focus
  events : ∀ event ∈ events, event.context ∈ focus
  new : new = [] ∧ next' = next ∨ new = [next] ∧ next' = next + 1

theorem Stretch.focus {call : Nat} {c : Call} {h : Handle} {isolate : TaggedIsolate}
    {inner : TaggedIsolateInner} {next next' : Nat} {pc : Pc} {events : List Event}
    (hstretch : Stretch cfg call c h isolate inner next pc events next') :
    ∃ focus new, Focus c isolate inner next pc events next' focus new := by
  cases hstretch with
  | warm context hkey hreuses hsub =>
      refine ⟨[context.request], [], ?_, List.Sublist.refl _, by simp, .inl ⟨rfl, rfl⟩⟩
      refine (requests_subperm hsub).trans ?_
      exact (sublist_append_right _ _).subperm
  | cold now hsub =>
      refine ⟨[next], [next], ?_, List.Sublist.refl _, by simp, .inr ⟨rfl, rfl⟩⟩
      refine (subperm_append_left _).mpr ((requests_subperm hsub).trans ?_)
      exact (sublist_append_right _ _).subperm
  | goesOn context context' pc what hcontext hcontext' hsame hslot hwarm hadded hwhat
      hsaving hinner =>
      refine ⟨[context.request], [], ?_, ?_, by simp, .inl ⟨rfl, rfl⟩⟩
      · rw [hinner, Pc.holds, hcontext]
        exact List.Subperm.refl _
      · rw [Pc.holds, hcontext', Option.map_some, hsame.1]
        exact List.Sublist.refl _
  | saved context context' pc hcontext hsaving hcontext' hsame hinner =>
      refine ⟨[], [], ?_, ?_, nofun, .inl ⟨rfl, rfl⟩⟩
      · rw [hinner, Pc.holds, hcontext]
        have hsub := requests_subperm (isolate.inner.save_subperm context')
        rwa [map_cons, hsame.1] at hsub
      · rw [Pc.holds, hcontext']
        exact List.Sublist.refl _
  | drops pc events hcontext' hevents hsub =>
      refine ⟨c.pc.holds.toList, [], ?_, ?_, ?_, .inl ⟨rfl, rfl⟩⟩
      · exact (subperm_append_left _).mpr (requests_subperm hsub)
      · rw [Pc.holds, hcontext']
        exact nil_sublist _
      · intro event hmem
        exact Option.mem_toList.mpr (hevents event hmem).1

end Execute

end OpenWorkers.Pool
