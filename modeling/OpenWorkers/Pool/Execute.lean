import OpenWorkers.Core
import OpenWorkers.Lib.Machine
import OpenWorkers.Lib.SwapRemove
import OpenWorkers.Pool.Local

/-!
# `execute_pinned`

`src/pool.rs`: one call takes a slot, looks for a warm context, runs the event on the warm
or on a new context, drains its `waitUntil` work, perhaps puts the context back, and gives
the slot back by an explicit call at its end.

Any number of calls run on one thread.  Between two awaits a call runs alone, so a step of
the machine is one such stretch, and a call that is not running stands at one of its awaits
(`Pc`).  What happens outside (the outcome of `reset`, of the creation of a context, of the
event, of the drain, the clock) is part of the action.  A call may also be *dropped* by its
caller at an await, and it may *unwind* from a panic in one of its stretches, before or
after what the stretch does to the cache of the isolate.
-/

namespace OpenWorkers.Pool

open PoolPolicy

/-! ## The cache of warm contexts -/

/-- The `while` loop from the index `idx` on: the contexts that stay, and those put aside. -/
@[semireducible] def sweep (wanted : ContextKey) (idx : Nat) (cached aside : List CachedContext) :
    List CachedContext × List CachedContext :=
  if h : idx < cached.length then
    if superseded cached[idx].key wanted then
      sweep wanted idx (swapRemove cached idx) (aside ++ [cached[idx]])
    else
      sweep wanted (idx + 1) cached aside
  else
    (cached, aside)
termination_by cached.length - idx
decreasing_by
  · have := length_swapRemove (List.getElem?_eq_getElem h)
    omega
  · omega

namespace TaggedIsolateInner

/-- The lookup block: the warm context to run on, if there is one, and what the cache is
afterwards. -/
def lookup (inner : TaggedIsolateInner) (wanted : ContextKey) (maxReuses : Nat) :
    Option CachedContext × TaggedIsolateInner :=
  let keys := inner.cachedContexts.map fun cached => (cached.key, cached.reuseCount)
  match warmHit keys wanted maxReuses with
  | none =>
    let kept := (sweep wanted 0 inner.cachedContexts []).1
    (none, { inner with cachedContexts := kept })
  | some index =>
    let rest := swapRemove inner.cachedContexts index
    let kept := (sweep wanted 0 rest []).1
    (inner.cachedContexts[index]?, { inner with cachedContexts := kept })

/-- Put a context into the cache, in the place of the one unused for longest when the
cache is full. -/
def save (inner : TaggedIsolateInner) (context : CachedContext) : TaggedIsolateInner :=
  let cached :=
    match cacheEvict (inner.cachedContexts.map CachedContext.lastUsed) inner.maxCached with
    | none => inner.cachedContexts
    | some index => swapRemove inner.cachedContexts index
  { inner with cachedContexts := cached ++ [context] }

end TaggedIsolateInner

namespace TaggedIsolate

/-- A call that has the lock of the isolate writes down that it is there and looks for a
warm context. -/
def lookup (i : TaggedIsolate) (wanted : ContextKey) (maxReuses now : Nat) :
    Option CachedContext × TaggedIsolate :=
  let (found, inner) := (i.noteRequest now).inner.lookup wanted maxReuses
  (found, { i with inner })

def save (context : CachedContext) (i : TaggedIsolate) : TaggedIsolate :=
  { i with inner := i.inner.save context }

end TaggedIsolate

/-! ## Calls -/

/-- `PinnedExecuteRequest`, as far as the pool reads it. -/
structure PinnedExecuteRequest where
  ownerId : String
  workerId : String
  version : Int
  envUpdatedAt : Option Int
deriving DecidableEq, Repr

/-- The key a warm context must have. -/
def PinnedExecuteRequest.wanted (req : PinnedExecuteRequest) : ContextKey :=
  ⟨req.workerId, req.version, req.envUpdatedAt⟩

/-- Where a call stands. -/
inductive Pc where
  /-- At `inner.lock().await`, before the lookup. -/
  | lookup (isolate : Handle)
  /-- At `exec(task).await`; `context` is what will go back to the cache. -/
  | exec (isolate : Handle) (warm : Bool) (context : CachedContext)
  /-- At `drain_waituntil().await`. -/
  | drain (isolate : Handle) (warm : Bool) (context : CachedContext)
  /-- At `inner.lock().await`, before the context goes back to the cache. -/
  | save (isolate : Handle) (warm : Bool) (context : CachedContext)
  | returned (outcome : Outcome)
  /-- The caller dropped the call at an await, with its slot taken. -/
  | dropped (isolate : Handle)
  /-- A panic ended the call; `some` when its slot was taken. -/
  | unwound (isolate : Option Handle)
deriving DecidableEq, Repr

/-- The slot that a call in flight holds. -/
def Pc.slot : Pc → Option Handle
  | .lookup h | .exec h _ _ | .drain h _ _ | .save h _ _ => some h
  | .returned _ | .dropped _ | .unwound _ => none

/-- The slot that a call left taken when it ended without giving it back. -/
def Pc.abandoned : Pc → Option Handle
  | .dropped h => some h
  | .unwound h => h
  | .lookup _ | .exec _ _ _ | .drain _ _ _ | .save _ _ _ | .returned _ => none

structure Call where
  req : PinnedExecuteRequest
  pc : Pc
deriving DecidableEq, Repr

namespace Execute

/-- The pool of the thread and every call made so far. -/
structure State where
  pool : ThreadLocalPool
  calls : List Call
  /-- The identity of the next context to be created. -/
  nextContext : Nat
deriving DecidableEq, Repr

/-- How a call gets its context. -/
inductive Setup where
  /-- `reset` of the warm context succeeded. -/
  | resetOk
  /-- There was no warm context or its `reset` failed, and a new one was created. -/
  | created
  /-- Likewise, and the creation failed. -/
  | creationFailed (reason : TerminationReason)
deriving DecidableEq, Repr

inductive Op where
  /-- The first poll of a call: it asks the pool for an isolate. -/
  | start (req : PinnedExecuteRequest) (now : Nat)
  | lookup (call : Nat) (now : Nat) (setup : Setup)
  | exec (call : Nat) (outcome : Outcome)
  | drain (call : Nat) (now : Nat) (outcome : Outcome)
  | save (call : Nat) (now : Nat)
  | drop (call : Nat)
  /-- A panic, after what the stretch does to the cache if `late`. -/
  | unwind (call : Nat) (now : Nat) (late : Bool)
deriving DecidableEq, Repr

/-- The actions that end a call which still has its slot. -/
def Op.abandons : Op → Bool
  | .drop _ | .unwind _ _ _ => true
  | .start _ _ | .lookup _ _ _ | .exec _ _ | .drain _ _ _ | .save _ _ => false

namespace State

def setPc (s : State) (call : Nat) (pc : Pc) : State :=
  { s with calls := s.calls.modify call fun c => { c with pc } }

/-- The end of a call: the slot goes back and the outcome is returned. -/
def finish (cfg : PinnedPoolConfig) (s : State) (call : Nat) (h : Handle) (outcome : Outcome) :
    State :=
  ({ s with pool := s.pool.releaseToLocalPool cfg h } : State).setPc call (.returned outcome)

/-- The warm context that a call finds in the isolate, and the state after its lookup. -/
def lookup (cfg : PinnedPoolConfig) (s : State) (req : PinnedExecuteRequest) (h : Handle)
    (now : Nat) : Option CachedContext × State :=
  (((s.pool.get h).lookup req.wanted cfg.maxContextReuses now).1,
    { s with pool := s.pool.modify h fun i => (i.lookup req.wanted cfg.maxContextReuses now).2 })

def save (s : State) (h : Handle) (context : CachedContext) : State :=
  { s with pool := s.pool.modify h (TaggedIsolate.save context) }

end State

/-- The context as it goes into the cache: the warm path takes the time once it has the
lock, the cold path already took it. -/
def stamped (warm : Bool) (context : CachedContext) (now : Nat) : CachedContext :=
  if warm then { context with lastUsed := now } else context

def step (cfg : PinnedPoolConfig) (s : State) : Op → Option State
  | .start req now =>
    match s.pool.acquire cfg req.ownerId now with
    | (.ok h _, pool) => some { s with pool, calls := s.calls ++ [⟨req, .lookup h⟩] }
    | (.refused refusal, pool) =>
      let outcome := .error (.other refusal.message)
      some { s with pool, calls := s.calls ++ [⟨req, .returned outcome⟩] }
    | (.panicked, pool) => some { s with pool, calls := s.calls ++ [⟨req, .unwound none⟩] }
  | .lookup call now setup =>
    match s.calls[call]? with
    | some ⟨req, .lookup h⟩ =>
      let (found, s') := s.lookup cfg req h now
      match setup, found with
      | .resetOk, some context =>
        some (s'.setPc call (.exec h true { context with reuseCount := context.reuseCount + 1 }))
      | .resetOk, none => none
      | .created, _ =>
        let context := ⟨s.nextContext, req.workerId, req.version, 1, now, req.envUpdatedAt⟩
        some ({ s' with nextContext := s.nextContext + 1 }.setPc call (.exec h false context))
      | .creationFailed reason, _ => some (s'.finish cfg call h (.error reason))
    | _ => none
  | .exec call outcome =>
    match s.calls[call]? with
    | some ⟨_, .exec h warm context⟩ =>
      match outcome with
      | .ok () => some (s.setPc call (.drain h warm context))
      | .error _ => some (s.finish cfg call h outcome)
    | _ => none
  | .drain call now outcome =>
    match s.calls[call]? with
    | some ⟨_, .drain h warm context⟩ =>
      let keep := keepContext context.reuseCount cfg.maxContextReuses cfg.maxCachedContexts
      match outcome with
      | .ok () =>
        if keep then
          some (s.setPc call (.save h warm { context with lastUsed := now }))
        else
          some (s.finish cfg call h (.ok ()))
      | .error _ => some (s.finish cfg call h (.ok ()))
    | _ => none
  | .save call now =>
    match s.calls[call]? with
    | some ⟨_, .save h warm context⟩ =>
      some ((s.save h (stamped warm context now)).finish cfg call h (.ok ()))
    | _ => none
  | .drop call =>
    match s.calls[call]? with
    | some ⟨_, pc⟩ => pc.slot.map fun h => s.setPc call (.dropped h)
    | none => none
  | .unwind call now late =>
    match s.calls[call]? with
    | some ⟨req, .lookup h⟩ =>
      let s' := if late then (s.lookup cfg req h now).2 else s
      some (s'.setPc call (.unwound (some h)))
    | some ⟨_, .save h warm context⟩ =>
      let s' := if late then s.save h (stamped warm context now) else s
      some (s'.setPc call (.unwound (some h)))
    | some ⟨_, pc⟩ => pc.slot.map fun h => s.setPc call (.unwound (some h))
    | none => none

/-- What a step does, one case for each way through a stretch of `execute_pinned`. -/
inductive Step (cfg : PinnedPoolConfig) (s : State) : Op → State → Prop
  | taken {req : PinnedExecuteRequest} {now : Nat} {h : Handle} {hit : Bool}
      {pool : ThreadLocalPool} (hpool : s.pool.acquire cfg req.ownerId now = (.ok h hit, pool)) :
      Step cfg s (.start req now) { s with pool, calls := s.calls ++ [⟨req, .lookup h⟩] }
  | refused {req : PinnedExecuteRequest} {now : Nat} {refusal : Refusal} {pool : ThreadLocalPool}
      (hpool : s.pool.acquire cfg req.ownerId now = (.refused refusal, pool)) :
      Step cfg s (.start req now) { s with
        pool
        calls := s.calls ++ [⟨req, .returned (.error (.other refusal.message))⟩] }
  | panicked {req : PinnedExecuteRequest} {now : Nat} {pool : ThreadLocalPool}
      (hpool : s.pool.acquire cfg req.ownerId now = (.panicked, pool)) :
      Step cfg s (.start req now) { s with pool, calls := s.calls ++ [⟨req, .unwound none⟩] }
  | warm {call now : Nat} {req : PinnedExecuteRequest} {h : Handle} {context : CachedContext}
      (hcall : s.calls[call]? = some ⟨req, .lookup h⟩)
      (hfound : (s.lookup cfg req h now).1 = some context) :
      Step cfg s (.lookup call now .resetOk) ((s.lookup cfg req h now).2.setPc call
        (.exec h true { context with reuseCount := context.reuseCount + 1 }))
  | cold {call now : Nat} {req : PinnedExecuteRequest} {h : Handle}
      (hcall : s.calls[call]? = some ⟨req, .lookup h⟩) :
      Step cfg s (.lookup call now .created)
        (({ (s.lookup cfg req h now).2 with nextContext := s.nextContext + 1 } : State).setPc call
          (.exec h false ⟨s.nextContext, req.workerId, req.version, 1, now, req.envUpdatedAt⟩))
  | notCreated {call now : Nat} {reason : TerminationReason} {req : PinnedExecuteRequest}
      {h : Handle} (hcall : s.calls[call]? = some ⟨req, .lookup h⟩) :
      Step cfg s (.lookup call now (.creationFailed reason))
        ((s.lookup cfg req h now).2.finish cfg call h (.error reason))
  | ran {call : Nat} {req : PinnedExecuteRequest} {h : Handle} {warm : Bool}
      {context : CachedContext} (hcall : s.calls[call]? = some ⟨req, .exec h warm context⟩) :
      Step cfg s (.exec call (.ok ())) (s.setPc call (.drain h warm context))
  | failed {call : Nat} {reason : TerminationReason} {req : PinnedExecuteRequest} {h : Handle}
      {warm : Bool} {context : CachedContext}
      (hcall : s.calls[call]? = some ⟨req, .exec h warm context⟩) :
      Step cfg s (.exec call (.error reason)) (s.finish cfg call h (.error reason))
  | keeps {call now : Nat} {req : PinnedExecuteRequest} {h : Handle} {warm : Bool}
      {context : CachedContext} (hcall : s.calls[call]? = some ⟨req, .drain h warm context⟩)
      (hkeep : keepContext context.reuseCount cfg.maxContextReuses cfg.maxCachedContexts = true) :
      Step cfg s (.drain call now (.ok ()))
        (s.setPc call (.save h warm { context with lastUsed := now }))
  | drops {call now : Nat} {outcome : Outcome} {req : PinnedExecuteRequest} {h : Handle}
      {warm : Bool} {context : CachedContext}
      (hcall : s.calls[call]? = some ⟨req, .drain h warm context⟩) :
      Step cfg s (.drain call now outcome) (s.finish cfg call h (.ok ()))
  | saved {call now : Nat} {req : PinnedExecuteRequest} {h : Handle} {warm : Bool}
      {context : CachedContext} (hcall : s.calls[call]? = some ⟨req, .save h warm context⟩) :
      Step cfg s (.save call now)
        ((s.save h (stamped warm context now)).finish cfg call h (.ok ()))
  | dropped {call : Nat} {c : Call} {h : Handle} (hcall : s.calls[call]? = some c)
      (hslot : c.pc.slot = some h) : Step cfg s (.drop call) (s.setPc call (.dropped h))
  | lateLookup {call now : Nat} {req : PinnedExecuteRequest} {h : Handle}
      (hcall : s.calls[call]? = some ⟨req, .lookup h⟩) :
      Step cfg s (.unwind call now true)
        ((s.lookup cfg req h now).2.setPc call (.unwound (some h)))
  | lateSave {call now : Nat} {req : PinnedExecuteRequest} {h : Handle} {warm : Bool}
      {context : CachedContext} (hcall : s.calls[call]? = some ⟨req, .save h warm context⟩) :
      Step cfg s (.unwind call now true)
        ((s.save h (stamped warm context now)).setPc call (.unwound (some h)))
  | unwound {call now : Nat} {late : Bool} {c : Call} {h : Handle}
      (hcall : s.calls[call]? = some c) (hslot : c.pc.slot = some h) :
      Step cfg s (.unwind call now late) (s.setPc call (.unwound (some h)))

/-- **Inversion of a step.** -/
theorem of_step {cfg : PinnedPoolConfig} {s s' : State} {op : Op}
    (hstep : step cfg s op = some s') : Step cfg s op s' := by
  cases op with
  | start req now =>
      simp only [step] at hstep
      split at hstep
      · next heq =>
          cases hstep
          exact .taken heq
      · next heq =>
          cases hstep
          exact .refused heq
      · next heq =>
          cases hstep
          exact .panicked heq
  | lookup call now setup =>
      simp only [step] at hstep
      split at hstep
      · next hcall =>
          split at hstep
          · next hfound =>
              cases hstep
              exact .warm hcall hfound
          · next => cases hstep
          · next =>
              cases hstep
              exact .cold hcall
          · next =>
              cases hstep
              exact .notCreated hcall
      · next => cases hstep
  | exec call outcome =>
      simp only [step] at hstep
      split at hstep
      · next hcall =>
          split at hstep
          · next =>
              cases hstep
              exact .ran hcall
          · next =>
              cases hstep
              exact .failed hcall
      · next => cases hstep
  | drain call now outcome =>
      simp only [step] at hstep
      split at hstep
      · next hcall =>
          split at hstep
          · next =>
              split at hstep
              · next hkeep =>
                  cases hstep
                  exact .keeps hcall hkeep
              · next =>
                  cases hstep
                  exact .drops hcall
          · next =>
              cases hstep
              exact .drops hcall
      · next => cases hstep
  | save call now =>
      simp only [step] at hstep
      split at hstep
      · next hcall =>
          cases hstep
          exact .saved hcall
      · next => cases hstep
  | drop call =>
      simp only [step] at hstep
      split at hstep
      · next hcall =>
          obtain ⟨h, hslot, rfl⟩ := Option.map_eq_some_iff.mp hstep
          exact .dropped hcall hslot
      · next => cases hstep
  | unwind call now late =>
      simp only [step] at hstep
      split at hstep
      · next hcall =>
          cases hstep
          cases late with
          | false => exact .unwound hcall rfl
          | true => exact .lateLookup hcall
      · next hcall =>
          cases hstep
          cases late with
          | false => exact .unwound hcall rfl
          | true => exact .lateSave hcall
      · next hcall =>
          obtain ⟨h, hslot, rfl⟩ := Option.map_eq_some_iff.mp hstep
          exact .unwound hcall hslot
      · next => cases hstep

/-- The machine of a thread whose pool starts empty. -/
def machine (cfg : PinnedPoolConfig) : Machine State Op where
  init := ⟨.empty, [], 0⟩
  step := step cfg

end Execute

end OpenWorkers.Pool
