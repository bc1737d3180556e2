import OpenWorkers.Pool.Lookup
import OpenWorkers.Pool.Reuse
import Mathlib.Data.Int.ConditionallyCompleteOrder
import Mathlib.Data.Prod.Lex
import Mathlib.Order.ConditionallyCompleteLattice.Basic
import Mathlib.Order.WithBot

/-!
# Deployments during a rollout

A request takes the contexts of the deployments that it replaces out of the cache of its
isolate.  While a worker is rolled out, requests on both deployments come in, so the contexts of
the newer one must survive the requests on the older one.

`Older` is what the order of the deployments is meant to be: by version, then by the time of
the environment, and without an environment before any other.  `superseded` is this order but
for one case: a context *with* an environment is also superseded by a request of the same
version *without* one.  So such a pair is superseded either way around, and this pair is all
that stands between `superseded` and an order (`orders_iff_unmixed`).

A request can take a context out of the cache in two ways, and the second one looks at no key:
the lookup sweeps what it replaces, and a context that goes back to a full cache takes the place
of the one unused for longest.
-/

namespace OpenWorkers.PoolPolicy

variable {a b c : ContextKey} {keys : Set ContextKey}

/-! ## The order of deployments -/

def ContextKey.environment (key : ContextKey) : WithBot Int :=
  match key.envUpdatedAt with
  | none => ⊥
  | some updatedAt => updatedAt

/-- Where a deployment of a worker stands among the others. -/
def ContextKey.deployment (key : ContextKey) : Lex (Int × WithBot Int) :=
  toLex (key.version, key.environment)

def Older (a b : ContextKey) : Prop :=
  a.workerId = b.workerId ∧ a.deployment < b.deployment

/-- The same version of a worker, with an environment and without one. -/
def LosesEnv (a b : ContextKey) : Prop :=
  a.workerId = b.workerId ∧ a.version = b.version ∧
    a.envUpdatedAt.isSome = true ∧ b.envUpdatedAt = none

/-- Of one version of a worker, all keys have an environment or none has. -/
def Unmixed (keys : Set ContextKey) : Prop := ∀ a ∈ keys, ∀ b ∈ keys, ¬ LosesEnv a b

theorem Older.trans (hab : Older a b) (hbc : Older b c) : Older a c :=
  ⟨hab.1.trans hbc.1, hab.2.trans hbc.2⟩

theorem Older.asymm (hab : Older a b) : ¬ Older b a := fun hba => lt_asymm hab.2 hba.2

theorem older_iff : Older a b ↔ a.workerId = b.workerId ∧
    (a.version < b.version ∨ a.version = b.version ∧ a.environment < b.environment) := by
  rw [Older, ContextKey.deployment, ContextKey.deployment, Prod.Lex.toLex_lt_toLex]

theorem ContextKey.ext_deployment (hworker : a.workerId = b.workerId)
    (hdeployment : a.deployment = b.deployment) : a = b := by
  obtain ⟨hversion, henv⟩ := Prod.mk.inj (toLex_inj.mp hdeployment)
  obtain ⟨worker, version, env⟩ := a
  obtain ⟨worker', version', env'⟩ := b
  cases hworker
  cases hversion
  cases env with
  | none =>
      cases env' with
      | none => rfl
      | some time => exact absurd henv WithBot.bot_ne_coe
  | some time =>
      cases env' with
      | none => exact absurd henv WithBot.coe_ne_bot
      | some time' =>
          cases WithBot.coe_inj.mp henv
          rfl

theorem older_or_older (hworker : a.workerId = b.workerId) (hne : a ≠ b) :
    Older a b ∨ Older b a := by
  rcases lt_trichotomy a.deployment b.deployment with hlt | heq | hlt
  · exact .inl ⟨hworker, hlt⟩
  · exact absurd (ContextKey.ext_deployment hworker heq) hne
  · exact .inr ⟨hworker.symm, hlt⟩

theorem older_of_losesEnv (h : LosesEnv a b) : Older b a := by
  obtain ⟨hworker, hversion, hsome, hnone⟩ := h
  obtain ⟨time, htime⟩ := Option.isSome_iff_exists.mp hsome
  refine older_iff.mpr ⟨hworker.symm, .inr ⟨hversion.symm, ?_⟩⟩
  rw [ContextKey.environment, ContextKey.environment, hnone, htime]
  exact WithBot.bot_lt_coe time

/-- **What `superseded` says.**  It is the order, but for one case too many. -/
theorem superseded_iff : superseded a b = true ↔ Older a b ∨ LosesEnv a b := by
  rw [older_iff, LosesEnv]
  obtain ⟨worker, version, env⟩ := a
  obtain ⟨worker', version', env'⟩ := b
  by_cases hworker : worker = worker'
  · by_cases hversion : version = version'
    · cases env <;> cases env' <;> simp [superseded, ContextKey.environment, hworker, hversion]
    · simp [superseded, hworker, hversion]
  · simp [superseded, hworker]

theorem superseded_or_superseded (hworker : a.workerId = b.workerId) (hne : a ≠ b) :
    superseded a b = true ∨ superseded b a = true := by
  rcases older_or_older hworker hne with holder | holder
  · exact .inl (superseded_iff.mpr (.inl holder))
  · exact .inr (superseded_iff.mpr (.inl holder))

theorem Unmixed.superseded_iff (hkeys : Unmixed keys) (ha : a ∈ keys) (hb : b ∈ keys) :
    superseded a b = true ↔ Older a b :=
  PoolPolicy.superseded_iff.trans (or_iff_left (hkeys a ha b hb))

theorem Unmixed.asymm (hkeys : Unmixed keys) (ha : a ∈ keys) (hb : b ∈ keys)
    (hab : superseded a b = true) : superseded b a = false := by
  rw [← Bool.not_eq_true, hkeys.superseded_iff hb ha]
  exact ((hkeys.superseded_iff ha hb).mp hab).asymm

/-- The laws of a strict order on some keys. -/
structure Orders (keys : Set ContextKey) : Prop where
  asymm : ∀ a ∈ keys, ∀ b ∈ keys, superseded a b = true → superseded b a = false
  trans : ∀ a ∈ keys, ∀ b ∈ keys, ∀ c ∈ keys,
    superseded a b = true → superseded b c = true → superseded a c = true

/-- **Where `superseded` is an order.** -/
theorem orders_iff_unmixed : Orders keys ↔ Unmixed keys := by
  constructor
  · intro horders a ha b hb hloses
    have hab : superseded a b = true := superseded_iff.mpr (.inr hloses)
    have hba : superseded b a = true := superseded_iff.mpr (.inl (older_of_losesEnv hloses))
    rw [horders.asymm a ha b hb hab] at hba
    cases hba
  · intro hkeys
    refine ⟨fun a ha b hb => hkeys.asymm ha hb, fun a ha b hb c hc => ?_⟩
    rw [hkeys.superseded_iff ha hb, hkeys.superseded_iff hb hc, hkeys.superseded_iff ha hc]
    exact Older.trans

end OpenWorkers.PoolPolicy

namespace OpenWorkers.Pool

open PoolPolicy Machine

/-! ## What a request drops -/

/-- What the lookup block puts aside. -/
def TaggedIsolateInner.swept (inner : TaggedIsolateInner) (wanted : ContextKey)
    (maxReuses : Nat) : List CachedContext :=
  (lookupBlock inner.cachedContexts wanted maxReuses).superseded

/-- The context whose place another one takes. -/
def TaggedIsolateInner.evicted (inner : TaggedIsolateInner) : List CachedContext :=
  match cacheEvict (inner.cachedContexts.map CachedContext.lastUsed) inner.maxCached with
  | none => []
  | some index => inner.cachedContexts[index]?.toList

theorem TaggedIsolateInner.evicted_of_room {inner : TaggedIsolateInner}
    (h : inner.cachedContexts.length < inner.maxCached) : inner.evicted = [] := by
  rw [evicted, cacheEvict, List.length_map, if_pos h]

namespace Execute

variable {cfg : PinnedPoolConfig} {s s' t : State} {op : Op} {ops : List Op}

/-- A cached context that a request has dropped. -/
structure Drop where
  key : ContextKey
  wanted : ContextKey
deriving DecidableEq

/-- What the lookup of a call sweeps out of the cache.  The context of a warm hit leaves the cache
too, for the call itself. -/
def State.sweeps (cfg : PinnedPoolConfig) (s : State) (call : Nat) : List Drop :=
  match s.calls[call]? with
  | some ⟨req, .lookup h⟩ =>
    ((s.pool.get h).inner.swept req.wanted cfg.maxContextReuses).map fun context =>
      ⟨context.key, req.wanted⟩
  | _ => []

/-- What makes room for the context of a call. -/
def State.evicts (s : State) (call : Nat) : List Drop :=
  match s.calls[call]? with
  | some ⟨req, .save h _ _⟩ => (s.pool.get h).inner.evicted.map
      fun context => ⟨context.key, req.wanted⟩
  | _ => []

/-- What a step drops, seen from the state before it. -/
def dropsOf (cfg : PinnedPoolConfig) (s : State) : Op → List Drop
  | .lookup call _ _ => s.sweeps cfg call
  | .save call _ => s.evicts call
  | .unwind call _ late => if late then s.sweeps cfg call ++ s.evicts call else []
  | .start _ _ | .exec _ _ | .drain _ _ _ | .drop _ => []

/-- The isolate into whose cache a call puts its context next. -/
def Pc.savesTo : Pc → Option Handle
  | .save h _ _ => some h
  | .lookup _ | .exec _ _ _ | .drain _ _ _ | .returned _ | .dropped _ | .unwound _ => none

/-- A context that goes back to the cache finds room there. -/
def SavesFindRoom (s : State) : Op → Prop
  | .save call _ | .unwind call _ _ => ∀ c ∈ s.calls[call]?, ∀ h ∈ Pc.savesTo c.pc,
      (s.pool.get h).inner.cachedContexts.length < (s.pool.get h).inner.maxCached
  | .start _ _ | .lookup _ _ _ | .exec _ _ | .drain _ _ _ | .drop _ => True

instance (s : State) (op : Op) : Decidable (SavesFindRoom s op) := by
  cases op <;> dsimp only [SavesFindRoom] <;> infer_instance

/-- What the requests so far have wanted. -/
def State.requested (s : State) : Set ContextKey := {key | ∃ c ∈ s.calls, c.req.wanted = key}

theorem requested_step (hs : Inv cfg s) (hstep : step cfg s op = some s') :
    s.requested ⊆ s'.requested := by
  rintro key ⟨c, hc, hkey⟩
  cases handled_step hs hstep with
  | started req pc hcontext howner hpool hcalls =>
      refine ⟨c, ?_, hkey⟩
      rw [hcalls]
      exact List.mem_append_left _ hc
  | moved call d pc h inner hcall hslot hslot' hpool hmax hcalls =>
      unfold State.requested
      rw [hcalls]
      exact List.exists_mem_modify hcall id ⟨c, hc, hkey⟩

theorem requested_runFrom (hs : Inv cfg s) (hrun : (machine cfg).runFrom s ops = some t) :
    s.requested ⊆ t.requested := by
  have hinv : Inv cfg t ∧ s.requested ⊆ t.requested := by
    refine invariant_from (I := fun u => Inv cfg u ∧ s.requested ⊆ u.requested) ?_
      ⟨hs, fun _ hkey => hkey⟩ hrun
    rintro u op u' ⟨hu, hsub⟩ hstep
    exact ⟨inv_step u op u' hu hstep, fun _ hkey => requested_step hu hstep (hsub hkey)⟩
  exact hinv.2

/-- A context is built for a request that was made. -/
theorem requested_of_built {id : Nat} {key : ContextKey} {h : Handle} {owner : String}
    (hrun : (machine cfg).run ops = some s)
    (hbuilt : ⟨id, .built key h owner⟩ ∈ (machine cfg).log (observe cfg) ops) :
    key ∈ s.requested := by
  obtain ⟨before, op, after, r, r', rfl, hbefore, hstep, hmem⟩ :=
    exists_of_mem_logFrom hrun hbuilt
  have hr : Inv cfg r := invariant inv_init inv_step hbefore
  rw [run_append hbefore] at hrun
  refine requested_runFrom hr hrun ?_
  cases op with
  | lookup call now setup =>
      simp only [observe] at hmem
      split at hmem
      · next req g hcall =>
          refine ⟨_, List.mem_of_getElem? hcall, ?_⟩
          split at hmem <;> simp at hmem
          exact hmem.2.1.symm
      · cases hmem
  | exec call outcome | drain call now outcome =>
      simp only [observe] at hmem
      split at hmem
      · simp at hmem
      · cases hmem
  | start | save | drop | unwind => cases hmem

/-- A cached context is one that was asked for. -/
theorem requested_of_cached {h : Handle} {context : CachedContext}
    (hrun : (machine cfg).run ops = some s) (hh : h ∈ s.pool.isolates)
    (hcontext : context ∈ (s.pool.get h).inner.cachedContexts) : context.key ∈ s.requested := by
  have hs : Recorded cfg s ((machine cfg).log (observe cfg) ops) :=
    invariant_log recorded_init recorded_step hrun
  obtain ⟨earlier, hlife, -⟩ := hs.cached h hh context hcontext
  have hmem : .built context.key h (s.pool.get h).ownerId ∈
      life ((machine cfg).log (observe cfg) ops) context.request := by
    rw [hlife]
    exact List.mem_cons_self
  obtain ⟨⟨id, what⟩, hevent, hwhat⟩ := List.mem_filterMap.mp hmem
  split at hwhat
  · cases hwhat
    exact requested_of_built hrun hevent
  · cases hwhat

theorem mem_sweeps {call : Nat} {drop : Drop} (h : drop ∈ s.sweeps cfg call) :
    ∃ (req : PinnedExecuteRequest) (g : Handle) (context : CachedContext),
      s.calls[call]? = some ⟨req, .lookup g⟩ ∧ context ∈ (s.pool.get g).inner.cachedContexts ∧
      superseded context.key req.wanted = true ∧ drop = ⟨context.key, req.wanted⟩ := by
  unfold State.sweeps at h
  split at h
  · next req g hcall =>
      obtain ⟨context, hmem, rfl⟩ := List.mem_map.mp h
      rw [TaggedIsolateInner.swept] at hmem
      obtain ⟨hperm, -⟩ := lookupBlock_perm (s.pool.get g).inner.cachedContexts req.wanted
        cfg.maxContextReuses
      refine ⟨req, g, context, hcall, ?_, ?_, rfl⟩
      · exact hperm.subset (List.mem_append_left _ (List.mem_append_right _ hmem))
      · exact sweep_aside (by rintro _ ⟨⟩) context hmem
  · cases h

theorem evicts_of_room {call : Nat} (h : ∀ c ∈ s.calls[call]?, ∀ h ∈ Pc.savesTo c.pc,
    (s.pool.get h).inner.cachedContexts.length < (s.pool.get h).inner.maxCached) :
    s.evicts call = [] := by
  unfold State.evicts
  split
  · next req g warm context hcall =>
      rw [TaggedIsolateInner.evicted_of_room (h _ hcall g rfl)]
      rfl
  · rfl

/-- What a step drops that finds room for what it saves. -/
theorem mem_dropsOf {drop : Drop} (hroom : SavesFindRoom s op) (h : drop ∈ dropsOf cfg s op) :
    ∃ call, drop ∈ s.sweeps cfg call := by
  cases op with
  | lookup call now setup => exact ⟨call, h⟩
  | save call now =>
      rw [dropsOf, evicts_of_room hroom] at h
      cases h
  | unwind call now late =>
      rw [dropsOf, evicts_of_room hroom, List.append_nil] at h
      split at h
      · exact ⟨call, h⟩
      · cases h
  | start | exec | drain | drop => cases h

/-- Whatever is dropped is superseded by what was wanted, and both were asked for. -/
theorem superseded_of_dropped {drop : Drop} (hrun : (machine cfg).run ops = some s)
    (hroom : (machine cfg).Meets SavesFindRoom (machine cfg).init ops)
    (hdrop : drop ∈ (machine cfg).log (dropsOf cfg) ops) :
    superseded drop.key drop.wanted = true ∧ drop.key ∈ s.requested ∧
      drop.wanted ∈ s.requested := by
  obtain ⟨before, op, after, r, r', rfl, hbefore, hstep, hmem⟩ :=
    exists_of_mem_logFrom hrun hdrop
  have hop : SavesFindRoom r op :=
    meets_iff_forall_step.mp hroom before op after r rfl hbefore
  obtain ⟨call, hmem⟩ := mem_dropsOf hop hmem
  obtain ⟨req, g, context, hcall, hcontext, hsuperseded, rfl⟩ := mem_sweeps hmem
  have hr : Inv cfg r := invariant inv_init inv_step hbefore
  rw [run_append hbefore] at hrun
  have hsub := requested_runFrom hr hrun
  refine ⟨hsuperseded, hsub ?_, hsub ⟨_, List.mem_of_getElem? hcall, rfl⟩⟩
  exact requested_of_cached hbefore (hr.slot_pooled hcall rfl) hcontext

/-- **Deployments during a rollout.**  Two deployments of a worker are comparable.  On a set of
keys, `superseded` is a strict order exactly if no two of them are one version of a worker with
an environment and without one.  And in a run whose requests are of that kind, and which never
puts a context into a full cache, no request drops the context of a deployment that supersedes
its own, so of two deployments at most one ever drops contexts of the other. -/
theorem deployments_are_ordered (keys : Set ContextKey) (cfg : PinnedPoolConfig) (ops : List Op) :
    (∀ a b : ContextKey, a.workerId = b.workerId → a ≠ b →
      superseded a b = true ∨ superseded b a = true) ∧
    (Orders keys ↔ Unmixed keys) ∧
    ∀ s, (machine cfg).run ops = some s →
      (machine cfg).Meets SavesFindRoom (machine cfg).init ops → Unmixed s.requested →
      ∀ drop ∈ (machine cfg).log (dropsOf cfg) ops, superseded drop.wanted drop.key = false ∧
        ⟨drop.wanted, drop.key⟩ ∉ (machine cfg).log (dropsOf cfg) ops := by
  refine ⟨fun _ _ => superseded_or_superseded, orders_iff_unmixed, ?_⟩
  intro s hrun hroom hkeys drop hdrop
  obtain ⟨hsuperseded, hkey, hwanted⟩ := superseded_of_dropped hrun hroom hdrop
  have hnot := hkeys.asymm hkey hwanted hsuperseded
  refine ⟨hnot, fun hback => ?_⟩
  have hsuperseded' : superseded drop.wanted drop.key = true :=
    (superseded_of_dropped hrun hroom hback).1
  rw [hnot] at hsuperseded'
  cases hsuperseded'

/-- One isolate with room for some warm contexts. -/
def roomFor (contexts : Nat) : PinnedPoolConfig :=
  { Capacity.solo with maxContextReuses := 10, maxCachedContexts := contexts }

/-- A request on some deployment of the worker, which is served and leaves its context. -/
def serves (call : Nat) (version : Int) (env : Option Int) (setup : Setup) : List Op :=
  [.start ⟨"a", "w", version, env⟩ 0, .lookup call 0 setup, .exec call (.ok ()),
    .drain call 0 (.ok ()), .save call 0]

/-- A late request on the first version, between two on the second. -/
def lateRequest : List Op :=
  serves 0 2 none .created ++ serves 1 1 none .created ++ serves 2 2 none .resetOk

theorem deployments_are_ordered_lateRequest : ∃ s, (machine (roomFor 2)).run lateRequest = some s ∧
    (machine (roomFor 2)).log (dropsOf (roomFor 2)) lateRequest =
      [⟨⟨"w", 1, none⟩, ⟨"w", 2, none⟩⟩] ∧
    ∀ drop ∈ (machine (roomFor 2)).log (dropsOf (roomFor 2)) lateRequest,
      superseded drop.wanted drop.key = false := by
  refine ⟨_, rfl, by decide, fun drop hdrop => ?_⟩
  refine ((deployments_are_ordered ∅ (roomFor 2) lateRequest).2.2 _ rfl (by decide) ?_ drop hdrop).1
  rintro _ ⟨c, hc, rfl⟩ b - ⟨-, -, hsome, -⟩
  revert c
  decide

/-- One version with an environment and without one: each request drops the context of the other
one.  And in a cache with one place, a late request on an old version drops the context of the new
one, which supersedes it. -/
theorem deployments_evict_each_other :
    superseded ⟨"w", 1, none⟩ ⟨"w", 1, some 1⟩ = true ∧
    superseded ⟨"w", 1, some 1⟩ ⟨"w", 1, none⟩ = true ∧
    (machine (roomFor 2)).log (dropsOf (roomFor 2))
        (serves 0 1 none .created ++ serves 1 1 (some 1) .created ++ serves 2 1 none .created) =
      [⟨⟨"w", 1, none⟩, ⟨"w", 1, some 1⟩⟩, ⟨⟨"w", 1, some 1⟩, ⟨"w", 1, none⟩⟩] ∧
    superseded ⟨"w", 1, none⟩ ⟨"w", 2, none⟩ = true ∧
    (machine (roomFor 1)).log (dropsOf (roomFor 1))
        (serves 0 2 none .created ++ serves 1 1 none .created) =
      [⟨⟨"w", 2, none⟩, ⟨"w", 1, none⟩⟩] := by
  decide

end Execute

end OpenWorkers.Pool
