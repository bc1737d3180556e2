import OpenWorkers.Lib.Machine
import OpenWorkers.Pool.Local
import Mathlib.Data.List.Nodup
import Mathlib.Data.List.Perm.Basic

/-!
# What the pool keeps, over every run

Two invariants carry everything that is said about the pool.

* `Accounted`: the counter of every isolate is the number of taken slots on it.  It is
  stated against an arbitrary list of taken slots, so that the calls of `execute_pinned`
  can use it with the slots they hold.
* `WithinLimits`: what the configuration bounds.

The machine of this file is a `ThreadLocalPool` on its own, under any sequence of `acquire`
and release, together with the slots that are out.
-/

namespace OpenWorkers.Pool

open List PoolPolicy

variable {cfg : PinnedPoolConfig} {p : ThreadLocalPool}

/-! ## Accounting -/

/-- The counters of the isolates are those of the list of taken `slots`. -/
structure Accounted (cfg : PinnedPoolConfig) (p : ThreadLocalPool) (slots : List Handle) :
    Prop where
  /-- An isolate is in the pool once. -/
  nodup : p.isolates.Nodup
  valid : ∀ h ∈ p.isolates, h < p.heap.length
  maxConcurrent : ∀ h < p.heap.length,
    (p.get h).concurrency.maxConcurrent = cfg.maxConcurrentPerIsolate
  active : ∀ h, p.active h = slots.count h
  bounded : ∀ h, p.active h ≤ cfg.maxConcurrentPerIsolate
  /-- An isolate with a taken slot has not left the pool. -/
  pooled : ∀ h ∈ slots, h ∈ p.isolates

namespace Accounted

variable {slots slots' : List Handle} {h : Handle}

theorem empty : Accounted cfg .empty [] where
  nodup := nodup_nil
  valid := by simp [ThreadLocalPool.empty]
  maxConcurrent := by simp [ThreadLocalPool.empty]
  active h := ThreadLocalPool.active_of_length_le (Nat.zero_le h)
  bounded h := (ThreadLocalPool.active_of_length_le (Nat.zero_le h)).trans_le (Nat.zero_le _)
  pooled := by simp

theorem perm (hacc : Accounted cfg p slots) (hperm : slots.Perm slots') :
    Accounted cfg p slots' where
  __ := hacc
  active h := (hacc.active h).trans (hperm.count_eq h)
  pooled h hh := hacc.pooled h (hperm.mem_iff.mpr hh)

theorem valid_of_mem (hacc : Accounted cfg p slots) (hh : h ∈ slots) : h < p.heap.length :=
  hacc.valid h (hacc.pooled h hh)

theorem active_pos (hacc : Accounted cfg p slots) (hh : h ∈ slots) : 0 < p.active h := by
  rw [hacc.active]
  exact count_pos_iff.mpr hh

/-- Isolates without a taken slot may leave the pool. -/
theorem sublist (hacc : Accounted cfg p slots) {isolates : List Handle}
    (hsub : isolates.Sublist p.isolates)
    (hkept : ∀ h ∈ p.isolates, p.active h ≠ 0 → h ∈ isolates) :
    Accounted cfg { p with isolates } slots where
  nodup := hacc.nodup.sublist hsub
  valid h hh := hacc.valid h (hsub.subset hh)
  maxConcurrent := hacc.maxConcurrent
  active := hacc.active
  bounded := hacc.bounded
  pooled h hh := hkept h (hacc.pooled h hh) (hacc.active_pos hh).ne'

theorem remove (hacc : Accounted cfg p slots) {index : Nat} (hget : p.isolates[index]? = some h)
    (hidle : p.active h = 0) : Accounted cfg (p.remove index) slots := by
  refine hacc.sublist (eraseIdx_sublist _ _) fun g hg hactive => ?_
  obtain ⟨i, hi⟩ := mem_iff_getElem?.mp hg
  refine mem_eraseIdx_iff_getElem?.mpr ⟨i, ?_, hi⟩
  rintro rfl
  rw [hget] at hi
  cases hi
  exact hactive hidle

/-- An isolate changes in place, its counter together with the taken slots. -/
theorem modify (hacc : Accounted cfg p slots) {f : TaggedIsolate → TaggedIsolate}
    (hh : h ∈ p.isolates)
    (hmax : (f (p.get h)).concurrency.maxConcurrent = (p.get h).concurrency.maxConcurrent)
    (hself : (f (p.get h)).concurrency.active = slots'.count h)
    (hbound : (f (p.get h)).concurrency.active ≤ cfg.maxConcurrentPerIsolate)
    (hother : ∀ g, g ≠ h → slots'.count g = slots.count g) :
    Accounted cfg (p.modify h f) slots' := by
  have hlt := hacc.valid h hh
  have hget : (p.modify h f).get h = f (p.get h) := ThreadLocalPool.get_modify_self hlt
  refine ⟨hacc.nodup, ?_, ?_, ?_, ?_, ?_⟩
  · intro g hg
    rw [ThreadLocalPool.length_heap_modify]
    exact hacc.valid g hg
  · intro g hg
    rw [ThreadLocalPool.length_heap_modify] at hg
    rcases eq_or_ne g h with rfl | hne
    · rw [hget, hmax, hacc.maxConcurrent g hg]
    · rw [ThreadLocalPool.get_modify_ne hne, hacc.maxConcurrent g hg]
  · intro g
    rcases eq_or_ne g h with rfl | hne
    · rw [ThreadLocalPool.active, hget, hself]
    · rw [ThreadLocalPool.active, ThreadLocalPool.get_modify_ne hne, hother g hne]
      exact hacc.active g
  · intro g
    rcases eq_or_ne g h with rfl | hne
    · rw [ThreadLocalPool.active, hget]
      exact hbound
    · rw [ThreadLocalPool.active, ThreadLocalPool.get_modify_ne hne]
      exact hacc.bounded g
  · intro g hg
    rcases eq_or_ne g h with rfl | hne
    · exact hh
    · refine hacc.pooled g (count_pos_iff.mp ?_)
      rw [← hother g hne]
      exact count_pos_iff.mpr hg

/-- Bookkeeping inside an isolate does not touch the counters. -/
theorem modify_inner (hacc : Accounted cfg p slots) {f : TaggedIsolate → TaggedIsolate}
    (hh : h ∈ p.isolates) (hf : ∀ i, (f i).concurrency = i.concurrency) :
    Accounted cfg (p.modify h f) slots := by
  refine hacc.modify hh ?_ ?_ ?_ fun _ _ => rfl
  · rw [hf]
  · rw [hf]
    exact hacc.active h
  · rw [hf]
    exact hacc.bounded h

/-- A new isolate comes with its first slot taken. -/
theorem push (hacc : Accounted cfg p slots) (owner : String) (now : Nat) :
    Accounted cfg (p.push (ThreadLocalPool.fresh cfg owner now)) (p.heap.length :: slots) := by
  have hself := ThreadLocalPool.get_push_self (p := p) (ThreadLocalPool.fresh cfg owner now)
  have hother : ∀ g, g ≠ p.heap.length →
      (p.push (ThreadLocalPool.fresh cfg owner now)).get g = p.get g :=
    fun g hne => ThreadLocalPool.get_push_ne _ hne
  have hnew : p.heap.length ∉ slots := fun hmem => (hacc.valid_of_mem hmem).ne rfl
  have hlen : (p.push (ThreadLocalPool.fresh cfg owner now)).heap.length = p.heap.length + 1 := by
    simp [ThreadLocalPool.push]
  refine ⟨?_, ?_, ?_, ?_, ?_, ?_⟩
  · refine nodup_append.mpr ⟨hacc.nodup, nodup_singleton _, ?_⟩
    intro g hg k hk
    rw [mem_singleton] at hk
    exact hk ▸ (hacc.valid g hg).ne
  · intro g hg
    rw [hlen]
    rcases mem_append.mp hg with hg | hg
    · exact (hacc.valid g hg).trans (Nat.lt_succ_self _)
    · rw [mem_singleton.mp hg]
      exact Nat.lt_succ_self _
  · intro g hg
    rcases eq_or_ne g p.heap.length with rfl | hne
    · rw [hself]
      rfl
    · rw [hother g hne]
      exact hacc.maxConcurrent g (by omega)
  · intro g
    rcases eq_or_ne g p.heap.length with rfl | hne
    · rw [ThreadLocalPool.active, hself, count_cons_self, count_eq_zero_of_not_mem hnew]
      rfl
    · rw [ThreadLocalPool.active, hother g hne, count_cons_of_ne hne.symm]
      exact hacc.active g
  · intro g
    rcases eq_or_ne g p.heap.length with rfl | hne
    · rw [ThreadLocalPool.active, hself]
      exact cfg.one_le_maxConcurrent
    · rw [ThreadLocalPool.active, hother g hne]
      exact hacc.bounded g
  · intro g hg
    rcases mem_cons.mp hg with rfl | hg
    · exact mem_append_right _ (mem_singleton_self _)
    · exact mem_append_left _ (hacc.pooled g hg)

/-- `acquire` takes one slot, on the isolate it answers. -/
theorem acquire (hacc : Accounted cfg p slots) {owner : String} {now : Nat} {hit : Bool}
    {p' : ThreadLocalPool} (hcase : p.acquire cfg owner now = (.ok h hit, p')) :
    Accounted cfg p' (h :: slots) := by
  have hcases := ThreadLocalPool.acquire_cases cfg p owner now
  rw [hcase] at hcases
  cases hcases with
  | reuse _ hmem howner hroom =>
      have hmax := hacc.maxConcurrent h (hacc.valid h hmem)
      have hcount := hacc.active h
      refine hacc.modify hmem rfl ?_ ?_ fun g hne => count_cons_of_ne hne.symm
      · rw [count_cons_self, ← hcount]
        rfl
      · rw [hmax] at hroom
        exact hroom
  | build => exact hacc.push owner now
  | overcommit => exact hacc.push owner now
  | evict index g hlimit hlen hget hidle =>
      exact (hacc.remove hget hidle).push owner now

end Accounted

/-! ## Reclaiming -/

/-- `reclaim` removes exactly the isolates at the positions the policy names. -/
theorem isolates_reclaim : (p.reclaim cfg).isolates =
    (p.isolates.zipIdx.filter fun q => q.2 ∉ reclaim (p.load cfg)).map Prod.fst :=
  foldl_eraseIdx_reverse _ _ reclaim_pairwise

/-- Every position the policy names is that of an isolate without a taken slot. -/
theorem idle_of_reclaim {index : Nat} (hmem : index ∈ reclaim (p.load cfg)) :
    ∃ h, p.isolates[index]? = some h ∧ p.active h = 0 := by
  obtain ⟨isolate, hget, hidle⟩ := idle_of_mem_reclaim hmem
  obtain ⟨h, hh, rfl⟩ := ThreadLocalPool.getElem?_load cfg hget
  exact ⟨h, hh, (p.get h).load_idleSince_isSome.mp hidle⟩

theorem mem_isolates_reclaim {h : Handle} : h ∈ (p.reclaim cfg).isolates ↔
    ∃ index, p.isolates[index]? = some h ∧ index ∉ reclaim (p.load cfg) := by
  rw [isolates_reclaim]
  simp [mem_zipIdx_iff_getElem?]

theorem reclaim_sublist : (p.reclaim cfg).isolates.Sublist p.isolates := by
  rw [isolates_reclaim]
  conv_rhs => rw [← zipIdx_map_fst 0 p.isolates]
  exact filter_sublist.map Prod.fst

theorem mem_reclaim_of_active {h : Handle} (hmem : h ∈ p.isolates) (hactive : p.active h ≠ 0) :
    h ∈ (p.reclaim cfg).isolates := by
  obtain ⟨index, hindex⟩ := mem_iff_getElem?.mp hmem
  refine mem_isolates_reclaim.mpr ⟨index, hindex, fun hnamed => ?_⟩
  obtain ⟨g, hg, hidle⟩ := idle_of_reclaim hnamed
  rw [hindex] at hg
  cases hg
  exact hactive hidle

/-- A pool that is past its ceiling after `reclaim` has no idle isolate left. -/
theorem busy_of_reclaim (hlen : cfg.maxPerThread < (p.reclaim cfg).isolates.length) :
    ∀ h ∈ (p.reclaim cfg).isolates, p.active h ≠ 0 := by
  intro h hmem hidle
  obtain ⟨index, hindex, hnamed⟩ := mem_isolates_reclaim.mp hmem
  have hcandidate : index ∈ (p.load cfg).idleIndices := by
    refine mem_idleIndices.mpr ⟨(p.get h).load, ?_, (p.get h).load_idleSince_isSome.mpr hidle⟩
    simp [ThreadLocalPool.load, hindex]
  -- `index` is idle and was not named, so the policy named as many as the excess.
  have hcount : (reclaim (p.load cfg)).length = p.isolates.length - cfg.maxPerThread := by
    rw [reclaim_eq_take, length_take, ThreadLocalPool.length_load]
    refine min_eq_left (not_lt.mp fun hlt => hnamed ?_)
    rw [reclaim_eq_take, ThreadLocalPool.length_load, take_of_length_le hlt.le]
    exact hcandidate
  have hnodup : (reclaim (p.load cfg)).Nodup := reclaim_pairwise.nodup
  have hshort := length_filter_zipIdx_notMem_le p.isolates hnodup fun i hi => by
    obtain ⟨g, hg, -⟩ := idle_of_reclaim hi
    exact (List.getElem?_eq_some_iff.mp hg).1
  rw [isolates_reclaim, length_map] at hlen
  omega

/-- Giving a slot back makes the counter one less and drops only idle isolates. -/
theorem Accounted.release {slots : List Handle} {h : Handle}
    (hacc : Accounted cfg p (h :: slots)) :
    Accounted cfg (p.releaseToLocalPool cfg h) slots := by
  have hmem := hacc.pooled h mem_cons_self
  have hactive : (p.get h).concurrency.active = slots.count h + 1 := by
    rw [← count_cons_self]
    exact hacc.active h
  have hbound := hacc.bounded h
  have hrelease : (p.get h).release.concurrency.active = slots.count h :=
    ConcurrencyState.release_active hactive
  have hmodified : Accounted cfg (p.modify h TaggedIsolate.release) slots := by
    refine hacc.modify hmem rfl hrelease ?_ fun g hne => (count_cons_of_ne hne.symm).symm
    have hle : slots.count h + 1 ≤ cfg.maxConcurrentPerIsolate := hactive ▸ hbound
    exact hrelease.trans_le (by omega)
  exact hmodified.sublist reclaim_sublist fun g hg => mem_reclaim_of_active hg

/-! ## Limits -/

/-- What the configuration bounds. -/
structure WithinLimits (cfg : PinnedPoolConfig) (p : ThreadLocalPool) : Prop where
  owned : ∀ k, cfg.maxPerOwner = some k → ∀ owner, (p.load cfg).owned owner ≤ k
  ceiling : cfg.overcommit = false → p.isolates.length ≤ cfg.maxPerThread
  /-- Past the ceiling, every isolate is in use. -/
  busy : cfg.maxPerThread < p.isolates.length → ∀ h ∈ p.isolates, p.active h ≠ 0

theorem owned_load (owner : String) : (p.load cfg).owned owner =
    p.isolates.countP fun h => (p.get h).ownerId = owner := by
  rw [PoolLoad.owned, ThreadLocalPool.load, countP_map]
  rfl

/-- Isolates that keep their owner and leave the pool keep an owner within its limit. -/
theorem owned_le_of_sublist {p' : ThreadLocalPool} (hsub : p'.isolates.Sublist p.isolates)
    (howner : ∀ h ∈ p'.isolates, (p'.get h).ownerId = (p.get h).ownerId) (owner : String) :
    (p'.load cfg).owned owner ≤ (p.load cfg).owned owner := by
  rw [owned_load, owned_load, countP_congr (q := fun h => (p.get h).ownerId = owner)]
  · exact hsub.countP_le
  · intro h hh
    rw [howner h hh]

theorem owned_push {slots : List Handle} (hacc : Accounted cfg p slots) (owner o : String)
    (now : Nat) : ((p.push (ThreadLocalPool.fresh cfg owner now)).load cfg).owned o =
      (p.load cfg).owned o + if owner = o then 1 else 0 := by
  have hold : p.isolates.countP
      (fun h => ((p.push (ThreadLocalPool.fresh cfg owner now)).get h).ownerId = o) =
      p.isolates.countP fun h => (p.get h).ownerId = o := by
    refine countP_congr fun h hh => ?_
    rw [ThreadLocalPool.get_push_ne _ (hacc.valid h hh).ne]
  rw [owned_load, owned_load, ThreadLocalPool.isolates_push, countP_append, hold,
    countP_singleton, ThreadLocalPool.get_push_self]
  by_cases howner : owner = o <;> simp [ThreadLocalPool.fresh, howner]

namespace WithinLimits

variable {slots : List Handle} {h : Handle}

theorem empty : WithinLimits cfg .empty where
  owned := by simp [owned_load, ThreadLocalPool.empty]
  ceiling := by simp [ThreadLocalPool.empty]
  busy := by simp [ThreadLocalPool.empty]

/-- A new isolate for an owner under its limit, in the place of some that left. -/
theorem owned_push_le (hlim : WithinLimits cfg p) {q : ThreadLocalPool} {owner : String}
    {now : Nat} (hacc : Accounted cfg q slots)
    (hq : ∀ o, (q.load cfg).owned o ≤ (p.load cfg).owned o)
    (hlimit : ¬ (p.load cfg).AtLimit owner) (k : Nat) (hk : cfg.maxPerOwner = some k)
    (o : String) :
    ((q.push (ThreadLocalPool.fresh cfg owner now)).load cfg).owned o ≤ k := by
  rw [owned_push hacc]
  have hold := (hq o).trans (hlim.owned k hk o)
  split
  · next heq =>
      subst heq
      have hunder : (p.load cfg).owned owner < k := not_le.mp fun hle => hlimit ⟨k, hk, hle⟩
      have := hq owner
      omega
  · next => exact hold

theorem acquire (hlim : WithinLimits cfg p) (hacc : Accounted cfg p slots) (owner : String)
    (now : Nat) : WithinLimits cfg (p.acquire cfg owner now).2 := by
  have hcases := ThreadLocalPool.acquire_cases cfg p owner now
  generalize p.acquire cfg owner now = r at hcases
  cases hcases with
  | reuse h hmem howner hroom =>
      have hlt := hacc.valid h hmem
      refine ⟨fun k hk o => le_trans ?_ (hlim.owned k hk o), hlim.ceiling, fun hlen g hg => ?_⟩
      · refine owned_le_of_sublist ?_ (fun g _ => ?_) o
        · exact List.Sublist.refl p.isolates
        · rcases eq_or_ne g h with rfl | hne
          · rw [ThreadLocalPool.get_modify_self hlt, TaggedIsolate.take]
          · rw [ThreadLocalPool.get_modify_ne hne]
      · rcases eq_or_ne g h with rfl | hne
        · rw [ThreadLocalPool.active, ThreadLocalPool.get_modify_self hlt]
          exact Nat.succ_ne_zero _
        · rw [ThreadLocalPool.active, ThreadLocalPool.get_modify_ne hne]
          exact hlim.busy hlen g hg
  | build hlimit hlen =>
      refine ⟨hlim.owned_push_le hacc (fun o => le_rfl) hlimit, fun _ => ?_, fun hover => ?_⟩
      · simpa using Nat.succ_le_of_lt hlen
      · simp only [ThreadLocalPool.isolates_push, length_append, length_singleton] at hover
        omega
  | evict index h hlimit hlen hget hidle =>
      have hsub : (p.remove index).isolates.Sublist p.isolates := eraseIdx_sublist _ _
      have hacc' := hacc.remove hget hidle
      have hindex := (List.getElem?_eq_some_iff.mp hget).1
      -- An idle isolate is there to evict, so the pool is at its ceiling and not past it.
      have hat : p.isolates.length = cfg.maxPerThread := by
        refine le_antisymm (not_lt.mp fun hover => ?_) hlen
        exact hlim.busy hover h (mem_of_getElem? hget) hidle
      have hlength : ((p.remove index).push (ThreadLocalPool.fresh cfg owner now)).isolates.length =
          cfg.maxPerThread := by
        simp only [ThreadLocalPool.isolates_push, ThreadLocalPool.remove, length_append,
          length_singleton, length_eraseIdx_of_lt hindex]
        omega
      refine ⟨hlim.owned_push_le hacc' (owned_le_of_sublist hsub fun _ _ => rfl) hlimit,
        fun _ => hlength.le, fun hover => absurd hover hlength.not_gt⟩
  | overcommit hlimit hbusy hover =>
      refine ⟨hlim.owned_push_le hacc (fun o => le_rfl) hlimit, fun hno => ?_, fun _ g hg => ?_⟩
      · rw [hover] at hno
        cases hno
      · rw [ThreadLocalPool.active]
        rcases mem_append.mp hg with hg | hg
        · rw [ThreadLocalPool.get_push_ne _ (hacc.valid g hg).ne]
          exact hbusy g hg
        · rw [mem_singleton.mp hg, ThreadLocalPool.get_push_self]
          exact Nat.one_ne_zero
  | atLimit => exact hlim
  | full => exact hlim

/-- Bookkeeping inside an isolate does not touch the limits. -/
theorem modify (hlim : WithinLimits cfg p) {f : TaggedIsolate → TaggedIsolate}
    (howner : ∀ i, (f i).ownerId = i.ownerId)
    (hactive : ∀ i, (f i).concurrency = i.concurrency) : WithinLimits cfg (p.modify h f) where
  owned k hk o := by
    refine le_trans (owned_le_of_sublist ?_ (fun g _ => ?_) o) (hlim.owned k hk o)
    · exact List.Sublist.refl p.isolates
    · exact ThreadLocalPool.ownerId_modify howner
  ceiling := hlim.ceiling
  busy hlen g hg := by
    rw [ThreadLocalPool.active_modify hactive]
    exact hlim.busy hlen g hg

theorem release (hlim : WithinLimits cfg p) : WithinLimits cfg (p.releaseToLocalPool cfg h) where
  owned k hk o := by
    have hsub : (p.releaseToLocalPool cfg h).isolates.Sublist p.isolates := reclaim_sublist
    exact (owned_le_of_sublist hsub (fun _ _ => ThreadLocalPool.ownerId_release) o).trans
      (hlim.owned k hk o)
  ceiling hover := reclaim_sublist.length_le.trans (hlim.ceiling hover)
  busy := busy_of_reclaim

end WithinLimits

/-! ## The pool on its own -/

namespace Capacity

/-- A pool with the slots that are out, each with the owner it was given to. -/
structure State where
  pool : ThreadLocalPool
  slots : List (Handle × String)
  /-- An assertion of `acquire` has failed. -/
  panicked : Bool
deriving DecidableEq, Repr

inductive Op where
  | acquire (owner : String) (now : Nat)
  /-- Give back a slot taken earlier. -/
  | release (slot : Handle × String)
  /-- A request that holds a slot writes down that it is there. -/
  | note (isolate : Handle) (now : Nat)
deriving DecidableEq, Repr

def step (cfg : PinnedPoolConfig) (s : State) : Op → Option State
  | .acquire owner now =>
    match s.pool.acquire cfg owner now with
    | (.ok h _, pool) => some { s with pool, slots := (h, owner) :: s.slots }
    | (.refused _, pool) => some { s with pool }
    | (.panicked, pool) => some { s with pool, panicked := true }
  | .release slot =>
    if slot ∈ s.slots then
      some { s with
        pool := s.pool.releaseToLocalPool cfg slot.1
        slots := s.slots.erase slot }
    else
      none
  | .note h now =>
    if h ∈ s.slots.map Prod.fst then
      some { s with pool := s.pool.modify h (TaggedIsolate.noteRequest now) }
    else
      none

/-- The machine of a pool that starts empty. -/
def machine (cfg : PinnedPoolConfig) : Machine State Op where
  init := ⟨.empty, [], false⟩
  step := step cfg

/-- What holds in every reachable state. -/
structure Inv (cfg : PinnedPoolConfig) (s : State) : Prop where
  accounted : Accounted cfg s.pool (s.slots.map Prod.fst)
  limits : WithinLimits cfg s.pool
  owners : ∀ slot ∈ s.slots, (s.pool.get slot.1).ownerId = slot.2
  noPanic : s.panicked = false

theorem inv_init : Inv cfg (machine cfg).init :=
  ⟨Accounted.empty, WithinLimits.empty, by simp [machine], rfl⟩

theorem inv_acquire {s s' : State} {owner : String} {now : Nat} (hs : Inv cfg s)
    (hstep : step cfg s (.acquire owner now) = some s') : Inv cfg s' := by
  have hlimits := hs.limits.acquire hs.accounted owner now
  have howners := ThreadLocalPool.ownerId_acquire cfg s.pool owner now
  have hcases := ThreadLocalPool.acquire_cases cfg s.pool owner now
  simp only [step] at hstep
  split at hstep
  · next h hit pool heq =>
      cases hstep
      rw [heq] at hlimits howners
      refine ⟨hs.accounted.acquire heq, hlimits, ?_, hs.noPanic⟩
      intro slot hslot
      rcases mem_cons.mp hslot with rfl | hslot
      · exact howners.2 h hit rfl
      · rw [howners.1 _ (hs.accounted.valid_of_mem (mem_map_of_mem hslot))]
        exact hs.owners slot hslot
  · next refusal pool heq =>
      cases hstep
      rw [heq] at hlimits hcases
      cases hcases with
      | atLimit => exact ⟨hs.accounted, hs.limits, hs.owners, hs.noPanic⟩
      | full => exact ⟨hs.accounted, hs.limits, hs.owners, hs.noPanic⟩
  · next pool heq =>
      rw [heq] at hcases
      cases hcases

theorem inv_step (s : State) (op : Op) (s' : State) (hs : Inv cfg s)
    (hstep : step cfg s op = some s') : Inv cfg s' := by
  cases op with
  | acquire owner now => exact inv_acquire hs hstep
  | release slot =>
      simp only [step] at hstep
      split at hstep
      · next hslot =>
          cases hstep
          have hperm := (perm_cons_erase hslot).map Prod.fst
          refine ⟨(hs.accounted.perm hperm).release, hs.limits.release, ?_, hs.noPanic⟩
          intro slot' hslot'
          exact ThreadLocalPool.ownerId_release.trans (hs.owners slot' (mem_of_mem_erase hslot'))
      · next => cases hstep
  | note h now =>
      simp only [step] at hstep
      split at hstep
      · next hslot =>
          cases hstep
          refine ⟨hs.accounted.modify_inner (hs.accounted.pooled h hslot) fun _ => rfl,
            hs.limits.modify (fun _ => rfl) fun _ => rfl, ?_, hs.noPanic⟩
          intro slot hmem
          exact (ThreadLocalPool.ownerId_modify (f := TaggedIsolate.noteRequest now)
            fun _ => rfl).trans (hs.owners slot hmem)
      · next => cases hstep

/-- An isolate that leaves the pool has no taken slot. -/
theorem idle_of_removed {s s' : State} {op : Op} (hs : Inv cfg s)
    (hstep : step cfg s op = some s') {h : Handle} (hremoved : h ∉ s'.pool.isolates) :
    s'.pool.active h = 0 := by
  have hs' := inv_step s op s' hs hstep
  rw [hs'.accounted.active]
  exact count_eq_zero_of_not_mem fun hmem => hremoved (hs'.accounted.pooled h hmem)

/-- A refusal changes nothing and has a reason: no isolate of the owner has a free slot, and
the owner is at its limit or nothing in the full pool can make room. -/
theorem refused_reason {s : State} (hs : Inv cfg s) {owner : String} {now : Nat}
    {refusal : Refusal} {pool : ThreadLocalPool}
    (hrefused : s.pool.acquire cfg owner now = (.refused refusal, pool)) :
    pool = s.pool ∧
    (∀ h ∈ s.pool.isolates, (s.pool.get h).ownerId = owner →
      s.pool.active h = cfg.maxConcurrentPerIsolate) ∧
    ((∃ k, cfg.maxPerOwner = some k ∧ k ≤ (s.pool.load cfg).owned owner) ∨
      (cfg.maxPerThread ≤ s.pool.isolates.length ∧ (∀ h ∈ s.pool.isolates, s.pool.active h ≠ 0) ∧
        cfg.overcommit = false)) := by
  have hfull (hcap : (s.pool.load cfg).NoCapacity owner) : ∀ h ∈ s.pool.isolates,
      (s.pool.get h).ownerId = owner → s.pool.active h = cfg.maxConcurrentPerIsolate := by
    intro h hmem howner
    have hno := hcap (s.pool.get h).load (mem_map_of_mem hmem) howner
    rw [TaggedIsolate.load_hasCapacity, decide_eq_false_iff_not, not_lt,
      hs.accounted.maxConcurrent h (hs.accounted.valid h hmem)] at hno
    exact le_antisymm (hs.accounted.bounded h) hno
  have hcases := ThreadLocalPool.acquire_cases cfg s.pool owner now
  rw [hrefused] at hcases
  cases hcases with
  | atLimit hcap hlimit => exact ⟨rfl, hfull hcap, .inl hlimit⟩
  | full hcap hlen hbusy hover => exact ⟨rfl, hfull hcap, .inr ⟨hlen, hbusy, hover⟩⟩

/-- **Pool capacity.**  In every state a pool can reach by taking and giving back slots:
the limit of every owner and the ceiling hold, past the ceiling nothing is idle, only idle
isolates leave and `reclaim` drops exactly those its policy names, no assertion has
failed, every slot is on an isolate of its owner, and a refusal changes nothing and has
its reason. -/
theorem pool_capacity (cfg : PinnedPoolConfig) (ops : List Op) (s : State)
    (hrun : (machine cfg).run ops = some s) :
    (∀ k, cfg.maxPerOwner = some k → ∀ owner, (s.pool.load cfg).owned owner ≤ k) ∧
    (cfg.overcommit = false → s.pool.isolates.length ≤ cfg.maxPerThread) ∧
    (cfg.maxPerThread < s.pool.isolates.length → ∀ h ∈ s.pool.isolates, s.pool.active h ≠ 0) ∧
    ((∀ op s', step cfg s op = some s' → ∀ h ∈ s.pool.isolates, h ∉ s'.pool.isolates →
        s'.pool.active h = 0 ∧ ∀ owner, (h, owner) ∉ s'.slots) ∧
      ∀ p : ThreadLocalPool,
        (p.reclaim cfg).isolates =
          (p.isolates.zipIdx.filter fun q => q.2 ∉ reclaim (p.load cfg)).map Prod.fst ∧
        ∀ index ∈ reclaim (p.load cfg), ∃ h, p.isolates[index]? = some h ∧ p.active h = 0) ∧
    s.panicked = false ∧
    (∀ h owner, (h, owner) ∈ s.slots → (s.pool.get h).ownerId = owner) ∧
    ∀ owner now refusal pool, s.pool.acquire cfg owner now = (.refused refusal, pool) →
      pool = s.pool ∧
      (∀ h ∈ s.pool.isolates, (s.pool.get h).ownerId = owner →
        s.pool.active h = cfg.maxConcurrentPerIsolate) ∧
      ((∃ k, cfg.maxPerOwner = some k ∧ k ≤ (s.pool.load cfg).owned owner) ∨
        (cfg.maxPerThread ≤ s.pool.isolates.length ∧
          (∀ h ∈ s.pool.isolates, s.pool.active h ≠ 0) ∧ cfg.overcommit = false)) := by
  have hs : Inv cfg s := (machine cfg).invariant inv_init inv_step hrun
  refine ⟨hs.limits.owned, hs.limits.ceiling, hs.limits.busy, ⟨?_, ?_⟩, hs.noPanic,
    fun h owner => hs.owners (h, owner), fun _ _ _ _ => refused_reason hs⟩
  · intro op s' hstep h _ hremoved
    have hs' := inv_step s op s' hs hstep
    refine ⟨idle_of_removed hs hstep hremoved, fun owner hslot => hremoved ?_⟩
    exact hs'.accounted.pooled h (mem_map_of_mem hslot)
  · exact fun p => ⟨isolates_reclaim, fun _ => idle_of_reclaim⟩

/-- One isolate per thread, one request per isolate, and overcommit. -/
def solo : PinnedPoolConfig where
  maxPerThread := 1
  maxPerOwner := none
  maxConcurrentPerIsolate := 1
  maxCachedContexts := 1
  overcommit := true
  maxContextReuses := 1
  one_le_maxConcurrent := le_rfl

/-- Two owners at once on a pool of one: the second isolate is past the ceiling, and both
are in use. -/
theorem pool_capacity_overcommitted :
    ∃ s, (machine solo).run [.acquire "a" 0, .acquire "b" 1] = some s ∧
      s.pool.isolates = [0, 1] ∧ ∀ h ∈ s.pool.isolates, s.pool.active h ≠ 0 :=
  ⟨_, rfl, rfl, (pool_capacity solo [.acquire "a" 0, .acquire "b" 1] _ rfl).2.2.1 (by decide)⟩

end Capacity

end OpenWorkers.Pool
