import OpenWorkers.Pool.Contexts

/-!
# Reuse of warm contexts

`Recorded` is the invariant that ties the state of the pool to what was noted of the run:
what a held context and a cached context have gone through, that no context is in two
places, and that caches stay within their bound.  The step lemmas follow `Handled`, one for
a call that comes in and one for a stretch of a call.
-/

namespace OpenWorkers.Pool.Execute

open List PoolPolicy

variable {cfg : PinnedPoolConfig} {s s' : State} {log : List Event}

/-- What is noted about a context that a call holds: it was built for what the call wants, on
the isolate of the call's slot, all that it served before ended well, and a call that took it
from the cache found it below the bound of reuses. -/
def Serving (cfg : PinnedPoolConfig) (log : List Event) (call : Nat) (c : Call)
    (context : CachedContext) : Prop :=
  ∃ h earlier, c.pc.slot = some h ∧
    life log context.request =
      .built c.req.wanted h c.req.ownerId :: (earlier.flatMap served ++ added call c.pc) ∧
    context.key = c.req.wanted ∧ context.reuseCount = earlier.length + 1 ∧
    (c.pc.isWarm = true → earlier.length < cfg.maxContextReuses) ∧
    (c.pc.isWarm = false → earlier = [])

/-- What is noted about a context in the cache of an isolate. -/
def Resting (log : List Event) (h : Handle) (owner : String) (context : CachedContext) : Prop :=
  ∃ earlier : List Nat,
    life log context.request = .built context.key h owner :: earlier.flatMap served ∧
    context.reuseCount = earlier.length

structure Recorded (cfg : PinnedPoolConfig) (s : State) (log : List Event) : Prop where
  slots : Inv cfg s
  /-- A call has its slot on an isolate of its owner. -/
  owner : ∀ c ∈ s.calls, ∀ h, c.pc.slot = some h → (s.pool.get h).ownerId = c.req.ownerId
  unique : s.places.Nodup
  known : ∀ id ∈ s.places, id < s.nextContext
  logged : ∀ event ∈ log, event.context < s.nextContext
  held : ∀ call c context, s.calls[call]? = some c → c.pc.context = some context →
    Serving cfg log call c context
  saving : ∀ c ∈ s.calls, c.pc.isSaving = true → 0 < cfg.maxCachedContexts
  cached : ∀ h ∈ s.pool.isolates, ∀ context ∈ (s.pool.get h).inner.cachedContexts,
    Resting log h (s.pool.get h).ownerId context
  bound : ∀ h, (s.pool.get h).inner.cachedContexts.length ≤ cfg.maxCachedContexts
  maxCached : ∀ h < s.pool.heap.length, (s.pool.get h).inner.maxCached = cfg.maxCachedContexts
  begun : ∀ id, (life log id).countP What.isBegan ≤ max 1 cfg.maxContextReuses

theorem recorded_init : Recorded cfg (machine cfg).init [] where
  slots := inv_init
  owner _ hmem := absurd hmem not_mem_nil
  unique := nodup_nil
  known _ hmem := absurd hmem not_mem_nil
  logged _ hmem := absurd hmem not_mem_nil
  held _ _ _ hget := absurd (mem_of_getElem? hget) not_mem_nil
  saving _ hmem := absurd hmem not_mem_nil
  cached _ hmem := absurd hmem not_mem_nil
  bound _ := Nat.zero_le _
  maxCached h hlt := absurd hlt (Nat.not_lt_zero h)
  begun _ := Nat.zero_le _

/-! ## Lives -/

theorem countP_served (earlier : List Nat) :
    (earlier.flatMap served).countP What.isBegan = earlier.length := by
  induction earlier with
  | nil => rfl
  | cons call earlier ih =>
      rw [flatMap_cons, countP_append, ih, length_cons, Nat.add_comm]
      rfl

/-- What is noted about other contexts adds nothing to a life. -/
theorem life_append_of_forall_ne {log events : List Event} {id : Nat}
    (h : ∀ event ∈ events, event.context ≠ id) : life (log ++ events) id = life log id := by
  rw [life_append, life_eq_nil h, append_nil]

theorem Serving.append {events : List Event} {call : Nat} {c : Call} {context : CachedContext}
    (h : Serving cfg log call c context)
    (hother : ∀ event ∈ events, event.context ≠ context.request) :
    Serving cfg (log ++ events) call c context := by
  unfold Serving at h ⊢
  rwa [life_append_of_forall_ne hother]

theorem Resting.append {events : List Event} {h : Handle} {owner : String}
    {context : CachedContext} (hrest : Resting log h owner context)
    (hother : ∀ event ∈ events, event.context ≠ context.request) :
    Resting (log ++ events) h owner context := by
  unfold Resting at hrest ⊢
  rwa [life_append_of_forall_ne hother]

/-- Events that begin nothing leave every count of begun events alone. -/
theorem countP_life_append {log events : List Event} {id : Nat}
    (h : ∀ event ∈ events, event.what.isBegan = false) :
    (life (log ++ events) id).countP What.isBegan = (life log id).countP What.isBegan := by
  rw [life_append, countP_append, Nat.add_eq_left, countP_eq_zero]
  intro what hmem
  obtain ⟨event, hevent, heq⟩ := mem_filterMap.mp hmem
  split at heq
  · cases heq
    rw [h event hevent]
    exact Bool.false_ne_true
  · cases heq

/-! ## A call comes in -/

/-- A call that begins brings no context, and an isolate that is dropped for it takes its own with
it. -/
theorem places_started {req : PinnedExecuteRequest} {pc : Pc} (hs : Recorded cfg s log)
    (hcontext : pc.context = none) (hpool : Grown cfg s.pool s'.pool)
    (hcalls : s'.calls = s.calls ++ [⟨req, pc⟩]) : s'.places.Subperm s.places := by
  have hvalid : ∀ h ∈ s.pool.isolates, h < s.pool.heap.length := hs.slots.valid
  obtain ⟨kept, hkept, hisolates⟩ := hpool.isolates
  have hheld : s'.held = s.held := by
    simp [State.held, hcalls, Pc.holds, hcontext]
  rw [State.places, hheld]
  refine (subperm_append_left _).mpr ?_
  have hkeeps : (kept.flatMap fun h => (s'.pool.get h).inner.ids).Subperm s.cached := by
    refine List.Subperm.trans (List.Perm.of_eq (flatMap_congr ?_)).subperm
      (hkept.flatMap _).subperm
    intro h hmem
    rw [hpool.inner h (hvalid h (hkept.subset hmem))]
  have hnew : (s'.pool.get s.pool.heap.length).inner.ids = [] := by
    rw [TaggedIsolateInner.ids, hpool.empty _ le_rfl]
    rfl
  rw [State.cached]
  rcases hisolates with heq | heq
  · rwa [heq]
  · rwa [heq, flatMap_append, flatMap_singleton, hnew, append_nil]

theorem recorded_started {req : PinnedExecuteRequest} {pc : Pc} (hs : Recorded cfg s log)
    (hslots : Inv cfg s') (hcontext : pc.context = none)
    (howner : ∀ h, pc.slot = some h → (s'.pool.get h).ownerId = req.ownerId)
    (hpool : Grown cfg s.pool s'.pool) (hcalls : s'.calls = s.calls ++ [⟨req, pc⟩])
    (hnext : s'.nextContext = s.nextContext) : Recorded cfg s' log := by
  have hplaces := places_started hs hcontext hpool hcalls
  obtain ⟨kept, hkept, hisolates⟩ := hpool.isolates
  have hold : ∀ h ∈ s'.pool.isolates, h < s.pool.heap.length → h ∈ s.pool.isolates := by
    intro h hmem hlt
    rcases hisolates with heq | heq
    · exact hkept.subset (heq ▸ hmem)
    · rw [heq, mem_append, mem_singleton] at hmem
      exact hmem.elim (hkept.subset ·) fun h => absurd h hlt.ne
  have hcall : ∀ (call : Nat) (c : Call), s'.calls[call]? = some c →
      s.calls[call]? = some c ∨ c = ⟨req, pc⟩ := by
    intro call c hget
    rcases of_getElem?_concat (hcalls ▸ hget) with ⟨-, hc⟩ | hget
    · exact .inr hc
    · exact .inl hget
  refine ⟨hslots, ?_, ?_, ?_, ?_, ?_, ?_, ?_, ?_, ?_, hs.begun⟩
  · intro c hmem h hslot
    rw [hcalls, mem_append, mem_singleton] at hmem
    rcases hmem with hmem | rfl
    · obtain ⟨call, hget⟩ := mem_iff_getElem?.mp hmem
      rw [hpool.owner h (hs.slots.slot_valid hget hslot)]
      exact hs.owner c hmem h hslot
    · exact howner h hslot
  · exact nodup_of_subperm hplaces hs.unique
  · intro id hid
    rw [hnext]
    exact hs.known id (hplaces.subset hid)
  · rw [hnext]
    exact hs.logged
  · intro call c context hget hheld
    rcases hcall call c hget with hget | rfl
    · exact hs.held call c context hget hheld
    · rw [hcontext] at hheld
      cases hheld
  · intro c hmem hsaving
    rw [hcalls, mem_append, mem_singleton] at hmem
    rcases hmem with hmem | rfl
    · exact hs.saving c hmem hsaving
    · obtain ⟨context, hheld⟩ := Pc.context_of_isSaving hsaving
      rw [hcontext] at hheld
      cases hheld
  · intro h hmem context hcached
    rcases lt_or_ge h s.pool.heap.length with hlt | hge
    · rw [hpool.inner h hlt] at hcached
      rw [hpool.owner h hlt]
      exact hs.cached h (hold h hmem hlt) context hcached
    · rw [hpool.empty h hge] at hcached
      cases hcached
  · intro h
    rcases lt_or_ge h s.pool.heap.length with hlt | hge
    · rw [hpool.inner h hlt]
      exact hs.bound h
    · rw [hpool.empty h hge]
      exact Nat.zero_le _
  · intro h hlt'
    rcases lt_or_ge h s.pool.heap.length with hlt | hge
    · rw [hpool.inner h hlt]
      exact hs.maxCached h hlt
    · exact (hpool.fresh h hge hlt').2

/-! ## A stretch of a call -/

section Moved

variable {call : Nat} {c : Call} {pc : Pc} {h : Handle} {inner : TaggedIsolateInner}
  {events : List Event} {focus new : List Nat}

/-- The ledger: a stretch moves contexts, drops some, and may add the one it builds. -/
theorem places_stretch (hs : Inv cfg s) (hcall : s.calls[call]? = some c)
    (hslot : c.pc.slot = some h) (hpool : Recached h inner s.pool s'.pool)
    (hcalls : s'.calls = s.calls.modify call fun c => { c with pc })
    (hfocus : Focus c (s.pool.get h) inner s.nextContext pc events s'.nextContext focus new) :
    s'.places.Subperm (focus ++ inner.ids ++ s.others call h) ∧
      (focus ++ inner.ids ++ s.others call h).Subperm (new ++ s.places) := by
  constructor
  · refine (places_moved hs hcall hslot hpool hcalls).trans ?_
    exact ((hfocus.holds.append_right _).append_right _).subperm
  · have hplaces := places_perm hcall (hs.slot_pooled hcall hslot)
    refine List.Subperm.trans ?_ (hplaces.symm.append_left new).subperm
    rw [← append_assoc new]
    exact (subperm_append_right _).mpr hfocus.sub

/-- The contexts before a stretch and the one it builds are all different. -/
theorem nodup_new (hs : Recorded cfg s log)
    (hfocus : Focus c (s.pool.get h) inner s.nextContext pc events s'.nextContext focus new) :
    (new ++ s.places).Nodup := by
  rcases hfocus.new with ⟨rfl, -⟩ | ⟨rfl, -⟩
  · exact hs.unique
  · refine nodup_cons.mpr ⟨fun hmem => ?_, hs.unique⟩
    exact (hs.known _ hmem).false

theorem lt_next (hs : Recorded cfg s log)
    (hfocus : Focus c (s.pool.get h) inner s.nextContext pc events s'.nextContext focus new)
    {id : Nat} (hmem : id ∈ new ++ s.places) : id < s'.nextContext := by
  rcases hfocus.new with ⟨rfl, hnext⟩ | ⟨rfl, hnext⟩
  · rw [hnext]
    exact hs.known id hmem
  · rw [hnext, Nat.lt_succ_iff]
    rcases mem_cons.mp hmem with rfl | hmem
    · exact le_rfl
    · exact (hs.known id hmem).le

/-- What the call holds after the stretch. -/
theorem Stretch.serving {next' : Nat} {context : CachedContext} (hs : Recorded cfg s log)
    (hcall : s.calls[call]? = some c) (hslot : c.pc.slot = some h)
    (hstretch : Stretch cfg call c h (s.pool.get h) inner s.nextContext pc events next')
    (hcontext : pc.context = some context) :
    Serving cfg (log ++ events) call { c with pc } context := by
  have howner := hs.owner c (mem_of_getElem? hcall) h hslot
  cases hstretch with
  | warm found hkey hreuses hsub =>
      cases hcontext
      have hmem := hsub.subset mem_cons_self
      obtain ⟨earlier, hlife, hcount⟩ := hs.cached h (hs.slots.slot_pooled hcall hslot) found hmem
      refine ⟨h, earlier, rfl, ?_, hkey, by rw [hcount], fun _ => hcount ▸ hreuses,
        by rintro ⟨⟩⟩
      rw [life_append, hlife, hkey, howner]
      simp [life, added]
  | cold now hsub =>
      cases hcontext
      have hnone : life log s.nextContext = [] :=
        life_eq_nil fun event hmem => (hs.logged event hmem).ne
      refine ⟨h, [], rfl, ?_, rfl, rfl, by rintro ⟨⟩, fun _ => rfl⟩
      rw [life_append, hnone, howner]
      simp [life, added]
  | goesOn held held' pc what hheld hheld' hsame hsameSlot hwarm hadded hwhat hsaving hinner =>
      rw [hheld'] at hcontext
      cases hcontext
      obtain ⟨g, earlier, hg, hlife, hkey, hcount, hreuses, hfirst⟩ :=
        hs.held call c held hcall hheld
      refine ⟨g, earlier, ?_, ?_, hsame.2.1.trans hkey, hsame.2.2.trans hcount, ?_, ?_⟩
      · exact hsameSlot.trans hg
      · rw [life_append, hsame.1, hlife]
        simp [life, hadded]
      · rwa [hwarm]
      · rwa [hwarm]
  | saved held held' pc hheld hsaving hheld' hsame hinner =>
      rw [hheld'] at hcontext
      cases hcontext
  | drops pc events hheld' hevents hsub =>
      rw [hheld'] at hcontext
      cases hcontext

/-- What is in the cache after the stretch was there before, or the call has put it there. -/
theorem Stretch.resting {next' : Nat} {context : CachedContext} (hs : Recorded cfg s log)
    (hcall : s.calls[call]? = some c) (hslot : c.pc.slot = some h)
    (hstretch : Stretch cfg call c h (s.pool.get h) inner s.nextContext pc events next')
    (hother : ∀ event ∈ events, event.context ≠ context.request)
    (hmem : context ∈ inner.cachedContexts) :
    Resting (log ++ events) h (s.pool.get h).ownerId context := by
  have hcached := hs.cached h (hs.slots.slot_pooled hcall hslot)
  cases hstretch with
  | warm found hkey hreuses hsub =>
      exact (hcached context (hsub.subset (mem_cons_of_mem _ hmem))).append hother
  | cold now hsub => exact (hcached context (hsub.subset hmem)).append hother
  | goesOn held held' pc what hheld hheld' hsame hsameSlot hwarm hadded hwhat hsaving hinner =>
      rw [hinner] at hmem
      exact (hcached context hmem).append hother
  | saved held held' pc hheld hsaving hheld' hsame hinner =>
      rw [append_nil]
      rw [hinner] at hmem
      rcases mem_cons.mp ((TaggedIsolateInner.save_subperm _ _).subset hmem) with rfl | hmem
      · obtain ⟨g, earlier, hg, hlife, hkey, hcount, -, -⟩ := hs.held call c held hcall hheld
        rw [hslot] at hg
        cases hg
        refine ⟨earlier ++ [call], ?_, ?_⟩
        · have hadded : added call c.pc = served call := by
            cases hpc : c.pc <;> rw [hpc] at hsaving <;> first | rfl | cases hsaving
          rw [hsame.1, hlife, hadded, hsame.2.1, hkey,
            hs.owner c (mem_of_getElem? hcall) h hslot]
          simp
        · rw [hsame.2.2, hcount, length_append, length_singleton]
      · exact hcached context hmem
  | drops pc events hheld' hevents hsub => exact (hcached context (hsub.subset hmem)).append hother

/-- The cache of the isolate stays within its bound. -/
theorem Stretch.length_le {next' : Nat} (hs : Recorded cfg s log)
    (hcall : s.calls[call]? = some c) (hslot : c.pc.slot = some h)
    (hstretch : Stretch cfg call c h (s.pool.get h) inner s.nextContext pc events next') :
    inner.cachedContexts.length ≤ cfg.maxCachedContexts := by
  have hbound := hs.bound h
  cases hstretch with
  | warm found hkey hreuses hsub =>
      have := hsub.length_le
      rw [length_cons] at this
      omega
  | cold now hsub => exact hsub.length_le.trans hbound
  | goesOn held held' pc what hheld hheld' hsame hsameSlot hwarm hadded hwhat hsaving hinner =>
      rwa [hinner]
  | saved held held' pc hheld hsaving hheld' hsame hinner =>
      have hmax := hs.maxCached h (hs.slots.slot_valid hcall hslot)
      have hpos := hs.saving c (mem_of_getElem? hcall) hsaving
      rw [← hmax] at hbound hpos ⊢
      rw [hinner]
      exact TaggedIsolateInner.length_save_le hpos hbound
  | drops pc events hheld' hevents hsub => exact hsub.length_le.trans hbound

/-- No context begins more events than it may. -/
theorem Stretch.countP_le {next' : Nat} (hs : Recorded cfg s log)
    (hcall : s.calls[call]? = some c) (hslot : c.pc.slot = some h)
    (hstretch : Stretch cfg call c h (s.pool.get h) inner s.nextContext pc events next')
    (id : Nat) :
    (life (log ++ events) id).countP What.isBegan ≤ max 1 cfg.maxContextReuses := by
  have hbegun := hs.begun id
  cases hstretch with
  | warm found hkey hreuses hsub =>
      by_cases hid : found.request = id
      · subst hid
        have hmem := hsub.subset mem_cons_self
        obtain ⟨earlier, hlife, hcount⟩ :=
          hs.cached h (hs.slots.slot_pooled hcall hslot) found hmem
        have hcountP : (life (log ++ [⟨found.request, .began call⟩]) found.request).countP
            What.isBegan = earlier.length + 1 := by
          rw [life_append, hlife, countP_append, countP_cons, countP_served]
          simp [life, What.isBegan]
        rw [hcountP, ← hcount]
        exact le_max_of_le_right hreuses
      · rwa [life_append_of_forall_ne (by simpa using hid)]
  | cold now hsub =>
      by_cases hid : s.nextContext = id
      · subst hid
        have hnone : life log s.nextContext = [] :=
          life_eq_nil fun event hmem => (hs.logged event hmem).ne
        rw [life_append, hnone]
        simp [life, What.isBegan]
      · rwa [life_append_of_forall_ne (by simpa using hid)]
  | goesOn held held' pc what hheld hheld' hsame hsameSlot hwarm hadded hwhat hsaving hinner =>
      rwa [countP_life_append (by simpa using hwhat)]
  | saved held held' pc hheld hsaving hheld' hsame hinner => rwa [append_nil]
  | drops pc events hheld' hevents hsub =>
      rwa [countP_life_append fun event hmem => (hevents event hmem).2]

theorem Stretch.saving {next' : Nat}
    (hstretch : Stretch cfg call c h (s.pool.get h) inner s.nextContext pc events next')
    (hsaving : pc.isSaving = true) : 0 < cfg.maxCachedContexts := by
  obtain ⟨context, hcontext⟩ := Pc.context_of_isSaving hsaving
  cases hstretch with
  | warm => cases hsaving
  | cold => cases hsaving
  | goesOn held held' pc what hheld hheld' hsame hsameSlot hwarm hadded hwhat hkeeps hinner =>
      exact hkeeps hsaving
  | saved held held' pc hheld hsaved hheld' hsame hinner =>
      rw [hheld'] at hcontext
      cases hcontext
  | drops pc events hheld' hevents hsub =>
      rw [hheld'] at hcontext
      cases hcontext

theorem recorded_moved (hs : Recorded cfg s log) (hslots : Inv cfg s')
    (hcall : s.calls[call]? = some c) (hslot : c.pc.slot = some h)
    (hslot' : ∀ g, pc.slot = some g → g = h) (hpool : Recached h inner s.pool s'.pool)
    (hmax : inner.maxCached = (s.pool.get h).inner.maxCached)
    (hcalls : s'.calls = s.calls.modify call fun c => { c with pc })
    (hstretch : Stretch cfg call c h (s.pool.get h) inner s.nextContext pc events s'.nextContext)
    (hfocus : Focus c (s.pool.get h) inner s.nextContext pc events s'.nextContext focus new) :
    Recorded cfg s' (log ++ events) := by
  obtain ⟨hplaces, hledger⟩ := places_stretch hs.slots hcall hslot hpool hcalls hfocus
  have hnodup : (focus ++ inner.ids ++ s.others call h).Nodup :=
    nodup_of_subperm hledger (nodup_new hs hfocus)
  -- The contexts elsewhere are not those that the stretch is about.
  have hother : ∀ id ∈ inner.ids ++ s.others call h, ∀ event ∈ events, event.context ≠ id := by
    rintro _ hid event hmem rfl
    rw [append_assoc] at hnodup
    exact disjoint_of_nodup_append hnodup (hfocus.events event hmem) hid
  have hget : ∀ k c', s'.calls[k]? = some c' →
      k = call ∧ c' = { c with pc } ∨ k ≠ call ∧ s.calls[k]? = some c' := by
    intro k c' hk
    rcases of_getElem?_modify (hcalls ▸ hk) with ⟨rfl, c'', hc, rfl⟩ | hk
    · cases hcall.symm.trans hc
      exact .inl ⟨rfl, rfl⟩
    · exact .inr hk
  have hnext : s.nextContext ≤ s'.nextContext := by
    rcases hfocus.new with ⟨-, heq⟩ | ⟨-, heq⟩ <;> omega
  refine ⟨hslots, ?_, ?_, ?_, ?_, ?_, ?_, ?_, ?_, ?_, hstretch.countP_le hs hcall hslot⟩
  · intro c' hmem g hg
    obtain ⟨k, hk⟩ := mem_iff_getElem?.mp hmem
    rw [hpool.owner]
    rcases hget k c' hk with ⟨rfl, rfl⟩ | ⟨-, hk⟩
    · rw [hslot' g hg]
      exact hs.owner c (mem_of_getElem? hcall) h hslot
    · exact hs.owner c' (mem_of_getElem? hk) g hg
  · exact nodup_of_subperm hplaces hnodup
  · intro id hid
    exact lt_next hs hfocus (hledger.subset (hplaces.subset hid))
  · intro event hmem
    rcases mem_append.mp hmem with hmem | hmem
    · exact (hs.logged event hmem).trans_le hnext
    · refine lt_next hs hfocus (hledger.subset ?_)
      rw [append_assoc]
      exact mem_append_left _ (hfocus.events event hmem)
  · intro k c' context hk hcontext
    rcases hget k c' hk with ⟨rfl, rfl⟩ | ⟨hne, hk⟩
    · exact hstretch.serving hs hcall hslot hcontext
    · refine (hs.held k c' context hk hcontext).append (hother _ ?_)
      exact mem_append_right _ (mem_others_of_call hk hne hcontext)
  · intro c' hmem hsaving
    obtain ⟨k, hk⟩ := mem_iff_getElem?.mp hmem
    rcases hget k c' hk with ⟨rfl, rfl⟩ | ⟨-, hk⟩
    · exact hstretch.saving hsaving
    · exact hs.saving c' (mem_of_getElem? hk) hsaving
  · intro g hg context hmem
    rw [hpool.owner]
    rcases eq_or_ne g h with rfl | hne
    · rw [hpool.inner_self] at hmem
      refine hstretch.resting hs hcall hslot (hother _ ?_) hmem
      exact mem_append_left _ (mem_map_of_mem hmem)
    · rw [hpool.inner_ne g hne] at hmem
      have hpooled := hpool.isolates.subset hg
      refine (hs.cached g hpooled context hmem).append (hother _ ?_)
      exact mem_append_right _ (mem_others_of_cached hpooled hne hmem)
  · intro g
    rcases eq_or_ne g h with rfl | hne
    · rw [hpool.inner_self]
      exact hstretch.length_le hs hcall hslot
    · rw [hpool.inner_ne g hne]
      exact hs.bound g
  · intro g hlt
    rw [hpool.length] at hlt
    rcases eq_or_ne g h with rfl | hne
    · rw [hpool.inner_self, hmax]
      exact hs.maxCached g hlt
    · rw [hpool.inner_ne g hne]
      exact hs.maxCached g hlt

end Moved

/-! ## Runs -/

theorem recorded_step (s : State) (log : List Event) (op : Op) (s' : State)
    (hs : Recorded cfg s log) (hstep : step cfg s op = some s') :
    Recorded cfg s' (log ++ observe cfg s op) := by
  have hslots := inv_step s op s' hs.slots hstep
  cases handled_step hs.slots hstep with
  | started req pc hcontext howner hpool hcalls hnext hevents =>
      rw [hevents, append_nil]
      exact recorded_started hs hslots hcontext howner hpool hcalls hnext
  | moved call c pc h inner hcall hslot hslot' hpool hmax hcalls hstretch =>
      obtain ⟨focus, new, hfocus⟩ := hstretch.focus
      exact recorded_moved hs hslots hcall hslot hslot' hpool hmax hcalls hstretch hfocus

/-- A context that is nowhere stays nowhere. -/
theorem dropped_step {id : Nat} {op : Op} (hs : Recorded cfg s log)
    (hstep : step cfg s op = some s') (hid : id < s.nextContext) (hdropped : id ∉ s.places) :
    id < s'.nextContext ∧ id ∉ s'.places := by
  cases handled_step hs.slots hstep with
  | started req pc hcontext howner hpool hcalls hnext hevents =>
      refine ⟨hnext ▸ hid, fun hmem => hdropped ?_⟩
      exact (places_started hs hcontext hpool hcalls).subset hmem
  | moved call c pc h inner hcall hslot hslot' hpool hmax hcalls hstretch =>
      obtain ⟨focus, new, hfocus⟩ := hstretch.focus
      obtain ⟨hplaces, hledger⟩ := places_stretch hs.slots hcall hslot hpool hcalls hfocus
      rcases hfocus.new with ⟨rfl, hnext⟩ | ⟨rfl, hnext⟩
      · refine ⟨by omega, fun hmem => hdropped ?_⟩
        exact hledger.subset (hplaces.subset hmem)
      · refine ⟨by omega, fun hmem => ?_⟩
        rcases mem_cons.mp (hledger.subset (hplaces.subset hmem)) with rfl | hmem
        · exact hid.false
        · exact hdropped hmem

theorem dropped_run {id : Nat} {ops : List Op} {t : State} (hs : Recorded cfg s log)
    (hid : id < s.nextContext) (hdropped : id ∉ s.places)
    (hrun : (machine cfg).runFrom s ops = some t) : id ∉ t.places := by
  have hinv : (∃ log, Recorded cfg t log) ∧ id < t.nextContext ∧ id ∉ t.places := by
    refine Machine.invariant_from (I := fun s =>
      (∃ log, Recorded cfg s log) ∧ id < s.nextContext ∧ id ∉ s.places)
        ?_ ⟨⟨log, hs⟩, hid, hdropped⟩
      hrun
    rintro s op s' ⟨⟨log, hs⟩, hid, hdropped⟩ hstep
    exact ⟨⟨_, recorded_step s log op s' hs hstep⟩, dropped_step hs hstep hid hdropped⟩
  exact hinv.2.2

/-- A call holds its context alone. -/
theorem Recorded.holds_alone (hs : Recorded cfg s log) {call other : Nat} {c d : Call}
    {context context' : CachedContext} (hcall : s.calls[call]? = some c)
    (hcontext : c.pc.context = some context) (hother : s.calls[other]? = some d)
    (hcontext' : d.pc.context = some context') (heq : context'.request = context.request) :
    other = call := by
  obtain ⟨h, earlier, hslot, -⟩ := hs.held call c context hcall hcontext
  by_contra hne
  have hnodup := (places_perm hcall (hs.slots.slot_pooled hcall hslot)).nodup_iff.mp hs.unique
  have hmem : context'.request ∈ s.others call h := mem_others_of_call hother hne hcontext'
  rw [Pc.holds, hcontext, Option.map_some, ← heq] at hnodup
  exact disjoint_of_nodup_append hnodup (mem_append_left _ mem_cons_self) hmem

/-- **Warm contexts are reused safely.**  After every run, a call that runs on a cached
context has one that was built for the worker, the version and the environment it wants, on
an isolate of its owner; every event that the context served before ended well, with its
`waitUntil` work, and there were fewer than `maxContextReuses` of them; and no other call
holds it.  So no context begins more than `max 1 maxContextReuses` events.  No cache is past
its bound, and a context that was ever built is in one place, or in none for good. -/
theorem warm_contexts_reused_safely (cfg : PinnedPoolConfig) (ops : List Op) (s : State)
    (hrun : (machine cfg).run ops = some s) :
    (∀ call c context, s.calls[call]? = some c → c.pc.context = some context →
      c.pc.isWarm = true →
        (∃ (h : Handle) (earlier : List Nat), c.pc.slot = some h ∧
          (s.pool.get h).ownerId = c.req.ownerId ∧
          life ((machine cfg).log (observe cfg) ops) context.request =
            .built c.req.wanted h c.req.ownerId :: (earlier.flatMap served ++ added call c.pc) ∧
          earlier.length < cfg.maxContextReuses) ∧
        ∀ other d, s.calls[other]? = some d → d.pc.holds = some context.request →
          other = call) ∧
    (∀ id, (life ((machine cfg).log (observe cfg) ops) id).countP What.isBegan ≤
      max 1 cfg.maxContextReuses) ∧
    (∀ h, (s.pool.get h).inner.cachedContexts.length ≤ cfg.maxCachedContexts) ∧
    ∀ id, life ((machine cfg).log (observe cfg) ops) id ≠ [] →
      s.held.count id + s.cached.count id = 1 ∨
        s.held.count id + s.cached.count id = 0 ∧ ∀ more t,
          (machine cfg).runFrom s more = some t → t.held.count id + t.cached.count id = 0 := by
  have hs : Recorded cfg s ((machine cfg).log (observe cfg) ops) :=
    Machine.invariant_log recorded_init recorded_step hrun
  refine ⟨?_, hs.begun, hs.bound, ?_⟩
  · intro call c context hcall hcontext hwarm
    obtain ⟨h, earlier, hslot, hlife, -, -, hreuses, -⟩ := hs.held call c context hcall hcontext
    refine ⟨⟨h, earlier, hslot, ?_, hlife, hreuses hwarm⟩, ?_⟩
    · exact hs.owner c (mem_of_getElem? hcall) h hslot
    · intro other d hother hholds
      obtain ⟨context', hcontext', heq⟩ := Option.map_eq_some_iff.mp hholds
      exact hs.holds_alone hcall hcontext hother hcontext' heq
  · intro id hlife
    have hid : id < s.nextContext := by
      by_contra hge
      refine hlife (life_eq_nil fun event hmem heq => hge ?_)
      rw [← heq]
      exact hs.logged event hmem
    have hcount : ∀ t : State, t.held.count id + t.cached.count id = t.places.count id := by
      intro t
      rw [State.places, count_append]
    simp only [hcount, count_eq_zero]
    by_cases hmem : id ∈ s.places
    · exact .inl (count_eq_one_of_mem hs.unique hmem)
    · exact .inr ⟨hmem, fun more t => dropped_run hs hid hmem⟩

/-- A pool that keeps a warm context for a second event. -/
def keeping : PinnedPoolConfig := { Capacity.solo with maxContextReuses := 2 }

/-- Two calls of one worker, one after the other. -/
def twice : List Op :=
  [.start request 0, .lookup 0 1 .created, .exec 0 (.ok ()), .drain 0 2 (.ok ()), .save 0 3,
    .start request 4, .lookup 1 5 .resetOk]

/-- The second of two calls runs on the context that the first one built. -/
theorem warm_contexts_reused_safely_twice : ∃ s, (machine keeping).run twice = some s ∧
    ∃ c context, s.calls[1]? = some c ∧ c.pc.context = some context ∧ c.pc.isWarm = true ∧
      context.request = 0 ∧ ∃ (h : Handle) (earlier : List Nat), c.pc.slot = some h ∧
        (s.pool.get h).ownerId = c.req.ownerId ∧
        life ((machine keeping).log (observe keeping) twice) context.request =
          .built c.req.wanted h c.req.ownerId :: (earlier.flatMap served ++ added 1 c.pc) ∧
        earlier.length < 2 :=
  ⟨_, rfl, _, _, rfl, rfl, rfl, rfl,
    ((warm_contexts_reused_safely keeping twice _ rfl).1 1 _ _ rfl rfl rfl).1⟩

end OpenWorkers.Pool.Execute
