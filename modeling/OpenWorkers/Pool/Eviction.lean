import OpenWorkers.Pool.Slots

/-!
# Which isolate is evicted

`execute_pinned` with a clock, and with the time at which the last request of each isolate ended,
which the code does not keep: `IsolateLoad::idle_since` is documented as that time, and what the
pool reports for it is `last_used`, written where a request *starts*.

So the pool evicts the isolate whose last request started first.  That is the one idle for longest
in the runs in which isolates become idle in the order in which their last requests started
(`InOrder`).
-/

namespace OpenWorkers.Pool

open List Option

variable {cfg : PinnedPoolConfig} {p : ThreadLocalPool} {g h : Handle}

/-! ## The time stamp of an isolate -/

namespace ThreadLocalPool

/-- `last_used` of the isolate behind a handle. -/
def lastUsed (p : ThreadLocalPool) (h : Handle) : Nat := (p.get h).inner.lastUsed

theorem lastUsed_modify {f : TaggedIsolate → TaggedIsolate}
    (hf : ∀ i, (f i).inner.lastUsed = i.inner.lastUsed) :
    (p.modify h f).lastUsed g = p.lastUsed g := by
  rcases eq_or_ne g h with rfl | hne
  · rcases lt_or_ge g p.heap.length with hlt | hge
    · rw [lastUsed, get_modify_self hlt, hf, lastUsed]
    · simp [lastUsed, get, modify, getD_eq_getElem?_getD, getElem?_eq_none hge]
  · rw [lastUsed, get_modify_ne hne, lastUsed]

/-- The isolate that changes gets a new stamp, if there is such an isolate. -/
theorem lastUsed_modify_or {f : TaggedIsolate → TaggedIsolate} {now : Nat}
    (hf : ∀ i, (f i).inner.lastUsed = now) :
    (p.modify h f).lastUsed g = p.lastUsed g ∨ (p.modify h f).lastUsed g = now := by
  rcases eq_or_ne g h with rfl | hne
  · rcases lt_or_ge g p.heap.length with hlt | hge
    · rw [lastUsed, get_modify_self hlt, hf]
      exact .inr rfl
    · left
      simp [lastUsed, get, modify, getD_eq_getElem?_getD, getElem?_eq_none hge]
  · rw [lastUsed, get_modify_ne hne]
    exact .inl rfl

theorem lastUsed_push {isolate : TaggedIsolate} {now : Nat} (hnow : isolate.inner.lastUsed = now) :
    (p.push isolate).lastUsed g = p.lastUsed g ∨ (p.push isolate).lastUsed g = now := by
  by_cases heq : g = p.heap.length
  · subst heq
    rw [lastUsed, get_push_self]
    exact .inr hnow
  · rw [lastUsed, get_push_ne _ heq]
    exact .inl rfl

theorem lastUsed_acquire (cfg : PinnedPoolConfig) (p : ThreadLocalPool) (owner : String)
    (now : Nat) (g : Handle) : (p.acquire cfg owner now).2.lastUsed g = p.lastUsed g ∨
      (p.acquire cfg owner now).2.lastUsed g = now := by
  have hcases := acquire_cases cfg p owner now
  generalize p.acquire cfg owner now = r at hcases
  cases hcases with
  | reuse h hmem howner hroom =>
      by_cases heq : g = h
      · subst heq
        left
        rcases lt_or_ge g p.heap.length with hlt | hge
        · rw [lastUsed, get_modify_self hlt]
          rfl
        · simp [lastUsed, get, modify, getD_eq_getElem?_getD, getElem?_eq_none hge]
      · left
        rw [lastUsed, get_modify_ne heq, lastUsed]
  | build => exact lastUsed_push rfl
  | evict index => exact lastUsed_push (p := p.remove index) rfl
  | overcommit => exact lastUsed_push rfl
  | atLimit => exact .inl rfl
  | full => exact .inl rfl

theorem lastUsed_release : (p.releaseToLocalPool cfg h).lastUsed g = p.lastUsed g :=
  lastUsed_modify (f := TaggedIsolate.release) fun _ => rfl

/-- The isolates that are idle once a slot has been taken were so before. -/
theorem idle_acquire {owner : String} {now : Nat} (hvalid : ∀ h ∈ p.isolates, h < p.heap.length)
    (hin : g ∈ (p.acquire cfg owner now).2.isolates)
    (hidle : (p.acquire cfg owner now).2.active g = 0) :
    g ∈ p.isolates ∧ p.active g = 0 ∧ (p.acquire cfg owner now).2.get g = p.get g := by
  have hcases := acquire_cases cfg p owner now
  generalize p.acquire cfg owner now = r at hcases hin hidle ⊢
  -- A new isolate has its first slot taken.
  have hpush {q : ThreadLocalPool} (hheap : q.heap = p.heap) (hsub : q.isolates ⊆ p.isolates)
      (hin : g ∈ (q.push (fresh cfg owner now)).isolates)
      (hidle : (q.push (fresh cfg owner now)).active g = 0) :
      g ∈ p.isolates ∧ p.active g = 0 ∧ (q.push (fresh cfg owner now)).get g = p.get g := by
    have hne : g ≠ q.heap.length := by
      rintro rfl
      rw [active, get_push_self] at hidle
      cases hidle
    have hget : (q.push (fresh cfg owner now)).get g = p.get g := by
      rw [get_push_ne _ hne, get, hheap, get]
    rw [active, hget] at hidle
    refine ⟨hsub ?_, hidle, hget⟩
    exact (mem_append.mp hin).resolve_right fun hmem => hne (mem_singleton.mp hmem)
  cases hcases with
  | reuse h hmem howner hroom =>
      have hne : g ≠ h := by
        rintro rfl
        have htaken : (p.modify g fun _ => (p.get g).take).active g = 0 := hidle
        rw [active, get_modify_self (hvalid g hmem)] at htaken
        cases htaken
      have hget : (p.modify h fun _ => (p.get h).take).get g = p.get g := get_modify_ne hne
      have hidle : (p.modify h fun _ => (p.get h).take).active g = 0 := hidle
      rw [active, hget] at hidle
      exact ⟨hin, hidle, hget⟩
  | build => exact hpush rfl (List.Subset.refl _) hin hidle
  | evict index =>
      exact hpush (q := p.remove index) rfl (eraseIdx_sublist _ _).subset hin hidle
  | overcommit => exact hpush rfl (List.Subset.refl _) hin hidle
  | atLimit => exact ⟨hin, hidle, rfl⟩
  | full => exact ⟨hin, hidle, rfl⟩

/-- An isolate whose slot goes back and that is idle then had one slot taken. -/
theorem active_of_release (hactive : 0 < p.active h) (hlt : h < p.heap.length)
    (hidle : (p.modify h TaggedIsolate.release).active h = 0) : p.active h = 1 := by
  obtain ⟨n, hn⟩ := Nat.exists_eq_succ_of_ne_zero hactive.ne'
  rw [active, get_modify_self hlt, TaggedIsolate.release,
    ConcurrencyState.release_active hn] at hidle
  rw [hn, hidle]

/-- An isolate that leaves the pool for another one to be built is the idle one with the least
stamp. -/
theorem lastUsed_le_of_evicted {owner : String} {now : Nat} (hin : h ∈ p.isolates)
    (hout : h ∉ (p.acquire cfg owner now).2.isolates) :
    p.active h = 0 ∧ ∀ g ∈ p.isolates, p.active g = 0 → p.lastUsed h ≤ p.lastUsed g := by
  have hsound := PoolPolicy.acquire_sound (p.load cfg) owner
  have hpush {q : ThreadLocalPool} (hq : h ∈ q.isolates) :
      h ∈ (q.build cfg owner now).2.isolates := by
    rw [build_eq]
    exact mem_append_left _ hq
  unfold acquire at hout
  split at hout
  · -- A slot on an isolate of the owner.
    split at hout
    · exact absurd hin hout
    · split at hout
      · exact absurd hin hout
      · exact absurd hin hout
  · exact absurd (hpush hin) hout
  · next index hacq =>
      rw [hacq] at hsound
      obtain ⟨-, -, -, isolate, since, hget, hidle, hmin⟩ := hsound
      obtain ⟨e, he, rfl⟩ := getElem?_load cfg hget
      rw [if_pos (List.getElem?_eq_some_iff.mp he).1] at hout
      have heq : h = e := ((mem_iff_mem_eraseIdx he).mp hin).resolve_right fun hmem =>
        hout (hpush (q := p.remove index) hmem)
      subst heq
      have hstamp {g : Handle} (hfree : p.active g = 0) :
          (p.get g).load.idleSince = some (p.lastUsed g) := by
        have hfree : (p.get g).isFree = true := decide_eq_true hfree
        rw [TaggedIsolate.load, if_pos hfree, lastUsed]
      have hfree : p.active h = 0 := (p.get h).load_idleSince_isSome.mp (by rw [hidle]; rfl)
      refine ⟨hfree, fun g hg hgfree => ?_⟩
      have hsince : since = p.lastUsed h := Option.some.inj (hidle.symm.trans (hstamp hfree))
      rw [← hsince]
      exact hmin _ (List.mem_map_of_mem hg) _ (hstamp hgfree)
  · exact absurd (hpush hin) hout
  · exact absurd hin hout

end ThreadLocalPool

theorem TaggedIsolate.lastUsed_lookup (i : TaggedIsolate) (wanted : PoolPolicy.ContextKey)
    (maxReuses now : Nat) : (i.lookup wanted maxReuses now).2.inner.lastUsed = now := by
  show ((i.noteRequest now).inner.lookup wanted maxReuses).2.lastUsed = now
  simp only [TaggedIsolateInner.lookup]
  split
  · rfl
  · rfl

namespace Execute

/-- The time that a step may write into an isolate. -/
def Op.stamp : Op → Option Nat
  | .start _ now | .lookup _ now _ | .unwind _ now _ => some now
  | .exec _ _ | .drain _ _ _ | .save _ _ | .drop _ => none

variable {s s' : State} {op : Op}

theorem lastUsed_finish {call : Nat} {outcome : Outcome} :
    (s.finish cfg call h outcome).pool.lastUsed g = s.pool.lastUsed g :=
  ThreadLocalPool.lastUsed_release

theorem lastUsed_save {context : CachedContext} :
    (s.save h context).pool.lastUsed g = s.pool.lastUsed g :=
  ThreadLocalPool.lastUsed_modify fun _ => rfl

theorem lastUsed_lookup (cfg : PinnedPoolConfig) (s : State) (req : PinnedExecuteRequest)
    (h : Handle) (now : Nat) (g : Handle) :
    (s.lookup cfg req h now).2.pool.lastUsed g = s.pool.lastUsed g ∨
      (s.lookup cfg req h now).2.pool.lastUsed g = now :=
  ThreadLocalPool.lastUsed_modify_or fun i => i.lastUsed_lookup _ _ now

/-- A stamp changes only to the time of the step, and only where a request starts. -/
theorem lastUsed_step (hstep : step cfg s op = some s') (h : Handle) :
    s'.pool.lastUsed h = s.pool.lastUsed h ∨ op.stamp = some (s'.pool.lastUsed h) := by
  have hacquire (req : PinnedExecuteRequest) (now : Nat) :=
    ThreadLocalPool.lastUsed_acquire cfg s.pool req.ownerId now h
  have hlookup (req : PinnedExecuteRequest) (isolate : Handle) (now : Nat) :
      (s.lookup cfg req isolate now).2.pool.lastUsed h = s.pool.lastUsed h ∨
        some now = some ((s.lookup cfg req isolate now).2.pool.lastUsed h) :=
    (lastUsed_lookup cfg s req isolate now h).imp_right fun hnow => congrArg some hnow.symm
  cases of_step hstep with
  | @taken req now _ _ pool hpool | @refused req now _ pool hpool | @panicked req now pool hpool =>
      have hstamp := hacquire req now
      rw [hpool] at hstamp
      exact hstamp.imp_right fun hnow => congrArg some hnow.symm
  | warm | cold | lateLookup => exact hlookup _ _ _
  | notCreated =>
      rw [lastUsed_finish]
      exact hlookup _ _ _
  | ran | keeps | dropped | unwound => exact .inl rfl
  | failed | drops => exact .inl lastUsed_finish
  | saved => exact .inl (lastUsed_finish.trans lastUsed_save)
  | lateSave => exact .inl lastUsed_save

/-! ## Which isolates become idle -/

/-- A call that held a slot on the isolate has returned. -/
def endsOn (s s' : State) (h : Handle) : Bool :=
  (s.calls.zip s'.calls).any fun (c, c') => c.pc.slot = some h &&
    match c'.pc with
    | .returned _ => true
    | .lookup _ | .exec _ _ _ | .drain _ _ _ | .save _ _ _ | .dropped _ | .unwound _ => false

/-- Where a call ends, a slot was taken. -/
theorem active_pos_of_endsOn (hinv : Inv cfg s) (hends : endsOn s s' h = true) :
    0 < s.pool.active h := by
  obtain ⟨⟨c, c'⟩, hmem, hslot⟩ := List.any_eq_true.mp hends
  have hslot := of_decide_eq_true (Bool.and_eq_true_iff.mp hslot).1
  refine hinv.active_pos (mem_append_left _ (mem_filterMap.mpr ⟨c, ?_, hslot⟩))
  exact (of_mem_zip hmem).1

theorem endsOn_of_returned {call : Nat} {c : Call} {outcome : Outcome}
    (hcall : s.calls[call]? = some c) (hslot : c.pc.slot = some h)
    (hcalls : s'.calls = s.calls.modify call fun c => { c with pc := .returned outcome }) :
    endsOn s s' h = true := by
  have hcall' : s'.calls[call]? = some { c with pc := .returned outcome } := by
    rw [hcalls, getElem?_modify_eq, hcall]
    rfl
  refine List.any_eq_true.mpr ⟨(c, { c with pc := .returned outcome }), ?_, ?_⟩
  · exact mem_of_getElem? (getElem?_zip_eq_some.mpr ⟨hcall, hcall'⟩)
  · rw [Bool.and_eq_true_iff]
    exact ⟨decide_eq_true hslot, rfl⟩

theorem of_endsOn (hends : endsOn s s' h = true) :
    ∃ (i : Nat) (c c' : Call) (outcome : Outcome), s.calls[i]? = some c ∧
      s'.calls[i]? = some c' ∧ c.pc.slot = some h ∧ c'.pc = .returned outcome := by
  obtain ⟨⟨c, c'⟩, hmem, hboth⟩ := List.any_eq_true.mp hends
  obtain ⟨hslot, hreturned⟩ := Bool.and_eq_true_iff.mp hboth
  obtain ⟨i, hi⟩ := mem_iff_getElem?.mp hmem
  obtain ⟨hc, hc'⟩ := getElem?_zip_eq_some.mp hi
  cases hpc : c'.pc with
  | returned outcome => exact ⟨i, c, c', outcome, hc, hc', of_decide_eq_true hslot, hpc⟩
  | _ =>
      rw [hpc] at hreturned
      cases hreturned

/-- The call that ended is the one that the step moved. -/
theorem slot_of_endsOn {call : Nat} {pc : Pc} (hends : endsOn s s' h = true)
    (hcalls : s'.calls = s.calls.modify call fun c => { c with pc }) :
    ∃ c outcome, s.calls[call]? = some c ∧ c.pc.slot = some h ∧ pc = .returned outcome := by
  obtain ⟨i, c, c', outcome, hc, hc', hslot, hpc⟩ := of_endsOn hends
  rw [hcalls] at hc'
  rcases of_getElem?_modify hc' with ⟨rfl, x, hx, rfl⟩ | ⟨-, hsame⟩
  · exact ⟨c, outcome, hc, hslot, hpc⟩
  · cases hc.symm.trans hsame
    rw [hpc] at hslot
    cases hslot

/-- No call ends where one begins. -/
theorem not_endsOn_concat {x : Call} (hcalls : s'.calls = s.calls ++ [x]) :
    ¬ endsOn s s' h = true := by
  intro hends
  obtain ⟨i, c, c', outcome, hc, hc', hslot, hpc⟩ := of_endsOn hends
  rw [hcalls, getElem?_append_left (List.getElem?_eq_some_iff.mp hc).1, hc] at hc'
  cases hc'
  rw [hpc] at hslot
  cases hslot

/-- Where a request ends in the step in which it starts, the stamp is the time of its end. -/
theorem lastUsed_of_endsOn {now : Nat} (hstep : step cfg s op = some s')
    (hends : endsOn s s' h = true) (hstamp : op.stamp = some now)
    (hvalid : h < s.pool.heap.length) :
    s'.pool.lastUsed h = now := by
  cases of_step hstep with
  | taken | refused | panicked => exact absurd hends (not_endsOn_concat rfl)
  | notCreated hcall =>
      cases hstamp
      obtain ⟨c, outcome, hc, hslot, -⟩ := slot_of_endsOn hends rfl
      cases hcall.symm.trans hc
      cases hslot
      rw [lastUsed_finish]
      show ((s.pool.modify h _).get h).inner.lastUsed = now
      rw [ThreadLocalPool.get_modify_self hvalid, TaggedIsolate.lastUsed_lookup]
  | warm | cold | lateLookup | lateSave | unwound =>
      -- The call goes on, or ends without giving its slot back.
      obtain ⟨c, outcome, -, -, hpc⟩ := slot_of_endsOn hends rfl
      cases hpc
  | ran | failed | keeps | drops | saved | dropped => cases hstamp

/-- Inside an isolate with a taken slot nothing is done to an idle one. -/
theorem InnerChange.get_of_idle {q : ThreadLocalPool} (hchange : InnerChange h p q)
    (hactive : 0 < p.active h) (hidle : q.active g = 0) :
    q.isolates = p.isolates ∧ p.active g = 0 ∧ q.get g = p.get g := by
  obtain ⟨f, hf, rfl⟩ := hchange
  rw [ThreadLocalPool.active_modify hf] at hidle
  have hne : g ≠ h := by
    rintro rfl
    exact hactive.ne' hidle
  exact ⟨rfl, hidle, ThreadLocalPool.get_modify_ne hne⟩

/-- An isolate of the pool that is idle was so before the step and has not changed, or its last
call has just ended. -/
theorem idle_step (hinv : Inv cfg s) (hstep : step cfg s op = some s')
    (hin : g ∈ s'.pool.isolates) (hidle : s'.pool.active g = 0) :
    g ∈ s.pool.isolates ∧ (s.pool.active g = 0 ∧ s'.pool.get g = s.pool.get g ∨
      s.pool.active g = 1 ∧ endsOn s s' g = true) := by
  have hpos {call : Nat} {c : Call} {h : Handle} (hcall : s.calls[call]? = some c)
      (hslot : c.pc.slot = some h) : 0 < s.pool.active h := by
    refine hinv.active_pos (mem_append_left _ (mem_filterMap.mpr ⟨c, ?_, hslot⟩))
    exact mem_of_getElem? hcall
  cases moved_step hstep with
  | taken req now h hit hkeeps hpool hcalls =>
      have hpool' : s'.pool = (s.pool.acquire cfg req.ownerId now).2 := by rw [hpool]
      rw [hpool'] at hin hidle ⊢
      obtain ⟨hbefore, hfree, hget⟩ := ThreadLocalPool.idle_acquire hinv.valid hin hidle
      exact ⟨hbefore, .inl ⟨hfree, hget⟩⟩
  | refused req outcome hkeeps hpool hcalls =>
      rw [hpool] at hin hidle ⊢
      exact ⟨hin, .inl ⟨hidle, rfl⟩⟩
  | goesOn call c pc h hkeeps hcall hslot hslot' hpool hcalls =>
      obtain ⟨hisolates, hbefore, hget⟩ := hpool.get_of_idle (hpos hcall hslot) hidle
      exact ⟨hisolates ▸ hin, .inl ⟨hbefore, hget⟩⟩
  | ends call c outcome h q hkeeps hcall hslot hinner hpool hcalls =>
      have hactive := hpos hcall hslot
      rw [hpool] at hin hidle ⊢
      have hpooled : g ∈ q.isolates :=
        (reclaim_sublist (p := q.modify h TaggedIsolate.release)).subset hin
      by_cases heq : g = h
      · subst heq
        obtain ⟨f, hf, rfl⟩ := hinner
        refine ⟨hpooled, .inr ⟨?_, endsOn_of_returned hcall hslot hcalls⟩⟩
        rw [← ThreadLocalPool.active_modify (h := g) hf] at hactive ⊢
        refine ThreadLocalPool.active_of_release hactive ?_ hidle
        rw [ThreadLocalPool.length_heap_modify]
        exact hinv.valid g hpooled
      · have hget : (q.modify h TaggedIsolate.release).get g = q.get g :=
          ThreadLocalPool.get_modify_ne heq
        have hidle : (q.modify h TaggedIsolate.release).active g = 0 := hidle
        rw [ThreadLocalPool.active, hget] at hidle
        obtain ⟨hisolates, hbefore, hsame⟩ := hinner.get_of_idle hactive hidle
        exact ⟨hisolates ▸ hpooled, .inl ⟨hbefore, hget.trans hsame⟩⟩
  | leaves call c pc h habandons hcall hslot hslot' habandoned hpool hcalls =>
      obtain ⟨hisolates, hbefore, hget⟩ := hpool.get_of_idle (hpos hcall hslot) hidle
      exact ⟨hisolates ▸ hin, .inl ⟨hbefore, hget⟩⟩

end Execute

namespace Eviction

open Execute (endsOn)

/-! ## The clock and the ends -/

structure State where
  execute : Execute.State
  now : Nat
  /-- When the last request of an isolate ended, if one has.  The code does not keep this. -/
  ended : Handle → Option Nat

namespace State

variable (s : State)

/-- The isolates of the pool with no request running. -/
def idle : List Handle := s.execute.pool.isolates.filter fun h => s.execute.pool.active h = 0

/-- The state after a step of a call. -/
def after (execute : Execute.State) : State where
  execute := execute
  now := s.now
  ended h := if endsOn s.execute execute h then some s.now else s.ended h

end State

inductive Op where
  | tick (elapsed : Nat)
  | act (op : Execute.Op)

/-- The time that a step of a call reads. -/
def time : Execute.Op → Option Nat
  | .start _ now | .lookup _ now _ | .drain _ now _ | .save _ now | .unwind _ now _ => some now
  | .exec _ _ | .drop _ => none

def step (cfg : PinnedPoolConfig) (s : State) : Op → Option State
  | .tick elapsed => some { s with now := s.now + elapsed }
  | .act op =>
    if (time op).all (· = s.now) then
      (Execute.step cfg s.execute op).map s.after
    else
      none

def machine (cfg : PinnedPoolConfig) : Machine State Op where
  init := ⟨(Execute.machine cfg).init, 0, fun _ => none⟩
  step := step cfg

/-- The end of the last request on an isolate comes after the ends on other idle isolates only if
its start came after the starts there. -/
def InOrder (cfg : PinnedPoolConfig) (s : State) : Op → Prop
  | .tick _ => True
  | .act op => op.stamp = none → ∀ execute ∈ Execute.step cfg s.execute op,
      ∀ h ∈ s.execute.pool.isolates, endsOn s.execute execute h = true →
        s.execute.pool.active h = 1 →
          ∀ g ∈ s.idle, ∀ t ∈ s.ended g, t < s.now →
            s.execute.pool.lastUsed g < s.execute.pool.lastUsed h

instance (s : State) (a : Op) : Decidable (InOrder cfg s a) := by
  cases a <;> dsimp only [InOrder] <;> infer_instance

/-! ## The order of the stamps -/

structure Ordered (cfg : PinnedPoolConfig) (s : State) : Prop where
  slots : Execute.Inv cfg s.execute
  stamped : ∀ h, s.execute.pool.lastUsed h ≤ s.now
  /-- The last request of an idle isolate has started and ended. -/
  ended : ∀ h ∈ s.idle, ∃ t, s.ended h = some t ∧ s.execute.pool.lastUsed h ≤ t ∧ t ≤ s.now
  ordered : ∀ g ∈ s.idle, ∀ h ∈ s.idle, ∀ t ∈ s.ended g, ∀ u ∈ s.ended h, t < u →
    s.execute.pool.lastUsed g < s.execute.pool.lastUsed h

theorem ordered_init : Ordered cfg (machine cfg).init where
  slots := Execute.inv_init
  stamped _ := Nat.le_refl 0
  ended _ hh := absurd hh not_mem_nil
  ordered _ hg := absurd hg not_mem_nil

variable {s : State} {op : Execute.Op} {execute : Execute.State}

theorem mem_idle : h ∈ s.idle ↔ h ∈ s.execute.pool.isolates ∧ s.execute.pool.active h = 0 := by
  rw [State.idle, mem_filter, decide_eq_true_iff]

theorem eq_now_of_stamp {now : Nat} (htime : (time op).all (· = s.now) = true)
    (hstamp : op.stamp = some now) : now = s.now := by
  have htimed : time op = some now := by
    cases op <;> first | exact hstamp | cases hstamp
  rw [htimed] at htime
  exact of_decide_eq_true htime

/-- An idle isolate was so before and has not changed, or its last request has just ended. -/
theorem idle_after (hs : Ordered cfg s) (hexecute : Execute.step cfg s.execute op = some execute)
    (hg : g ∈ (s.after execute).idle) :
    (g ∈ s.idle ∧ (s.after execute).ended g = s.ended g ∧
      execute.pool.lastUsed g = s.execute.pool.lastUsed g) ∨
    g ∈ s.execute.pool.isolates ∧ (s.after execute).ended g = some s.now ∧
      s.execute.pool.active g = 1 ∧ endsOn s.execute execute g = true := by
  obtain ⟨hin, hfree⟩ := mem_idle.mp hg
  obtain ⟨hin, ⟨hfree, hget⟩ | ⟨hone, hends⟩⟩ := Execute.idle_step hs.slots hexecute hin hfree
  · refine .inl ⟨mem_idle.mpr ⟨hin, hfree⟩, if_neg fun hends => ?_, ?_⟩
    · exact (Execute.active_pos_of_endsOn hs.slots hends).ne' hfree
    · rw [ThreadLocalPool.lastUsed, hget, ThreadLocalPool.lastUsed]
  · exact .inr ⟨hin, if_pos hends, hone, hends⟩

theorem ordered_act (hs : Ordered cfg s) (hG : InOrder cfg s (.act op))
    (htime : (time op).all (· = s.now) = true)
    (hexecute : Execute.step cfg s.execute op = some execute) : Ordered cfg (s.after execute) := by
  have hstamped (g : Handle) : execute.pool.lastUsed g ≤ s.now := by
    rcases Execute.lastUsed_step hexecute g with hsame | hstamp
    · exact hsame ▸ hs.stamped g
    · exact (eq_now_of_stamp htime hstamp).le
  have hended (g : Handle) (hg : g ∈ (s.after execute).idle) :
      ∃ t, (s.after execute).ended g = some t ∧ execute.pool.lastUsed g ≤ t ∧ t ≤ s.now := by
    rcases idle_after hs hexecute hg with ⟨hbefore, hended, hsame⟩ | ⟨-, hended, -, -⟩
    · rw [hended, hsame]
      exact hs.ended g hbefore
    · exact ⟨s.now, hended, hstamped g, Nat.le_refl _⟩
  refine ⟨Execute.inv_step _ _ _ hs.slots hexecute, hstamped, hended, ?_⟩
  intro g hg h hh t ht u hu hlt
  show execute.pool.lastUsed g < execute.pool.lastUsed h
  rw [mem_def] at ht hu
  rcases idle_after hs hexecute hg with ⟨hgidle, hgended, hgsame⟩ | ⟨-, hgended, -, -⟩
  · rw [hgended] at ht
    rcases idle_after hs hexecute hh with ⟨hhidle, hhended, hhsame⟩ | ⟨hhin, hhended, hone, hends⟩
    · rw [hhended] at hu
      rw [hgsame, hhsame]
      exact hs.ordered g hgidle h hhidle t ht u hu hlt
    · cases hhended.symm.trans hu
      rw [hgsame]
      cases hstamp : op.stamp with
      | none =>
          -- The request that ended started earlier, and its stamp is still there.
          have hsame := (Execute.lastUsed_step hexecute h).resolve_right (by rw [hstamp]; rintro ⟨⟩)
          rw [hsame]
          exact hG hstamp execute hexecute h hhin hends hone g hgidle t ht hlt
      | some now =>
          rw [Execute.lastUsed_of_endsOn hexecute hends hstamp (hs.slots.valid h hhin),
            eq_now_of_stamp htime hstamp]
          obtain ⟨t', ht', hle, -⟩ := hs.ended g hgidle
          cases ht.symm.trans ht'
          exact hle.trans_lt hlt
  · cases hgended.symm.trans ht
    obtain ⟨u', hu', -, hle⟩ := hended h hh
    cases hu.symm.trans hu'
    exact absurd hlt hle.not_gt

theorem ordered_step (s : State) (a : Op) (s' : State) (h : Ordered cfg s) (hG : InOrder cfg s a)
    (hstep : step cfg s a = some s') : Ordered cfg s' := by
  cases a with
  | tick elapsed =>
      cases hstep
      refine ⟨h.slots, fun g => (h.stamped g).trans (Nat.le_add_right _ _),
        fun g hg => ?_, h.ordered⟩
      obtain ⟨t, ht, hle, hnow⟩ := h.ended g hg
      exact ⟨t, ht, hle, hnow.trans (Nat.le_add_right _ _)⟩
  | act op =>
      obtain ⟨htime, hstep⟩ := ite_none_right_eq_some.mp hstep
      obtain ⟨execute, hexecute, rfl⟩ := map_eq_some_iff.mp hstep
      exact ordered_act h hG htime hexecute

/-! ## Evictions -/

/-- In a run in which isolates become idle in the order in which their last requests started, an
isolate that leaves the pool because a request needs its place is idle, and no other idle isolate
has been so for longer. -/
theorem evicts_the_isolate_idle_for_longest {as : List Op} {s s' : State}
    {req : PinnedExecuteRequest} {now : Nat} {h : Handle}
    (horder : (machine cfg).Meets (InOrder cfg) (machine cfg).init as)
    (hrun : (machine cfg).run as = some s) (hstart : step cfg s (.act (.start req now)) = some s')
    (hin : h ∈ s.execute.pool.isolates) (hout : h ∉ s'.execute.pool.isolates) :
    s.execute.pool.active h = 0 ∧ ∃ t, s.ended h = some t ∧
      ∀ g ∈ s.execute.pool.isolates, s.execute.pool.active g = 0 →
        ∃ u, s.ended g = some u ∧ t ≤ u := by
  have hordered := Machine.invariant_of_meets ordered_init ordered_step horder hrun
  obtain ⟨-, hstart⟩ := ite_none_right_eq_some.mp hstart
  obtain ⟨execute, hexecute, rfl⟩ := map_eq_some_iff.mp hstart
  have hout : h ∉ (s.execute.pool.acquire cfg req.ownerId now).2.isolates := by
    simp only [Execute.step] at hexecute
    split at hexecute
    all_goals
      next heq =>
        cases hexecute
        rw [heq]
        exact hout
  obtain ⟨hfree, hmin⟩ := ThreadLocalPool.lastUsed_le_of_evicted hin hout
  have hidle := mem_idle.mpr ⟨hin, hfree⟩
  obtain ⟨t, ht, -, -⟩ := hordered.ended h hidle
  refine ⟨hfree, t, ht, fun g hg hgfree => ?_⟩
  have hgidle := mem_idle.mpr ⟨hg, hgfree⟩
  obtain ⟨u, hu, -, -⟩ := hordered.ended g hgidle
  refine ⟨u, hu, not_lt.mp fun hlt => ?_⟩
  exact (hordered.ordered g hgidle h hidle u hu t ht hlt).not_ge (hmin g hg hgfree)

/-- Room for two isolates, one request each. -/
def pair : PinnedPoolConfig := ⟨2, none, 1, 0, false, 1, Nat.le_refl 1⟩

/-- A request of an owner. -/
def ask (owner : String) : PinnedExecuteRequest := ⟨owner, "w", 1, none⟩

/-- The requests of two owners start and end in the same order; that of a third takes the place of
the first. -/
def inTurn : List Op :=
  [.tick 1, .act (.start (ask "a") 1), .act (.lookup 0 1 .created), .tick 1,
    .act (.start (ask "b") 2), .act (.lookup 1 2 .created), .tick 1, .act (.exec 0 (.ok ())),
    .act (.drain 0 3 (.ok ())), .tick 7, .act (.exec 1 (.ok ())), .act (.drain 1 10 (.ok ())),
    .tick 1]

theorem evicts_the_isolate_idle_for_longest_inTurn :
    ∃ s s', (machine pair).run inTurn = some s ∧
      step pair s (.act (.start (ask "c") 11)) = some s' ∧ s.execute.pool.isolates = [0, 1] ∧
      s'.execute.pool.isolates = [1, 2] ∧ s.execute.pool.active 0 = 0 ∧
      ∃ t, s.ended 0 = some t ∧ ∀ g ∈ s.execute.pool.isolates, s.execute.pool.active g = 0 →
        ∃ u, s.ended g = some u ∧ t ≤ u := by
  have horder : (machine pair).Meets (InOrder pair) (machine pair).init inTurn := by decide
  obtain ⟨s, s', hrun, hstart, hbefore, hafter⟩ :
      ∃ s s', (machine pair).run inTurn = some s ∧
        step pair s (.act (.start (ask "c") 11)) = some s' ∧ s.execute.pool.isolates = [0, 1] ∧
        s'.execute.pool.isolates = [1, 2] := ⟨_, _, rfl, rfl, rfl, rfl⟩
  refine ⟨s, s', hrun, hstart, hbefore, hafter, ?_⟩
  refine evicts_the_isolate_idle_for_longest horder hrun hstart ?_ ?_
  · rw [hbefore]
    decide
  · rw [hafter]
    decide

/-- The request of `a` starts first and ends last: its isolate, idle since 10, is evicted, and that
of `b`, idle since 3, stays. -/
theorem evicts_the_isolate_used_last :
    ∃ s s', (machine pair).run [.tick 1, .act (.start (ask "a") 1), .act (.lookup 0 1 .created),
        .tick 1, .act (.start (ask "b") 2), .act (.lookup 1 2 .created), .tick 1,
        .act (.exec 1 (.ok ())), .act (.drain 1 3 (.ok ())), .tick 7, .act (.exec 0 (.ok ())),
        .act (.drain 0 10 (.ok ())), .tick 1] = some s ∧
      step pair s (.act (.start (ask "c") 11)) = some s' ∧ s.execute.pool.isolates = [0, 1] ∧
      s.execute.pool.active 0 = 0 ∧ s.execute.pool.active 1 = 0 ∧
      s.ended 0 = some 10 ∧ s.ended 1 = some 3 ∧ s'.execute.pool.isolates = [1, 2] :=
  ⟨_, _, rfl, rfl, rfl, rfl, rfl, rfl, rfl, rfl⟩

end Eviction

end OpenWorkers.Pool
