import OpenWorkers.Pool.Capacity
import OpenWorkers.Pool.Execute

/-!
# Slot accounting of `execute_pinned`

The counter of an isolate is the number of slots that calls in flight hold on it, *plus*
those that dropped and unwound calls left taken: `execute_pinned` gives its slot back by a
call at its end, and a call that never gets there keeps it.

`Moved` says once what a step can do to the pool and to the calls; accounting follows from
it.
-/

namespace OpenWorkers.Pool.Execute

open List

variable {cfg : PinnedPoolConfig} {s s' : State}

/-- The slots that calls in flight hold. -/
def State.slots (s : State) : List Handle := s.calls.filterMap fun c => c.pc.slot

/-- The slots that ended calls left taken. -/
def State.abandoned (s : State) : List Handle := s.calls.filterMap fun c => c.pc.abandoned

/-- The number of calls in flight that hold a slot on an isolate. -/
def State.holders (s : State) (h : Handle) : Nat := s.slots.count h

/-! ## What a step does -/

/-- A change inside one isolate that leaves its slots and its owner alone. -/
def InnerChange (h : Handle) (p p' : ThreadLocalPool) : Prop :=
  ∃ f : TaggedIsolate → TaggedIsolate,
    (∀ i, (f i).concurrency = i.concurrency) ∧ p' = p.modify h f

theorem InnerChange.refl (h : Handle) (p : ThreadLocalPool) : InnerChange h p p :=
  ⟨id, fun _ => rfl, by simp [ThreadLocalPool.modify]⟩

theorem InnerChange.lookup (cfg : PinnedPoolConfig) (s : State) (req : PinnedExecuteRequest)
    (h : Handle) (now : Nat) : InnerChange h s.pool (s.lookup cfg req h now).2.pool :=
  ⟨fun i => (i.lookup req.wanted cfg.maxContextReuses now).2, fun _ => rfl, rfl⟩

theorem InnerChange.save (s : State) (h : Handle) (context : CachedContext) :
    InnerChange h s.pool (s.save h context).pool :=
  ⟨TaggedIsolate.save context, fun _ => rfl, rfl⟩

/-- What a step does to the pool and to the calls. -/
inductive Moved (cfg : PinnedPoolConfig) (s : State) (op : Op) (s' : State) : Prop
  /-- A call takes a slot. -/
  | taken (req : PinnedExecuteRequest) (now : Nat) (h : Handle) (hit : Bool)
      (hkeeps : op.abandons = false)
      (hpool : s.pool.acquire cfg req.ownerId now = (.ok h hit, s'.pool))
      (hcalls : s'.calls = s.calls ++ [⟨req, .lookup h⟩])
  /-- A call is refused. -/
  | refused (req : PinnedExecuteRequest) (outcome : Outcome) (hkeeps : op.abandons = false)
      (hpool : s'.pool = s.pool) (hcalls : s'.calls = s.calls ++ [⟨req, .returned outcome⟩])
  /-- A call goes on to its next await. -/
  | goesOn (call : Nat) (c : Call) (pc : Pc) (h : Handle) (hkeeps : op.abandons = false)
      (hcall : s.calls[call]? = some c) (hslot : c.pc.slot = some h) (hslot' : pc.slot = some h)
      (hpool : InnerChange h s.pool s'.pool)
      (hcalls : s'.calls = s.calls.modify call fun c => { c with pc })
  /-- A call ends and gives its slot back. -/
  | ends (call : Nat) (c : Call) (outcome : Outcome) (h : Handle) (p : ThreadLocalPool)
      (hkeeps : op.abandons = false)
      (hcall : s.calls[call]? = some c) (hslot : c.pc.slot = some h)
      (hinner : InnerChange h s.pool p) (hpool : s'.pool = p.releaseToLocalPool cfg h)
      (hcalls : s'.calls = s.calls.modify call fun c => { c with pc := .returned outcome })
  /-- A call ends without giving its slot back. -/
  | leaves (call : Nat) (c : Call) (pc : Pc) (h : Handle) (habandons : op.abandons = true)
      (hcall : s.calls[call]? = some c) (hslot : c.pc.slot = some h)
      (hslot' : pc.slot = none) (habandoned : pc.abandoned = some h)
      (hpool : InnerChange h s.pool s'.pool)
      (hcalls : s'.calls = s.calls.modify call fun c => { c with pc })

theorem moved_step {op : Op} (hstep : step cfg s op = some s') : Moved cfg s op s' := by
  have hinner (h : Handle) := InnerChange.refl h s.pool
  cases of_step hstep with
  | @taken req now h hit pool hpool => exact .taken req now h hit rfl hpool rfl
  | @refused req now refusal pool hpool =>
      have hcases := ThreadLocalPool.acquire_cases cfg s.pool req.ownerId now
      rw [hpool] at hcases
      cases hcases with
      | atLimit => exact .refused req _ rfl rfl rfl
      | full => exact .refused req _ rfl rfl rfl
  | @panicked req now pool hpool =>
      have hcases := ThreadLocalPool.acquire_cases cfg s.pool req.ownerId now
      rw [hpool] at hcases
      cases hcases
  | @warm call now req h context hcall =>
      exact .goesOn call _ _ h rfl hcall rfl rfl (InnerChange.lookup cfg s req h now) rfl
  | @cold call now req h hcall =>
      exact .goesOn call _ _ h rfl hcall rfl rfl (InnerChange.lookup cfg s req h now) rfl
  | @notCreated call now reason req h hcall =>
      exact .ends call _ _ h _ rfl hcall rfl (InnerChange.lookup cfg s req h now) rfl rfl
  | @ran call req h warm context hcall => exact .goesOn call _ _ h rfl hcall rfl rfl (hinner h) rfl
  | @failed call reason req h warm context hcall =>
      exact .ends call _ _ h _ rfl hcall rfl (hinner h) rfl rfl
  | @keeps call now req h warm context hcall =>
      exact .goesOn call _ _ h rfl hcall rfl rfl (hinner h) rfl
  | @drops call now outcome req h warm context hcall =>
      exact .ends call _ _ h _ rfl hcall rfl (hinner h) rfl rfl
  | @saved call now req h warm context hcall =>
      exact .ends call _ _ h _ rfl hcall rfl (InnerChange.save s h _) rfl rfl
  | @dropped call c h hcall hslot =>
      exact .leaves call _ (.dropped h) h rfl hcall hslot rfl rfl (hinner h) rfl
  | @lateLookup call now req h hcall =>
      exact .leaves call _ (.unwound (some h)) h rfl hcall rfl rfl rfl
        (InnerChange.lookup cfg s req h now) rfl
  | @lateSave call now req h warm context hcall =>
      exact .leaves call _ (.unwound (some h)) h rfl hcall rfl rfl rfl (InnerChange.save s h _) rfl
  | @unwound call now late c h hcall hslot =>
      exact .leaves call _ (.unwound (some h)) h rfl hcall hslot rfl rfl (hinner h) rfl

/-! ## Slots in a step -/

theorem Pc.abandoned_of_slot {pc : Pc} {h : Handle} (hslot : pc.slot = some h) :
    pc.abandoned = none := by
  cases pc <;> first | rfl | cases hslot

/-- What a step does to the slots that calls hold and to those that were left taken. -/
inductive Slots (cfg : PinnedPoolConfig) (s : State) (op : Op) (s' : State) : Prop
  | taken (req : PinnedExecuteRequest) (now : Nat) (h : Handle) (hit : Bool)
      (hkeeps : op.abandons = false)
      (hpool : s.pool.acquire cfg req.ownerId now = (.ok h hit, s'.pool))
      (hslots : s'.slots = s.slots ++ [h]) (habandoned : s'.abandoned.Perm s.abandoned)
  | kept (h : Handle) (hkeeps : op.abandons = false)
      (hpool : s'.pool = s.pool ∨ h ∈ s.slots ∧ InnerChange h s.pool s'.pool)
      (hslots : s'.slots.Perm s.slots) (habandoned : s'.abandoned.Perm s.abandoned)
  | given (h : Handle) (p : ThreadLocalPool) (hkeeps : op.abandons = false)
      (hinner : InnerChange h s.pool p) (hpool : s'.pool = p.releaseToLocalPool cfg h)
      (hslots : s.slots.Perm (h :: s'.slots)) (habandoned : s'.abandoned.Perm s.abandoned)
  | left (h : Handle) (habandons : op.abandons = true) (hpool : InnerChange h s.pool s'.pool)
      (hslots : s.slots.Perm (h :: s'.slots)) (habandoned : s'.abandoned.Perm (h :: s.abandoned))

/-- What the calls hold, with one call set apart. -/
theorem held_perm {β : Type} {calls : List Call} {call : Nat} {c : Call}
    (hcall : calls[call]? = some c) (pc : Pc) (f : Pc → Option β) :
    ∃ rest : List β, (calls.filterMap fun c => f c.pc).Perm ((f c.pc).toList ++ rest) ∧
      ((calls.modify call fun c => { c with pc }).filterMap fun c => f c.pc).Perm
        ((f pc).toList ++ rest) := by
  obtain ⟨hbefore, hafter⟩ := modify_perm hcall fun c => { c with pc }
  refine ⟨(calls.eraseIdx call).filterMap fun c => f c.pc, ?_, ?_⟩
  · refine (hbefore.filterMap _).trans (List.Perm.of_eq ?_)
    cases hf : f c.pc <;> simp [hf]
  · refine (hafter.filterMap _).trans (List.Perm.of_eq ?_)
    cases hf : f pc <;> simp [hf]

theorem slots_step {op : Op} (hstep : step cfg s op = some s') : Slots cfg s op s' := by
  cases moved_step hstep with
  | taken req now h hit hkeeps hpool hcalls =>
      refine .taken req now h hit hkeeps hpool ?_ (List.Perm.of_eq ?_)
      · simp [State.slots, hcalls, Pc.slot]
      · simp [State.abandoned, hcalls, Pc.abandoned]
  | refused req outcome hkeeps hpool hcalls =>
      refine .kept 0 hkeeps (.inl hpool) (List.Perm.of_eq ?_) (List.Perm.of_eq ?_)
      · simp [State.slots, hcalls, Pc.slot]
      · simp [State.abandoned, hcalls, Pc.abandoned]
  | goesOn call c pc h hkeeps hcall hslot hslot' hpool hcalls =>
      obtain ⟨rest, hold, hnew⟩ := held_perm hcall pc Pc.slot
      obtain ⟨left, hleft, hleft'⟩ := held_perm hcall pc Pc.abandoned
      rw [← hcalls, hslot'] at hnew
      rw [hslot] at hold
      rw [← hcalls, Pc.abandoned_of_slot hslot'] at hleft'
      rw [Pc.abandoned_of_slot hslot] at hleft
      have hmem : h ∈ s.slots := hold.mem_iff.mpr mem_cons_self
      exact .kept h hkeeps (.inr ⟨hmem, hpool⟩) (hnew.trans hold.symm) (hleft'.trans hleft.symm)
  | ends call c outcome h p hkeeps hcall hslot hinner hpool hcalls =>
      obtain ⟨rest, hold, hnew⟩ := held_perm hcall (.returned outcome) Pc.slot
      obtain ⟨left, hleft, hleft'⟩ := held_perm hcall (.returned outcome) Pc.abandoned
      rw [← hcalls] at hnew hleft'
      rw [hslot] at hold
      rw [Pc.abandoned_of_slot hslot] at hleft
      exact .given h p hkeeps hinner hpool (hold.trans (hnew.symm.cons h))
        (hleft'.trans hleft.symm)
  | leaves call c pc h habandons hcall hslot hslot' habandoned hpool hcalls =>
      obtain ⟨rest, hold, hnew⟩ := held_perm hcall pc Pc.slot
      obtain ⟨left, hleft, hleft'⟩ := held_perm hcall pc Pc.abandoned
      rw [← hcalls, hslot'] at hnew
      rw [hslot] at hold
      rw [← hcalls, habandoned] at hleft'
      rw [Pc.abandoned_of_slot hslot] at hleft
      exact .left h habandons hpool (hold.trans (hnew.symm.cons h))
        (hleft'.trans (hleft.symm.cons h))

/-! ## Accounting over runs -/

/-- Every taken slot is held by a call in flight or was left taken. -/
def Inv (cfg : PinnedPoolConfig) (s : State) : Prop :=
  Accounted cfg s.pool (s.slots ++ s.abandoned)

theorem InnerChange.accounted {p p' : ThreadLocalPool} {slots : List Handle} {h : Handle}
    (hchange : InnerChange h p p') (hacc : Accounted cfg p slots) (hh : h ∈ slots) :
    Accounted cfg p' slots := by
  obtain ⟨f, hf, rfl⟩ := hchange
  exact hacc.modify_inner (hacc.pooled h hh) hf

theorem inv_init : Inv cfg (machine cfg).init := Accounted.empty

theorem inv_step (s : State) (op : Op) (s' : State) (hs : Inv cfg s)
    (hstep : step cfg s op = some s') : Inv cfg s' := by
  unfold Inv at hs ⊢
  cases slots_step hstep with
  | taken req now h hit hkeeps hpool hslots habandoned =>
      rw [hslots]
      refine (hs.acquire hpool).perm ?_
      rw [append_assoc, singleton_append]
      exact ((habandoned.symm.append_left s.slots).cons h).trans perm_middle.symm
  | kept h hkeeps hpool hslots habandoned =>
      have hperm := (hslots.append habandoned).symm
      rcases hpool with hpool | ⟨hmem, hpool⟩
      · rw [hpool]
        exact hs.perm hperm
      · exact (hpool.accounted hs (mem_append_left _ hmem)).perm hperm
  | given h p hkeeps hinner hpool hslots habandoned =>
      have hmem : h ∈ s.slots ++ s.abandoned :=
        mem_append_left _ (hslots.mem_iff.mpr mem_cons_self)
      rw [hpool]
      exact ((hinner.accounted hs hmem).perm (hslots.append habandoned.symm)).release
  | left h habandons hpool hslots habandoned =>
      have hmem : h ∈ s.slots ++ s.abandoned :=
        mem_append_left _ (hslots.mem_iff.mpr mem_cons_self)
      refine (hpool.accounted hs hmem).perm ?_
      calc
        (s.slots ++ s.abandoned).Perm (h :: s'.slots ++ s.abandoned) := hslots.append_right _
        _ |>.Perm (s'.slots ++ h :: s.abandoned) := perm_middle.symm
        _ |>.Perm (s'.slots ++ s'.abandoned) := habandoned.symm.append_left _

/-- A slot is left taken exactly by the steps that drop or unwind a call. -/
theorem abandoned_step {op : Op} (hstep : step cfg s op = some s') :
    s'.abandoned = [] ↔ s.abandoned = [] ∧ op.abandons = false := by
  rw [← length_eq_zero_iff, ← length_eq_zero_iff]
  cases slots_step hstep with
  | taken req now h hit hkeeps hpool hslots habandoned => simp [hkeeps, habandoned.length_eq]
  | kept h hkeeps hpool hslots habandoned => simp [hkeeps, habandoned.length_eq]
  | given h p hkeeps hinner hpool hslots habandoned => simp [hkeeps, habandoned.length_eq]
  | left h habandons hpool hslots habandoned => simp [habandons, habandoned.length_eq]

theorem abandoned_eq_nil_iff {ops : List Op} (hrun : (machine cfg).run ops = some s) :
    s.abandoned = [] ↔ ∀ op ∈ ops, op.abandons = false := by
  rw [← Machine.meets_iff_forall_mem (G := fun op => op.abandons = false) hrun]
  exact Machine.iff_meets (I := fun s => s.abandoned = []) rfl
    (fun _ _ _ hstep => abandoned_step hstep) hrun

/-- **Slot accounting.**  After every run, the counter of each isolate is the number of
calls in flight that hold a slot on it plus the number of slots left taken, and it is
within its bound.  So it is the number of holders alone exactly when no step of the run
dropped or unwound a call, and in such a run every isolate is free and evictable once no
call is in flight. -/
theorem slot_accounting (cfg : PinnedPoolConfig) (ops : List Op) (s : State)
    (hrun : (machine cfg).run ops = some s) :
    ((∀ h, s.pool.active h = s.holders h) ↔ ∀ op ∈ ops, op.abandons = false) ∧
    ((∀ op ∈ ops, op.abandons = false) → (∀ c ∈ s.calls, c.pc.slot = none) →
      ∀ h ∈ s.pool.isolates,
        (s.pool.get h).isFree = true ∧ (s.pool.get h).load.idleSince.isSome = true) ∧
    (∀ h, s.pool.active h = s.holders h + s.abandoned.count h) ∧
    ∀ h, s.pool.active h ≤ cfg.maxConcurrentPerIsolate := by
  have hs : Inv cfg s := (machine cfg).invariant inv_init inv_step hrun
  have hcount : ∀ h, s.pool.active h = s.holders h + s.abandoned.count h := by
    intro h
    rw [hs.active, count_append, State.holders]
  have habandoned := abandoned_eq_nil_iff hrun
  refine ⟨?_, ?_, hcount, hs.bounded⟩
  · rw [← habandoned]
    constructor
    · intro hexact
      refine eq_nil_iff_forall_not_mem.mpr fun h hmem => ?_
      have hpos := count_pos_iff.mpr hmem
      have := hexact h
      have := hcount h
      omega
    · intro hnil h
      rw [hcount, hnil, count_nil, Nat.add_zero]
  · intro hops hquiet h _
    have hfree : s.pool.active h = 0 := by
      have hslots : s.slots = [] := filterMap_eq_nil_iff.mpr hquiet
      rw [hcount, habandoned.mpr hops, State.holders, hslots]
      rfl
    exact ⟨decide_eq_true hfree, (s.pool.get h).load_idleSince_isSome.mpr hfree⟩

/-- A request of the owner `a`. -/
def request : PinnedExecuteRequest := ⟨"a", "w", 1, none⟩

/-- A call whose event runs to its end leaves its isolate free. -/
theorem slot_accounting_completed : ∃ s, (machine Capacity.solo).run
    [.start request 0, .lookup 0 1 .created, .exec 0 (.ok ()), .drain 0 2 (.ok ())] = some s ∧
      s.pool.isolates = [0] ∧ ∀ h, s.pool.active h = s.holders h :=
  ⟨_, rfl, rfl, (slot_accounting Capacity.solo
    [.start request 0, .lookup 0 1 .created, .exec 0 (.ok ()), .drain 0 2 (.ok ())] _ rfl).1.mpr
      (by decide)⟩

/-- A call that its caller drops while its event runs: no call is in flight any more, and
the isolate still counts one, so it is not free and never evictable. -/
theorem dropped_call_keeps_slot : ∃ s, (machine Capacity.solo).run
    [.start request 0, .lookup 0 1 .created, .drop 0] = some s ∧
      s.slots = [] ∧ s.pool.isolates = [0] ∧ s.pool.active 0 = 1 ∧ s.holders 0 = 0 ∧
      (s.pool.get 0).load.idleSince = none :=
  ⟨_, rfl, rfl, rfl, rfl, rfl, rfl⟩

end OpenWorkers.Pool.Execute
