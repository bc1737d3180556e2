import OpenWorkers.Lib.Ledger
import OpenWorkers.Lib.Machine
import Mathlib.Algebra.GroupWithZero.Nat
import Mathlib.Algebra.Order.BigOperators.Group.List
import Mathlib.Algebra.Order.Group.Nat

/-!
# The quota of the ArrayBuffers

`src/security/array_buffer_allocator.rs`.

V8 asks the allocator of an isolate for the memory of its ArrayBuffers, and gives it back.  The
allocator counts bytes.  A request adds its size to the counter, loads the counter, and either
allocates, or sets the memory flag of the isolate and takes its size off the counter again.
Each of these is one atomic operation, and all are sequentially consistent; between two of them
any other call may take any number of its own.

A request of the machine is one buffer, from the call that asks for it to the end of the call
that frees it.  Any number of them are on their way, as many as there are threads.  A request
that was granted is freed at most once, with the size it was granted with.

The counter is a machine word.  What it counts is a number, so all that is said of it is said
of the runs in which it does not wrap.
-/

namespace OpenWorkers.Security.CustomAllocator

open List Machine

/-- Where a request stands, named by the operation that comes next. -/
inductive Pc where
  | adding
  | loading
  /-- The flag comes next. -/
  | denying
  | rollingBack
  /-- The memory comes next. -/
  | allocating
  | denied
  | granted
  /-- `free` was called; it takes the size off the counter. -/
  | freeing
  /-- `free` gives the memory back. -/
  | dropping
  | freed
deriving DecidableEq, Repr

structure Request where
  n : UInt64
  pc : Pc
deriving DecidableEq, Repr

/-- `CustomAllocator`, with the requests it has had. -/
structure State where
  max : UInt64
  count : UInt64
  memoryLimitHit : Bool
  requests : List Request
deriving DecidableEq, Repr

inductive Action where
  | allocate (n : UInt64)
  | allocateUninitialized (n : UInt64)
  | free (request : Nat)
  /-- A call that is on its way takes its next operation. -/
  | advance (request : Nat)
  /-- The flag is also the runtime's: the heap callback sets it, a turn that ends takes it. -/
  | flag (hit : Bool)
deriving DecidableEq, Repr

namespace State

def setPc (s : State) (k : Nat) (pc : Pc) : State :=
  { s with requests := s.requests.modify k fun r => { r with pc } }

/-- V8 calls `allocate` or `allocate_uninitialized`, which count alike. -/
def call (s : State) (n : UInt64) : State := { s with requests := s.requests ++ [⟨n, .adding⟩] }

/-- The next operation of a call. -/
def advance (s : State) (k : Nat) (r : Request) : Option State :=
  match r.pc with
  | .adding => some { s.setPc k .loading with count := s.count + r.n }
  | .loading => some (s.setPc k (if s.max < s.count then .denying else .allocating))
  | .denying => some { s.setPc k .rollingBack with memoryLimitHit := true }
  | .rollingBack => some { s.setPc k .denied with count := s.count - r.n }
  | .allocating => some (s.setPc k .granted)
  | .freeing => some { s.setPc k .dropping with count := s.count - r.n }
  | .dropping => some (s.setPc k .freed)
  | .denied | .granted | .freed => none

end State

def step (s : State) : Action → Option State
  | .allocate n | .allocateUninitialized n => some (s.call n)
  | .free k =>
    match s.requests[k]? with
    | some r => if r.pc = .granted then some (s.setPc k .freeing) else none
    | none => none
  | .advance k =>
    match s.requests[k]? with
    | some r => s.advance k r
    | none => none
  | .flag hit => some { s with memoryLimitHit := hit }

/-- An allocator from its `new` on. -/
def machine (max : UInt64) : Machine State Action where
  init := ⟨max, 0, false, []⟩
  step := step

/-! ## Bytes -/

namespace Pc

/-- The buffer was granted, and its `free` has not taken effect. -/
def holds : Pc → Bool
  | .granted | .freeing => true
  | .adding | .loading | .denying | .rollingBack | .allocating | .denied | .dropping | .freed =>
      false

/-- The request is between its add and its grant or rollback. -/
def between : Pc → Bool
  | .loading | .denying | .rollingBack | .allocating => true
  | .adding | .denied | .granted | .freeing | .dropping | .freed => false

/-- The buffer was granted or will be. -/
def passed (pc : Pc) : Bool := pc.holds || pc = .allocating

def counted (pc : Pc) : Bool := pc.holds || pc.between

/-- No call is on its way for the buffer. -/
def quiet : Pc → Bool
  | .denied | .granted | .freed => true
  | .adding | .loading | .denying | .rollingBack | .allocating | .freeing | .dropping => false

theorem counted_of_passed {pc : Pc} (h : pc.passed = true) : pc.counted = true := by
  cases pc <;> first | rfl | cases h

theorem passed_of_holds {pc : Pc} (h : pc.holds = true) : pc.passed = true := by
  rw [passed, h, Bool.true_or]

theorem counted_of_quiet {pc : Pc} (h : pc.quiet = true) : pc.counted = pc.holds := by
  cases pc <;> first | rfl | cases h

end Pc

namespace Request

/-- What a request amounts to where those of some standing count. -/
def bytes (p : Pc → Bool) (r : Request) : Nat := if p r.pc then r.n.toNat else 0

theorem bytes_le_bytes {p q : Pc → Bool} (h : ∀ pc, p pc = true → q pc = true) (r : Request) :
    r.bytes p ≤ r.bytes q := by
  unfold bytes
  split
  · next hp => rw [if_pos (h r.pc hp)]
  · exact Nat.zero_le _

theorem bytes_counted (r : Request) :
    r.bytes Pc.counted = r.bytes Pc.holds + r.bytes Pc.between := by
  obtain ⟨n, pc⟩ := r
  cases pc <;> simp [bytes, Pc.counted, Pc.holds, Pc.between]

end Request

namespace State

variable {s : State} {p q : Pc → Bool} {k : Nat} {r : Request}

/-- What the requests of some standing amount to. -/
def bytes (s : State) (p : Pc → Bool) : Nat := (s.requests.map (Request.bytes p)).sum

/-- The total of the buffers that are granted and not yet freed. -/
def granted (s : State) : Nat := s.bytes Pc.holds

/-- The total of the requests between their add and their grant or rollback. -/
def reserved (s : State) : Nat := s.bytes Pc.between

/-- No call is on its way. -/
def Quiet (s : State) : Prop := ∀ r ∈ s.requests, r.pc.quiet = true

theorem bytes_le_bytes (h : ∀ pc, p pc = true → q pc = true) : s.bytes p ≤ s.bytes q :=
  sum_le_sum fun r _ => r.bytes_le_bytes h

theorem bytes_counted (s : State) : s.bytes Pc.counted = s.granted + s.reserved := by
  rw [granted, reserved, bytes, bytes, bytes, ← sum_map_add]
  exact congrArg List.sum (map_congr_left fun r _ => r.bytes_counted)

theorem bytes_of_quiet (h : s.Quiet) : s.bytes Pc.counted = s.granted := by
  refine congrArg List.sum (map_congr_left fun r hr => ?_)
  rw [Request.bytes, Request.bytes, Pc.counted_of_quiet (h r hr)]

theorem bytes_call (s : State) (n : UInt64) (hp : p .adding = false) :
    (s.call n).bytes p = s.bytes p := by
  rw [bytes, call, sum_map_concat, Request.bytes, hp]
  exact Nat.add_zero _

/-- A request comes to stand elsewhere. -/
theorem bytes_setPc (hr : s.requests[k]? = some r) (p : Pc → Bool) (pc : Pc) :
    (s.setPc k pc).bytes p + r.bytes p = s.bytes p + Request.bytes p { r with pc } := by
  rw [bytes, setPc, sum_map_modify _ _ hr, bytes, sum_map_eraseIdx _ hr]
  omega

/-- What one request amounts to is part of the whole. -/
theorem bytes_le (hr : s.requests[k]? = some r) : r.bytes p ≤ s.bytes p := by
  rw [bytes, sum_map_eraseIdx _ hr]
  exact Nat.le_add_right _ _

/-- A request that does not count. -/
theorem bytes_eraseIdx (hr : s.requests[k]? = some r) (hp : p r.pc = false) :
    s.bytes p = ((s.requests.eraseIdx k).map (Request.bytes p)).sum := by
  rw [bytes, sum_map_eraseIdx _ hr, Request.bytes, hp]
  exact Nat.zero_add _

end State

/-! ## Every interleaving -/

variable {max : UInt64} {s s' : State} {a : Action} {as : List Action} {k : Nat} {r : Request}

/-- The counter has room for what a request adds. -/
def NoWrap (s : State) : Action → Prop
  | .advance k => ∀ r ∈ s.requests[k]?, r.pc = .adding →
      s.granted + s.reserved + r.n.toNat < UInt64.size
  | .allocate _ | .allocateUninitialized _ | .free _ | .flag _ => True

instance (s : State) (a : Action) : Decidable (NoWrap s a) := by
  cases a <;> dsimp only [NoWrap] <;> infer_instance

/-- The counter counts, and what has passed the check is within the quota. -/
structure Inv (max : UInt64) (s : State) : Prop where
  max_eq : s.max = max
  count : s.count.toNat = s.bytes Pc.counted
  quota : s.bytes Pc.passed ≤ max.toNat

theorem inv_init (max : UInt64) : Inv max (machine max).init := ⟨rfl, rfl, Nat.zero_le _⟩

theorem Inv.call (hs : Inv max s) (n : UInt64) : Inv max (s.call n) where
  max_eq := hs.max_eq
  count := (hs.count).trans (s.bytes_call n rfl).symm
  quota := (s.bytes_call n rfl).trans_le hs.quota

/-- A request takes an operation that adds to the counter or takes off it what it counts more
or less afterwards. -/
theorem Inv.setPc (hs : Inv max s) (hr : s.requests[k]? = some r) {pc : Pc} {count : UInt64}
    (hit : Bool)
    (hcount : count.toNat + r.bytes Pc.counted =
      s.count.toNat + Request.bytes Pc.counted { r with pc })
    (hpassed : Request.bytes Pc.passed { r with pc } ≤ r.bytes Pc.passed ∨
      count.toNat ≤ max.toNat) :
    Inv max { s.setPc k pc with count, memoryLimitHit := hit } := by
  have hcounted := State.bytes_setPc hr Pc.counted pc
  have hcount' : count.toNat = (s.setPc k pc).bytes Pc.counted := by
    have := hs.count
    omega
  refine ⟨hs.max_eq, hcount', ?_⟩
  change (s.setPc k pc).bytes Pc.passed ≤ max.toNat
  rcases hpassed with hle | hle
  · have := State.bytes_setPc hr Pc.passed pc
    have := hs.quota
    omega
  · -- what has passed is part of what is counted, the request that passes now included
    calc (s.setPc k pc).bytes Pc.passed
        ≤ (s.setPc k pc).bytes Pc.counted := State.bytes_le_bytes fun _ => Pc.counted_of_passed
      _ = count.toNat := hcount'.symm
      _ ≤ max.toNat := hle

theorem toNat_sub (hs : Inv max s) (hr : s.requests[k]? = some r) (hpc : r.pc.counted = true) :
    (s.count - r.n).toNat + r.n.toNat = s.count.toNat := by
  have hle : r.n.toNat ≤ s.count.toNat := by
    have := State.bytes_le (p := Pc.counted) hr
    rwa [← hs.count, Request.bytes, if_pos hpc] at this
  rw [UInt64.toNat_sub_of_le _ _ (UInt64.le_iff_toNat_le.mpr hle)]
  exact Nat.sub_add_cancel hle

theorem toNat_add (hs : Inv max s) {n : UInt64}
    (hroom : s.granted + s.reserved + n.toNat < UInt64.size) :
    (s.count + n).toNat = s.count.toNat + n.toNat := by
  rw [← s.bytes_counted, ← hs.count] at hroom
  rw [UInt64.toNat_add]
  exact Nat.mod_eq_of_lt hroom

/-- The next operation of a call keeps the invariant. -/
theorem Inv.advance (hs : Inv max s) (hr : s.requests[k]? = some r)
    (hroom : r.pc = .adding → s.granted + s.reserved + r.n.toNat < UInt64.size)
    (h : s.advance k r = some s') : Inv max s' := by
  obtain ⟨n, pc⟩ := r
  cases pc with
  | adding =>
      cases h
      exact hs.setPc hr _ (toNat_add hs (hroom rfl)) (.inl (Nat.le_refl _))
  | loading =>
      cases h
      refine hs.setPc hr _ ?_ ?_
      · split <;> rfl
      · -- the counter that is loaded has the request in it
        split
        · exact .inl (Nat.le_refl _)
        · next hle =>
            rw [UInt64.not_lt, hs.max_eq] at hle
            exact .inr (UInt64.le_iff_toNat_le.mp hle)
  | denying =>
      cases h
      exact hs.setPc hr _ rfl (.inl (Nat.le_refl _))
  | rollingBack =>
      cases h
      exact hs.setPc hr _ (toNat_sub hs hr rfl) (.inl (Nat.le_refl _))
  | allocating =>
      cases h
      exact hs.setPc hr _ rfl (.inl (Nat.le_refl _))
  | freeing =>
      cases h
      exact hs.setPc hr _ (toNat_sub hs hr rfl) (.inl (Nat.zero_le _))
  | dropping =>
      cases h
      exact hs.setPc hr _ rfl (.inl (Nat.le_refl _))
  | denied | granted | freed => cases h

theorem inv_step (s : State) (a : Action) (s' : State) (hs : Inv max s) (hroom : NoWrap s a)
    (hstep : step s a = some s') : Inv max s' := by
  cases a with
  | allocate n | allocateUninitialized n =>
      cases hstep
      exact hs.call n
  | free k =>
      simp only [step] at hstep
      split at hstep
      · next r hr =>
          obtain ⟨n, pc⟩ := r
          split at hstep
          · next hpc =>
              cases hpc
              cases hstep
              exact hs.setPc hr _ rfl (.inl (Nat.le_refl _))
          · cases hstep
      · cases hstep
  | advance k =>
      simp only [step] at hstep
      split at hstep
      · next r hr =>
          exact hs.advance hr (hroom r hr) hstep
      · cases hstep
  | flag hit =>
      cases hstep
      exact ⟨hs.max_eq, hs.count, hs.quota⟩

theorem inv_of_run (hrun : (machine max).run as = some s)
    (hroom : (machine max).Meets NoWrap (machine max).init as) : Inv max s :=
  invariant_of_meets (inv_init max) inv_step hroom hrun

/-! ## Calls that do not overlap -/

/-- What a request asks for. -/
def Action.asks : Action → Option UInt64
  | .allocate n | .allocateUninitialized n => some n
  | .free _ | .advance _ | .flag _ => none

theorem step_of_asks {n : UInt64} (h : a.asks = some n) (s : State) :
    step s a = some (s.call n) := by
  cases a <;> cases h <;> rfl

namespace State

/-- The allocator with one request more. -/
def push (s : State) (r : Request) : State := { s with requests := s.requests ++ [r] }

theorem setPc_push (s : State) (r : Request) (pc : Pc) :
    (s.push r).setPc s.requests.length pc = s.push { r with pc } := by
  rw [setPc, push, modify_concat]
  rfl

/-- The last request takes its next operation. -/
theorem step_push (s : State) (r : Request) {pc : Pc} {count : UInt64} {hit : Bool}
    (h : (s.push r).advance s.requests.length r =
      some { (s.push r).setPc s.requests.length pc with count, memoryLimitHit := hit }) :
    (machine max).step (s.push r) (.advance s.requests.length) =
      some ({ s with count, memoryLimitHit := hit }.push { r with pc }) := by
  rw [setPc_push] at h
  simp only [machine, step, push, getElem?_concat_length]
  exact h

/-- A request that is alone and stays within the quota. -/
theorem runFrom_granted {n : UInt64} (h : a.asks = some n) (hle : s.count + n ≤ s.max) :
    (machine max).runFrom s (a :: List.replicate 3 (.advance s.requests.length)) =
      some ({ s with count := s.count + n }.push ⟨n, .granted⟩) := by
  let t := { s with count := s.count + n }
  have hload : (t.push ⟨n, .loading⟩).advance t.requests.length ⟨n, .loading⟩ =
      some ((t.push ⟨n, .loading⟩).setPc t.requests.length .allocating) :=
    congrArg (fun pc => some ((t.push ⟨n, .loading⟩).setPc t.requests.length pc))
      (if_neg (UInt64.not_lt.mpr hle))
  refine runFrom_cons_eq_some.mpr ⟨s.push ⟨n, .adding⟩, step_of_asks h s, ?_⟩
  refine runFrom_cons_eq_some.mpr ⟨t.push ⟨n, .loading⟩, step_push s _ rfl, ?_⟩
  refine runFrom_cons_eq_some.mpr ⟨t.push ⟨n, .allocating⟩, step_push t _ hload, ?_⟩
  exact runFrom_cons_eq_some.mpr ⟨t.push ⟨n, .granted⟩, step_push t _ rfl, rfl⟩

/-- A request that is alone and does not. -/
theorem runFrom_denied {n : UInt64} (h : a.asks = some n) (hlt : s.max < s.count + n) :
    (machine max).runFrom s (a :: List.replicate 4 (.advance s.requests.length)) =
      some ({ s with memoryLimitHit := true }.push ⟨n, .denied⟩) := by
  let t := { s with count := s.count + n }
  let u := { t with memoryLimitHit := true }
  have hload : (t.push ⟨n, .loading⟩).advance t.requests.length ⟨n, .loading⟩ =
      some ((t.push ⟨n, .loading⟩).setPc t.requests.length .denying) :=
    congrArg (fun pc => some ((t.push ⟨n, .loading⟩).setPc t.requests.length pc)) (if_pos hlt)
  have hback : (u.push ⟨n, .rollingBack⟩).advance u.requests.length ⟨n, .rollingBack⟩ =
      some { (u.push ⟨n, .rollingBack⟩).setPc u.requests.length .denied with
        count := s.count } := by
    have hcount : u.count - n = s.count := UInt64.add_sub_cancel s.count n
    rw [← hcount]
    rfl
  refine runFrom_cons_eq_some.mpr ⟨s.push ⟨n, .adding⟩, step_of_asks h s, ?_⟩
  refine runFrom_cons_eq_some.mpr ⟨t.push ⟨n, .loading⟩, step_push s _ rfl, ?_⟩
  refine runFrom_cons_eq_some.mpr ⟨t.push ⟨n, .denying⟩, step_push t _ hload, ?_⟩
  refine runFrom_cons_eq_some.mpr ⟨u.push ⟨n, .rollingBack⟩, step_push t _ rfl, ?_⟩
  exact runFrom_cons_eq_some.mpr ⟨_, step_push u _ hback, rfl⟩

end State

/-- **The quota of the ArrayBuffers.**  In every interleaving in which the counter does not wrap,
the counter is what is granted and not yet freed together with what is between its add and its
grant or rollback; what is granted stays within the quota; a request that was denied is not in
the counter; and a request that no other call overlaps is granted exactly if it fits into what
is left, with the flag set if it does not fit and left alone if it does. -/
theorem array_buffer_quota (max : UInt64) (as : List Action) (s : State)
    (hrun : (machine max).run as = some s)
    (hroom : (machine max).Meets NoWrap (machine max).init as) :
    s.count.toNat = s.granted + s.reserved ∧
    s.granted ≤ max.toNat ∧
    (∀ k r, s.requests[k]? = some r → r.pc = .denied →
      s.count.toNat = ((s.requests.eraseIdx k).map (Request.bytes Pc.counted)).sum) ∧
    (s.Quiet → ∀ a n, a.asks = some n → s.granted + n.toNat < UInt64.size →
      (s.granted + n.toNat ≤ max.toNat →
        (machine max).runFrom s (a :: List.replicate 3 (.advance s.requests.length)) =
          some { s with count := s.count + n, requests := s.requests ++ [⟨n, .granted⟩] }) ∧
      (max.toNat < s.granted + n.toNat →
        (machine max).runFrom s (a :: List.replicate 4 (.advance s.requests.length)) =
          some { s with memoryLimitHit := true, requests := s.requests ++ [⟨n, .denied⟩] })) := by
  have hs : Inv max s := inv_of_run hrun hroom
  refine ⟨hs.count.trans s.bytes_counted, ?_, ?_, ?_⟩
  · exact (State.bytes_le_bytes fun _ => Pc.passed_of_holds).trans hs.quota
  · intro k r hr hpc
    rw [hs.count]
    exact State.bytes_eraseIdx hr (by rw [hpc]; rfl)
  · intro hquiet a n ha hfits
    have hreserved : s.reserved = 0 := by
      have := s.bytes_counted
      have := State.bytes_of_quiet hquiet
      omega
    have hadd : (s.count + n).toNat = s.granted + n.toNat := by
      rw [toNat_add hs (by rwa [hreserved]), hs.count, State.bytes_of_quiet hquiet]
    constructor
    · intro hle
      refine State.runFrom_granted ha (UInt64.le_iff_toNat_le.mpr ?_)
      rwa [hadd, hs.max_eq]
    · intro hlt
      refine State.runFrom_denied ha (UInt64.lt_iff_toNat_lt.mpr ?_)
      rwa [hadd, hs.max_eq]

/-- A buffer of six bytes, and a request for five more that comes too late for a quota of ten. -/
def sixOfTen : List Action :=
  .allocate 6 :: List.replicate 3 (.advance 0) ++
    .allocateUninitialized 5 :: List.replicate 4 (.advance 1)

theorem array_buffer_quota_sixOfTen : ∃ s, (machine 10).run sixOfTen = some s ∧
    s.granted = 6 ∧ s.memoryLimitHit = true ∧ s.count.toNat = s.granted + s.reserved ∧
    (machine 10).runFrom s (.allocate 4 :: List.replicate 3 (.advance 2)) =
      some { s with count := s.count + 4, requests := s.requests ++ [⟨4, .granted⟩] } := by
  refine ⟨_, rfl, by decide, by decide, ?_⟩
  have h := array_buffer_quota 10 sixOfTen _ rfl (by decide)
  refine ⟨h.1, (h.2.2.2 ?_ (.allocate 4) 4 rfl (by decide)).1 (by decide)⟩
  unfold State.Quiet
  decide

-- Overlapping requests see each other's reservation: here each of two would fit, and both are
-- denied.
example : ((machine 10).run [.allocate 6, .allocate 6, .advance 0, .advance 1, .advance 0,
    .advance 1]).map (fun s => s.requests.map Request.pc) = some [.denying, .denying] := by
  decide

end OpenWorkers.Security.CustomAllocator
