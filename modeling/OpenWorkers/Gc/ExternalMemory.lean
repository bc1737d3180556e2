import OpenWorkers.Lib.Ledger
import OpenWorkers.Lib.Machine
import Mathlib.Data.BitVec

/-!
# External memory

A guard (`ExternalMemoryGuard`) stands for memory that V8 does not see.  V8 is told of it by
isolate.  While a thread holds a lock of an isolate (`JsLock`), a change is told at once; without
a lock it goes to the accumulator of an isolate (`pending_delta`), and V8 is told when that isolate
is locked the next time.  Locks nest: a thread has one current isolate, the one it locked last,
and each lock keeps the isolate that was current before it.

Which isolate a change goes to is decided three times, in `new`, `adjust` and `drop`.  All three
take the current isolate if there is one, and only otherwise the accumulator the guard has
captured.  So a change made under the lock of another isolate is charged to that one
(`external_memory_is_charged_iff`); in all, though, nothing is lost (`external_memory_in_all`).
-/

universe u v

namespace OpenWorkers.Gc

open List Ledger Function

/-- `i64`, with the arithmetic of a release build. -/
abbrev I64 := BitVec 64

/-! ## The accounts -/

/-- What V8 was told, and what it is to be told, by isolate. -/
structure Accounts (ι : Type u) where
  /-- The sum of the calls of `adjust_amount_of_external_allocated_memory`. -/
  reported : ι → I64
  /-- `pending_memory_delta`. -/
  pendingDelta : ι → I64

namespace Accounts

variable {ι : Type u}

def init : Accounts ι := ⟨fun _ => 0, fun _ => 0⟩

/-- What an isolate is charged with. -/
def total (b : Accounts ι) (i : ι) : I64 := b.reported i + b.pendingDelta i

variable [DecidableEq ι]

/-- `adjust_external_memory` of a lock. -/
def adjustExternalMemory (b : Accounts ι) (isolate : ι) (delta : I64) : Accounts ι :=
  if delta ≠ 0 then
    { b with reported := update b.reported isolate (b.reported isolate + delta) }
  else
    b

/-- `fetch_add` on the accumulator of an isolate. -/
def fetchAdd (b : Accounts ι) (isolate : ι) (delta : I64) : Accounts ι :=
  { b with
    pendingDelta := update b.pendingDelta isolate (b.pendingDelta isolate + delta) }

/-- What `JsLock::new` does to the accounts: it takes what is in the accumulator and tells V8. -/
def applyPending (b : Accounts ι) (isolate : ι) : Accounts ι :=
  { b with pendingDelta := update b.pendingDelta isolate 0 }.adjustExternalMemory isolate
    (b.pendingDelta isolate)

end Accounts

/-! ## Guards -/

structure ExternalMemoryGuard (ι : Type u) where
  amount : I64
  /-- The isolate whose accumulator was captured. -/
  pendingDelta : Option ι

namespace ExternalMemoryGuard

variable {ι : Type u} [DecidableEq ι]

/-- `new`, where `current` is `JsLock::try_current`. -/
def new (b : Accounts ι) (current : Option ι) (amount : I64) :
    Accounts ι × ExternalMemoryGuard ι :=
  match current with
  | some lock => (if amount ≠ 0 then b.adjustExternalMemory lock amount else b, ⟨amount, some lock⟩)
  | none => (b, ⟨amount, none⟩)

omit [DecidableEq ι] in
def empty (current : Option ι) : ExternalMemoryGuard ι := ⟨0, current⟩

def adjust (b : Accounts ι) (current : Option ι) (g : ExternalMemoryGuard ι) (delta : I64) :
    Accounts ι × ExternalMemoryGuard ι :=
  if delta ≠ 0 then
    let amount := g.amount + delta
    match current with
    | some lock =>
      (b.adjustExternalMemory lock delta,
        { amount, pendingDelta := if g.pendingDelta.isNone then some lock else g.pendingDelta })
    | none =>
      match g.pendingDelta with
      | some pending => (b.fetchAdd pending delta, { g with amount })
      | none => (b, { g with amount })
  else
    (b, g)

def set (b : Accounts ι) (current : Option ι) (g : ExternalMemoryGuard ι) (newAmount : I64) :
    Accounts ι × ExternalMemoryGuard ι :=
  adjust b current g (newAmount - g.amount)

def drop (b : Accounts ι) (current : Option ι) (g : ExternalMemoryGuard ι) : Accounts ι :=
  if g.amount ≠ 0 then
    match current with
    | some lock => b.adjustExternalMemory lock (-g.amount)
    | none =>
      match g.pendingDelta with
      | some pending => b.fetchAdd pending (-g.amount)
      -- No lock and no captured isolate: the memory is not tracked.
      | none => b
  else
    b

end ExternalMemoryGuard

/-! ## Threads and locks -/

structure JsLock (ι : Type u) where
  isolate : ι
  /-- The current isolate of the thread before this lock. -/
  previous : Option ι

/-- A guard, with the isolate under whose lock it was made. -/
structure LiveGuard (ι : Type u) extends ExternalMemoryGuard ι where
  owner : Option ι

structure State (ι : Type u) (θ : Type v) where
  accounts : Accounts ι
  /-- `CURRENT_STATE`, by thread. -/
  current : θ → Option ι
  /-- The locks a thread holds, the last one first. -/
  locks : θ → List (JsLock ι)
  guards : List (LiveGuard ι)

inductive Action (ι : Type u) (θ : Type v) where
  /-- `JsLock::new`. -/
  | lock (t : θ) (isolate : ι)
  /-- The lock taken last is dropped. -/
  | unlock (t : θ)
  | new (t : θ) (amount : I64)
  | empty (t : θ)
  | adjust (t : θ) (k : Nat) (delta : I64)
  | set (t : θ) (k : Nat) (newAmount : I64)
  | drop (t : θ) (k : Nat)

namespace State

variable {ι : Type u} {θ : Type v}

def init : State ι θ := ⟨.init, fun _ => none, fun _ => [], []⟩

/-- The isolate of the lock that the thread took last. -/
def innermost (s : State ι θ) (t : θ) : Option ι := (s.locks t).head?.map JsLock.isolate

/-- The isolate to which a change of a guard goes. -/
def charged (s : State ι θ) (t : θ) (g : LiveGuard ι) : Option ι :=
  (s.innermost t).or g.pendingDelta

variable [DecidableEq ι]

/-- What the guards made under the lock of an isolate amount to. -/
def owned (s : State ι θ) (i : ι) : I64 :=
  (s.guards.map fun g => entry g.owner g.amount i).sum

/-- Every isolate is charged with what the guards made under its lock amount to. -/
def Balanced (s : State ι θ) : Prop := ∀ i, s.accounts.total i = s.owned i

end State

section Machine

variable {ι : Type u} {θ : Type v} [DecidableEq ι] [DecidableEq θ]

def step (s : State ι θ) : Action ι θ → Option (State ι θ)
  | .lock t isolate =>
    some { s with
      accounts := s.accounts.applyPending isolate
      current := update s.current t (some isolate)
      locks := update s.locks t (⟨isolate, s.current t⟩ :: s.locks t) }
  | .unlock t =>
    match s.locks t with
    | [] => none
    | lock :: locks =>
      some { s with
        current := update s.current t lock.previous
        locks := update s.locks t locks }
  | .new t amount =>
    let (accounts, guard) := ExternalMemoryGuard.new s.accounts (s.current t) amount
    some { s with accounts, guards := s.guards ++ [⟨guard, s.innermost t⟩] }
  | .empty t =>
    some { s with
      guards := s.guards ++ [⟨ExternalMemoryGuard.empty (s.current t), s.innermost t⟩] }
  | .adjust t k delta =>
    s.guards[k]?.map fun g =>
      let (accounts, guard) := g.adjust s.accounts (s.current t) delta
      { s with accounts, guards := s.guards.modify k fun g => ⟨guard, g.owner⟩ }
  | .set t k newAmount =>
    s.guards[k]?.map fun g =>
      let (accounts, guard) := g.set s.accounts (s.current t) newAmount
      { s with accounts, guards := s.guards.modify k fun g => ⟨guard, g.owner⟩ }
  | .drop t k =>
    s.guards[k]?.map fun g =>
      { s with accounts := g.drop s.accounts (s.current t), guards := s.guards.eraseIdx k }

/-- Guards are made under a lock only. -/
def UnderLock (s : State ι θ) : Action ι θ → Prop
  | .new t _ | .empty t => s.innermost t ≠ none
  | .lock _ _ | .unlock _ | .adjust _ _ _ | .set _ _ _ | .drop _ _ => True

variable (ι θ) in
def machine : Machine (State ι θ) (Action ι θ) := ⟨.init, step⟩

/-- **The condition on a step.**  A change goes to the isolate under whose lock the guard was
made. -/
def Own (s : State ι θ) : Action ι θ → Prop
  | .adjust t k delta => ∀ g ∈ s.guards[k]?, delta ≠ 0 → s.charged t g = g.owner
  | .set t k newAmount => ∀ g ∈ s.guards[k]?, newAmount ≠ g.amount → s.charged t g = g.owner
  | .drop t k => ∀ g ∈ s.guards[k]?, g.amount ≠ 0 → s.charged t g = g.owner
  | .lock _ _ | .unlock _ | .new _ _ | .empty _ => True

instance (s : State ι θ) (a : Action ι θ) : Decidable (Own s a) := by
  cases a <;> dsimp only [Own] <;> infer_instance

end Machine

/-! ## What an operation charges -/

section Charges

variable {ι : Type u} [DecidableEq ι]

namespace Accounts

variable (b : Accounts ι) (isolate i : ι) (delta : I64)

theorem reported_adjustExternalMemory :
    (b.adjustExternalMemory isolate delta).reported = b.reported + entry (some isolate) delta := by
  unfold adjustExternalMemory
  split
  · exact update_add_eq _ _ _
  · next hzero =>
    funext i
    rw [not_not.mp hzero, Pi.add_apply, entry_zero, add_zero]

theorem pendingDelta_adjustExternalMemory :
    (b.adjustExternalMemory isolate delta).pendingDelta = b.pendingDelta := by
  unfold adjustExternalMemory
  split <;> rfl

theorem total_adjustExternalMemory :
    (b.adjustExternalMemory isolate delta).total i = b.total i + entry (some isolate) delta i := by
  rw [total, total, reported_adjustExternalMemory, pendingDelta_adjustExternalMemory, Pi.add_apply,
    add_right_comm]

theorem total_fetchAdd :
    (b.fetchAdd isolate delta).total i = b.total i + entry (some isolate) delta i := by
  rw [total, total, fetchAdd, update_add_eq]
  exact (add_assoc _ _ _).symm

/-- A lock moves what is in the accumulator, and nothing else. -/
theorem total_applyPending : (b.applyPending isolate).total i = b.total i := by
  have hmoved := congrFun (update_zero_add_entry b.pendingDelta isolate) i
  rw [applyPending, total_adjustExternalMemory, total, total, add_assoc]
  exact congrArg (b.reported i + ·) hmoved

theorem pendingDelta_applyPending : (b.applyPending isolate).pendingDelta isolate = 0 := by
  rw [applyPending, pendingDelta_adjustExternalMemory]
  exact update_self _ _ _

end Accounts

namespace ExternalMemoryGuard

variable (b : Accounts ι) (current : Option ι) (g : ExternalMemoryGuard ι) (amount : I64) (i : ι)

theorem total_new : (new b current amount).1.total i = b.total i + entry current amount i := by
  cases current with
  | none => exact (add_zero _).symm
  | some lock =>
      simp only [new]
      split
      · exact b.total_adjustExternalMemory lock i amount
      · next hzero => rw [not_not.mp hzero, entry_zero, add_zero]

theorem guard_new : (new b current amount).2 = ⟨amount, current⟩ := by
  cases current <;> rfl

theorem total_adjust (delta : I64) :
    (adjust b current g delta).1.total i =
      b.total i + entry (current.or g.pendingDelta) delta i := by
  unfold adjust
  split
  · cases current with
    | some lock => exact b.total_adjustExternalMemory lock i delta
    | none =>
        cases g.pendingDelta with
        | some pending => exact b.total_fetchAdd pending i delta
        | none => exact (add_zero _).symm
  · next hzero => rw [not_not.mp hzero, entry_zero, add_zero]

/-- A guard keeps what it has captured, and captures the first lock under which it changes. -/
theorem guard_adjust (delta : I64) :
    (adjust b current g delta).2.amount = g.amount + delta ∧
      ∀ i, g.pendingDelta = some i → (adjust b current g delta).2.pendingDelta = some i := by
  unfold adjust
  split
  · cases current with
    | some lock =>
        refine ⟨rfl, fun i hi => ?_⟩
        simp only [hi]
        rfl
    | none => cases hpending : g.pendingDelta <;> exact ⟨rfl, fun _ hi => hi⟩
  · next hzero =>
    refine ⟨?_, fun _ hi => hi⟩
    rw [not_not.mp hzero, add_zero]

theorem total_drop :
    (drop b current g).total i =
      b.total i + entry (current.or g.pendingDelta) (-g.amount) i := by
  unfold drop
  split
  · cases current with
    | some lock => exact b.total_adjustExternalMemory lock i _
    | none =>
        cases g.pendingDelta with
        | some pending => exact b.total_fetchAdd pending i _
        | none => exact (add_zero _).symm
  · next hzero => rw [not_not.mp hzero, neg_zero, entry_zero, add_zero]

end ExternalMemoryGuard

end Charges

/-! ## Nested locks -/

section Nested

variable {ι : Type u} {θ : Type v}

/-- The locks of a thread: the current isolate is that of the last one, and each lock keeps the
isolate that was current before it. -/
def Nested : Option ι → List (JsLock ι) → Prop
  | current, [] => current = none
  | current, lock :: locks => current = some lock.isolate ∧ Nested lock.previous locks

theorem Nested.eq_head? {current : Option ι} {locks : List (JsLock ι)}
    (h : Nested current locks) : current = locks.head?.map JsLock.isolate := by
  cases locks with
  | nil => exact h
  | cons lock locks => exact h.1

/-- One thread takes or drops a lock. -/
theorem Nested.update [DecidableEq θ] {current : θ → Option ι} {locks : θ → List (JsLock ι)}
    (h : ∀ t, Nested (current t) (locks t)) (t : θ) {isolate : Option ι} {held : List (JsLock ι)}
    (hnew : Nested isolate held) (t' : θ) :
    Nested (update current t isolate t') (update locks t held t') := by
  by_cases ht : t' = t
  · subst ht
    rw [update_self, update_self]
    exact hnew
  · rw [update_of_ne ht, update_of_ne ht]
    exact h t'

structure Inv (s : State ι θ) : Prop where
  nested : ∀ t, Nested (s.current t) (s.locks t)
  /-- A guard made under a lock has captured its isolate. -/
  captured : ∀ g ∈ s.guards, ∀ i, g.owner = some i → g.pendingDelta = some i

namespace Inv

variable {s s' : State ι θ}

theorem init : Inv (State.init : State ι θ) where
  nested _ := rfl
  captured _ h := absurd h not_mem_nil

theorem current_eq (h : Inv s) (t : θ) : s.current t = s.innermost t := (h.nested t).eq_head?

/-- A guard that was made under a lock is charged to its own isolate unless the thread holds the
lock of another one. -/
theorem charged_eq_owner_iff (h : Inv s) {g : LiveGuard ι} (hg : g ∈ s.guards) {i : ι}
    (howner : g.owner = some i) (t : θ) :
    s.charged t g = g.owner ↔ ∀ lock ∈ (s.locks t).head?, lock.isolate = i := by
  rw [State.charged, State.innermost, h.captured g hg i howner, howner]
  cases (s.locks t).head? with
  | none => simp
  | some lock => simp

theorem charged_ne_none (h : Inv s) {g : LiveGuard ι} (hg : g ∈ s.guards) (howner : g.owner ≠ none)
    (t : θ) : s.charged t g ≠ none := by
  obtain ⟨i, hi⟩ := Option.ne_none_iff_exists'.mp howner
  rw [State.charged, h.captured g hg i hi]
  cases s.innermost t <;> simp

end Inv

end Nested

/-! ## What a step does -/

section Step

variable {ι : Type u} {θ : Type v} [DecidableEq ι] [DecidableEq θ] {s s' : State ι θ}
  {a : Action ι θ}

/-- Inversion of `step`: `empty` is a guard of nothing, and `set` is an `adjust`. -/
inductive Step (s : State ι θ) : Action ι θ → State ι θ → Prop
  | lock (t : θ) (isolate : ι) :
      Step s (.lock t isolate) { s with
        accounts := s.accounts.applyPending isolate
        current := update s.current t (some isolate)
        locks := update s.locks t (⟨isolate, s.current t⟩ :: s.locks t) }
  | unlock {t : θ} {lock : JsLock ι} {locks : List (JsLock ι)}
      (hlocks : s.locks t = lock :: locks) :
      Step s (.unlock t) { s with
        current := update s.current t lock.previous
        locks := update s.locks t locks }
  | new {a : Action ι θ} {t : θ} {amount : I64} {accounts : Accounts ι}
      (ha : a = .new t amount ∨ a = .empty t ∧ amount = 0)
      (htotal : ∀ i, accounts.total i = s.accounts.total i + entry (s.current t) amount i) :
      Step s a { s with
        accounts
        guards := s.guards ++ [⟨⟨amount, s.current t⟩, s.innermost t⟩] }
  | adjust {a : Action ι θ} {t : θ} {k : Nat} {g : LiveGuard ι} {delta : I64}
      (hg : s.guards[k]? = some g)
      (ha : a = .adjust t k delta ∨ ∃ newAmount, a = .set t k newAmount ∧
        delta = newAmount - g.amount) :
      Step s a { s with
        accounts := (g.adjust s.accounts (s.current t) delta).1
        guards := s.guards.modify k fun g' =>
          ⟨(g.adjust s.accounts (s.current t) delta).2, g'.owner⟩ }
  | drop {t : θ} {k : Nat} {g : LiveGuard ι} (hg : s.guards[k]? = some g) :
      Step s (.drop t k) { s with
        accounts := g.drop s.accounts (s.current t)
        guards := s.guards.eraseIdx k }

theorem of_step (hstep : step s a = some s') : Step s a s' := by
  cases a with
  | lock t isolate =>
      cases hstep
      exact .lock t isolate
  | unlock t =>
      simp only [step] at hstep
      split at hstep
      · cases hstep
      · next lock locks hlocks =>
        cases hstep
        exact .unlock hlocks
  | new t amount =>
      have hnew : step s (.new t amount) = some { s with
          accounts := (ExternalMemoryGuard.new s.accounts (s.current t) amount).1
          guards := s.guards ++ [⟨⟨amount, s.current t⟩, s.innermost t⟩] } := by
        rw [← ExternalMemoryGuard.guard_new s.accounts]
        rfl
      cases hnew.symm.trans hstep
      exact .new (.inl rfl) (ExternalMemoryGuard.total_new _ _ _)
  | empty t =>
      cases hstep
      refine .new (.inr ⟨rfl, rfl⟩) fun i => ?_
      rw [entry_zero, add_zero]
  | adjust t k delta =>
      obtain ⟨g, hg, rfl⟩ := Option.map_eq_some_iff.mp hstep
      exact .adjust hg (.inl rfl)
  | set t k newAmount =>
      obtain ⟨g, hg, rfl⟩ := Option.map_eq_some_iff.mp hstep
      exact .adjust hg (.inr ⟨newAmount, rfl, rfl⟩)
  | drop t k =>
      obtain ⟨g, hg, rfl⟩ := Option.map_eq_some_iff.mp hstep
      exact .drop hg

theorem Inv.step (h : Inv s) (hstep : step s a = some s') : Inv s' := by
  cases of_step hstep with
  | lock t isolate => exact ⟨Nested.update h.nested t ⟨rfl, h.nested t⟩, h.captured⟩
  | @unlock t lock locks hlocks =>
      have hnested := h.nested t
      rw [hlocks] at hnested
      exact ⟨Nested.update h.nested t hnested.2, h.captured⟩
  | @new _ t =>
      refine ⟨h.nested, fun g hg i howner => ?_⟩
      rcases mem_append.mp hg with hg | hg
      · exact h.captured g hg i howner
      · cases mem_singleton.mp hg
        exact (h.current_eq t).trans howner
  | @adjust _ t k g delta hg =>
      refine ⟨h.nested, forall_mem_modify h.captured fun g' hg' i howner => ?_⟩
      cases hg'.symm.trans hg
      exact (ExternalMemoryGuard.guard_adjust _ _ _ _).2 i
        (h.captured g (mem_of_getElem? hg) i howner)
  | drop => exact ⟨h.nested, fun g hg => h.captured g (mem_of_mem_eraseIdx hg)⟩

/-- What all guards amount to. -/
def State.amounts (s : State ι θ) : I64 := (s.guards.map fun g => g.amount).sum

/-- A change of `delta` is charged to one isolate, and is of a guard of another. -/
structure Moves (s s' : State ι θ) (delta : I64) (charged owner : Option ι) : Prop where
  total : ∀ i, s'.accounts.total i = s.accounts.total i + entry charged delta i
  owned : ∀ i, s'.owned i = s.owned i + entry owner delta i
  amounts : s'.amounts = s.amounts + delta

omit [DecidableEq θ] in
/-- The books stay balanced if the two are the same, and only then. -/
theorem Moves.balanced_iff {delta : I64} {charged owner : Option ι}
    (h : Moves s s' delta charged owner) (hs : s.Balanced) :
    s'.Balanced ↔ delta = 0 ∨ charged = owner := by
  rw [← entry_eq_entry_iff]
  constructor
  · intro hs'
    funext i
    have hi := hs' i
    rw [h.total, h.owned, hs i] at hi
    exact add_left_cancel hi
  · intro hsame i
    rw [h.total, h.owned, hs i, hsame]

omit [DecidableEq θ] in
theorem Moves.still (htotal : ∀ i, s'.accounts.total i = s.accounts.total i)
    (hguards : s'.guards = s.guards) : Moves s s' 0 none none where
  total i := by rw [htotal, entry_none, add_zero]
  owned i := by rw [State.owned, hguards, entry_none, add_zero, State.owned]
  amounts := by rw [State.amounts, hguards, add_zero, State.amounts]

/-- Every step moves an amount, and the condition says that it moves it well.  It is charged to
some isolate if guards are made under a lock only. -/
theorem moves_of_step (h : Inv s) (hstep : step s a = some s') :
    ∃ delta charged owner, Moves s s' delta charged owner ∧
      (Own s a ↔ delta = 0 ∨ charged = owner) ∧
      (UnderLock s a → (∀ g ∈ s.guards, g.owner ≠ none) → delta = 0 ∨ charged ≠ none) := by
  cases of_step hstep with
  | lock t isolate =>
      exact ⟨0, none, none, .still (fun i => s.accounts.total_applyPending isolate i) rfl,
        iff_of_true trivial (.inl rfl), fun _ _ => .inl rfl⟩
  | unlock =>
      exact ⟨0, none, none, .still (fun _ => rfl) rfl, iff_of_true trivial (.inl rfl),
        fun _ _ => .inl rfl⟩
  | @new _ t amount accounts ha htotal =>
      refine ⟨amount, s.current t, s.innermost t, ⟨htotal, fun i => ?_, ?_⟩, ?_, ?_⟩
      · exact sum_map_concat _ _ _
      · exact sum_map_concat _ _ _
      · refine iff_of_true ?_ (.inr (h.current_eq t))
        rcases ha with rfl | ⟨rfl, -⟩ <;> trivial
      · intro hlock _
        rw [h.current_eq]
        rcases ha with rfl | ⟨rfl, -⟩ <;> exact .inr hlock
  | @adjust _ t k g delta hg ha =>
      have hmem := mem_of_getElem? hg
      refine ⟨delta, s.charged t g, g.owner, ⟨fun i => ?_, fun i => ?_, ?_⟩, ?_,
        fun _ howned => .inr (h.charged_ne_none hmem (howned g hmem) t)⟩
      · rw [ExternalMemoryGuard.total_adjust, h.current_eq]
        rfl
      · refine sum_map_modify_add hg ?_
        rw [(ExternalMemoryGuard.guard_adjust _ _ _ _).1, entry_add]
      · refine sum_map_modify_add hg ?_
        exact (ExternalMemoryGuard.guard_adjust _ _ _ _).1
      · rw [or_iff_not_imp_left]
        rcases ha with rfl | ⟨newAmount, rfl, rfl⟩
        · rw [Own, hg]
          simp
        · rw [Own, hg, sub_eq_zero]
          simp
  | @drop t k g hg =>
      have hmem := mem_of_getElem? hg
      refine ⟨-g.amount, s.charged t g, g.owner, ⟨fun i => ?_, fun i => ?_, ?_⟩, ?_,
        fun _ howned => .inr (h.charged_ne_none hmem (howned g hmem) t)⟩
      · rw [ExternalMemoryGuard.total_drop, h.current_eq]
        rfl
      · rw [entry_neg]
        exact sum_map_eraseIdx_eq_add_neg _ hg
      · exact sum_map_eraseIdx_eq_add_neg _ hg
      · rw [or_iff_not_imp_left, neg_eq_zero, Own, hg]
        simp

/-- **External memory is charged to the right isolate** in every state of a run exactly if each
change of a guard goes to the isolate under whose lock it was made.  Then V8 is told of nothing in
an isolate that is locked again after its guards have gone.  For a guard made under a lock the
condition says that the thread that changes it holds no lock, or has locked that isolate last. -/
theorem external_memory_is_charged_iff (actions : List (Action ι θ)) (s : State ι θ)
    (hrun : (machine ι θ).run actions = some s) :
    ((machine ι θ).Always State.Balanced (machine ι θ).init actions ↔
      (machine ι θ).Meets Own (machine ι θ).init actions) ∧
    ((machine ι θ).Meets Own (machine ι θ).init actions →
      ∀ t i s', (∀ g ∈ s.guards, g.owner ≠ some i) → step s (.lock t i) = some s' →
        s'.accounts.reported i = 0) ∧
    ∀ g ∈ s.guards, ∀ i, g.owner = some i → ∀ t,
      (s.charged t g = g.owner ↔ ∀ lock ∈ (s.locks t).head?, lock.isolate = i) := by
  have hiff : (machine ι θ).Always State.Balanced (machine ι θ).init actions ↔
      (machine ι θ).Meets Own (machine ι θ).init actions := by
    refine Machine.always_iff_meets Inv.init (fun _ => rfl) (fun _ _ _ => Inv.step) ?_ hrun
    intro s a s' h hs hstep
    obtain ⟨delta, charged, owner, hmoves, hown, -⟩ := moves_of_step h hstep
    exact (hmoves.balanced_iff hs).trans hown.symm
  have h : Inv s := (machine ι θ).invariant Inv.init (fun _ _ _ => Inv.step) hrun
  refine ⟨hiff, ?_, fun g hg i howner t => h.charged_eq_owner_iff hg howner t⟩
  rintro hmeets t i s' hgone ⟨⟩
  have hbalanced := (hiff.mpr hmeets).last hrun i
  have hzero : s.owned i = 0 := by
    refine sum_eq_zero fun x hx => ?_
    obtain ⟨g, hg, rfl⟩ := mem_map.mp hx
    exact if_neg (hgone g hg)
  have htotal := s.accounts.total_applyPending i i
  rw [hbalanced, hzero, Accounts.total, Accounts.pendingDelta_applyPending, add_zero] at htotal
  exact htotal

/-- Two isolates.  A guard of the first is made, then the second is locked within the lock of the
first and gets a guard of its own, which grows there; both are changed again without a lock. -/
def nestedRun : List (Action Bool Unit) :=
  [.lock () false, .new () 1000, .lock () true, .empty (), .adjust () 1 70, .unlock (),
    .set () 0 600, .unlock (), .adjust () 1 (-20), .drop () 0, .lock () false, .unlock ()]

theorem external_memory_is_charged_iff_nested : ∃ s, (machine Bool Unit).run nestedRun = some s ∧
    s.accounts.reported false = 0 ∧ s.accounts.reported true = 70 ∧
    s.accounts.pendingDelta true = -20 ∧
    (machine Bool Unit).Always State.Balanced (machine Bool Unit).init nestedRun := by
  obtain ⟨hiff, -⟩ := external_memory_is_charged_iff nestedRun _ rfl
  exact ⟨_, rfl, by decide, by decide, by decide, hiff.mpr (by decide)⟩

/-- A guard made under the lock of the first isolate is dropped under that of the second, within
it.  The first isolate stays charged with what is gone, after it was locked again too, and the
second one is credited with what it never had. -/
theorem dropped_guard_is_credited_elsewhere : ∃ s, (machine Bool Unit).run
      [.lock () false, .new () 1000000, .lock () true, .drop () 0, .unlock (), .unlock (),
        .lock () false] = some s ∧
    s.guards = [] ∧ s.accounts.reported false = 1000000 ∧ s.accounts.pendingDelta false = 0 ∧
    s.accounts.reported true = -1000000 ∧ ¬ s.Balanced := by
  refine ⟨_, rfl, rfl, by decide, by decide, by decide, fun h => ?_⟩
  exact absurd (h false) (by decide)

/-! ## In all -/

/-- Every guard has an isolate, and together the isolates are charged with all guards. -/
structure InAll [Fintype ι] (s : State ι θ) : Prop where
  inv : Inv s
  owner : ∀ g ∈ s.guards, g.owner ≠ none
  total : ∑ i, s.accounts.total i = s.amounts

theorem owner_step (h : ∀ g ∈ s.guards, g.owner ≠ none) (hlock : UnderLock s a)
    (hstep : step s a = some s') : ∀ g ∈ s'.guards, g.owner ≠ none := by
  cases of_step hstep with
  | lock | unlock => exact h
  | new ha =>
      intro g hg
      rcases mem_append.mp hg with hg | hg
      · exact h g hg
      · cases mem_singleton.mp hg
        rcases ha with rfl | ⟨rfl, -⟩ <;> exact hlock
  | adjust =>
      exact forall_mem_modify h fun g hg => h g (mem_of_getElem? hg)
  | drop => exact fun g hg => h g (mem_of_mem_eraseIdx hg)

theorem inAll_step [Fintype ι] (s : State ι θ) (a : Action ι θ) (s' : State ι θ) (h : InAll s)
    (hlock : UnderLock s a) (hstep : step s a = some s') : InAll s' where
  inv := h.inv.step hstep
  owner := owner_step h.owner hlock hstep
  total := by
    obtain ⟨delta, charged, owner, hmoves, -, hsome⟩ := moves_of_step h.inv hstep
    have hsum : ∑ i, entry charged delta i = delta := by
      rcases hsome hlock h.owner with rfl | hne
      · exact Finset.sum_eq_zero fun i _ => entry_zero charged i
      · obtain ⟨i, rfl⟩ := Option.ne_none_iff_exists'.mp hne
        exact sum_entry i delta
    simp only [hmoves.total, Finset.sum_add_distrib, h.total, hsum, hmoves.amounts]

/-- **Nothing is lost.**  In every run in which guards are made under a lock only, under whatever
lock they are changed and dropped: what all isolates together are charged with is what the guards
amount to. -/
theorem external_memory_in_all [Fintype ι] {actions : List (Action ι θ)} {s : State ι θ}
    (hrun : (machine ι θ).run actions = some s)
    (hlock : (machine ι θ).Meets UnderLock (machine ι θ).init actions) :
    ∑ i, s.accounts.total i = s.amounts := by
  have hinit : InAll (machine ι θ).init :=
    ⟨Inv.init, fun _ h => absurd h not_mem_nil, Finset.sum_eq_zero fun _ _ => rfl⟩
  exact ((machine ι θ).invariant_of_meets hinit inAll_step hlock hrun).total

/-- Two guards of the first isolate: within its lock the second isolate is locked, and there one
is changed and the other is dropped. -/
theorem external_memory_in_all_locked : ∃ s,
    (machine Bool Unit).run [.lock () false, .new () 7, .new () 5, .lock () true, .adjust () 0 30,
      .drop () 1, .unlock (), .unlock ()] = some s ∧
      s.accounts.reported false = 12 ∧ s.accounts.reported true = 25 ∧ s.amounts = 37 ∧
      ∑ i, s.accounts.total i = s.amounts := by
  have hrun : (machine Bool Unit).run [.lock () false, .new () 7, .new () 5, .lock () true,
      .adjust () 0 30, .drop () 1, .unlock (), .unlock ()] = some _ := rfl
  refine ⟨_, hrun, by decide, by decide, rfl, external_memory_in_all hrun ?_⟩
  exact ⟨trivial, nofun, nofun, trivial, trivial, trivial, trivial, trivial, trivial⟩

end Step

end OpenWorkers.Gc
