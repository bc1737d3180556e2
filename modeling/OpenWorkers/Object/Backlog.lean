import OpenWorkers.Lib.Ledger
import OpenWorkers.Lib.Machine
import OpenWorkers.Object.Queue
import Mathlib.Algebra.GroupWithZero.Nat

/-!
# The backlog of the storage

`call` of `src/js/durable_object.js` with `op_bytes` of `src/runtime/bindings/durable_object.rs`.
The ops of a Durable Object that have not ended are held by the host, outside its heap; `backlog`
counts their bytes, and past a limit an op with keys or values throws.

`parse_storage_op` runs code of the guest, as the getters of a value do when it is cloned and
`toString` of an option of `list`; that code may make other calls, which are sent first.  So a call
is cut in two: the check, and the send with which it is counted.  It may also end in between with an
exception.  The calls that are between the two form a stack.

`strings` leaves out an element whose getter throws, and a string of which `toString` throws is
empty.  The op is sent then with the exception pending, so that `call` throws before it counts it.

An op has ended when the reaction `ended` of its promise has run, which is some time after the host
has answered.  The functions that the glue takes from the global scope (`Promise`, `Object.entries`,
`Array.prototype.map`) are those of V8.
-/

namespace OpenWorkers.Object.Backlog

open List Option

def maxBacklog : Nat := 32 * 1024 * 1024

/-- `op_bytes`. -/
def opBytes : ObjectStorageOp → Nat
  | .get keys => (keys.map String.utf8ByteSize).sum
  | .write puts deletes _ =>
    (puts.map fun put => put.1.utf8ByteSize + put.2.length).sum +
      (deletes.map String.utf8ByteSize).sum
  | .list _ _ _ _ _ _ | .getAlarm | .setAlarm _ => 0

/-- The bytes of the strings and values of an op. -/
def held : ObjectStorageOp → Nat
  | .list start startAfter stop keyPrefix _ _ =>
    ([start, startAfter, stop, keyPrefix].map fun field =>
      (field.map String.utf8ByteSize).getD 0).sum
  | op => opBytes op

/-- The op that the glue passes to `call`, as far as the check reads it. -/
inductive JsOp where
  | get (keys : Nat)
  | list
  | write
  | getAlarm
  | setAlarm
deriving DecidableEq, Repr

namespace JsOp

/-- `op.keys?.length`. -/
def keys : JsOp → Nat
  | .get keys => keys
  | .list | .write | .getAlarm | .setAlarm => 0

/-- Whether `parse_storage_op` can make the op of this one. -/
def parses : JsOp → ObjectStorageOp → Bool
  | .get keys, .get strings => strings.length = keys
  | .list, .list _ _ _ _ _ _ => true
  | .write, .write _ _ _ => true
  | .getAlarm, .getAlarm => true
  | .setAlarm, .setAlarm _ => true
  | _, _ => false

/-- Whether `parse_storage_op` can make the op of this one with an exception pending. -/
def parsesThrowing : JsOp → ObjectStorageOp → Bool
  | .get keys, .get strings => strings.length ≤ keys
  | .list, .list _ _ _ _ _ _ => true
  | .write, .write _ _ _ => true
  | _, _ => false

end JsOp

/-- The check of `call`. -/
def throws (backlog : Int) (op : JsOp) : Bool :=
  maxBacklog ≤ backlog && (op = .write || 0 < op.keys)

/-- An op that was sent and has not ended. -/
structure Pending where
  op : ObjectStorageOp
  /-- What was added to `backlog` for it. -/
  bytes : Nat
  /-- The host has settled its promise. -/
  answered : Bool
deriving DecidableEq, Repr

structure State where
  backlog : Int
  /-- The calls that have passed the check, the innermost first. -/
  parsing : List JsOp
  pending : List Pending
deriving DecidableEq, Repr

inductive Action where
  | call (op : JsOp)
  /-- The innermost call has its op, which is sent and counted. -/
  | send (op : ObjectStorageOp)
  /-- The innermost call has its op, which is sent, and throws. -/
  | sendThrowing (op : ObjectStorageOp)
  /-- The innermost call throws, as a value cannot be cloned. -/
  | abandon
  | answer (i : Nat)
  /-- The reaction of the promise. -/
  | ended (i : Nat)
deriving DecidableEq, Repr

def step (s : State) : Action → Option State
  | .call op => some (if throws s.backlog op then s else { s with parsing := op :: s.parsing })
  | .send op =>
    match s.parsing with
    | [] => none
    | js :: parsing =>
      if js.parses op then
        some ⟨s.backlog + opBytes op, parsing, s.pending ++ [⟨op, opBytes op, false⟩]⟩
      else
        none
  | .sendThrowing op =>
    match s.parsing with
    | [] => none
    | js :: parsing =>
      if js.parsesThrowing op then
        some ⟨s.backlog, parsing, s.pending ++ [⟨op, 0, false⟩]⟩
      else
        none
  | .abandon =>
    match s.parsing with
    | [] => none
    | _ :: parsing => some { s with parsing }
  | .answer i =>
    (s.pending[i]?).bind fun p =>
      if p.answered then none
      else some { s with pending := s.pending.modify i ({ · with answered := true }) }
  | .ended i =>
    (s.pending[i]?).bind fun p =>
      if p.answered then
        some { s with backlog := s.backlog - p.bytes, pending := s.pending.eraseIdx i }
      else
        none

/-- The steps, one constructor for each way a step can go. -/
inductive Step (s : State) : Action → State → Prop where
  | refused {op : JsOp} (hthrows : throws s.backlog op = true) : Step s (.call op) s
  | call {op : JsOp} (hthrows : throws s.backlog op = false) :
      Step s (.call op) { s with parsing := op :: s.parsing }
  | send {op : ObjectStorageOp} {js : JsOp} {parsing : List JsOp}
      (hparsing : s.parsing = js :: parsing) (hop : js.parses op = true) :
      Step s (.send op) ⟨s.backlog + opBytes op, parsing, s.pending ++ [⟨op, opBytes op, false⟩]⟩
  | sendThrowing {op : ObjectStorageOp} {js : JsOp} {parsing : List JsOp}
      (hparsing : s.parsing = js :: parsing) (hop : js.parsesThrowing op = true) :
      Step s (.sendThrowing op) ⟨s.backlog, parsing, s.pending ++ [⟨op, 0, false⟩]⟩
  | abandon {js : JsOp} {parsing : List JsOp} (hparsing : s.parsing = js :: parsing) :
      Step s .abandon { s with parsing }
  | answer {i : Nat} {p : Pending} (hp : s.pending[i]? = some p) (hanswered : p.answered = false) :
      Step s (.answer i) { s with pending := s.pending.modify i ({ · with answered := true }) }
  | ended {i : Nat} {p : Pending} (hp : s.pending[i]? = some p) (hanswered : p.answered = true) :
      Step s (.ended i)
        { s with backlog := s.backlog - p.bytes, pending := s.pending.eraseIdx i }

theorem of_step {s s' : State} {a : Action} (h : step s a = some s') : Step s a s' := by
  cases a with
  | call op =>
      cases h
      cases hthrows : throws s.backlog op with
      | true => exact .refused hthrows
      | false => exact .call hthrows
  | send op =>
      simp only [step] at h
      split at h
      · cases h
      · next js parsing hparsing =>
          obtain ⟨hop, ⟨⟩⟩ := ite_none_right_eq_some.mp h
          exact .send hparsing hop
  | sendThrowing op =>
      simp only [step] at h
      split at h
      · cases h
      · next js parsing hparsing =>
          obtain ⟨hop, ⟨⟩⟩ := ite_none_right_eq_some.mp h
          exact .sendThrowing hparsing hop
  | abandon =>
      simp only [step] at h
      split at h
      · cases h
      · next js parsing hparsing =>
          cases h
          exact .abandon hparsing
  | answer i =>
      obtain ⟨p, hp, h⟩ := bind_eq_some_iff.mp h
      obtain ⟨hanswered, ⟨⟩⟩ := ite_none_left_eq_some.mp h
      exact .answer hp ((Bool.not_eq_true _).mp hanswered)
  | ended i =>
      obtain ⟨p, hp, h⟩ := bind_eq_some_iff.mp h
      obtain ⟨hanswered, ⟨⟩⟩ := ite_none_right_eq_some.mp h
      exact .ended hp hanswered

def machine : Machine State Action where
  init := ⟨0, [], []⟩
  step := step

/-! ## What is counted -/

/-- What the ops that have not ended amount to. -/
def total (f : ObjectStorageOp → Nat) (pending : List Pending) : Nat :=
  (pending.map fun p => f p.op).sum

section Total

variable (f : ObjectStorageOp → Nat) {pending : List Pending} {i : Nat} {p : Pending}

theorem total_concat : total f (pending ++ [p]) = total f pending + f p.op :=
  sum_map_concat _ _ _

theorem total_answer :
    total f (pending.modify i ({ · with answered := true })) = total f pending :=
  sum_map_modify_of_eq fun _ _ => rfl

theorem total_eraseIdx (hp : pending[i]? = some p) :
    total f pending = f p.op + total f (pending.eraseIdx i) :=
  sum_map_eraseIdx _ hp

end Total

namespace State

variable (s : State)

/-- The bytes that the ops which have not ended hold. -/
def held : Nat := total Backlog.held s.pending

/-- What is held is less than the limit and one op. -/
def Bounded : Prop :=
  s.held < maxBacklog ∨ ∃ p ∈ s.pending, s.held < maxBacklog + Backlog.held p.op

theorem not_bounded {s : State} {n : Nat} (hn : ∀ p ∈ s.pending, Backlog.held p.op ≤ n)
    (hheld : maxBacklog + n ≤ s.held) : ¬ s.Bounded := by
  rintro (hlt | ⟨p, hp, hlt⟩)
  · omega
  · have := hn p hp
    omega

end State

variable {s s' : State} {a : Action}

/-! ## The bound -/

/-- An op that is sent holds what is counted for it, and is under the limit still where it is
sent. -/
def Measured (s : State) : Action → Prop
  | .send op => held op = opBytes op ∧ (s.backlog < maxBacklog ∨ opBytes op = 0)
  | .sendThrowing op => held op = 0
  | .call _ | .abandon | .answer _ | .ended _ => True

instance (s : State) (a : Action) : Decidable (Measured s a) := by
  cases a <;> dsimp only [Measured] <;> infer_instance

structure Inv (s : State) : Prop where
  counted : s.backlog = (s.held : Nat)
  measured : ∀ p ∈ s.pending, held p.op = p.bytes
  bounded : s.Bounded

namespace Inv

/-- An op of which all is counted that it holds. -/
theorem send {op : ObjectStorageOp} {bytes : Nat} {parsing : List JsOp} (h : Inv s)
    (hop : held op = bytes) (hroom : s.backlog < maxBacklog ∨ bytes = 0) :
    Inv ⟨s.backlog + bytes, parsing, s.pending ++ [⟨op, bytes, false⟩]⟩ := by
  have htotal : total held (s.pending ++ [⟨op, bytes, false⟩]) = s.held + held op :=
    total_concat held
  have hcounted := h.counted
  refine ⟨?_, fun q hq => ?_, ?_⟩
  · show s.backlog + bytes = (total held (s.pending ++ [⟨op, bytes, false⟩]) : Nat)
    omega
  · rcases mem_append.mp hq with hq | hq
    · exact h.measured q hq
    · cases mem_singleton.mp hq
      exact hop
  · rw [State.Bounded, State.held, htotal]
    rcases hroom with hlt | hzero
    · refine .inr ⟨⟨op, bytes, false⟩, mem_append_right _ mem_cons_self, ?_⟩
      show s.held + held op < maxBacklog + held op
      omega
    · rw [hop, hzero, Nat.add_zero]
      exact h.bounded.imp_right fun ⟨q, hq, hlt⟩ => ⟨q, mem_append_left _ hq, hlt⟩

theorem answer {i : Nat} {p : Pending} (h : Inv s) (hp : s.pending[i]? = some p) :
    Inv { s with pending := s.pending.modify i ({ · with answered := true }) } := by
  have htotal : total held (s.pending.modify i ({ · with answered := true })) = s.held :=
    total_answer held
  refine ⟨h.counted.trans (congrArg _ htotal.symm), ?_, ?_⟩
  · refine forall_mem_modify h.measured fun q hq => ?_
    exact h.measured q (mem_of_getElem? hq)
  · rw [State.Bounded, State.held, htotal]
    exact h.bounded.imp_right (exists_mem_modify hp id)

/-- If the op that ends is the one past the limit, what is left is under it. -/
theorem ended {i : Nat} {p : Pending} (h : Inv s) (hp : s.pending[i]? = some p) :
    Inv { s with backlog := s.backlog - p.bytes, pending := s.pending.eraseIdx i } := by
  have htotal : s.held = held p.op + total held (s.pending.eraseIdx i) := total_eraseIdx held hp
  have hmeasured := h.measured p (mem_of_getElem? hp)
  have hcounted := h.counted
  refine ⟨?_, fun q hq => h.measured q (mem_of_mem_eraseIdx hq), ?_⟩
  · show s.backlog - p.bytes = (total held (s.pending.eraseIdx i) : Nat)
    omega
  · show total held (s.pending.eraseIdx i) < maxBacklog ∨ ∃ q ∈ s.pending.eraseIdx i,
      total held (s.pending.eraseIdx i) < maxBacklog + held q.op
    rcases h.bounded with hlt | ⟨q, hq, hlt⟩
    · exact .inl (by omega)
    · rcases (mem_iff_mem_eraseIdx hp).mp hq with rfl | hq
      · exact .inl (by omega)
      · exact .inr ⟨q, hq, by omega⟩

end Inv

theorem inv_step (s : State) (a : Action) (s' : State) (h : Inv s) (hG : Measured s a)
    (hstep : step s a = some s') : Inv s' := by
  cases of_step hstep with
  | refused hthrows => exact h
  | call hthrows => exact ⟨h.counted, h.measured, h.bounded⟩
  | send hparsing hop => exact h.send hG.1 hG.2
  | sendThrowing hparsing hop =>
      rw [← Int.add_zero s.backlog]
      exact h.send hG (.inr rfl)
  | abandon hparsing => exact ⟨h.counted, h.measured, h.bounded⟩
  | answer hp hanswered => exact h.answer hp
  | ended hp hanswered => exact h.ended hp

/-- In a run in which every op holds only what is counted for it and is under the limit where it is
sent, the counter is what the ops that have not ended hold, that is less than the limit and one op,
and the counter is back at zero when all have ended. -/
theorem backlog_is_bounded {as : List Action} {t : State}
    (hmeasured : machine.Meets Measured machine.init as) (hrun : machine.run as = some t) :
    t.backlog = (t.held : Nat) ∧ t.Bounded ∧ (t.pending = [] → t.backlog = 0) := by
  have hinit : Inv machine.init := ⟨rfl, by rintro _ ⟨⟩, .inl (by decide)⟩
  have h := Machine.invariant_of_meets hinit inv_step hmeasured hrun
  refine ⟨h.counted, h.bounded, fun hnil => ?_⟩
  rw [h.counted, State.held, hnil]
  rfl

/-- Two puts, of which one throws, and a `sync`; the first ends. -/
theorem backlog_is_bounded_puts :
    ∃ t, machine.run [.call .write, .send (.write [("k", [1, 2])] [] false), .call .write, .abandon,
        .call (.get 0), .send (.get []), .answer 0, .ended 0] = some t ∧
      t.pending = [⟨.get [], 0, false⟩] ∧ t.backlog = (t.held : Nat) ∧ t.Bounded := by
  have hmeasured : machine.Meets Measured machine.init [.call .write,
      .send (.write [("k", [1, 2])] [] false), .call .write, .abandon, .call (.get 0),
      .send (.get []), .answer 0, .ended 0] := by decide
  have h := backlog_is_bounded hmeasured rfl
  exact ⟨_, rfl, rfl, h.1, h.2.1⟩

/-! ## What is not counted -/

/-- A list from a key on. -/
def listFrom : ObjectStorageOp := .list (some "k") none none none false none

/-- A get of two keys, one of which was left out. -/
def getOfTwo : ObjectStorageOp := .get ["k"]

section

variable (js : JsOp) (a : Action) {op : ObjectStorageOp}

/-- Calls are made one after the other, and none of what their ops hold is counted. -/
theorem runFrom_uncounted (hone : ∀ pending, machine.runFrom ⟨0, [], pending⟩ [.call js, a] =
      some ⟨0, [], pending ++ [⟨op, 0, false⟩]⟩) (n : Nat) (pending : List Pending) :
    machine.runFrom ⟨0, [], pending⟩ (List.replicate n [.call js, a]).flatten =
      some ⟨0, [], pending ++ List.replicate n ⟨op, 0, false⟩⟩ := by
  induction n generalizing pending with
  | zero =>
      rw [replicate_zero, replicate_zero, append_nil]
      rfl
  | succ n ih =>
      rw [replicate_succ, flatten_cons, Machine.runFrom_append (hone pending), ih,
        replicate_succ, append_assoc, singleton_append]

theorem run_uncounted (hone : ∀ pending, machine.runFrom ⟨0, [], pending⟩ [.call js, a] =
      some ⟨0, [], pending ++ [⟨op, 0, false⟩]⟩) (hheld : held op = 1) (n : Nat) :
    ∃ t, machine.run (List.replicate n [.call js, a]).flatten = some t ∧
      t.backlog = 0 ∧ t.held = n ∧ ∀ p ∈ t.pending, held p.op ≤ 1 := by
  refine ⟨⟨0, [], List.replicate n ⟨op, 0, false⟩⟩, runFrom_uncounted js a hone n [], rfl, ?_,
    fun p hp => ?_⟩
  · rw [State.held, total, map_replicate, sum_replicate_nat, hheld, Nat.mul_one]
  · rw [eq_of_mem_replicate hp]
    exact Nat.le_of_eq hheld

end

/-- While a value is cloned, as by a getter, another write is made. -/
theorem run_nested (value : List UInt8) :
    ∃ t, machine.run [.call .write, .call .write, .send (.write [("", value)] [] false),
        .send (.write [("", value)] [] false)] = some t ∧
      t.held = value.length + value.length ∧ ∀ p ∈ t.pending, held p.op ≤ value.length := by
  have hone : held (.write [("", value)] [] false) = value.length := by simp [held, opBytes]
  have hrun : machine.run [.call .write, .call .write, .send (.write [("", value)] [] false),
      .send (.write [("", value)] [] false)] = some ⟨_, [], [⟨_, _, false⟩, ⟨_, _, false⟩]⟩ := rfl
  refine ⟨_, hrun, ?_, ?_⟩
  · simp [State.held, total, hone]
  · simp [hone]

/-- The bytes of lists pass the limit, with a counter at zero, and so do those of gets that throw
when they are sent; and a write made while the value of another one is cloned is sent first, so that
the other one is sent past the limit, with as many bytes again. -/
theorem backlog_passes_the_limit :
    (∃ t, machine.run (List.replicate (maxBacklog + 1) [.call .list, .send listFrom]).flatten =
        some t ∧ t.backlog = 0 ∧ t.held = maxBacklog + 1 ∧ ¬ t.Bounded) ∧
    (∃ t, machine.run [.call .write, .call .write,
        .send (.write [("", List.replicate maxBacklog 0)] [] false),
        .send (.write [("", List.replicate maxBacklog 0)] [] false)] = some t ∧
      t.held = maxBacklog + maxBacklog ∧ ¬ t.Bounded) ∧
    ∃ t, machine.run
        (List.replicate (maxBacklog + 1) [.call (.get 2), .sendThrowing getOfTwo]).flatten =
      some t ∧ t.backlog = 0 ∧ t.held = maxBacklog + 1 ∧ ¬ t.Bounded := by
  refine ⟨?_, ?_, ?_⟩
  · obtain ⟨t, hrun, hbacklog, hheld, hone⟩ :=
      run_uncounted .list (.send listFrom) (fun _ => rfl) (by decide) (maxBacklog + 1)
    exact ⟨t, hrun, hbacklog, hheld, State.not_bounded hone (Nat.le_of_eq hheld.symm)⟩
  · obtain ⟨t, hrun, hheld, hone⟩ := run_nested (List.replicate maxBacklog 0)
    rw [length_replicate] at hheld hone
    exact ⟨t, hrun, hheld, State.not_bounded hone (Nat.le_of_eq hheld.symm)⟩
  · obtain ⟨t, hrun, hbacklog, hheld, hone⟩ :=
      run_uncounted (.get 2) (.sendThrowing getOfTwo) (fun _ => rfl) (by decide) (maxBacklog + 1)
    exact ⟨t, hrun, hbacklog, hheld, State.not_bounded hone (Nat.le_of_eq hheld.symm)⟩

end OpenWorkers.Object.Backlog
