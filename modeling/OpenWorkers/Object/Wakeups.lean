import OpenWorkers.Lib.Log
import OpenWorkers.Object.Serve

/-!
# A turn does not sleep on work

When a turn of a Durable Object is over, `serve` waits for its waker.  The waker is known to the
mailbox and to the channel of the callbacks from the last time each was polled, and the turn wakes
it itself after its last round if there was work in it.  So a turn that ends in another way must
not leave work behind that nobody will wake it for: an event it has taken, a callback it could
run, or a mailbox or a channel that it has not asked since its guest last ran.

The turn ends in the first round that admits nothing, runs no callback and answers nothing.  No
guest code runs in such a round, so the gate is the same in all of it, and what the round found
is still true at its end: `Rested` is carried from `endAdmission` to the end of the turn.
-/

namespace OpenWorkers.Object.Serve

open List Option

/-- What is seen of a run. -/
inductive Seen where
  /-- An event went in: guest code ran. -/
  | admitted
  /-- A callback was delivered: guest code ran. -/
  | callback
  /-- `answer` ran guest code. -/
  | answered
  /-- The mailbox was polled: it is empty, or closed. -/
  | mailboxPolled
  /-- The channel of the callbacks was polled, and is empty. -/
  | channelPolled
  /-- An event came to the mailbox, or it closed: a waker that is registered there is woken. -/
  | mailboxSignal
  /-- A callback came to the channel, or it closed. -/
  | channelSignal
deriving DecidableEq, Repr

def Seen.isGuest : Seen → Bool
  | .admitted | .callback | .answered => true
  | .mailboxPolled | .channelPolled | .mailboxSignal | .channelSignal => false

def observe (s : State) : Action → List Seen
  | .mail _ | .closeMailbox => [.mailboxSignal]
  | .arrive _ | .closeChannel => [.channelSignal]
  | .admitEvent _ _ => [.admitted]
  | .endAdmission =>
      (if s.glue.gate.isOpen then [.mailboxPolled] else []) ++
        if s.channelOpen then [.channelPolled] else []
  | .deliver _ => [.callback]
  | .answer answered _ _ =>
      match s.glue.gate with
      | .broken _ => []
      | .state _ _ => if answered then [.answered] else []
  | .tick _ | .poll | .endDrain | .settle _ _ _ _ _ => []

/-- The round has found no event, and the channel was asked after the last callback. -/
structure Rested (s : State) (log : List Seen) : Prop where
  queue : s.glue.gate.isOpen = true → s.queue = []
  mailbox : s.glue.gate.isOpen = true → Since Seen.isGuest .mailboxPolled log
  channel : Since (· == .callback) .channelPolled log

/-- The round has admitted nothing and run no callback so far. -/
def Phase.quiet : Phase → Bool
  | .draining _ 0 0 | .answering _ 0 0 => true
  | _ => false

/-- What came to the mailbox since it was last polled has woken the waker. -/
def MailSignalled (s : State) (log : List Seen) : Prop :=
  (s.mailbox.length ≤ s.taken ∧ (s.mailboxOpen = false → s.closed = true)) ∨
    Since (· == .mailboxPolled) .mailboxSignal log

/-- What came to the channel since it was last polled has woken the waker. -/
def CallbackSignalled (s : State) (log : List Seen) : Prop :=
  (s.arrived.length ≤ s.received ∧ s.channelOpen = true) ∨
    Since (· == .channelPolled) .channelSignal log

structure WakeInv (s : State) (log : List Seen) : Prop where
  rested : s.phase.quiet = true → Rested s log
  drained : ∀ round, s.phase = .answering round 0 0 → s.nextCallback = none
  settled : s.phase = .settling none → s.woken = false →
    (∀ message, s.glue.gate ≠ .broken message) →
    Rested s log ∧ s.nextCallback = none
  mail : .mailboxPolled ∈ log → MailSignalled s log
  callbacks : .channelPolled ∈ log → CallbackSignalled s log

section

variable {s s' : State} {log new : List Seen}

theorem since_mono {stop : Seen → Bool} {x : Seen} (h : Since stop x log)
    (hnew : ∀ e ∈ new, stop e = false) : Since stop x (log ++ new) :=
  (since_append hnew).mpr (.inr h)

theorem since_new {stop : Seen → Bool} {x : Seen} (hx : x ∈ new)
    (hnew : ∀ e ∈ new, stop e = false) : Since stop x (log ++ new) :=
  (since_append hnew).mpr (.inl hx)

theorem beq_false_of_not_mem {x : Seen} (h : x ∉ new) : ∀ e ∈ new, (e == x) = false := by
  intro e he
  refine beq_eq_false_iff_ne.mpr ?_
  rintro rfl
  exact h he

theorem Rested.mono (h : Rested s log) (hglue : s'.glue = s.glue) (hqueue : s'.queue = s.queue)
    (hnew : ∀ e ∈ new, e.isGuest = false) : Rested s' (log ++ new) := by
  refine ⟨fun hopen => ?_, fun hopen => ?_, ?_⟩
  · rw [hqueue]
    exact h.queue (hglue ▸ hopen)
  · exact since_mono (h.mailbox (hglue ▸ hopen)) hnew
  · refine since_mono h.channel fun e he => beq_eq_false_iff_ne.mpr ?_
    rintro rfl
    cases hnew _ he

theorem nextEvent_eq_none (h : s.nextEvent = none) : s.queue = [] ∧ s.mailbox.length ≤ s.taken := by
  rw [State.nextEvent] at h
  split at h
  · cases h
  next hqueue =>
    refine ⟨hqueue, Nat.not_lt.mp fun hlt => ?_⟩
    rw [if_pos hlt] at h
    cases h

/-- The part of the state that tells what waits in the mailbox and in the channel. -/
structure Inputs where
  mailbox : List ObjectEvent
  mailboxOpen : Bool
  taken : Nat
  closed : Bool
  arrived : List CallbackMessage
  channelOpen : Bool
  received : Nat

def State.inputs (s : State) : Inputs :=
  ⟨s.mailbox, s.mailboxOpen, s.taken, s.closed, s.arrived, s.channelOpen, s.received⟩

theorem inputs_answer {round admitted count : Nat} {answered : Bool} {finished : List EventId}
    {effects : List GlueOp}
    (h : s.answer round admitted count answered finished effects = some s') :
    s'.inputs = s.inputs := by
  rw [State.answer] at h
  split at h
  · cases h
    rfl
  · obtain ⟨-, h⟩ := ite_none_left_eq_some.mp h
    obtain ⟨glue, -, rfl⟩ := map_eq_some_iff.mp h
    simp only
    split
    · rfl
    · split <;> rfl

theorem inputs_checkIdle (cfg : Config) : (s.checkIdle cfg).inputs = s.inputs := by
  rw [State.checkIdle]
  split
  · rfl
  · split
    · simp only
      split <;> rfl
    · rfl

theorem inputs_checkGate (h : s.checkGate = .ok s') : s'.inputs = s.inputs := by
  rw [State.checkGate_eq_ok h]
  rfl

theorem inputs_settle {cfg : Config} {error : Option String} {limit : Option TerminationReason}
    {pinned : Bool} {left : List EventId} :
    (s.settle cfg error limit pinned left).inputs = s.inputs := by
  unfold State.settle
  split
  · rfl
  · rfl
  · split
    · rfl
    next t hgate =>
      have hkeep : (t.keep cfg pinned left).inputs = t.inputs := rfl
      rw [inputs_checkIdle, hkeep, inputs_checkGate hgate]

/-- After `settle` no turn goes on. -/
def Phase.between : Phase → Bool
  | .idle | .ended _ => true
  | _ => false

theorem between_checkIdle (cfg : Config) : (s.checkIdle cfg).phase.between = true := by
  unfold State.checkIdle
  split
  · rfl
  · split
    · simp only
      split <;> rfl
    · rfl

theorem between_settle {cfg : Config} {error : Option String} {limit : Option TerminationReason}
    {pinned : Bool} {left : List EventId} :
    (s.settle cfg error limit pinned left).phase.between = true := by
  unfold State.settle
  split
  · rfl
  · rfl
  · split
    · rfl
    · exact between_checkIdle cfg

/-- Nothing came to the mailbox, though events may have been taken. -/
structure SameMailbox (s s' : State) : Prop where
  mailbox : s'.mailbox = s.mailbox
  mailboxOpen : s'.mailboxOpen = s.mailboxOpen
  taken : s.taken ≤ s'.taken
  closed : s.closed = true → s'.closed = true

/-- Nothing came to the channel. -/
structure SameChannel (s s' : State) : Prop where
  arrived : s'.arrived = s.arrived
  channelOpen : s'.channelOpen = s.channelOpen
  received : s.received ≤ s'.received

structure SameInputs (s s' : State) : Prop extends SameMailbox s s', SameChannel s s'

theorem SameInputs.of_eq (h : s'.inputs = s.inputs) : SameInputs s s' where
  mailbox := congrArg Inputs.mailbox h
  mailboxOpen := congrArg Inputs.mailboxOpen h
  taken := Nat.le_of_eq (congrArg Inputs.taken h).symm
  closed hclosed := (congrArg Inputs.closed h).trans hclosed
  arrived := congrArg Inputs.arrived h
  channelOpen := congrArg Inputs.channelOpen h
  received := Nat.le_of_eq (congrArg Inputs.received h).symm

/-- The next event is taken. -/
theorem SameInputs.admitEvent {round admitted : Nat} {effects : List GlueOp} {error : Option String}
    (h : s.admitEvent round admitted effects error = some s') : SameInputs s s' := by
  obtain ⟨-, h⟩ := ite_none_right_eq_some.mp h
  obtain ⟨⟨id, next⟩, hnext, h⟩ := bind_eq_some_iff.mp h
  obtain ⟨glue, -, rfl⟩ := map_eq_some_iff.mp h
  have hsame : SameInputs s next := by
    unfold State.nextEvent at hnext
    split at hnext
    · cases hnext
      exact .of_eq rfl
    · obtain ⟨-, heq⟩ := ite_none_right_eq_some.mp hnext
      cases heq
      exact ⟨⟨rfl, rfl, Nat.le_succ _, fun h => h⟩, ⟨rfl, rfl, Nat.le.refl⟩⟩
  obtain ⟨⟨hmailbox, hopen, htaken, hclosed⟩, harrived, hchannel, hreceived⟩ := hsame
  cases error with
  | none => exact ⟨⟨hmailbox, hopen, htaken, hclosed⟩, harrived, hchannel, hreceived⟩
  | some message => exact ⟨⟨hmailbox, hopen, htaken, hclosed⟩, harrived, hchannel, hreceived⟩

namespace WakeInv

theorem mail_mono (h : WakeInv s log) (hsame : SameMailbox s s') (hnew : .mailboxPolled ∉ new)
    (hmem : .mailboxPolled ∈ log ++ new) : MailSignalled s' (log ++ new) := by
  rcases h.mail ((mem_append.mp hmem).resolve_right hnew) with ⟨hlength, hclose⟩ | hsince
  · left
    rw [hsame.mailbox, hsame.mailboxOpen]
    exact ⟨Nat.le_trans hlength hsame.taken, fun h => hsame.closed (hclose h)⟩
  · exact .inr (since_mono hsince (beq_false_of_not_mem hnew))

theorem callbacks_mono (h : WakeInv s log) (hsame : SameChannel s s')
    (hnew : .channelPolled ∉ new) (hmem : .channelPolled ∈ log ++ new) :
    CallbackSignalled s' (log ++ new) := by
  rcases h.callbacks ((mem_append.mp hmem).resolve_right hnew) with ⟨hlength, hopen⟩ | hsince
  · left
    rw [hsame.arrived, hsame.channelOpen]
    exact ⟨Nat.le_trans hlength hsame.received, hopen⟩
  · exact .inr (since_mono hsince (beq_false_of_not_mem hnew))

/-- After a step that ran guest code, or that began or ended a turn, nothing is to be shown of
the round. -/
theorem loud (h : WakeInv s log) (hsame : SameInputs s s') (hquiet : s'.phase.quiet = false)
    (hphase : s'.phase ≠ .settling none) (hmail : .mailboxPolled ∉ new)
    (hchannel : .channelPolled ∉ new) : WakeInv s' (log ++ new) := by
  refine ⟨fun hq => ?_, fun round hround => ?_, fun hnone => absurd hnone hphase,
    h.mail_mono hsame.toSameMailbox hmail, h.callbacks_mono hsame.toSameChannel hchannel⟩
  · rw [hquiet] at hq
    cases hq
  · rw [hround] at hquiet
    cases hquiet

theorem between (h : WakeInv s log) (hsame : SameInputs s s') (hphase : s'.phase.between = true)
    (hmail : .mailboxPolled ∉ new) (hchannel : .channelPolled ∉ new) : WakeInv s' (log ++ new) := by
  cases hcase : s'.phase with
  | idle | ended outcome =>
      refine h.loud hsame ?_ ?_ hmail hchannel
      · rw [hcase]
        rfl
      · rw [hcase]
        exact nofun
  | admitting | draining | answering | settling =>
      rw [hcase] at hphase
      cases hphase

/-- The environment acts: the turn is where it was. -/
theorem aside (h : WakeInv s log) (hphase : s'.phase = s.phase) (hglue : s'.glue = s.glue)
    (hqueue : s'.queue = s.queue) (hpending : s'.pending = s.pending) (hwoken : s'.woken = s.woken)
    (hnew : ∀ e ∈ new, e.isGuest = false)
    (hmail : .mailboxPolled ∈ log ++ new → MailSignalled s' (log ++ new))
    (hcallbacks : .channelPolled ∈ log ++ new → CallbackSignalled s' (log ++ new)) :
    WakeInv s' (log ++ new) := by
  have hnext : s'.nextCallback = s.nextCallback := by
    rw [State.nextCallback, State.nextCallback, hglue, hpending]
  refine ⟨fun hq => ?_, fun round hround => ?_, fun hsettling hw hbroken => ?_, hmail, hcallbacks⟩
  · exact (h.rested (hphase ▸ hq)).mono hglue hqueue hnew
  · rw [hnext]
    exact h.drained round (hphase ▸ hround)
  · rw [hnext]
    rw [hglue] at hbroken
    obtain ⟨hrested, hnone⟩ := h.settled (hphase ▸ hsettling) (hwoken ▸ hw) hbroken
    exact ⟨hrested.mono hglue hqueue hnew, hnone⟩

theorem endAdmission (h : WakeInv s log) {round admitted : Nat}
    (hstep : s.endAdmission round admitted = some s') :
    WakeInv s' (log ++ observe s .endAdmission) := by
  obtain ⟨hends, heq⟩ := ite_none_left_eq_some.mp hstep
  cases heq
  have hempty : s.glue.gate.isOpen = true → s.queue = [] ∧ s.mailbox.length ≤ s.taken := by
    intro hopen
    rw [hopen, Bool.true_and] at hends
    exact nextEvent_eq_none (not_isSome_iff_eq_none.mp hends)
  have hquiet : ∀ e ∈ observe s .endAdmission, e.isGuest = false := by
    intro e he
    rcases mem_append.mp he with he | he
    · split at he
      · rw [mem_singleton.mp he]
        rfl
      · cases he
    · split at he
      · rw [mem_singleton.mp he]
        rfl
      · cases he
  refine ⟨fun hq => ?_, fun r hr => ?_, fun hsettling => ?_, fun hmem => ?_, fun hmem => ?_⟩
  · -- The channel is open, or the turn would have failed.
    have hchannel : s.channelOpen = true := by
      by_contra hclosed
      simp only [if_neg hclosed] at hq
      cases hq
    refine ⟨fun hopen => (hempty hopen).1, fun hopen => since_new ?_ hquiet, since_new ?_ ?_⟩
    · simp only [observe, if_pos hopen]
      exact mem_append_left _ mem_cons_self
    · simp only [observe, if_pos hchannel]
      exact mem_append_right _ mem_cons_self
    · refine fun e he => beq_eq_false_iff_ne.mpr ?_
      rintro rfl
      cases hquiet _ he
  · simp only at hr
    split at hr <;> cases hr
  · simp only at hsettling
    split at hsettling <;> cases hsettling
  · by_cases hopen : s.glue.gate.isOpen = true
    · refine .inl ⟨(hempty hopen).2, fun hclosed => ?_⟩
      have hmailbox : s.mailboxOpen = false := hclosed
      simp only [hopen, hmailbox, Bool.not_false, Bool.and_true, Bool.or_true]
    · have hnew : .mailboxPolled ∉ observe s .endAdmission := by
        simp only [observe, if_neg hopen, nil_append]
        split <;> simp
      refine h.mail_mono ⟨rfl, rfl, Nat.le.refl, fun hclosed => ?_⟩ hnew hmem
      simp only [hclosed, Bool.true_or]
  · by_cases hchannel : s.channelOpen = true
    · exact .inl ⟨Nat.le.refl, hchannel⟩
    · have hnew : .channelPolled ∉ observe s .endAdmission := by
        simp only [observe, if_neg hchannel, append_nil]
        split <;> simp
      rcases h.callbacks ((mem_append.mp hmem).resolve_right hnew) with ⟨-, hopen⟩ | hsince
      · exact absurd hopen hchannel
      · exact .inr (since_mono hsince (beq_false_of_not_mem hnew))

theorem not_mem_observe_answer {e : Seen} {answered : Bool} {finished : List EventId}
    {effects : List GlueOp} (he : e ≠ .answered) :
    e ∉ observe s (.answer answered finished effects) := by
  simp only [observe]
  split
  · exact not_mem_nil
  · split
    · exact fun hmem => he (mem_singleton.mp hmem)
    · exact not_mem_nil

theorem answer (h : WakeInv s log) {round admitted count : Nat} {answered : Bool}
    {finished : List EventId} {effects : List GlueOp}
    (hphase : s.phase = .answering round admitted count)
    (hstep : s.answer round admitted count answered finished effects = some s') :
    WakeInv s' (log ++ observe s (.answer answered finished effects)) := by
  have hmail : .mailboxPolled ∉ observe s (.answer answered finished effects) :=
    not_mem_observe_answer nofun
  have hchannel : .channelPolled ∉ observe s (.answer answered finished effects) :=
    not_mem_observe_answer nofun
  have hinputs := SameInputs.of_eq (inputs_answer hstep)
  cases hgate : s.glue.gate with
  | broken message =>
      simp only [State.answer, hgate] at hstep
      cases hstep
      refine ⟨nofun, nofun, fun _ _ hnot => absurd hgate (hnot message), ?_, ?_⟩
      · exact h.mail_mono hinputs.toSameMailbox hmail
      · exact h.callbacks_mono hinputs.toSameChannel hchannel
  | state blocked reading =>
      simp only [State.answer, hgate] at hstep
      obtain ⟨heffects, hstep⟩ := ite_none_left_eq_some.mp hstep
      obtain ⟨glue, hglue, heq⟩ := map_eq_some_iff.mp hstep
      split at heq
      next hrest =>
        -- Nothing was done in this round.
        obtain ⟨rfl, rfl, rfl⟩ := hrest
        cases heq
        obtain rfl : effects = [] := by
          by_contra hne
          exact heffects ⟨rfl, hne⟩
        cases hglue
        have hquiet : s.phase.quiet = true := by rw [hphase]; rfl
        have hnew : ∀ e ∈ observe s (.answer false finished []), e.isGuest = false := by
          simp only [observe, hgate]
          exact nofun
        refine ⟨nofun, nofun, fun _ _ _ => ?_, ?_, ?_⟩
        · exact ⟨(h.rested hquiet).mono rfl rfl hnew, h.drained round hphase⟩
        · exact h.mail_mono hinputs.toSameMailbox hmail
        · exact h.callbacks_mono hinputs.toSameChannel hchannel
      next hrest =>
        split at heq
        next =>
          cases heq
          exact h.loud hinputs rfl nofun hmail hchannel
        next =>
          cases heq
          refine ⟨nofun, nofun, fun _ hwoken => ?_, ?_, ?_⟩
          · cases hwoken
          · exact h.mail_mono hinputs.toSameMailbox hmail
          · exact h.callbacks_mono hinputs.toSameChannel hchannel

/-- Something comes to the mailbox, or it closes. -/
theorem mailboxSignal (h : WakeInv s log) (hphase : s'.phase = s.phase) (hglue : s'.glue = s.glue)
    (hqueue : s'.queue = s.queue) (hpending : s'.pending = s.pending) (hwoken : s'.woken = s.woken)
    (hchannel : SameChannel s s') : WakeInv s' (log ++ [.mailboxSignal]) := by
  refine h.aside hphase hglue hqueue hpending hwoken (forall_mem_singleton.mpr rfl)
    (fun _ => .inr ?_) (h.callbacks_mono hchannel (by decide))
  exact since_new mem_cons_self (forall_mem_singleton.mpr rfl)

/-- Something comes to the channel, or it closes. -/
theorem channelSignal (h : WakeInv s log) (hphase : s'.phase = s.phase) (hglue : s'.glue = s.glue)
    (hqueue : s'.queue = s.queue) (hpending : s'.pending = s.pending) (hwoken : s'.woken = s.woken)
    (hmailbox : SameMailbox s s') : WakeInv s' (log ++ [.channelSignal]) := by
  refine h.aside hphase hglue hqueue hpending hwoken (forall_mem_singleton.mpr rfl)
    (h.mail_mono hmailbox (by decide)) (fun _ => .inr ?_)
  exact since_new mem_cons_self (forall_mem_singleton.mpr rfl)

theorem endDrain (h : WakeInv s log) {round admitted count : Nat}
    (hphase : s.phase = .draining round admitted count) (hnone : s.nextCallback = none) :
    WakeInv { s with phase := .answering round admitted count } log := by
  refine ⟨fun hq => ?_, fun r hr => hnone, nofun, h.mail, h.callbacks⟩
  have hrested : Rested s log := by
    apply h.rested
    rw [hphase]
    cases admitted with
    | succ _ => cases hq
    | zero =>
        cases count with
        | succ _ => cases hq
        | zero => rfl
  exact ⟨hrested.queue, hrested.mailbox, hrested.channel⟩

theorem step {cfg : Config} {a : Action} (h : WakeInv s log) (hstep : step cfg s a = some s') :
    WakeInv s' (log ++ observe s a) := by
  cases of_step hstep with
  | tick ms =>
      refine h.aside rfl rfl rfl rfl rfl nofun ?_ ?_
      · exact h.mail_mono ⟨rfl, rfl, Nat.le.refl, fun h => h⟩ not_mem_nil
      · exact h.callbacks_mono ⟨rfl, rfl, Nat.le.refl⟩ not_mem_nil
  | mail | closeMailbox => exact h.mailboxSignal rfl rfl rfl rfl rfl ⟨rfl, rfl, Nat.le.refl⟩
  | arrive | closeChannel =>
      exact h.channelSignal rfl rfl rfl rfl rfl ⟨rfl, rfl, Nat.le.refl, fun h => h⟩
  | poll => exact h.loud (.of_eq rfl) rfl nofun not_mem_nil not_mem_nil
  | @admitEvent _ _ effects error _ hphase hadmit =>
      have hinputs := SameInputs.admitEvent hadmit
      obtain ⟨-, hadmit⟩ := ite_none_right_eq_some.mp hadmit
      obtain ⟨next, -, hadmit⟩ := bind_eq_some_iff.mp hadmit
      obtain ⟨glue, -, rfl⟩ := map_eq_some_iff.mp hadmit
      cases error with
      | none => exact h.loud hinputs rfl nofun (by simp [observe]) (by simp [observe])
      | some message => exact h.loud hinputs rfl nofun (by simp [observe]) (by simp [observe])
  | endAdmission hphase hend => exact h.endAdmission hend
  | @deliver _ admitted =>
      refine h.loud (.of_eq rfl) ?_ nofun (by simp [observe]) (by simp [observe])
      cases admitted <;> rfl
  | endDrain hphase hnone =>
      rw [observe, append_nil]
      exact h.endDrain hphase hnone
  | answer hphase hanswer => exact h.answer hphase hanswer
  | settle =>
      exact h.between (.of_eq inputs_settle) between_settle not_mem_nil not_mem_nil

end WakeInv

end

/-! ## The end of a turn -/

/-- What a turn leaves that has not woken itself: nothing that it could have done, and wakers for
whatever comes. -/
structure Sleeps (s : State) (log : List Seen) : Prop where
  /-- No event that was taken waits while the gate is open. -/
  queue : s.glue.gate.isOpen = true → s.queue = []
  /-- What is pending waits for a storage read. -/
  pending : s.pending = [] ∨
    s.glue.gate.isReading = true ∧ ∀ message ∈ s.pending, message.isObjectStorage = false
  /-- The channel was found empty after the last callback was run. -/
  channel : Since (· == .callback) .channelPolled log
  /-- If the gate is open, the mailbox was found empty or closed after guest code last ran. -/
  mailbox : s.glue.gate.isOpen = true → Since Seen.isGuest .mailboxPolled log
  /-- What came to the mailbox after that has woken the loop. -/
  mail : s.glue.gate.isOpen = true →
    s.taken < s.mailbox.length ∨ s.mailboxOpen = false ∧ s.closed = false →
    Since (· == .mailboxPolled) .mailboxSignal log
  /-- What came to the channel after that has woken the loop. -/
  callbacks : s.received < s.arrived.length ∨ s.channelOpen = false →
    Since (· == .channelPolled) .channelSignal log

theorem pending_of_nextCallback {s : State} (h : s.nextCallback = none) :
    s.pending = [] ∨
      s.glue.gate.isReading = true ∧ ∀ message ∈ s.pending, message.isObjectStorage = false := by
  rw [State.nextCallback] at h
  split at h
  next hreading => exact .inr ⟨hreading, findIdx?_eq_none_iff.mp h⟩
  next =>
    split at h
    next hpending => exact .inl hpending
    next => cases h

/-- **A turn never sleeps on work**: from any state between two polls, whatever the guest, the
mailbox and the channel do, a turn that returns without an error, without having woken its waker
and with a gate that is not broken leaves nothing that it could do. -/
theorem turn_never_sleeps_on_work {cfg : Config} {glue : Glue} {first : ObjectEvent}
    {start s : State} {as : List Action} (hidle : start.phase = .idle)
    (hrun : (machine cfg glue first).runFrom start as = some s)
    (hphase : s.phase = .settling none) (hwoken : s.woken = false)
    (hgate : ∀ message, s.glue.gate ≠ .broken message) :
    Sleeps s ((machine cfg glue first).logFrom observe start as) := by
  have hstart : WakeInv start [] := by
    refine ⟨fun hq => ?_, fun round hround => ?_, fun hsettling => ?_, nofun, nofun⟩
    · rw [hidle] at hq
      cases hq
    · rw [hidle] at hround
      cases hround
    · rw [hidle] at hsettling
      cases hsettling
  have h : WakeInv s ([] ++ (machine cfg glue first).logFrom observe start as) :=
    Machine.invariant_logFrom (I := WakeInv) (fun _ _ _ _ hs hstep => hs.step hstep) hstart hrun
  rw [nil_append] at h
  obtain ⟨hrested, hnone⟩ := h.settled hphase hwoken hgate
  refine ⟨hrested.queue, pending_of_nextCallback hnone, hrested.channel, hrested.mailbox,
    fun hopen hcame => ?_, fun hcame => ?_⟩
  · rcases h.mail (hrested.mailbox hopen).mem with ⟨hlength, hclosed⟩ | hsince
    · rcases hcame with hlt | ⟨hmailbox, hnot⟩
      · exact absurd hlt (Nat.not_lt.mpr hlength)
      · rw [hclosed hmailbox] at hnot
        cases hnot
    · exact hsince
  · rcases h.callbacks hrested.channel.mem with ⟨hlength, hopen⟩ | hsince
    · rcases hcame with hlt | hclosed
      · exact absurd hlt (Nat.not_lt.mpr hlength)
      · rw [hopen] at hclosed
        cases hclosed
    · exact hsince

/-- The first event is admitted and answered in one round, the next round finds nothing, and an
event that comes then wakes the loop. -/
theorem turn_never_sleeps_on_work_served :
    ∃ s, (machine ⟨10, 10⟩ ⟨0, 0, none⟩ .fetch).runFrom (init ⟨10, 10⟩ ⟨0, 0, none⟩ .fetch)
        [.poll, .admitEvent [] none, .endAdmission, .endDrain, .answer true [0] [], .endAdmission,
          .mail .fetch, .endDrain, .answer false [] []] = some s ∧
      Sleeps s ((machine ⟨10, 10⟩ ⟨0, 0, none⟩ .fetch).logFrom observe
        (init ⟨10, 10⟩ ⟨0, 0, none⟩ .fetch)
        [.poll, .admitEvent [] none, .endAdmission, .endDrain, .answer true [0] [], .endAdmission,
          .mail .fetch, .endDrain, .answer false [] []]) := by
  have hrun : (machine ⟨10, 10⟩ ⟨0, 0, none⟩ .fetch).runFrom (init ⟨10, 10⟩ ⟨0, 0, none⟩ .fetch)
      [.poll, .admitEvent [] none, .endAdmission, .endDrain, .answer true [0] [], .endAdmission,
        .mail .fetch, .endDrain, .answer false [] []] = some _ := rfl
  exact ⟨_, hrun, turn_never_sleeps_on_work rfl hrun rfl rfl (by rintro _ ⟨⟩)⟩

end OpenWorkers.Object.Serve
