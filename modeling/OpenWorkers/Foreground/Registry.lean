import OpenWorkers.Foreground.Tasks
import OpenWorkers.Lib.Machine
import Mathlib.Data.List.Perm.Subperm
import Mathlib.Logic.Function.Basic

/-!
# The queues of the isolates

`FOREGROUND` of `src/platform.rs` finds the queue of an isolate by its address, and the address of
an isolate that is gone is given to a later one.  V8 posts a task in two steps, from any thread: it
looks the queue up under the lock of the map, and puts the task in under the lock of the queue.
`LockerManagedIsolate` registers its queue when the isolate is there already, and forgets it, in two
steps too, before the isolate goes.

So a task can be posted before there is a queue for it and after it is gone.  It is still never run
on another isolate: `tasks_at` then makes a queue that nobody runs.
-/

namespace OpenWorkers.Foreground.Registry

open List Option Function

variable {τ : Type}

/-- What has become of an isolate; the queue it runs is a number. -/
inductive Stage where
  | absent
  | created
  | registered (queue : Nat)
  /-- `forget` has taken the queue out of the map. -/
  | unlinked (queue : Nat)
  /-- `forget` has cleared the queue. -/
  | forgotten
  | disposed
deriving DecidableEq, Repr

def Stage.live : Stage → Bool
  | .absent | .disposed => false
  | .created | .registered _ | .unlinked _ | .forgotten => true

structure Isolate (τ : Type) where
  address : Nat
  stage : Stage
  /-- The tasks that V8 has posted for the isolate since it was registered. -/
  posted : List τ
  /-- The tasks that were run on the isolate, each with the isolate it was posted for. -/
  ran : List (Nat × τ)

/-- A post between its two locks. -/
structure Post (τ : Type) where
  queue : Nat
  isolate : Nat
  task : τ
  delay : Option Int

structure Platform (τ : Type) where
  /-- The isolate at an address. -/
  memory : Nat → Option Nat
  /-- The number of queues that were made. -/
  made : Nat
  key : Nat → Nat
  queues : Nat → ForegroundTasks (Nat × τ)
  foreground : Nat → Option Nat
  posting : List (Post τ)

structure State (τ : Type) where
  platform : Platform τ
  isolates : Nat → Isolate τ

inductive Action (τ : Type) where
  | create (isolate address : Nat)
  | register (isolate : Nat)
  /-- V8 posts a task for an isolate that is there: `tasks_at`. -/
  | lookUp (isolate : Nat) (task : τ) (delay : Option Int)
  /-- `post`, for the post at a position. -/
  | push (post now : Nat)
  /-- A task of `run`. -/
  | run (isolate now : Nat)
  | unlink (isolate : Nat)
  | clear (isolate : Nat)
  | dispose (isolate : Nat)

/-- The record of a post. -/
def Isolate.record (isolate : Isolate τ) (task : τ) : Isolate τ :=
  match isolate.stage with
  | .registered _ => { isolate with posted := isolate.posted ++ [task] }
  | _ => isolate

namespace Platform

variable (p : Platform τ)

/-- A new queue under an address. -/
def addQueue (address : Nat) : Platform τ :=
  { p with
    made := p.made + 1
    key := update p.key p.made address
    queues := update p.queues p.made .new
    foreground := update p.foreground address (some p.made) }

/-- `tasks_at`, and the post goes on with the queue. -/
def tasksAt (address i : Nat) (task : τ) (delay : Option Int) : Platform τ :=
  match p.foreground address with
  | some q => { p with posting := p.posting ++ [⟨q, i, task, delay⟩] }
  | none => { p.addQueue address with posting := p.posting ++ [⟨p.made, i, task, delay⟩] }

/-- The first step of `forget`. -/
def unlink (address q : Nat) : Platform τ :=
  if p.foreground address = some q then { p with foreground := update p.foreground address none }
  else p

def setQueue (q : Nat) (tasks : ForegroundTasks (Nat × τ)) : Platform τ :=
  { p with queues := update p.queues q tasks }

/-- The second step of `forget`. -/
def clear (q : Nat) : Platform τ :=
  p.setQueue q { p.queues q with queue := ⟨[], [], (p.queues q).queue.wakers⟩ }

/-- `post`, which the post at a position ends with. -/
def push (k : Nat) (post : Post τ) (now : Nat) : Platform τ :=
  { p.setQueue post.queue ((p.queues post.queue).post now (post.isolate, post.task) post.delay) with
    posting := p.posting.eraseIdx k }

/-- The tasks on their way to a queue. -/
def inFlight (q : Nat) : List (Nat × τ) :=
  (p.posting.filter fun post => post.queue = q).map fun post => (post.isolate, post.task)

end Platform

def step (s : State τ) : Action τ → Option (State τ)
  | .create i address =>
    if (s.isolates i).stage = .absent ∧ s.platform.memory address = none then
      some ⟨{ s.platform with memory := update s.platform.memory address (some i) },
        update s.isolates i ⟨address, .created, [], []⟩⟩
    else none
  | .register i =>
    let isolate := s.isolates i
    if isolate.stage = .created then
      some ⟨s.platform.addQueue isolate.address,
        update s.isolates i ⟨isolate.address, .registered s.platform.made, [], []⟩⟩
    else none
  | .lookUp i task delay =>
    let isolate := s.isolates i
    if isolate.stage.live then
      some ⟨s.platform.tasksAt isolate.address i task delay,
        update s.isolates i (isolate.record task)⟩
    else none
  | .push k now =>
    s.platform.posting[k]?.map fun post => { s with platform := s.platform.push k post now }
  | .run i now =>
    let isolate := s.isolates i
    match isolate.stage with
    | .registered q =>
      ((s.platform.queues q).next now).map fun (task, rest) =>
        ⟨s.platform.setQueue q rest,
          update s.isolates i { isolate with ran := isolate.ran ++ [task] }⟩
    | _ => none
  | .unlink i =>
    let isolate := s.isolates i
    match isolate.stage with
    | .registered q => some ⟨s.platform.unlink isolate.address q,
        update s.isolates i { isolate with stage := .unlinked q }⟩
    | _ => none
  | .clear i =>
    let isolate := s.isolates i
    match isolate.stage with
    | .unlinked q => some ⟨s.platform.clear q,
        update s.isolates i { isolate with stage := .forgotten }⟩
    | _ => none
  | .dispose i =>
    let isolate := s.isolates i
    if isolate.stage = .forgotten then
      some ⟨{ s.platform with memory := update s.platform.memory isolate.address none },
        update s.isolates i { isolate with stage := .disposed }⟩
    else none

def machine (τ : Type) : Machine (State τ) (Action τ) where
  init := ⟨⟨fun _ => none, 0, fun _ => 0, fun _ => .new, fun _ => none, []⟩,
    fun _ => ⟨0, .absent, [], []⟩⟩
  step := step

/-! ## The queue of tasks -/

section Queue

variable {f f' : ForegroundTasks τ} {now : Nat} {task : τ}

theorem queued_post (delay : Option Int) :
    (f.post now task delay).queued.Perm (task :: f.queued) := by
  cases delay with
  | none =>
      show (f.queue.ready ++ [task] ++ _).Perm _
      rw [append_assoc]
      exact perm_middle
  | some delay =>
      show (f.queue.ready ++ (f.queue.delayed ++ [_]).map Prod.snd).Perm _
      rw [map_append, ← append_assoc]
      exact perm_append_comm

theorem queued_next (h : f.next now = some (task, f')) : f.queued.Perm (task :: f'.queued) := by
  unfold ForegroundTasks.next at h
  split at h
  · next hready =>
      cases h
      rw [ForegroundTasks.queued, hready]
      rfl
  · next hready =>
      obtain ⟨due, -, h⟩ := bind_eq_some_iff.mp h
      obtain ⟨entry, hentry, h⟩ := map_eq_some_iff.mp h
      cases h
      rw [ForegroundTasks.queued, ForegroundTasks.queued, hready]
      exact (swapRemove_perm hentry).map Prod.snd

end Queue

/-! ## The invariant -/

structure Sound (p : Platform τ) (i : Nat) (isolate : Isolate τ) : Prop where
  place : isolate.stage.live = true → p.memory isolate.address = some i
  unlinked : ∀ q, isolate.stage = .unlinked q → q < p.made ∧ p.key q = isolate.address
  /-- No task of a registered isolate is lost, doubled or of another isolate. -/
  registered : ∀ q, isolate.stage = .registered q → p.foreground isolate.address = some q ∧
    (isolate.ran ++ ((p.queues q).queued ++ p.inFlight q)).Perm (isolate.posted.map (i, ·))
  ran : isolate.ran.Subperm (isolate.posted.map (i, ·))

structure Inv (s : State τ) : Prop where
  key : ∀ address q, s.platform.foreground address = some q →
    q < s.platform.made ∧ s.platform.key q = address
  posting : ∀ post ∈ s.platform.posting, post.queue < s.platform.made
  sound : ∀ i, Sound s.platform i (s.isolates i)

variable {s s' : State τ} {p p' : Platform τ} {i j q : Nat}

theorem inFlight_concat (post : Post τ) (q : Nat) :
    { p with posting := p.posting ++ [post] }.inFlight q =
      p.inFlight q ++ if post.queue = q then [(post.isolate, post.task)] else [] := by
  simp only [Platform.inFlight, filter_append, map_append]
  by_cases h : post.queue = q <;> simp [h]

/-- What is done to the platform at one address, and leaves the others alone. -/
structure Local (p p' : Platform τ) (address : Nat) : Prop where
  memory : ∀ a ≠ address, p'.memory a = p.memory a
  foreground : ∀ a ≠ address, p'.foreground a = p.foreground a
  made : p.made ≤ p'.made
  key : ∀ q < p.made, p'.key q = p.key q
  queue : ∀ q < p.made, p.key q ≠ address →
    (p'.queues q).queued ++ p'.inFlight q = (p.queues q).queued ++ p.inFlight q
  own : ∀ q, p'.foreground address = some q → q < p'.made ∧ p'.key q = address
  posting : ∀ post ∈ p'.posting, post.queue < p'.made

namespace Inv

/-- Something is done for one isolate. -/
theorem atAddress (hs : Inv s) {address : Nat} {isolate : Isolate τ}
    (hlocal : Local s.platform p address)
    (hother : ∀ j ≠ i, (s.isolates j).stage.live = true → (s.isolates j).address ≠ address)
    (hsound : Sound p i isolate) : Inv ⟨p, update s.isolates i isolate⟩ := by
  refine ⟨fun a q hq => ?_, hlocal.posting, (forall_update_iff _ _).mpr ⟨hsound, fun j hj => ?_⟩⟩
  · by_cases ha : a = address
    · subst ha
      exact hlocal.own q hq
    · obtain ⟨hlt, hkey⟩ := hs.key a q ((hlocal.foreground a ha).symm.trans hq)
      exact ⟨hlt.trans_le hlocal.made, (hlocal.key q hlt).trans hkey⟩
  · have h := hs.sound j
    refine ⟨fun hlive => ?_, fun q hq => ?_, fun q hq => ?_, h.ran⟩
    · exact (hlocal.memory _ (hother j hj hlive)).trans (h.place hlive)
    · obtain ⟨hlt, hkey⟩ := h.unlinked q hq
      exact ⟨hlt.trans_le hlocal.made, (hlocal.key q hlt).trans hkey⟩
    · obtain ⟨hfore, hperm⟩ := h.registered q hq
      obtain ⟨hlt, hkey⟩ := hs.key _ q hfore
      have haddress := hother j hj (by rw [hq]; rfl)
      refine ⟨(hlocal.foreground _ haddress).trans hfore, ?_⟩
      rw [hlocal.queue q hlt (hkey ▸ haddress)]
      exact hperm

/-- Two isolates that are there are at two addresses. -/
theorem address_ne (hs : Inv s) (hi : (s.isolates i).stage.live = true) (j : Nat) (hj : j ≠ i)
    (hlive : (s.isolates j).stage.live = true) :
    (s.isolates j).address ≠ (s.isolates i).address := by
  intro h
  have hplace := (hs.sound j).place hlive
  rw [h, (hs.sound i).place hi] at hplace
  exact hj (Option.some.inj hplace).symm

theorem create (hs : Inv s) {address : Nat} (hmemory : s.platform.memory address = none) :
    Inv ⟨{ s.platform with memory := update s.platform.memory address (some i) },
      update s.isolates i ⟨address, .created, [], []⟩⟩ := by
  refine hs.atAddress ⟨fun a ha => update_of_ne ha _ _, fun _ _ => rfl, le_rfl, fun _ _ => rfl,
    fun _ _ _ => rfl, hs.key address, hs.posting⟩ (fun j _ hlive h => ?_)
    ⟨fun _ => update_self .., nofun, nofun, List.Subperm.refl _⟩
  cases hmemory.symm.trans (h ▸ (hs.sound j).place hlive)

theorem inFlight_made (hs : Inv s) : s.platform.inFlight s.platform.made = [] := by
  rw [Platform.inFlight, filter_eq_nil_iff.mpr, map_nil]
  intro post hpost
  simpa using (hs.posting post hpost).ne

theorem local_addQueue (hs : Inv s) (address : Nat) :
    Local s.platform (s.platform.addQueue address) address where
  memory _ _ := rfl
  foreground a ha := update_of_ne ha _ _
  made := Nat.le_succ _
  key q hq := update_of_ne hq.ne _ _
  queue q hq _ := by
    show (update s.platform.queues s.platform.made .new q).queued ++ _ = _
    rw [update_of_ne hq.ne]
    rfl
  own q hq := by
    simp only [Platform.addQueue, update_self, Option.some.injEq] at hq
    subst hq
    exact ⟨Nat.lt_succ_self _, update_self ..⟩
  posting post hpost := (hs.posting post hpost).trans_le (Nat.le_succ _)

theorem register (hs : Inv s) (hi : (s.isolates i).stage = .created) :
    Inv ⟨s.platform.addQueue (s.isolates i).address,
      update s.isolates i ⟨(s.isolates i).address, .registered s.platform.made, [], []⟩⟩ := by
  have hlive : (s.isolates i).stage.live = true := by rw [hi]; rfl
  refine hs.atAddress (hs.local_addQueue _) (hs.address_ne hlive)
    ⟨fun _ => (hs.sound i).place hlive, nofun, ?_, List.Subperm.refl _⟩
  rintro q ⟨⟩
  refine ⟨update_self .., ?_⟩
  show ([] ++ ((update s.platform.queues s.platform.made .new _).queued ++
    s.platform.inFlight s.platform.made)).Perm []
  rw [update_self, hs.inFlight_made]
  exact .refl _

/-- The queue under the address of an isolate changes. -/
theorem local_setQueue (hs : Inv s) {address : Nat} (hq : s.platform.key q = address)
    (tasks : ForegroundTasks (Nat × τ)) :
    Local s.platform (s.platform.setQueue q tasks) address where
  memory _ _ := rfl
  foreground _ _ := rfl
  made := le_rfl
  key _ _ := rfl
  queue q' _ hq' := by
    show (update s.platform.queues q tasks q').queued ++ _ = _
    have hne : q' ≠ q := by
      rintro rfl
      exact hq' hq
    rw [update_of_ne hne]
    rfl
  own := hs.key address
  posting := hs.posting

theorem run (hs : Inv s) (hi : (s.isolates i).stage = .registered q) {task : Nat × τ} {now : Nat}
    {rest : ForegroundTasks (Nat × τ)}
    (hnext : (s.platform.queues q).next now = some (task, rest)) :
    Inv ⟨s.platform.setQueue q rest,
      update s.isolates i { s.isolates i with ran := (s.isolates i).ran ++ [task] }⟩ := by
  have hlive : (s.isolates i).stage.live = true := by rw [hi]; rfl
  obtain ⟨hfore, hperm⟩ := (hs.sound i).registered q hi
  have hran : ((s.isolates i).ran ++ [task] ++ (rest.queued ++ s.platform.inFlight q)).Perm
      ((s.isolates i).posted.map (i, ·)) := by
    rw [append_assoc]
    exact (((queued_next hnext).symm.append_right _).append_left _).trans hperm
  refine hs.atAddress (hs.local_setQueue (hs.key _ _ hfore).2 _) (hs.address_ne hlive)
    ⟨(hs.sound i).place, (hs.sound i).unlinked, fun q' hq' => ?_, ?_⟩
  · cases hi.symm.trans hq'
    refine ⟨hfore, ?_⟩
    show (_ ++ ((update s.platform.queues q rest q).queued ++ s.platform.inFlight q)).Perm _
    rw [update_self]
    exact hran
  · exact (sublist_append_left _ _).subperm.trans hran.subperm

theorem unlink (hs : Inv s) (hi : (s.isolates i).stage = .registered q) :
    Inv ⟨s.platform.unlink (s.isolates i).address q,
      update s.isolates i { s.isolates i with stage := .unlinked q }⟩ := by
  have hlive : (s.isolates i).stage.live = true := by rw [hi]; rfl
  have hfore := ((hs.sound i).registered q hi).1
  rw [Platform.unlink, if_pos hfore]
  refine hs.atAddress ⟨fun _ _ => rfl, fun a ha => update_of_ne ha _ _, le_rfl, fun _ _ => rfl,
    fun _ _ _ => rfl, fun q' hq' => ?_, hs.posting⟩ (hs.address_ne hlive)
    ⟨fun _ => (hs.sound i).place hlive, ?_, nofun, (hs.sound i).ran⟩
  · simp only [update_self] at hq'
    cases hq'
  · rintro q' ⟨⟩
    exact hs.key _ _ hfore

theorem clear (hs : Inv s) (hi : (s.isolates i).stage = .unlinked q) :
    Inv ⟨s.platform.clear q, update s.isolates i { s.isolates i with stage := .forgotten }⟩ := by
  have hlive : (s.isolates i).stage.live = true := by rw [hi]; rfl
  exact hs.atAddress (hs.local_setQueue ((hs.sound i).unlinked q hi).2 _) (hs.address_ne hlive)
    ⟨fun _ => (hs.sound i).place hlive, nofun, nofun, (hs.sound i).ran⟩

theorem dispose (hs : Inv s) (hi : (s.isolates i).stage = .forgotten) :
    Inv ⟨{ s.platform with memory := update s.platform.memory (s.isolates i).address none },
      update s.isolates i { s.isolates i with stage := .disposed }⟩ := by
  exact hs.atAddress ⟨fun a ha => update_of_ne ha _ _, fun _ _ => rfl, le_rfl, fun _ _ => rfl,
    fun _ _ _ => rfl, hs.key _, hs.posting⟩ (hs.address_ne (by rw [hi]; rfl))
    ⟨nofun, nofun, nofun, (hs.sound i).ran⟩

theorem push (hs : Inv s) {k : Nat} {post : Post τ} (hpost : s.platform.posting[k]? = some post)
    (now : Nat) : Inv { s with platform := s.platform.push k post now } := by
  have hperm : s.platform.posting.Perm (post :: s.platform.posting.eraseIdx k) := by
    obtain ⟨hk, rfl⟩ := List.getElem?_eq_some_iff.mp hpost
    exact (getElem_cons_eraseIdx_perm hk).symm
  have hqueue : ∀ q, (((s.platform.push k post now).queues q).queued ++
      (s.platform.push k post now).inFlight q).Perm
        ((s.platform.queues q).queued ++ s.platform.inFlight q) := by
    intro q
    refine .trans ?_ (((hperm.filter _).map _).append_left _).symm
    simp only [Platform.push, Platform.setQueue, Platform.inFlight]
    by_cases hq : post.queue = q
    · subst hq
      rw [update_self, filter_cons_of_pos (by simp), map_cons]
      exact ((queued_post post.delay).append_right _).trans perm_middle.symm
    · rw [update_of_ne (Ne.symm hq), filter_cons_of_neg (by simpa using hq)]
  refine ⟨hs.key, fun p' hp' => hs.posting p' (mem_of_mem_eraseIdx hp'), fun j => ?_⟩
  obtain ⟨hplace, hunlinked, hregistered, hran⟩ := hs.sound j
  refine ⟨hplace, hunlinked, fun q hq => ?_, hran⟩
  obtain ⟨hfore, hposted⟩ := hregistered q hq
  exact ⟨hfore, ((hqueue q).append_left _).trans hposted⟩

/-- A task is posted to the queue under an address, or to a new one. -/
theorem local_tasksAt (hs : Inv s) (address i : Nat) (task : τ) (delay : Option Int) :
    Local s.platform (s.platform.tasksAt address i task delay) address := by
  rw [Platform.tasksAt]
  cases hfore : s.platform.foreground address with
  | some q₀ =>
      obtain ⟨hlt, hkey⟩ := hs.key _ _ hfore
      refine ⟨fun _ _ => rfl, fun _ _ => rfl, le_rfl, fun _ _ => rfl,
        fun q _ hq => ?_, hs.key address,
        forall_mem_append.mpr ⟨hs.posting, forall_mem_singleton.mpr hlt⟩⟩
      have hne : q₀ ≠ q := by
        rintro rfl
        exact hq hkey
      show _ ++ Platform.inFlight { s.platform with posting := _ } q = _
      rw [inFlight_concat, if_neg hne, append_nil]
  | none =>
      have hlocal := hs.local_addQueue address
      refine ⟨hlocal.memory, hlocal.foreground, hlocal.made, hlocal.key, fun q hlt hq => ?_,
        hlocal.own, forall_mem_append.mpr ⟨hlocal.posting,
          forall_mem_singleton.mpr (Nat.lt_succ_self _)⟩⟩
      show _ ++ Platform.inFlight { s.platform.addQueue address with posting := _ } q = _
      rw [← hlocal.queue q hlt hq]
      refine congrArg _ ?_
      refine (inFlight_concat _ q).trans ?_
      rw [if_neg hlt.ne', append_nil]

theorem lookUp (hs : Inv s) (hi : (s.isolates i).stage.live = true) (task : τ)
    (delay : Option Int) :
    Inv ⟨s.platform.tasksAt (s.isolates i).address i task delay,
      update s.isolates i ((s.isolates i).record task)⟩ := by
  have hlocal := hs.local_tasksAt (s.isolates i).address i task delay
  refine hs.atAddress hlocal (hs.address_ne hi) ?_
  obtain ⟨hplace, hunlinked, hregistered, hran⟩ := hs.sound i
  have hplace : (s.platform.tasksAt (s.isolates i).address i task delay).memory
      (s.isolates i).address = some i := by
    rw [← hplace hi, Platform.tasksAt]
    split <;> rfl
  unfold Isolate.record
  split
  · next q hq =>
      obtain ⟨hfore, hperm⟩ := hregistered q hq
      have hposted : (((s.isolates i).posted ++ [task]).map fun t => (i, t)) =
          (s.isolates i).posted.map (i, ·) ++ [(i, task)] := map_append
      refine ⟨fun _ => hplace, fun q' h => ?_, fun q' h => ?_, ?_⟩
      · cases hq.symm.trans h
      · cases hq.symm.trans h
        rw [Platform.tasksAt, hfore]
        refine ⟨hfore, ?_⟩
        show (_ ++ (_ ++ Platform.inFlight { s.platform with posting := _ } q)).Perm _
        rw [hposted, inFlight_concat, if_pos rfl, ← append_assoc, ← append_assoc,
          append_assoc _ _ (s.platform.inFlight q)]
        exact hperm.append_right _
      · rw [hposted]
        exact hran.trans (sublist_append_left _ _).subperm
  · next hnot =>
      refine ⟨fun _ => hplace, fun q hq => ?_, fun q hq => absurd hq (hnot q), hran⟩
      obtain ⟨hlt, hkey⟩ := hunlinked q hq
      exact ⟨hlt.trans_le hlocal.made, (hlocal.key q hlt).trans hkey⟩

theorem step (hs : Inv s) {a : Action τ} (hstep : step s a = some s') : Inv s' := by
  cases a with
  | create i address =>
      obtain ⟨h, ⟨⟩⟩ := ite_none_right_eq_some.mp hstep
      exact hs.create h.2
  | register i =>
      obtain ⟨h, ⟨⟩⟩ := ite_none_right_eq_some.mp hstep
      exact hs.register h
  | lookUp i task delay =>
      obtain ⟨h, ⟨⟩⟩ := ite_none_right_eq_some.mp hstep
      exact hs.lookUp h task delay
  | push k now =>
      obtain ⟨post, hpost, rfl⟩ := map_eq_some_iff.mp hstep
      exact hs.push hpost now
  | run i now =>
      simp only [Registry.step] at hstep
      split at hstep
      · next q hq =>
          obtain ⟨⟨task, rest⟩, hnext, rfl⟩ := map_eq_some_iff.mp hstep
          exact hs.run hq hnext
      · cases hstep
  | unlink i =>
      simp only [Registry.step] at hstep
      split at hstep
      · next q hq =>
          cases hstep
          exact hs.unlink hq
      · cases hstep
  | clear i =>
      simp only [Registry.step] at hstep
      split at hstep
      · next q hq =>
          cases hstep
          exact hs.clear hq
      · cases hstep
  | dispose i =>
      obtain ⟨h, ⟨⟩⟩ := ite_none_right_eq_some.mp hstep
      exact hs.dispose h

end Inv

/-- **A task runs on its isolate, and once.**  Addresses are given out again, posts are cut in two
and come at any time an isolate is there.  In every run, what was run on an isolate are tasks that
were posted for it after it was registered, each once; and as long as it is registered, the ones
that were not run are in its queue or on their way there. -/
theorem task_runs_on_its_isolate {actions : List (Action τ)} {s : State τ}
    (hrun : (machine τ).run actions = some s) (i : Nat) :
    (s.isolates i).ran.Subperm ((s.isolates i).posted.map (i, ·)) ∧
      ∀ q, (s.isolates i).stage = .registered q →
        ((s.isolates i).ran ++ ((s.platform.queues q).queued ++ s.platform.inFlight q)).Perm
          ((s.isolates i).posted.map (i, ·)) := by
  have hs : Inv s := by
    refine Machine.invariant ?_ (fun _ _ _ hs hstep => hs.step hstep) hrun
    exact ⟨nofun, nofun, fun i => ⟨nofun, nofun, nofun, List.Subperm.refl _⟩⟩
  exact ⟨(hs.sound i).ran, fun q hq => ((hs.sound i).registered q hq).2⟩

/-- Isolate 0 gets a task before it is registered and one after it has forgotten its queue, and is
disposed of; isolate 1 is made at its address, with a task of its own. -/
def reused : List (Action String) :=
  [.create 0 16, .lookUp 0 "early" none, .push 0 0, .register 0, .lookUp 0 "a" none, .push 0 0,
    .run 0 0, .unlink 0, .lookUp 0 "late" none, .clear 0, .push 0 0, .dispose 0, .create 1 16,
    .register 1, .lookUp 1 "b" none, .push 0 0, .run 1 0]

theorem task_runs_on_its_isolate_reused : ∃ s, (machine String).run reused = some s ∧
    (s.isolates 0).ran = [(0, "a")] ∧ (s.isolates 1).ran = [(1, "b")] ∧
      (s.isolates 1).ran.Subperm ((s.isolates 1).posted.map (1, ·)) := by
  have hrun : (machine String).run reused = some _ := rfl
  exact ⟨_, hrun, rfl, rfl, (task_runs_on_its_isolate hrun 1).1⟩

end OpenWorkers.Foreground.Registry
