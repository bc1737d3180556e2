import OpenWorkers.Lib.Erase
import OpenWorkers.Lib.Log
import OpenWorkers.Security.Turn
import Mathlib.Data.List.Sort

/-!
# The wall-clock watchdog

`src/security/timeout_guard.rs`: one thread per process keeps the deadlines of all guards,
ordered by time.  It takes the entries that are due out of the map under its lock, releases
the lock, and then, for one entry after the other, sets the flag of the guard and asks the
turn of its isolate to terminate the request.  A guard that is dropped removes its entry, and
misses it if the watchdog has taken it.

An entry names a request, not a turn.  An open socket and a Durable Object make a new guard
for each of their turns under one request id, so what the watchdog holds for a guard that was
dropped still fits the next turn.
-/

namespace OpenWorkers.Security.Watchdog

open List

/-- A `TimeoutGuard`, with the `Entry` it put into the map; guards are numbered by the key that
keeps equal deadlines apart. -/
structure TimeoutGuard where
  isolate : Nat
  request : RequestId
  deadline : Nat
deriving DecidableEq, Repr

/-- A key of the map: when the deadline lands, and the number of the guard. -/
abbrev Key := Nat × Nat

/-- The order of the map. -/
def Key.le (a b : Key) : Prop := a.1 < b.1 ∨ a.1 = b.1 ∧ a.2 ≤ b.2

instance (a b : Key) : Decidable (Key.le a b) :=
  inferInstanceAs (Decidable (a.1 < b.1 ∨ a.1 = b.1 ∧ a.2 ≤ b.2))

structure State where
  /-- Every guard that was made and is not disabled. -/
  guards : List TimeoutGuard
  /-- The guards whose flag is set. -/
  triggered : List Nat
  dropped : List Nat
  deadlines : List Key
  /-- What the watchdog has taken and not acted on, by the number of the guard. -/
  due : List Nat
  /-- It has set the flag of the first of them. -/
  flagged : Bool
  /-- For each isolate, the request that holds its turn and the number of the turn. -/
  holders : List (Option (RequestId × Nat))
  turns : Nat
deriving DecidableEq, Repr

inductive Op where
  | newIsolate
  /-- `TimeoutGuard::new` with a timeout other than 0. -/
  | new (isolate : Nat) (request : RequestId) (deadline : Nat)
  | drop (guard : Nat)
  /-- The loop observed the deadline first. -/
  | expire (guard : Nat)
  /-- The watchdog, which has the lock, takes what is due and releases the lock. -/
  | take (now : Nat)
  /-- It sets the flag of the next entry. -/
  | flag
  /-- It calls `terminate` for that entry. -/
  | terminate
  | begin (isolate : Nat) (request : RequestId)
  | endTurn (isolate : Nat)
deriving DecidableEq, Repr

/-- The request that an entry stops, if it holds the turn of its isolate, and its turn. -/
def State.cuts (s : State) (guard : Nat) : Option Nat :=
  match s.guards[guard]? with
  | none => none
  | some g =>
    match s.holders[g.isolate]? with
    | some (some (request, turn)) => if request = g.request then some turn else none
    | _ => none

def step (s : State) : Op → Option State
  | .newIsolate => some { s with holders := s.holders ++ [none] }
  | .new isolate request deadline =>
    if isolate < s.holders.length then
      some { s with
        guards := s.guards ++ [⟨isolate, request, deadline⟩]
        deadlines := s.deadlines.orderedInsert Key.le (deadline, s.guards.length) }
    else
      none
  | .drop guard =>
    match s.guards[guard]? with
    | some g =>
      if guard ∈ s.dropped then none
      else some { s with
        dropped := guard :: s.dropped
        deadlines := s.deadlines.filter fun key => key ≠ (g.deadline, guard) }
    | none => none
  | .expire guard =>
    if guard < s.guards.length then some { s with triggered := guard :: s.triggered } else none
  | .take now =>
    -- the watchdog is at the lock only when it has acted on all it had taken
    if s.due = [] then
      some { s with
        due := (s.deadlines.filter fun key => key.1 ≤ now).map Prod.snd
        deadlines := s.deadlines.filter fun key => ¬ key.1 ≤ now }
    else
      none
  | .flag =>
    match s.due, s.flagged with
    | guard :: _, false => some { s with triggered := guard :: s.triggered, flagged := true }
    | _, _ => none
  | .terminate =>
    match s.due, s.flagged with
    | _ :: due, true => some { s with due, flagged := false }
    | _, _ => none
  | .begin isolate request =>
    if isolate < s.holders.length then
      some { s with
        holders := s.holders.set isolate (some (request, s.turns)), turns := s.turns + 1 }
    else
      none
  | .endTurn isolate =>
    if isolate < s.holders.length then
      some { s with holders := s.holders.set isolate none }
    else
      none

def machine : Machine State Op where
  init := ⟨[], [], [], [], [], false, [], 0⟩
  step := step

/-! ## What is seen of a run -/

inductive Event where
  | dropped (guard : Nat)
  | began (turn : Nat)
  /-- A turn is terminated on behalf of a guard. -/
  | cut (guard turn : Nat)
deriving DecidableEq, Repr

def observe (s : State) : Op → List Event
  | .drop guard => [.dropped guard]
  | .begin _ _ => [.began s.turns]
  | .terminate => (s.due.head?.bind fun guard => (s.cuts guard).map (.cut guard)).toList
  | .newIsolate | .new _ _ _ | .expire _ | .take _ | .flag | .endTurn _ => []

/-- No turn that began after a guard was dropped is terminated on its behalf. -/
def NoLateCut (log : List Event) : Prop :=
  ∀ guard turn, ¬ [.dropped guard, .began turn, .cut guard turn].Sublist log

/-- A turn of a request begins with no entry of the request in the hands of the watchdog whose
guard was dropped. -/
def Guard (s : State) : Op → Prop
  | .begin isolate request => ∀ guard ∈ s.due, guard ∈ s.dropped →
      ∀ g ∈ s.guards[guard]?, ¬ (g.isolate = isolate ∧ g.request = request)
  | _ => True

instance (s : State) (op : Op) : Decidable (Guard s op) := by
  cases op <;> dsimp only [Guard] <;> infer_instance

/-! ## The invariant -/

variable {s s' : State} {log : List Event}

structure Inv (s : State) (log : List Event) : Prop where
  dropped : ∀ guard, .dropped guard ∈ log → guard ∈ s.dropped
  made : ∀ guard ∈ s.dropped, guard < s.guards.length
  entry : ∀ key ∈ s.deadlines, ∃ g, s.guards[key.2]? = some g ∧ g.deadline = key.1
  /-- A dropped guard has withdrawn its deadline. -/
  withdrawn : ∀ key ∈ s.deadlines, key.2 ∉ s.dropped
  began : ∀ turn, .began turn ∈ log → turn < s.turns
  /-- A turn that is under way did not begin after the drop of a guard whose entry the
  watchdog holds for it. -/
  holder : ∀ (isolate : Nat) request turn, s.holders[isolate]? = some (some (request, turn)) →
    ∀ guard ∈ s.due, ∀ g, s.guards[guard]? = some g → g.isolate = isolate → g.request = request →
      ¬ [.dropped guard, .began turn].Sublist log
  turn : ∀ (isolate : Nat) request turn, s.holders[isolate]? = some (some (request, turn)) →
    turn < s.turns
  noLateCut : NoLateCut log

theorem inv_init : Inv machine.init [] where
  dropped _ h := absurd h not_mem_nil
  made _ h := absurd h not_mem_nil
  entry _ h := absurd h not_mem_nil
  withdrawn _ h := absurd h not_mem_nil
  began _ h := absurd h not_mem_nil
  holder _ _ _ h := absurd (mem_of_getElem? h) not_mem_nil
  turn _ _ _ h := absurd (mem_of_getElem? h) not_mem_nil
  noLateCut _ _ h := by cases h

/-- A step that nothing is seen of, and that adds no turn and no due entry. -/
theorem Inv.quiet (hs : Inv s log) (hguards : s'.guards = s.guards)
    (hdropped : s'.dropped = s.dropped) (hdeadlines : s'.deadlines = s.deadlines)
    (hdue : s'.due ⊆ s.due) (hturns : s'.turns = s.turns)
    (hholders : ∀ (isolate : Nat) request turn,
      s'.holders[isolate]? = some (some (request, turn)) →
        s.holders[isolate]? = some (some (request, turn))) : Inv s' log where
  dropped := by
    rw [hdropped]
    exact hs.dropped
  made := by
    rw [hdropped, hguards]
    exact hs.made
  entry := by
    rw [hdeadlines, hguards]
    exact hs.entry
  withdrawn := by
    rw [hdeadlines, hdropped]
    exact hs.withdrawn
  began := by
    rw [hturns]
    exact hs.began
  holder := by
    rw [hguards]
    intro isolate request turn hholder guard hmem
    exact hs.holder isolate request turn (hholders _ _ _ hholder) guard (hdue hmem)
  turn := by
    rw [hturns]
    exact fun isolate request turn hholder => hs.turn isolate request turn (hholders _ _ _ hholder)
  noLateCut := hs.noLateCut

theorem inv_new {isolate request deadline : Nat} (hs : Inv s log) :
    Inv { s with
      guards := s.guards ++ [⟨isolate, request, deadline⟩]
      deadlines := s.deadlines.orderedInsert Key.le (deadline, s.guards.length) } log := by
  have hget : ∀ {k : Nat} {g}, s.guards[k]? = some g →
      (s.guards ++ [⟨isolate, request, deadline⟩])[k]? = some g := by
    intro k g hk
    rw [getElem?_append_left (List.getElem?_eq_some_iff.mp hk).1, hk]
  refine ⟨hs.dropped, ?_, ?_, ?_, hs.began, ?_, hs.turn, hs.noLateCut⟩
  · intro guard hmem
    rw [length_append]
    exact Nat.lt_add_right _ (hs.made guard hmem)
  · intro key hmem
    rcases (mem_orderedInsert _).mp hmem with rfl | hmem
    · exact ⟨⟨isolate, request, deadline⟩, by simp, rfl⟩
    · obtain ⟨g, hg, hdeadline⟩ := hs.entry key hmem
      exact ⟨g, hget hg, hdeadline⟩
  · intro key hmem hdropped
    rcases (mem_orderedInsert _).mp hmem with rfl | hmem
    · exact absurd (hs.made _ hdropped) (Nat.lt_irrefl _)
    · exact hs.withdrawn key hmem hdropped
  · intro i r turn hholder guard hdue g hg hisolate hrequest hsub
    -- The guard was dropped, so it is not the new one.
    have hlt := hs.made guard (hs.dropped guard (hsub.subset mem_cons_self))
    rw [getElem?_append_left hlt] at hg
    exact hs.holder i r turn hholder guard hdue g hg hisolate hrequest hsub

theorem inv_drop {guard : Nat} {g : TimeoutGuard} (hs : Inv s log)
    (hg : s.guards[guard]? = some g) :
    Inv { s with
      dropped := guard :: s.dropped
      deadlines := s.deadlines.filter fun key => key ≠ (g.deadline, guard) }
      (log ++ [.dropped guard]) := by
  refine ⟨?_, ?_, ?_, ?_, ?_, ?_, hs.turn, ?_⟩
  · intro other hmem
    rcases mem_append.mp hmem with hmem | hmem
    · exact mem_cons_of_mem _ (hs.dropped other hmem)
    · cases mem_singleton.mp hmem
      exact mem_cons_self
  · intro other hmem
    rcases mem_cons.mp hmem with rfl | hmem
    · exact (List.getElem?_eq_some_iff.mp hg).1
    · exact hs.made other hmem
  · exact fun key hmem => hs.entry key (mem_filter.mp hmem).1
  · intro key hmem hdropped
    obtain ⟨hmem, hne⟩ := mem_filter.mp hmem
    rcases mem_cons.mp hdropped with heq | hdropped
    · obtain ⟨g', hg', hdeadline⟩ := hs.entry key hmem
      rw [heq, hg] at hg'
      cases hg'
      exact of_decide_eq_true hne (Prod.ext hdeadline.symm heq)
    · exact hs.withdrawn key hmem hdropped
  · intro turn hmem
    exact hs.began turn (by simpa using hmem)
  · intro i r turn hholder other hdue g' hg' hisolate hrequest hsub
    refine hs.holder i r turn hholder other hdue g' hg' hisolate hrequest ?_
    exact sublist_of_concat_ne (p := [Event.dropped other]) hsub nofun
  · intro other turn hsub
    exact hs.noLateCut other turn
      (sublist_of_concat_ne (p := [Event.dropped other, .began turn]) hsub nofun)

theorem inv_take {now : Nat} (hs : Inv s log) :
    Inv { s with
      due := (s.deadlines.filter fun key => key.1 ≤ now).map Prod.snd
      deadlines := s.deadlines.filter fun key => ¬ key.1 ≤ now } log := by
  refine ⟨hs.dropped, hs.made, ?_, ?_, hs.began, ?_, hs.turn, hs.noLateCut⟩
  · exact fun key hmem => hs.entry key (mem_filter.mp hmem).1
  · exact fun key hmem => hs.withdrawn key (mem_filter.mp hmem).1
  · intro i r turn hholder guard hdue g hg hisolate hrequest hsub
    obtain ⟨key, hmem, rfl⟩ := mem_map.mp hdue
    refine hs.withdrawn key (mem_filter.mp hmem).1 ?_
    exact hs.dropped _ (hsub.subset mem_cons_self)

theorem inv_begin {isolate request : Nat} (hs : Inv s log)
    (hguard : Guard s (.begin isolate request)) :
    Inv { s with
      holders := s.holders.set isolate (some (request, s.turns)), turns := s.turns + 1 }
      (log ++ [.began s.turns]) := by
  refine ⟨?_, hs.made, hs.entry, hs.withdrawn, ?_, ?_, ?_, ?_⟩
  · intro guard hmem
    exact hs.dropped guard (by simpa using hmem)
  · intro turn hmem
    rcases mem_append.mp hmem with hmem | hmem
    · exact Nat.lt_succ_of_lt (hs.began turn hmem)
    · cases mem_singleton.mp hmem
      exact Nat.lt_succ_self _
  · intro i r turn hholder guard hdue g hg hisolate hrequest hsub
    rcases of_getElem?_set hholder with ⟨heq, hnew⟩ | ⟨-, hholder⟩
    · cases hnew
      -- The new turn: a dropped guard of the request is not due, by the condition.
      have hmem : .dropped guard ∈ log := by
        rcases sublist_concat (p := [Event.dropped guard]) hsub with hsub | ⟨hsub, -⟩
        · exact hsub.subset mem_cons_self
        · exact hsub.subset mem_cons_self
      exact hguard guard hdue (hs.dropped guard hmem) g hg ⟨hisolate.trans heq, hrequest⟩
    · have hlt := hs.turn i r turn hholder
      refine hs.holder i r turn hholder guard hdue g hg hisolate hrequest ?_
      refine sublist_of_concat_ne (p := [Event.dropped guard]) hsub ?_
      rintro ⟨⟩
      exact Nat.lt_irrefl _ hlt
  · intro i r turn hholder
    rcases of_getElem?_set hholder with ⟨-, hnew⟩ | ⟨-, hholder⟩
    · cases hnew
      exact Nat.lt_succ_self _
    · exact Nat.lt_succ_of_lt (hs.turn i r turn hholder)
  · intro guard turn hsub
    exact hs.noLateCut guard turn
      (sublist_of_concat_ne (p := [Event.dropped guard, .began turn]) hsub nofun)

theorem cuts_eq_some {guard turn : Nat} (h : s.cuts guard = some turn) :
    ∃ g, s.guards[guard]? = some g ∧
      s.holders[g.isolate]? = some (some (g.request, turn)) := by
  unfold State.cuts at h
  split at h
  · cases h
  · next g hg =>
      split at h
      · next request turn' hholder =>
          split at h
          · next heq =>
              cases h
              exact ⟨g, hg, heq ▸ hholder⟩
          · cases h
      · cases h

theorem inv_terminate {guard : Nat} {due : List Nat} (hs : Inv s log)
    (hdue : s.due = guard :: due) :
    Inv { s with due, flagged := false }
      (log ++ ((s.cuts guard).map (Event.cut guard)).toList) := by
  have hquiet : Inv { s with due, flagged := false } log := by
    refine hs.quiet rfl rfl rfl ?_ rfl fun _ _ _ h => h
    rw [hdue]
    exact subset_cons_self _ _
  cases hcuts : s.cuts guard with
  | none => simpa using hquiet
  | some turn =>
      obtain ⟨g, hg, hholder⟩ := cuts_eq_some hcuts
      refine ⟨?_, hs.made, hs.entry, hs.withdrawn, ?_, ?_, hs.turn, ?_⟩
      · exact fun other hmem => hs.dropped other (by simpa using hmem)
      · exact fun turn hmem => hs.began turn (by simpa using hmem)
      · intro i r turn hholder other hmem g' hg' hisolate hrequest hsub
        refine hquiet.holder i r turn hholder other hmem g' hg' hisolate hrequest ?_
        exact sublist_of_concat_ne (p := [Event.dropped other]) hsub nofun
      · intro other turn' hsub
        rcases sublist_concat (p := [Event.dropped other, .began turn'])
          hsub with hsub | ⟨hsub, heq⟩
        · exact hs.noLateCut other turn' hsub
        · cases heq
          exact hs.holder g.isolate g.request turn hholder guard (by rw [hdue]; simp) g hg rfl rfl
            hsub

theorem inv_step (s : State) (log : List Event) (op : Op) (s' : State) (hs : Inv s log)
    (hguard : Guard s op) (hstep : step s op = some s') : Inv s' (log ++ observe s op) := by
  cases op with
  | newIsolate =>
      cases hstep
      rw [observe, append_nil]
      refine hs.quiet rfl rfl rfl (List.Subset.refl _) rfl ?_
      intro isolate request turn hholder
      rw [getElem?_append] at hholder
      split at hholder
      · exact hholder
      · cases mem_singleton.mp (mem_of_getElem? hholder)
  | new isolate request deadline =>
      simp only [step] at hstep
      split at hstep
      · cases hstep
        rw [observe, append_nil]
        exact inv_new hs
      · cases hstep
  | drop guard =>
      simp only [step] at hstep
      split at hstep
      · next g hg =>
          split at hstep
          · cases hstep
          · cases hstep
            exact inv_drop hs hg
      · cases hstep
  | expire guard =>
      simp only [step] at hstep
      split at hstep
      · cases hstep
        rw [observe, append_nil]
        exact hs.quiet rfl rfl rfl (List.Subset.refl _) rfl fun _ _ _ h => h
      · cases hstep
  | take now =>
      simp only [step] at hstep
      split at hstep
      · cases hstep
        rw [observe, append_nil]
        exact inv_take hs
      · cases hstep
  | flag =>
      simp only [step] at hstep
      split at hstep
      · cases hstep
        rw [observe, append_nil]
        exact hs.quiet rfl rfl rfl (List.Subset.refl _) rfl fun _ _ _ h => h
      · cases hstep
  | terminate =>
      simp only [step] at hstep
      split at hstep
      · next guard due hdue hflagged =>
          cases hstep
          have hseen : observe s .terminate =
              ((s.cuts guard).map (Event.cut guard)).toList := by
            simp [observe, hdue]
          rw [hseen]
          exact inv_terminate hs hdue
      · cases hstep
  | begin isolate request =>
      simp only [step] at hstep
      split at hstep
      · cases hstep
        exact inv_begin hs hguard
      · cases hstep
  | endTurn isolate =>
      simp only [step] at hstep
      split at hstep
      · cases hstep
        rw [observe, append_nil]
        refine hs.quiet rfl rfl rfl (List.Subset.refl _) rfl ?_
        intro i request turn hholder
        rcases of_getElem?_set hholder with ⟨-, hnone⟩ | ⟨-, hholder⟩
        · cases hnone
        · exact hholder
      · cases hstep

/-- **A withdrawn deadline.**  In every run in which a turn of a request begins only when the
watchdog holds no entry of a dropped guard of that request, no turn that began after a guard
was dropped is terminated on behalf of that guard. -/
theorem withdrawn_deadline_cuts_no_later_turn (ops : List Op) (s : State)
    (hrun : machine.run ops = some s) (hmeets : machine.Meets Guard machine.init ops) :
    NoLateCut (machine.log observe ops) :=
  (Machine.invariant_log_of_meets inv_init inv_step hmeets hrun).noLateCut

/-- The two turns of an open socket, each under a guard of its own: the first one is cut by its
guard at the deadline, and the second one is not. -/
def twoTurns : List Op :=
  [.newIsolate, .new 0 7 50, .begin 0 7, .take 50, .flag, .terminate, .endTurn 0, .drop 0,
    .new 0 7 100, .begin 0 7, .take 60, .endTurn 0, .drop 1]

theorem withdrawn_deadline_cuts_no_later_turn_two_turns :
    (∃ s, machine.run twoTurns = some s ∧ s.triggered = [0] ∧ s.dropped = [1, 0]) ∧
      machine.log observe twoTurns =
        [.began 0, .cut 0 0, .dropped 0, .began 1, .dropped 1] ∧
      NoLateCut (machine.log observe twoTurns) :=
  ⟨⟨_, rfl, rfl, rfl⟩, rfl,
    withdrawn_deadline_cuts_no_later_turn twoTurns _ rfl (by decide)⟩

/-- The watchdog has taken the entry of the first turn of an open socket when that turn ends
and its guard is dropped.  It terminates the request while it has its second turn. -/
theorem next_turn_cut_for_dropped_guard :
    (∃ s, machine.run [.newIsolate, .new 0 7 50, .begin 0 7, .take 50, .endTurn 0, .drop 0,
      .new 0 7 100, .begin 0 7, .flag, .terminate] = some s) ∧
    machine.log observe [.newIsolate, .new 0 7 50, .begin 0 7, .take 50, .endTurn 0, .drop 0,
      .new 0 7 100, .begin 0 7, .flag, .terminate] =
        [.began 0, .dropped 0, .began 1, .cut 0 1] ∧
    ¬ NoLateCut (machine.log observe [.newIsolate, .new 0 7 50, .begin 0 7, .take 50,
      .endTurn 0, .drop 0, .new 0 7 100, .begin 0 7, .flag, .terminate]) := by
  refine ⟨⟨_, rfl⟩, rfl, fun h => h 0 1 ?_⟩
  exact sublist_cons_self _ _

end OpenWorkers.Security.Watchdog
