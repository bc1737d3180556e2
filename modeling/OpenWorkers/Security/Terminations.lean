import OpenWorkers.Lib.Erase
import OpenWorkers.Security.Turn

/-!
# Whom a termination stops

`Held` says who has the lock and the turn, and that a termination which was raised since the
turn began was raised by its holder.  So JavaScript that runs in a turn is never stopped by
the guard of another request.

The set-up of a context runs JavaScript with the lock but without a turn.  Nothing lowers the
flag before it, and what it finds is what the turn before left behind.
-/

namespace OpenWorkers.Security

open List

variable {s s' : Isolate}

structure Held (s : Isolate) : Prop where
  lock : ∀ (r : Nat) (pc : Pc), s.requests[r]? = some pc → (pc.locks = true ↔ s.lock = some r)
  lock_lt : ∀ r, s.lock = some r → r < s.requests.length
  holder : ∀ (r : Nat) (pc : Pc) (id : RequestId), s.requests[r]? = some pc →
    pc.turn = some id → s.turn.holder = some id
  held : ∀ id, s.turn.holder = some id →
    ∃ (r : Nat) (pc : Pc), s.requests[r]? = some pc ∧ pc.turn = some id
  owner : ∀ (r : Nat) (pc : Pc) (id : RequestId), s.requests[r]? = some pc →
    pc.id = some id → s.owners[id]? = some r
  /-- In a turn, only the guards of its id have raised the flag. -/
  own : ∀ id, s.turn.holder = some id → ∀ id', .guard id' ∈ s.turn.raised → id' = id

theorem held_init : Held machine.init where
  lock _ _ h := absurd (mem_of_getElem? h) not_mem_nil
  lock_lt _ h := by cases h
  holder _ _ _ h := absurd (mem_of_getElem? h) not_mem_nil
  held _ h := by cases h
  owner _ _ _ h := absurd (mem_of_getElem? h) not_mem_nil
  own _ h := by cases h

/-! ## Locks and ids -/

/-- Two requests that have the lock are one. -/
theorem Held.eq_of_locks (hs : Held s) {r k : Nat} {pc q : Pc} (hr : s.requests[r]? = some pc)
    (hk : s.requests[k]? = some q) (hpc : pc.locks = true) (hq : q.locks = true) : k = r := by
  have hlock := (hs.lock r pc hr).mp hpc
  rw [(hs.lock k q hk).mp hq] at hlock
  exact Option.some.inj hlock

/-- Ids that were handed out stay with their request. -/
theorem owners_append {owners : List Nat} {id r k : Nat} (h : owners[id]? = some r) :
    (owners ++ [k])[id]? = some r := by
  rw [getElem?_append_left (List.getElem?_eq_some_iff.mp h).1, h]

/-! ## Steps -/

/-- A request moves: what is asked of it, and what the others must not notice. -/
theorem Held.move {r : Nat} {pc pc' : Pc} (hs : Held s) (hpc : s.requests[r]? = some pc)
    (hrequests : s'.requests = s.requests.set r pc')
    (hlocks : pc'.locks = true ↔ s'.lock = some r)
    (hothers : ∀ (k : Nat) (q : Pc), k ≠ r → s.requests[k]? = some q →
      (q.locks = true ↔ s'.lock = some k))
    (hlock : ∀ k, s'.lock = some k → k = r ∨ s.lock = some k)
    (hturn : ∀ id, pc'.turn = some id → s'.turn.holder = some id)
    (hturns : ∀ (k : Nat) (q : Pc) (id : RequestId), k ≠ r → s.requests[k]? = some q →
      q.turn = some id → s'.turn.holder = some id)
    (hheld : ∀ id, s'.turn.holder = some id →
      pc'.turn = some id ∨ s.turn.holder = some id ∧ pc.turn = none)
    (hid : ∀ id, pc'.id = some id → s'.owners[id]? = some r)
    (howners : ∀ {id k : Nat}, s.owners[id]? = some k → s'.owners[id]? = some k)
    (hown : ∀ id, s'.turn.holder = some id → ∀ id', .guard id' ∈ s'.turn.raised → id' = id) :
    Held s' := by
  have hlt : r < s.requests.length := (List.getElem?_eq_some_iff.mp hpc).1
  refine ⟨?_, ?_, ?_, ?_, ?_, hown⟩
  · intro k q hk
    rcases of_getElem?_set (hrequests ▸ hk) with ⟨rfl, rfl⟩ | ⟨hne, hk⟩
    · exact hlocks
    · exact hothers k q hne hk
  · intro k hk
    rw [hrequests, length_set]
    rcases hlock k hk with rfl | hk
    · exact hlt
    · exact hs.lock_lt k hk
  · intro k q id hk hq
    rcases of_getElem?_set (hrequests ▸ hk) with ⟨rfl, rfl⟩ | ⟨hne, hk⟩
    · exact hturn id hq
    · exact hturns k q id hne hk hq
  · intro id hholder
    rcases hheld id hholder with hpc' | ⟨hholder, hnone⟩
    · exact ⟨r, pc', by rw [hrequests, getElem?_set_self hlt], hpc'⟩
    · obtain ⟨k, q, hk, hq⟩ := hs.held id hholder
      have hne : r ≠ k := by
        rintro rfl
        cases hpc.symm.trans hk
        cases hnone.symm.trans hq
      exact ⟨k, q, by rw [hrequests, getElem?_set_ne hne, hk], hq⟩
  · intro k q id hk hq
    rcases of_getElem?_set (hrequests ▸ hk) with ⟨rfl, rfl⟩ | ⟨-, hk⟩
    · exact hid id hq
    · exact howners (hs.owner k q id hk hq)

/-- A request that does not have the lock has no turn. -/
theorem turn_ne_of_locks {q : Pc} {id : RequestId} (hlocks : q.locks = false) :
    q.turn ≠ some id := by
  intro hturn
  rw [Pc.locks_of_turn hturn] at hlocks
  cases hlocks

theorem held_setsUp {r : Nat} (hs : Held s) (hlock : s.lock = none)
    (hpc : s.requests[r]? = some (.arrived false)) :
    Held { s.setPc r .settingUp with lock := some r } := by
  refine hs.move hpc rfl (iff_of_true rfl rfl) ?_ (fun k hk => .inl (Option.some.inj hk).symm) nofun
    (fun k q id _ hk hq => hs.holder k q id hk hq) (fun id hholder => .inr ⟨hholder, rfl⟩) nofun
    (fun h => h) hs.own
  intro k q hne hk
  refine iff_of_false (fun hq => ?_) fun h => hne (Option.some.inj h).symm
  rw [hs.lock k q hk, hlock] at hq
  cases hq

theorem held_begins {r : Nat} {pc pc' : Pc} {id : RequestId} (hs : Held s)
    (hpc : s.requests[r]? = some pc) (hturn' : pc'.turn = some id)
    (hlocks : pc'.locks = true)
    (hid : id = s.owners.length ∧ s'.owners = s.owners ++ [r] ∨
      pc.id = some id ∧ s'.owners = s.owners)
    (hlock : pc = .settingUp ∧ s'.lock = s.lock ∨
      pc.locks = false ∧ s.lock = none ∧ s'.lock = some r)
    (hrequests : s'.requests = s.requests.set r pc') (heq : s'.turn = s.turn.begin id) :
    Held s' := by
  have hlock' : s'.lock = some r := by
    rcases hlock with ⟨rfl, heq⟩ | ⟨-, -, heq⟩
    · rw [heq]
      exact (hs.lock r _ hpc).mp rfl
    · exact heq
  -- Nobody else has the lock before the step, and so nobody else has a turn.
  have hfree : ∀ (k : Nat) (q : Pc), k ≠ r → s.requests[k]? = some q → q.locks = false := by
    intro k q hne hk
    rw [← Bool.not_eq_true, hs.lock k q hk]
    rcases hlock with ⟨rfl, -⟩ | ⟨-, heq, -⟩
    · rw [(hs.lock r _ hpc).mp rfl]
      exact fun h => hne (Option.some.inj h).symm
    · rw [heq]
      exact nofun
  refine hs.move hpc hrequests (iff_of_true hlocks hlock') ?_ ?_ ?_
    (fun k q id' hne hk hq => absurd hq (turn_ne_of_locks (hfree k q hne hk))) ?_ ?_ ?_ ?_
  · intro k q hne hk
    rw [hlock', hfree k q hne hk]
    exact iff_of_false nofun fun h => hne (Option.some.inj h).symm
  · intro k hk
    rw [hlock'] at hk
    exact .inl (Option.some.inj hk).symm
  · intro id' hq
    rw [heq, ← hq, hturn']
    rfl
  · intro id' hholder
    rw [heq] at hholder
    cases hholder
    exact .inl hturn'
  · intro id' hq
    rw [Pc.id_of_turn hturn'] at hq
    cases hq
    rcases hid with ⟨rfl, howners⟩ | ⟨hid, howners⟩
    · simp [howners]
    · rw [howners]
      exact hs.owner r pc _ hpc hid
  · intro id' k hold
    rcases hid with ⟨-, howners⟩ | ⟨-, howners⟩ <;> rw [howners]
    · exact owners_append hold
    · exact hold
  · intro _ _ id' hraised
    rw [heq] at hraised
    cases hraised

theorem held_ends {r : Nat} {pc pc' : Pc} {id : RequestId} (hs : Held s)
    (hpc : s.requests[r]? = some pc) (hturn : pc.turn = some id) (hturn' : pc'.turn = none)
    (hid : ∀ id, pc'.id = some id → pc.turn = some id)
    (hrequests : s'.requests = s.requests.set r pc') (howners : s'.owners = s.owners)
    (hlock : s'.lock = if pc'.locks then s.lock else none) (heq : s'.turn = s.turn.endTurn) :
    Held s' := by
  have hlocked := (hs.lock r pc hpc).mp (Pc.locks_of_turn hturn)
  rw [hlocked] at hlock
  have hfree : ∀ (k : Nat) (q : Pc), k ≠ r → s.requests[k]? = some q → q.locks = false := by
    intro k q hne hk
    rw [← Bool.not_eq_true]
    exact fun hq => hne (hs.eq_of_locks hpc hk (Pc.locks_of_turn hturn) hq)
  have hmine : ∀ k, s'.lock = some k → k = r := by
    intro k hk
    rw [hlock] at hk
    split at hk
    · exact (Option.some.inj hk).symm
    · cases hk
  have hholder : s'.turn.holder = none := by
    rw [heq]
    rfl
  refine hs.move hpc hrequests ?_ ?_ (fun k hk => .inl (hmine k hk)) ?_
    (fun k q id' hne hk hq => absurd hq (turn_ne_of_locks (hfree k q hne hk))) ?_ ?_ ?_ ?_
  · rw [hlock]
    cases pc'.locks <;> simp
  · intro k q hne hk
    rw [hfree k q hne hk]
    exact iff_of_false nofun fun h => hne (hmine k h)
  · intro id' hq
    cases hturn'.symm.trans hq
  · intro id' h
    cases hholder.symm.trans h
  · intro id' hq
    rw [howners]
    exact hs.owner r pc id' hpc (Pc.id_of_turn (hid id' hq))
  · intro id' k hold
    rwa [howners]
  · intro id' h
    cases hholder.symm.trans h

theorem held_goesOn {r : Nat} {pc pc' : Pc} (hs : Held s) (hpc : s.requests[r]? = some pc)
    (hturn : pc.turn = none) (hturn' : pc'.turn = none) (hlocks : pc'.locks = false)
    (hid : ∀ id, pc'.id = some id → pc.id = some id ∨
      id = s.owners.length ∧ s'.owners = s.owners ++ [r])
    (howners : s'.owners = s.owners ∨ s'.owners = s.owners ++ [r])
    (hrequests : s'.requests = s.requests.set r pc')
    (hlock : s'.lock = if pc.locks then none else s.lock)
    (hholder : s'.turn.holder = s.turn.holder)
    (hraised : s'.turn.raised = s.turn.raised ∨ s'.turn.raised = []) : Held s' := by
  have hgrows : ∀ {id k : Nat}, s.owners[id]? = some k → s'.owners[id]? = some k := by
    intro id k h
    rcases howners with heq | heq <;> rw [heq]
    · exact h
    · exact owners_append h
  have hkept : ∀ k, s'.lock = some k → k ≠ r ∧ s.lock = some k := by
    intro k hk
    rw [hlock] at hk
    split at hk
    · cases hk
    · next hnot =>
      refine ⟨?_, hk⟩
      rintro rfl
      exact hnot ((hs.lock k pc hpc).mpr hk)
  refine hs.move hpc hrequests ?_ ?_ (fun k hk => .inr (hkept k hk).2) ?_ ?_ ?_ ?_ hgrows ?_
  · rw [hlocks]
    exact iff_of_false nofun fun h => (hkept r h).1 rfl
  · intro k q hne hk
    rw [hlock]
    split
    · next hlocked =>
      refine iff_of_false (fun hq => hne ?_) nofun
      exact hs.eq_of_locks hpc hk hlocked hq
    · exact hs.lock k q hk
  · intro id hq
    cases hturn'.symm.trans hq
  · intro k q id _ hk hq
    rw [hholder]
    exact hs.holder k q id hk hq
  · intro id h
    exact .inr ⟨hholder ▸ h, hturn⟩
  · intro id hq
    rcases hid id hq with hid | ⟨rfl, heq⟩
    · exact hgrows (hs.owner r pc id hpc hid)
    · simp [heq]
  · intro id hid id' hmem
    rcases hraised with heq | heq <;> rw [heq] at hmem
    · exact hs.own id (hholder ▸ hid) id' hmem
    · cases hmem

theorem held_terminates {id : RequestId} (hs : Held s) :
    Held { s with turn := s.turn.terminate id } := by
  unfold Turn.terminate
  split
  · next hholder =>
      refine ⟨hs.lock, hs.lock_lt, hs.holder, hs.held, hs.owner, ?_⟩
      intro id' hid' id'' hmem
      rcases mem_append.mp hmem with hmem | hmem
      · exact hs.own id' hid' id'' hmem
      · rw [mem_singleton] at hmem
        cases hmem
        exact Option.some.inj (hholder.symm.trans hid')
  · exact hs

theorem held_arrives {warm : Bool} (hs : Held s) :
    Held { s with requests := s.requests ++ [.arrived warm] } := by
  refine ⟨?_, ?_, ?_, ?_, ?_, hs.own⟩
  · intro k q hk
    rcases of_getElem?_concat hk with ⟨rfl, rfl⟩ | hk
    · refine iff_of_false Bool.false_ne_true ?_
      exact fun h => Nat.lt_irrefl _ (hs.lock_lt _ h)
    · exact hs.lock k q hk
  · intro k hk
    rw [length_append]
    exact Nat.lt_add_right _ (hs.lock_lt k hk)
  · intro k q id hk hq
    rcases of_getElem?_concat hk with ⟨-, rfl⟩ | hk
    · cases hq
    · exact hs.holder k q id hk hq
  · intro id hid
    obtain ⟨k, q, hk, hq⟩ := hs.held id hid
    exact ⟨k, q, by rw [getElem?_append_left (List.getElem?_eq_some_iff.mp hk).1, hk], hq⟩
  · intro k q id hk hq
    rcases of_getElem?_concat hk with ⟨-, rfl⟩ | hk
    · cases hq
    · exact hs.owner k q id hk hq

theorem held_hits {hit : Hit} (hs : Held s) : Held (s.setMemory hit) :=
  ⟨hs.lock, hs.lock_lt, hs.holder, hs.held, hs.owner, hs.own⟩

theorem held_raise_heap (hs : Held s) : Held (s.raise .heap) := by
  refine ⟨hs.lock, hs.lock_lt, hs.holder, hs.held, hs.owner, ?_⟩
  intro id hid id' hmem
  rcases mem_append.mp hmem with hmem | hmem
  · exact hs.own id hid id' hmem
  · rw [mem_singleton] at hmem
    cases hmem

theorem held_step (s : Isolate) (op : Op) (s' : Isolate) (hs : Held s)
    (hstep : step s op = some s') : Held s' := by
  cases moved_step hstep with
  | arrives warm hop heq hseen =>
      rw [heq]
      exact held_arrives hs
  | setsUp r hop hlock hpc heq hseen =>
      rw [heq]
      exact held_setsUp hs hlock hpc
  | begins r pc pc' id hpc hended hturn hturn' hlocks hhit hid hlock hrequests heq hseen =>
      exact held_begins hs hpc hturn' hlocks hid hlock hrequests heq
  | ends r pc pc' id hpc hturn hturn' hruns hhit hended hid hrequests howners hlock heq
      hseen =>
      exact held_ends hs hpc hturn hturn' hid hrequests howners hlock heq
  | goesOn r pc pc' hpc hended hturn hturn' hlocks hlimit hmemory hhit hid howners hrequests hlock
      hholder hraised htaken hfails =>
      exact held_goesOn hs hpc hturn hturn' hlocks hid howners hrequests hlock hholder hraised
  | terminates id hid heq hseen =>
      rw [heq]
      exact held_terminates hs
  | hits r pc during hpc hruns heq hseen =>
      rcases heq with rfl | rfl
      · exact held_hits hs
      · exact held_raise_heap (held_hits hs)

/-! ## The termination flag -/

/-- No JavaScript runs for a request while the flag is raised by the guard of another one. -/
def Clean (s : Isolate) : Prop :=
  ∀ (r : Nat) (pc : Pc), s.requests[r]? = some pc → pc.runs ≠ none →
    ∀ id, .guard id ∈ s.turn.raised → s.owners[id]? = some r

/-- Whether a termination was raised by no other request's guard. -/
def Raiser.isOf (owners : List Nat) (r : Nat) : Raiser → Bool
  | .guard id => owners[id]? = some r
  | .heap => true

/-- A set-up starts with no termination raised by the guard of another request. -/
def Guard (s : Isolate) : Op → Prop
  | .setUp r => ∀ raiser ∈ s.turn.raised, raiser.isOf s.owners r = true
  | _ => True

instance (s : Isolate) (op : Op) : Decidable (Guard s op) := by
  cases op <;> dsimp only [Guard] <;> infer_instance

/-- In a turn, the flag is raised by the guards of its own id alone. -/
theorem Held.raised_in_turn (hs : Held s) {r : Nat} {pc : Pc} {id id' : RequestId}
    (hpc : s.requests[r]? = some pc) (hturn : pc.turn = some id)
    (hmem : .guard id' ∈ s.turn.raised) : id' = id :=
  hs.own id (hs.holder r pc id hpc hturn) id' hmem

/-- What runs in a turn is clean, so only set-ups have to be looked at. -/
theorem Held.clean_iff (hs : Held s) :
    Clean s ↔ ∀ r, s.requests[r]? = some .settingUp → ∀ id, .guard id ∈ s.turn.raised →
      s.owners[id]? = some r := by
  constructor
  · intro hclean r hr
    exact hclean r .settingUp hr nofun
  · intro hsetUp r pc hpc hruns id hmem
    obtain ⟨during, hruns⟩ := Option.ne_none_iff_exists'.mp hruns
    rcases Pc.eq_settingUp_or_turn hruns with rfl | ⟨id', hturn⟩
    · exact hsetUp r hpc id hmem
    · rw [hs.raised_in_turn hpc hturn hmem]
      exact hs.owner r pc id' hpc (Pc.id_of_turn hturn)

/-- While a context is set up, nobody has the turn. -/
theorem Held.holder_of_settingUp (hs : Held s) {r : Nat}
    (hr : s.requests[r]? = some .settingUp) : s.turn.holder = none := by
  by_contra hne
  obtain ⟨id, hholder⟩ := Option.ne_none_iff_exists'.mp hne
  obtain ⟨k, q, hk, hq⟩ := hs.held id hholder
  cases hs.eq_of_locks hr hk rfl (Pc.locks_of_turn hq)
  rw [hr] at hk
  cases hk
  cases hq

theorem clean_setUp {r : Nat} (hs : Held s) (hstep : step s (.setUp r) = some s') :
    Clean s' ↔ Guard s (.setUp r) := by
  rw [(held_step s _ s' hs hstep).clean_iff]
  simp only [step] at hstep
  split at hstep
  · next hlock hpc =>
      cases hstep
      constructor
      · intro h raiser hmem
        cases raiser with
        | guard id =>
            refine decide_eq_true (h r ?_ id hmem)
            exact getElem?_set_self (List.getElem?_eq_some_iff.mp hpc).1
        | heap => rfl
      · intro h k hk id hmem
        rcases of_getElem?_set hk with ⟨rfl, -⟩ | ⟨hne, hk⟩
        · exact of_decide_eq_true (h _ hmem)
        · have := (hs.lock k _ hk).mp rfl
          rw [hlock] at this
          cases this
  · cases hstep

/-- No other step makes JavaScript run on a flag that another request's guard has raised. -/
theorem clean_of_ne {op : Op} (hs : Held s) (hclean : Clean s) (hop : ∀ r, op ≠ .setUp r)
    (hstep : step s op = some s') : Clean s' := by
  rw [(held_step s op s' hs hstep).clean_iff]
  rw [hs.clean_iff] at hclean
  cases moved_step hstep with
  | arrives warm hop heq hseen =>
      rw [heq]
      intro r hr
      rcases of_getElem?_concat hr with ⟨-, hpc⟩ | hr
      · cases hpc
      · exact hclean r hr
  | setsUp r hset hlock hpc heq hseen => exact absurd hset (hop r)
  | begins r pc pc' id hpc hended hturn hturn' hlocks hhit hid hlock hrequests heq hseen =>
      intro k hk id' hmem
      rw [heq] at hmem
      cases hmem
  | ends r pc pc' id hpc hturn hturn' hruns hhit hended hid hrequests howners hlock heq
      hseen =>
      intro k hk
      rcases of_getElem?_set (hrequests ▸ hk) with ⟨-, hpc'⟩ | ⟨hne, hk⟩
      · rw [← hpc'] at hruns
        cases hruns
      · exact absurd (hs.eq_of_locks hpc hk (Pc.locks_of_turn hturn) rfl) hne
  | goesOn r pc pc' hpc hended hturn hturn' hlocks hlimit hmemory hhit hid howners hrequests hlock
      hholder hraised htaken hfails =>
      intro k hk id' hmem
      rcases of_getElem?_set (hrequests ▸ hk) with ⟨-, hpc'⟩ | ⟨-, hk⟩
      · rw [← hpc'] at hlocks
        cases hlocks
      · rcases hraised with heq | heq <;> rw [heq] at hmem
        · have hold := hclean k hk id' hmem
          rcases howners with heq | heq <;> rw [heq]
          · exact hold
          · exact owners_append hold
        · cases hmem
  | terminates id hid heq hseen =>
      rw [heq]
      intro k hk id' hmem
      -- Nobody has the turn while `k` sets up, so the guard misses.
      refine hclean k hk id' ?_
      rwa [Turn.terminate, hs.holder_of_settingUp hk, if_neg nofun] at hmem
  | hits r pc during hpc hruns heq hseen =>
      intro k hk id' hmem
      rcases heq with rfl | rfl
      · exact hclean k hk id' hmem
      · rcases mem_append.mp hmem with hmem | hmem
        · exact hclean k hk id' hmem
        · rw [mem_singleton] at hmem
          cases hmem

/-- A step keeps the isolate clean unless it starts a set-up on a raised flag. -/
theorem clean_step (s : Isolate) (op : Op) (s' : Isolate) (hs : Held s) (hclean : Clean s)
    (hstep : step s op = some s') : Clean s' ↔ Guard s op := by
  by_cases hop : ∃ r, op = .setUp r
  · obtain ⟨r, rfl⟩ := hop
    exact clean_setUp hs hstep
  · rw [not_exists] at hop
    refine iff_of_true (clean_of_ne hs hclean hop hstep) ?_
    cases op with
    | setUp r => exact absurd rfl (hop r)
    | _ => trivial

/-- **A termination stops its own request only.**  In every run, JavaScript that runs in a
turn finds the flag raised by the guards of its own id alone.  And no JavaScript at all runs
on a flag that the guard of another request has raised, in any state of the run, exactly when
every set-up of the run starts with no such flag. -/
theorem termination_stops_own_request (ops : List Op) (s : Isolate)
    (hrun : machine.run ops = some s) :
    (∀ (r : Nat) (pc : Pc) (id : RequestId), s.requests[r]? = some pc → pc.turn = some id →
      ∀ id', .guard id' ∈ s.turn.raised → id' = id) ∧
    (machine.Always Clean machine.init ops ↔ machine.Meets Guard machine.init ops) := by
  have hs : Held s := machine.invariant held_init held_step hrun
  constructor
  · intro r pc id hpc hturn id' hmem
    exact hs.raised_in_turn hpc hturn hmem
  · refine Machine.always_iff_meets held_init ?_ held_step clean_step hrun
    intro r pc hpc
    exact absurd (mem_of_getElem? hpc) not_mem_nil

/-- Request 0 loads its script and runs a turn of its event, in which its guard fires; then
request 1 sets up its context. -/
def afterTurn : List Op :=
  [.arrive false, .setUp 0, .load 0, .endLoad 0, .checkLoad 0 false false (.ok ()),
    .exec 0 none, .begin 0]

/-- The guard of request 0 fires, and its next turn finds the flag lowered. -/
theorem termination_stops_own_request_lowered : ∃ s,
    machine.run (afterTurn ++ [.terminate 1, .endTurn 0, .begin 0]) = some s ∧
      s.turn.raised = [] ∧ machine.Always Clean machine.init
        (afterTurn ++ [.terminate 1, .endTurn 0, .begin 0]) :=
  ⟨_, rfl, rfl, (termination_stops_own_request
    (afterTurn ++ [.terminate 1, .endTurn 0, .begin 0]) _ rfl).2.mpr (by decide)⟩

/-- The guard of request 0 fires after the last JavaScript of its turn, before the turn ends.
Request 1 then builds its context on the raised flag. -/
theorem set_up_starts_terminated : ∃ s,
    machine.run (afterTurn ++ [.terminate 1, .endTurn 0, .arrive false, .setUp 1]) = some s ∧
      s.requests[1]? = some .settingUp ∧ s.turn.raised = [.guard 1] ∧
      s.owners[1]? = some 0 ∧ ¬ Clean s := by
  refine ⟨_, rfl, rfl, rfl, rfl, fun hclean => ?_⟩
  have := hclean 1 .settingUp rfl nofun 1 mem_cons_self
  cases this

end OpenWorkers.Security
