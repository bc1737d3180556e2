import OpenWorkers.Lib.Log
import OpenWorkers.Security.Terminations

/-!
# Whom a memory limit is blamed on

The isolate has one memory flag.  A turn that ends takes it, and so does the check after a
load.  `Attributed` says of every run where a hit is that was made in a turn: the turn goes on,
or its own request has taken the flag and keeps it until a limit ends it.

A set-up may hit the limit too, and it has no turn that ends.  If it goes on to its load, the
load takes the flag for it; if it returns before, the flag stays up and the next turn of the
isolate takes it, whoever has that turn.  `Blamed` says what follows when no set-up returns
early with the flag up.
-/

namespace OpenWorkers.Security

open List

variable {s s' : Isolate} {log : List MemoryEvent}

structure Attributed (s : Isolate) (log : List MemoryEvent) : Prop where
  held : Held s
  set : ∀ hit ∈ s.turn.memory, .set hit ∈ log
  /-- A hit that was made in a turn is pending while the turn goes on. -/
  pending : ∀ hit ∈ s.turn.memory, hit.during ≠ .setUp →
    ∃ pc : Pc, s.requests[hit.request]? = some pc ∧ pc.runs = some hit.during
  settled : ∀ hit, .set hit ∈ log → hit ∈ s.turn.memory ∨ ∃ r, .taken hit r ∈ log
  taken : ∀ hit r, .taken hit r ∈ log → hit.during ≠ .setUp → r = hit.request
  /-- What a request has taken it keeps until a limit ends it; `reset` drops what it takes. -/
  kept : ∀ hit r, .taken hit r ∈ log → hit.during ≠ .setUp → hit.during ≠ .reset →
    ∃ pc : Pc, s.requests[r]? = some pc ∧
      (hit ∈ pc.hit ∨ ∃ reason, pc = .ended (.error reason) ∧ IsLimit reason)
  loaded : ∀ (r : Nat) hit, s.requests[r]? = some (.loaded hit) → s.turn.memory = []

theorem attributed_init : Attributed machine.init [] where
  held := held_init
  set _ h := absurd h not_mem_nil
  pending _ h := absurd h not_mem_nil
  settled _ h := absurd h not_mem_nil
  taken _ _ h := absurd h not_mem_nil
  kept _ _ h := absurd h not_mem_nil
  loaded _ _ h := absurd (mem_of_getElem? h) not_mem_nil

/-- Without a turn, the lock is held for a set-up or for the check after a load. -/
theorem Pc.eq_of_locks {pc : Pc} (hlocks : pc.locks = true) (hturn : pc.turn = none) :
    pc = .settingUp ∨ ∃ hit, pc = .loaded hit := by
  cases pc <;> first | exact .inl rfl | exact .inr ⟨_, rfl⟩ | simp [locks, turn] at hlocks hturn

theorem Pc.hit_of_reset {pc : Pc} (h : pc.runs = some .reset) : pc.hit = [] := by
  cases pc <;> first | rfl | cases h

/-! ## Steps, whatever the set-ups do -/

/-- What a request goes on with: the hits it has taken, unless a limit has ended it. -/
def Keeps (q q' : Pc) : Prop :=
  (q.hit ⊆ q'.hit ∨ ∃ reason, q' = .ended (.error reason) ∧ IsLimit reason) ∧
    ((∃ reason, q = .ended (.error reason) ∧ IsLimit reason) → q' = q)

theorem Keeps.refl (q : Pc) : Keeps q q := ⟨.inl fun _ h => h, fun _ => rfl⟩

/-- Other requests are not touched by what one request does. -/
theorem keeps_set {requests : List Pc} {r : Nat} {pc pc' : Pc} (hpc : requests[r]? = some pc)
    (hkeeps : Keeps pc pc') (k : Nat) (q : Pc) (hk : requests[k]? = some q) :
    ∃ q' : Pc, (requests.set r pc')[k]? = some q' ∧ Keeps q q' := by
  rcases eq_or_ne r k with rfl | hne
  · rw [hpc] at hk
    cases hk
    exact ⟨pc', getElem?_set_self (List.getElem?_eq_some_iff.mp hpc).1, hkeeps⟩
  · exact ⟨q, by rw [getElem?_set_ne hne, hk], .refl q⟩

/-- A step that leaves the flag alone, stops no JavaScript and keeps what the requests have
taken. -/
theorem Attributed.of_memory_eq (hs : Attributed s log) (hheld : Held s')
    (hmemory : s'.turn.memory = s.turn.memory)
    (hruns : ∀ (k : Nat) (q : Pc) during, s.requests[k]? = some q → q.runs = some during →
      during ≠ .setUp → s'.requests[k]? = some q)
    (hkeeps : ∀ (k : Nat) q, s.requests[k]? = some q →
      ∃ q' : Pc, s'.requests[k]? = some q' ∧ Keeps q q')
    (hloaded : ∀ (k : Nat) hit, s'.requests[k]? = some (.loaded hit) →
      s.requests[k]? = some (.loaded hit)) : Attributed s' log := by
  refine ⟨hheld, ?_, ?_, ?_, hs.taken, ?_, ?_⟩
  · rw [hmemory]
    exact hs.set
  · rw [hmemory]
    intro hit hmem hduring
    obtain ⟨q, hq, hrun⟩ := hs.pending hit hmem hduring
    exact ⟨q, hruns _ q _ hq hrun hduring, hrun⟩
  · rw [hmemory]
    exact hs.settled
  · intro hit k hmem hsetUp hreset
    obtain ⟨q, hq, hkept⟩ := hs.kept hit k hmem hsetUp hreset
    obtain ⟨q', hq', hstays, hend⟩ := hkeeps k q hq
    refine ⟨q', hq', ?_⟩
    rcases hkept with hhit | hended
    · exact hstays.imp_left fun hsub => hsub hhit
    · rw [hend hended]
      exact .inr hended
  · rw [hmemory]
    exact fun k hit hk => hs.loaded k hit (hloaded k hit hk)

section Steps

variable {r : Nat} {pc pc' : Pc} {id : RequestId}

/-- A request without a turn goes on: what it has taken stays, or a limit ends it. -/
theorem attributed_set (hs : Attributed s log) (hheld : Held s')
    (hpc : s.requests[r]? = some pc) (hturn : pc.turn = none) (hkeeps : Keeps pc pc')
    (hloaded : ∀ hit, pc' ≠ .loaded hit) (hrequests : s'.requests = s.requests.set r pc')
    (hmemory : s'.turn.memory = s.turn.memory) : Attributed s' log := by
  refine hs.of_memory_eq hheld hmemory ?_ ?_ ?_
  · intro k q during hk hrun hduring
    have hne : r ≠ k := by
      rintro rfl
      rw [hpc] at hk
      cases hk
      rcases Pc.eq_settingUp_or_turn hrun with rfl | ⟨id, heq⟩
      · cases hrun
        exact hduring rfl
      · rw [hturn] at heq
        cases heq
    rw [hrequests, getElem?_set_ne hne, hk]
  · rw [hrequests]
    exact keeps_set hpc hkeeps
  · intro k hit hk
    rcases of_getElem?_set (hrequests ▸ hk) with ⟨-, heq⟩ | ⟨-, hk⟩
    · exact absurd heq.symm (hloaded hit)
    · exact hk

theorem attributed_arrives {warm : Bool} (hs : Attributed s log) :
    Attributed { s with requests := s.requests ++ [.arrived warm] } log := by
  have hget : ∀ (k : Nat) (q : Pc), s.requests[k]? = some q →
      (s.requests ++ [.arrived warm])[k]? = some q := by
    intro k q hk
    rw [getElem?_append_left (List.getElem?_eq_some_iff.mp hk).1, hk]
  refine hs.of_memory_eq (held_arrives hs.held) rfl (fun k q _ hk _ _ => hget k q hk) ?_ ?_
  · exact fun k q hk => ⟨q, hget k q hk, .refl q⟩
  · intro k hit hk
    rcases of_getElem?_concat hk with ⟨-, heq⟩ | hk
    · cases heq
    · exact hk

theorem attributed_ends (hs : Attributed s log) (hheld : Held s')
    (hpc : s.requests[r]? = some pc) (hturn : pc.turn = some id)
    (hhit : pc'.hit = pc.hit ++ s.turn.memory ∨ pc.runs = some .reset ∧ pc'.hit = [])
    (hrequests : s'.requests = s.requests.set r pc') (heq : s'.turn = s.turn.endTurn) :
    Attributed s' (log ++ s.turn.memory.map (.taken · r)) := by
  have hempty : s'.turn.memory = [] := by
    rw [heq]
    rfl
  -- Whoever made a pending hit in a turn has the lock, and that is the request of this turn.
  have hown : ∀ hit ∈ s.turn.memory, hit.during ≠ .setUp →
      r = hit.request ∧ pc.runs = some hit.during := by
    intro hit hmem hduring
    obtain ⟨q, hq, hrun⟩ := hs.pending hit hmem hduring
    have hr := hs.held.eq_of_locks hq hpc (Pc.locks_of_runs hrun) (Pc.locks_of_turn hturn)
    refine ⟨hr, ?_⟩
    rw [← hr, hpc] at hq
    cases hq
    exact hrun
  have hself : s'.requests[r]? = some pc' := by
    rw [hrequests, getElem?_set_self (List.getElem?_eq_some_iff.mp hpc).1]
  have hlog : ∀ {hit k}, .taken hit k ∈ log ++ s.turn.memory.map (MemoryEvent.taken · r) ↔
      .taken hit k ∈ log ∨ hit ∈ s.turn.memory ∧ k = r := by
    intro hit k
    simp [eq_comm]
  refine ⟨hheld, ?_, ?_, ?_, ?_, ?_, fun _ _ _ => hempty⟩
  · rw [hempty]
    exact fun _ h => absurd h not_mem_nil
  · rw [hempty]
    exact fun _ h => absurd h not_mem_nil
  · intro hit hset
    have hset : .set hit ∈ log := by simpa using hset
    rcases hs.settled hit hset with hmem | ⟨k, hmem⟩
    · exact .inr ⟨r, hlog.mpr (.inr ⟨hmem, rfl⟩)⟩
    · exact .inr ⟨k, hlog.mpr (.inl hmem)⟩
  · intro hit k hmem hduring
    rcases hlog.mp hmem with hold | ⟨hnew, rfl⟩
    · exact hs.taken hit k hold hduring
    · exact (hown hit hnew hduring).1
  · intro hit k hmem hsetUp hreset
    rcases hlog.mp hmem with hold | ⟨hnew, rfl⟩
    · obtain ⟨q, hq, hkept⟩ := hs.kept hit k hold hsetUp hreset
      rcases eq_or_ne r k with rfl | hne
      · rw [hpc] at hq
        cases hq
        refine ⟨pc', hself, .inl ?_⟩
        rcases hkept with hkept | ⟨reason, rfl, -⟩
        · rcases hhit with hhit | ⟨hrun, -⟩
          · rw [hhit]
            exact mem_append_left _ hkept
          · rw [Pc.hit_of_reset hrun] at hkept
            cases hkept
        · cases hturn
      · exact ⟨q, by rw [hrequests, getElem?_set_ne hne, hq], hkept⟩
    · refine ⟨pc', hself, .inl ?_⟩
      rcases hhit with hhit | ⟨hrun, -⟩
      · rw [hhit]
        exact mem_append_right _ hnew
      · have := (hown hit hnew hsetUp).2
        rw [hrun] at this
        exact absurd (Option.some.inj this).symm hreset

theorem attributed_hits {during : During} (hs : Attributed s log) (hheld : Held s')
    (hpc : s.requests[r]? = some pc) (hruns : pc.runs = some during)
    (hrequests : s'.requests = s.requests)
    (hmemory : s'.turn.memory = s.turn.memory ++ [⟨r, during⟩]) :
    Attributed s' (log ++ [.set ⟨r, during⟩]) := by
  have htaken : ∀ {hit k}, .taken hit k ∈ log ++ [MemoryEvent.set ⟨r, during⟩] →
      .taken hit k ∈ log := by
    intro hit k hmem
    simpa using hmem
  refine ⟨hheld, ?_, ?_, ?_, ?_, ?_, ?_⟩
  · rw [hmemory]
    intro hit hmem
    rcases mem_append.mp hmem with hmem | hmem
    · exact mem_append_left _ (hs.set hit hmem)
    · rw [mem_singleton.mp hmem]
      exact mem_append_right _ mem_cons_self
  · rw [hmemory, hrequests]
    intro hit hmem hduring
    rcases mem_append.mp hmem with hmem | hmem
    · exact hs.pending hit hmem hduring
    · rw [mem_singleton.mp hmem]
      exact ⟨pc, hpc, hruns⟩
  · intro hit hset
    rw [hmemory]
    rcases mem_append.mp hset with hset | hset
    · rcases hs.settled hit hset with hmem | ⟨k, hmem⟩
      · exact .inl (mem_append_left _ hmem)
      · exact .inr ⟨k, mem_append_left _ hmem⟩
    · cases mem_singleton.mp hset
      exact .inl (mem_append_right _ mem_cons_self)
  · exact fun hit k hmem => hs.taken hit k (htaken hmem)
  · rw [hrequests]
    exact fun hit k hmem => hs.kept hit k (htaken hmem)
  · rw [hrequests]
    intro k hit hk
    cases hs.held.eq_of_locks hk hpc rfl (Pc.locks_of_runs hruns)
    rw [hk] at hpc
    cases hpc
    cases hruns

end Steps

/-- Where the lock is given up without a turn, the flag is not taken. -/
theorem Attributed.not_taken {r : Nat} {pc : Pc} {op : Op} (hs : Attributed s log)
    (hpc : s.requests[r]? = some pc) (hturn : pc.turn = none)
    (hfails : pc = .settingUp → ∃ failure, op = .failSetUp r failure)
    (htaken : s'.turn.memory = s.turn.memory ∧ observe s op = [] ∨ pc.locks = true ∧
      s'.turn.memory = [] ∧ observe s op = s.turn.memory.map (.taken · r)) :
    s'.turn.memory = s.turn.memory ∧ observe s op = [] := by
  rcases htaken with htaken | ⟨hlocks, hmemory, hseen⟩
  · exact htaken
  · have hnil : s.turn.memory = [] := by
      rcases Pc.eq_of_locks hlocks hturn with rfl | ⟨hit, rfl⟩
      · obtain ⟨failure, rfl⟩ := hfails rfl
        exact map_eq_nil_iff.mp hseen.symm
      · exact hs.loaded r hit hpc
    rw [hseen, hmemory, hnil]
    exact ⟨rfl, rfl⟩

theorem attributed_step (s : Isolate) (log : List MemoryEvent) (op : Op) (s' : Isolate)
    (hs : Attributed s log) (hstep : step s op = some s') :
    Attributed s' (log ++ observe s op) := by
  have hheld := held_step s op s' hs.held hstep
  cases moved_step hstep with
  | arrives warm hop heq hseen =>
      rw [hseen, append_nil, heq]
      exact attributed_arrives hs
  | setsUp r hop hlock hpc heq hseen =>
      rw [hseen, append_nil]
      rw [heq] at hheld ⊢
      refine attributed_set hs hheld hpc rfl ⟨.inl (nil_subset _), ?_⟩ ?_ rfl rfl
      · rintro ⟨reason, heq, -⟩
        cases heq
      · rintro hit ⟨⟩
  | begins r pc pc' id hpc hended hturn hturn' hlocks hhit hid hlock hrequests heq hseen =>
      rw [hseen, append_nil]
      refine attributed_set hs hheld hpc hturn ⟨.inl ?_, ?_⟩ ?_ hrequests ?_
      · rw [hhit]
        exact fun _ h => h
      · rintro ⟨reason, heq, -⟩
        exact absurd heq (hended _)
      · rintro hit rfl
        cases hturn'
      · rw [heq]
        rfl
  | ends r pc pc' id hpc hturn hturn' hruns hhit hended hid hrequests howners hlock heq
      hseen =>
      rw [hseen]
      exact attributed_ends hs hheld hpc hturn hhit hrequests heq
  | goesOn r pc pc' hpc hended hturn hturn' hlocks hlimit hmemory hhit hid howners hrequests hlock
      hholder hraised htaken hfails =>
      obtain ⟨hsame, hseen⟩ := hs.not_taken hpc hturn hfails htaken
      rw [hseen, append_nil]
      refine attributed_set hs hheld hpc hturn ⟨?_, ?_⟩ ?_ hrequests hsame
      · by_cases hnil : pc.hit = []
        · exact .inl (by rw [hnil]; exact nil_subset _)
        · exact .inr (hlimit hnil)
      · rintro ⟨reason, heq, -⟩
        exact absurd heq (hended _)
      · rintro hit rfl
        cases hlocks
  | terminates id hid heq hseen =>
      rw [hseen, append_nil]
      have hmemory : s'.turn.memory = s.turn.memory := by
        rw [heq]
        simp only [Turn.terminate]
        split <;> rfl
      have hrequests : s'.requests = s.requests := by rw [heq]
      refine hs.of_memory_eq hheld hmemory ?_ ?_ ?_ <;> rw [hrequests]
      · exact fun k q _ hk _ _ => hk
      · exact fun k q hk => ⟨q, hk, .refl q⟩
      · exact fun k hit hk => hk
  | hits r pc during hpc hruns heq hseen =>
      rw [hseen]
      rcases heq with rfl | rfl
      · exact attributed_hits hs hheld hpc hruns rfl rfl
      · exact attributed_hits hs hheld hpc hruns rfl rfl

/-! ## No early return with the flag up -/

/-- A set-up returns early only with the memory flag down. -/
def MemoryGuard (s : Isolate) : Op → Prop
  | .failSetUp _ _ => s.turn.memory = []
  | _ => True

instance (s : Isolate) (op : Op) : Decidable (MemoryGuard s op) := by
  apply @Op.casesOn _ op <;> intros <;> dsimp only [MemoryGuard] <;> infer_instance

/-- The flag is down when nobody has the lock, and what has raised it is the request that has
the lock. -/
structure Blamed (s : Isolate) (log : List MemoryEvent) : Prop where
  attributed : Attributed s log
  free : s.lock = none → s.turn.memory = []
  own : ∀ r, s.lock = some r → ∀ hit ∈ s.turn.memory, hit.request = r
  hit : ∀ (r : Nat) (pc : Pc), s.requests[r]? = some pc → ∀ hit ∈ pc.hit,
    hit.request = r ∧ .set hit ∈ log
  ended : ∀ r : Nat, s.requests[r]? = some (.ended (.error .memoryLimit)) →
    ∃ during, .set ⟨r, during⟩ ∈ log

theorem blamed_init : Blamed machine.init [] where
  attributed := attributed_init
  free _ := rfl
  own _ h := by cases h
  hit _ _ h := absurd (mem_of_getElem? h) not_mem_nil
  ended _ h := absurd (mem_of_getElem? h) not_mem_nil

/-- A hit, as what is noted of it. -/
theorem exists_set_of_mem {hit : Hit} {r : Nat} (hset : .set hit ∈ log) (hr : hit.request = r) :
    ∃ during, MemoryEvent.set ⟨r, during⟩ ∈ log := by
  subst hr
  exact ⟨hit.during, hset⟩

section Steps

variable {r : Nat} {pc pc' : Pc} {id : RequestId}

/-- A request goes on with hits of its own. -/
theorem blamed_set {events : List MemoryEvent} (hs : Blamed s log)
    (hattributed : Attributed s' (log ++ events)) (hpc : s.requests[r]? = some pc)
    (hrequests : s'.requests = s.requests.set r pc')
    (hfree : s'.lock = none → s'.turn.memory = [])
    (hown : ∀ k, s'.lock = some k → ∀ hit ∈ s'.turn.memory, hit.request = k)
    (hhit : ∀ hit ∈ pc'.hit, hit ∈ pc.hit ∨ hit.request = r ∧ .set hit ∈ log)
    (hended : pc' = .ended (.error .memoryLimit) → ∃ during, .set ⟨r, during⟩ ∈ log) :
    Blamed s' (log ++ events) := by
  refine ⟨hattributed, hfree, hown, ?_, ?_⟩
  · intro k q hk hit hmem
    rcases of_getElem?_set (hrequests ▸ hk) with ⟨rfl, rfl⟩ | ⟨-, hk⟩
    · rcases hhit hit hmem with hmem | ⟨hr, hset⟩
      · obtain ⟨hr, hset⟩ := hs.hit k pc hpc hit hmem
        exact ⟨hr, mem_append_left _ hset⟩
      · exact ⟨hr, mem_append_left _ hset⟩
    · obtain ⟨hr, hset⟩ := hs.hit k q hk hit hmem
      exact ⟨hr, mem_append_left _ hset⟩
  · intro k hk
    have hold : ∃ during, .set ⟨k, during⟩ ∈ log := by
      rcases of_getElem?_set (hrequests ▸ hk) with ⟨rfl, heq⟩ | ⟨-, hk⟩
      · exact hended heq.symm
      · exact hs.ended k hk
    obtain ⟨during, hset⟩ := hold
    exact ⟨during, mem_append_left _ hset⟩

theorem blamed_goesOn {op : Op} (hs : Blamed s log) (hguard : MemoryGuard s op)
    (hattributed : Attributed s' (log ++ observe s op)) (hpc : s.requests[r]? = some pc)
    (hturn : pc.turn = none)
    (hmemory : pc' = .ended (.error .memoryLimit) →
      pc.hit ≠ [] ∨ pc.locks = true ∧ s.turn.memory ≠ [])
    (hhit : pc'.hit = []) (hrequests : s'.requests = s.requests.set r pc')
    (hlock : s'.lock = if pc.locks then none else s.lock)
    (hsame : s'.turn.memory = s.turn.memory)
    (hfails : pc = .settingUp → ∃ failure, op = .failSetUp r failure) :
    Blamed s' (log ++ observe s op) := by
  have hlocked : pc.locks = true → s.lock = some r := (hs.attributed.held.lock r pc hpc).mp
  -- The lock is given up with the flag down: by the condition, or after a load.
  have hdown : pc.locks = true → s.turn.memory = [] := by
    intro hlocks
    rcases Pc.eq_of_locks hlocks hturn with rfl | ⟨hit, rfl⟩
    · obtain ⟨failure, rfl⟩ := hfails rfl
      exact hguard
    · exact hs.attributed.loaded r hit hpc
  refine blamed_set hs hattributed hpc hrequests ?_ ?_ ?_ ?_
  · rw [hlock, hsame]
    split
    · next hlocks => exact fun _ => hdown hlocks
    · exact hs.free
  · rw [hlock, hsame]
    split
    · exact nofun
    · exact hs.own
  · rw [hhit]
    exact fun _ h => absurd h not_mem_nil
  · intro hended
    rcases hmemory hended with hne | ⟨hlocks, hne⟩
    · obtain ⟨hit, hmem⟩ := exists_mem_of_ne_nil _ hne
      obtain ⟨hr, hset⟩ := hs.hit r pc hpc hit hmem
      exact exists_set_of_mem hset hr
    · exact absurd (hdown hlocks) hne

theorem blamed_hits {during : During} (hs : Blamed s log)
    (hattributed : Attributed s' (log ++ [.set ⟨r, during⟩])) (hpc : s.requests[r]? = some pc)
    (hruns : pc.runs = some during) (hrequests : s'.requests = s.requests)
    (hlock : s'.lock = s.lock) (hmemory : s'.turn.memory = s.turn.memory ++ [⟨r, during⟩]) :
    Blamed s' (log ++ [.set ⟨r, during⟩]) := by
  have hlocked := (hs.attributed.held.lock r pc hpc).mp (Pc.locks_of_runs hruns)
  refine ⟨hattributed, ?_, ?_, ?_, ?_⟩
  · intro hnone
    rw [hlock, hlocked] at hnone
    cases hnone
  · intro k hk hit hmem
    rw [hmemory] at hmem
    rcases mem_append.mp hmem with hmem | hmem
    · exact hs.own k (hlock ▸ hk) hit hmem
    · rw [hlock, hlocked] at hk
      rw [mem_singleton.mp hmem]
      exact Option.some.inj hk
  · rw [hrequests]
    intro k q hk hit hmem
    obtain ⟨hr, hset⟩ := hs.hit k q hk hit hmem
    exact ⟨hr, mem_append_left _ hset⟩
  · rw [hrequests]
    intro k hk
    obtain ⟨during, hset⟩ := hs.ended k hk
    exact ⟨during, mem_append_left _ hset⟩

end Steps

theorem blamed_step (s : Isolate) (log : List MemoryEvent) (op : Op) (s' : Isolate)
    (hs : Blamed s log) (hguard : MemoryGuard s op) (hstep : step s op = some s') :
    Blamed s' (log ++ observe s op) := by
  have hattributed := attributed_step s log op s' hs.attributed hstep
  cases moved_step hstep with
  | arrives warm hop heq hseen =>
      rw [hseen, append_nil] at hattributed ⊢
      subst heq
      refine ⟨hattributed, hs.free, hs.own, ?_, ?_⟩
      · intro k q hk
        rcases of_getElem?_concat hk with ⟨-, rfl⟩ | hk
        · exact fun _ h => absurd h not_mem_nil
        · exact hs.hit k q hk
      · intro k hk
        rcases of_getElem?_concat hk with ⟨-, heq⟩ | hk
        · cases heq
        · exact hs.ended k hk
  | setsUp r hop hlock hpc heq hseen =>
      subst heq
      refine blamed_set hs hattributed hpc rfl nofun ?_ ?_ nofun
      · intro k _ hit hmem
        have hmem : hit ∈ s.turn.memory := hmem
        rw [hs.free hlock] at hmem
        cases hmem
      · exact fun _ h => absurd h not_mem_nil
  | begins r pc pc' id hpc hended hturn hturn' hlocks hhit hid hlock hrequests heq hseen =>
      have hmemory : s'.turn.memory = s.turn.memory := by
        rw [heq]
        rfl
      have hlock' : s'.lock = some r :=
        ((held_step s op s' hs.attributed.held hstep).lock r pc' (by
          rw [hrequests, getElem?_set_self (List.getElem?_eq_some_iff.mp hpc).1])).mp hlocks
      refine blamed_set hs hattributed hpc hrequests ?_ ?_ ?_ ?_
      · intro hnone
        rw [hlock'] at hnone
        cases hnone
      · intro k hk
        rw [hmemory]
        rcases hlock with ⟨-, hsame⟩ | ⟨-, hnone, -⟩
        · exact hs.own k (hsame ▸ hk)
        · rw [hs.free hnone]
          exact fun _ h => absurd h not_mem_nil
      · rw [hhit]
        exact fun hit hmem => .inl hmem
      · rintro rfl
        cases hlocks
  | ends r pc pc' id hpc hturn hturn' hruns hhit hended hid hrequests howners hlock heq
      hseen =>
      have hempty : s'.turn.memory = [] := by
        rw [heq]
        rfl
      have hlocked := (hs.attributed.held.lock r pc hpc).mp (Pc.locks_of_turn hturn)
      refine blamed_set hs hattributed hpc hrequests (fun _ => hempty) ?_ ?_ (absurd · (hended _))
      · rw [hempty]
        exact fun _ _ _ h => absurd h not_mem_nil
      · intro hit hmem
        rcases hhit with hhit | ⟨-, hhit⟩ <;> rw [hhit] at hmem
        · rcases mem_append.mp hmem with hmem | hmem
          · exact .inl hmem
          · exact .inr ⟨hs.own r hlocked hit hmem, hs.attributed.set hit hmem⟩
        · cases hmem
  | goesOn r pc pc' hpc hended hturn hturn' hlocks hlimit hmemory hhit hid howners hrequests hlock
      hholder hraised htaken hfails =>
      obtain ⟨hsame, -⟩ := hs.attributed.not_taken hpc hturn hfails htaken
      exact blamed_goesOn hs hguard hattributed hpc hturn hmemory hhit hrequests hlock hsame hfails
  | terminates id hid heq hseen =>
      rw [hseen, append_nil] at hattributed ⊢
      have hmemory : s'.turn.memory = s.turn.memory := by
        rw [heq]
        simp only [Turn.terminate]
        split <;> rfl
      have hlock : s'.lock = s.lock := by rw [heq]
      have hrequests : s'.requests = s.requests := by rw [heq]
      refine ⟨hattributed, ?_, ?_, ?_, ?_⟩
      · rw [hmemory, hlock]
        exact hs.free
      · rw [hmemory, hlock]
        exact hs.own
      · rw [hrequests]
        exact hs.hit
      · rw [hrequests]
        exact hs.ended
  | hits r pc during hpc hruns heq hseen =>
      rw [hseen] at hattributed ⊢
      rcases heq with rfl | rfl
      · exact blamed_hits hs hattributed hpc hruns rfl rfl rfl
      · exact blamed_hits hs hattributed hpc hruns rfl rfl rfl

/-! ## Runs -/

/-- **Memory-limit attribution.**  In every run in which set-ups return early only with the
flag down, a request that ends with `memoryLimit` has hit a limit itself.  And in every run, a
hit that a request made in one of its turns is taken by no other request: it is pending while
that turn goes on, or the request has taken it, and unless that was its `reset` it still has
it or a limit has ended it. -/
theorem memory_limit_attribution (ops : List Op) (s : Isolate) (hrun : machine.run ops = some s) :
    (machine.Meets MemoryGuard machine.init ops →
      ∀ r : Nat, s.requests[r]? = some (.ended (.error .memoryLimit)) →
        ∃ during, .set ⟨r, during⟩ ∈ machine.log observe ops) ∧
    ∀ hit, .set hit ∈ machine.log observe ops → hit.during ≠ .setUp →
      (∀ r, .taken hit r ∈ machine.log observe ops → r = hit.request) ∧
      ((∃ pc : Pc, s.requests[hit.request]? = some pc ∧ pc.runs = some hit.during) ∨
        .taken hit hit.request ∈ machine.log observe ops ∧
          (hit.during ≠ .reset → ∃ pc : Pc, s.requests[hit.request]? = some pc ∧
            (hit ∈ pc.hit ∨ ∃ reason, pc = .ended (.error reason) ∧ IsLimit reason))) := by
  constructor
  · intro hmeets
    have hs : Blamed s (machine.log observe ops) :=
      Machine.invariant_log_of_meets blamed_init blamed_step hmeets hrun
    exact hs.ended
  · intro hit hset hduring
    have hs : Attributed s (machine.log observe ops) :=
      Machine.invariant_log attributed_init attributed_step hrun
    have hown : ∀ r, .taken hit r ∈ machine.log observe ops → r = hit.request :=
      fun r hmem => hs.taken hit r hmem hduring
    refine ⟨hown, ?_⟩
    rcases hs.settled hit hset with hmem | ⟨r, hmem⟩
    · exact .inl (hs.pending hit hmem hduring)
    · cases hown r hmem
      exact .inr ⟨hmem, hs.kept hit _ hmem hduring⟩

/-- A request that allocates too much in a turn of its event. -/
def guilty : List Op :=
  afterTurn ++ [.heapLimit 0, .endTurn 0, .check 0 false false false (.error "terminated")]

/-- The guilty request ends with the memory limit, and it has hit it itself. -/
theorem memory_limit_attribution_guilty : ∃ s, machine.run guilty = some s ∧
    s.requests[0]? = some (.ended (.error .memoryLimit)) ∧
    ∃ during, .set ⟨0, during⟩ ∈ machine.log observe guilty :=
  ⟨_, rfl, rfl, (memory_limit_attribution guilty _ rfl).1 (by decide) 0 rfl⟩

/-- Request 0 waits between two turns of its event while request 1 sets up its context, hits
the heap limit there, and returns early.  Request 0 takes the flag with its next turn and ends
with the memory limit, although no JavaScript of its own has hit one. -/
theorem early_return_blames_neighbour : ∃ s, machine.run (afterTurn ++
      [.endTurn 0, .arrive false, .setUp 1, .heapLimit 1, .failSetUp 1 .clear,
        .begin 0, .endTurn 0, .check 0 false false false (.ok ())]) = some s ∧
    s.requests = [.ended (.error .memoryLimit),
      .ended (.error (.initializationError "the reset function"))] ∧
    machine.log observe (afterTurn ++
      [.endTurn 0, .arrive false, .setUp 1, .heapLimit 1, .failSetUp 1 .clear,
        .begin 0, .endTurn 0, .check 0 false false false (.ok ())]) =
      [.set ⟨1, .setUp⟩, .taken ⟨1, .setUp⟩ 0] :=
  ⟨_, rfl, rfl, rfl⟩

end OpenWorkers.Security
