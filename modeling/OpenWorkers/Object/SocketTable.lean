import OpenWorkers.Lib.Erase
import OpenWorkers.Lib.InsertionMap
import OpenWorkers.Lib.Machine
import OpenWorkers.Object.Queue

/-!
# The socket table of a Durable Object

`sockets` of `src/js/durable_object.js`: the sockets that the object has accepted, by id.  `accept`,
`acceptWebSocket`, `close` and the events of the host change the table, the mode and the
`readyState` of a socket each in its own way.

A socket object is a position in the list of all that were made.  `acceptWebSocket` reads its tags
twice, before it sets the mode and before it sets the table, and an array may have getters, so it is
cut there: any other call may come in between, and the reading may throw.  An event looks its
socket up at once and goes on in a microtask.

`accepted` and `gone` of a socket are not in the code.  They say that `accept` took the socket, and
that the guest closed it or a close or error event for its id was delivered.
-/

namespace OpenWorkers.Object.SocketTable

open List Option

inductive Mode where
  | handlers
  | listeners
deriving DecidableEq, Repr

structure Socket where
  id : WebSocketId
  mode : Option Mode
  /-- `readyState` is `OPEN`, otherwise it is `CLOSED`. -/
  isOpen : Bool
  accepted : Bool
  gone : Bool
deriving DecidableEq, Repr

/-- `objectSocket`. -/
def objectSocket (id : WebSocketId) (mode : Option Mode) : Socket := ⟨id, mode, true, false, false⟩

inductive Kind where
  | message
  | close
  | error
deriving DecidableEq, Repr

/-- An event between the call of `socket` and its microtask. -/
structure Event where
  id : WebSocketId
  kind : Kind
  ws : Option Nat
deriving DecidableEq, Repr

structure State where
  sockets : List Socket
  table : InsertionMap WebSocketId Nat
  /-- The calls of `acceptWebSocket` that read their tags, the innermost first, and whether they
  have set the mode. -/
  accepting : List (Nat × Bool)
  events : List Event
  nextId : WebSocketId

/-- The sockets that the host has from an earlier instance.  All ids are made by one counter. -/
structure Restored where
  ids : List WebSocketId
  nextId : WebSocketId
  nodup : ids.Nodup
  below : ∀ id ∈ ids, id < nextId

inductive Action where
  /-- `new WebSocketPair()`, after others have taken ids. -/
  | pair (taken : Nat)
  | accept (w : Nat)
  | acceptWebSocket (w : Nat)
  | setMode
  | setTable
  /-- The reading of the tags throws. -/
  | abandon
  | send (w : Nat)
  /-- `close`, past its checks of code and reason. -/
  | close (w : Nat)
  /-- The host calls `socket`. -/
  | event (id : WebSocketId) (kind : Kind)
  | deliver (i : Nat)
deriving DecidableEq, Repr

namespace State

def put (s : State) (w : Nat) (x : Socket) : State :=
  { s with sockets := s.sockets.modify w fun _ => x }

/-- A close or error event for the id was delivered. -/
def lose (s : State) (id : WebSocketId) : State :=
  { s with sockets := s.sockets.map fun x => if x.id = id then { x with gone := true } else x }

/-- `pinned`. -/
def pinned (s : State) : Bool :=
  s.table.entries.any fun entry => s.sockets[entry.2]?.any fun x => x.mode = some .listeners

end State

def step (s : State) : Action → Option State
  | .pair taken =>
    some { s with
      sockets := s.sockets ++ [objectSocket (s.nextId + taken) none]
      nextId := s.nextId + taken + 1 }
  | .accept w =>
    (s.sockets[w]?).map fun x =>
      if x.mode ≠ none then s
      else { s.put w { x with mode := some .listeners, accepted := true } with
        table := s.table.set x.id w }
  | .acceptWebSocket w =>
    (s.sockets[w]?).map fun x =>
      if x.mode ≠ none then s else { s with accepting := (w, false) :: s.accepting }
  | .setMode =>
    match s.accepting with
    | (w, false) :: accepting =>
      (s.sockets[w]?).map fun x =>
        { s.put w { x with mode := some .handlers } with accepting := (w, true) :: accepting }
    | _ => none
  | .setTable =>
    match s.accepting with
    | (w, true) :: accepting =>
      (s.sockets[w]?).map fun x => { s with table := s.table.set x.id w, accepting }
    | _ => none
  | .abandon =>
    match s.accepting with
    | _ :: accepting => some { s with accepting }
    | [] => none
  | .send w => (s.sockets[w]?).map fun _ => s
  | .close w =>
    (s.sockets[w]?).map fun x =>
      if x.isOpen then
        { s.put w { x with isOpen := false, gone := true } with table := s.table.delete x.id }
      else s
  | .event id kind => some { s with events := s.events ++ [⟨id, kind, s.table.get? id⟩] }
  | .deliver i =>
    (s.events[i]?).bind fun e =>
      let s := { s with events := s.events.eraseIdx i }
      match e.kind, e.ws with
      | .message, _ => some s
      | _, none => some (s.lose e.id)
      | _, some w =>
        (s.sockets[w]?).map fun x =>
          { s.put w { x with isOpen := false } with table := s.table.delete e.id }.lose e.id

def init (r : Restored) : State where
  sockets := r.ids.map (objectSocket · (some .handlers))
  table := ⟨r.ids.zipIdx, by rw [zipIdx_map_fst]; exact r.nodup⟩
  accepting := []
  events := []
  nextId := r.nextId

def machine (r : Restored) : Machine State Action where
  init := init r
  step := step

/-- The steps, one constructor for each way a step can go. -/
inductive Step (s : State) : Action → State → Prop where
  | pair (taken : Nat) : Step s (.pair taken) { s with
      sockets := s.sockets ++ [objectSocket (s.nextId + taken) none]
      nextId := s.nextId + taken + 1 }
  /-- A call that throws, or that has nothing to do with the table. -/
  | same {a : Action} : Step s a s
  | accept {w : Nat} {x : Socket} (hx : s.sockets[w]? = some x) (hmode : x.mode = none) :
      Step s (.accept w) { s.put w { x with mode := some .listeners, accepted := true } with
        table := s.table.set x.id w }
  | acceptWebSocket {w : Nat} {x : Socket} (hx : s.sockets[w]? = some x) :
      Step s (.acceptWebSocket w) { s with accepting := (w, false) :: s.accepting }
  | setMode {w : Nat} {x : Socket} {accepting : List (Nat × Bool)}
      (haccepting : s.accepting = (w, false) :: accepting) (hx : s.sockets[w]? = some x) :
      Step s .setMode
        { s.put w { x with mode := some .handlers } with accepting := (w, true) :: accepting }
  | setTable {w : Nat} {x : Socket} {accepting : List (Nat × Bool)}
      (haccepting : s.accepting = (w, true) :: accepting) (hx : s.sockets[w]? = some x) :
      Step s .setTable { s with table := s.table.set x.id w, accepting }
  | abandon {p : Nat × Bool} {accepting : List (Nat × Bool)}
      (haccepting : s.accepting = p :: accepting) : Step s .abandon { s with accepting }
  | close {w : Nat} {x : Socket} (hx : s.sockets[w]? = some x) (hopen : x.isOpen = true) :
      Step s (.close w)
        { s.put w { x with isOpen := false, gone := true } with table := s.table.delete x.id }
  | event (id : WebSocketId) (kind : Kind) : Step s (.event id kind)
      { s with events := s.events ++ [⟨id, kind, s.table.get? id⟩] }
  | message {i : Nat} : Step s (.deliver i) { s with events := s.events.eraseIdx i }
  | missed {i : Nat} {e : Event} (he : s.events[i]? = some e) (hkind : e.kind ≠ .message)
      (hws : e.ws = none) :
      Step s (.deliver i) (State.lose { s with events := s.events.eraseIdx i } e.id)
  | lost {i w : Nat} {e : Event} {x : Socket} (he : s.events[i]? = some e)
      (hkind : e.kind ≠ .message) (hws : e.ws = some w) (hx : s.sockets[w]? = some x) :
      Step s (.deliver i) (State.lose { s.put w { x with isOpen := false } with
        table := s.table.delete e.id, events := s.events.eraseIdx i } e.id)

theorem of_step {s s' : State} {a : Action} (h : step s a = some s') : Step s a s' := by
  cases a with
  | pair taken =>
      cases h
      exact .pair taken
  | accept w =>
      obtain ⟨x, hx, rfl⟩ := map_eq_some_iff.mp h
      split
      · exact .same
      · next hmode => exact .accept hx (not_not.mp hmode)
  | acceptWebSocket w =>
      obtain ⟨x, hx, rfl⟩ := map_eq_some_iff.mp h
      split
      · exact .same
      · exact .acceptWebSocket hx
  | setMode =>
      simp only [step] at h
      split at h
      · next w accepting haccepting =>
          obtain ⟨x, hx, rfl⟩ := map_eq_some_iff.mp h
          exact .setMode haccepting hx
      · cases h
  | setTable =>
      simp only [step] at h
      split at h
      · next w accepting haccepting =>
          obtain ⟨x, hx, rfl⟩ := map_eq_some_iff.mp h
          exact .setTable haccepting hx
      · cases h
  | abandon =>
      simp only [step] at h
      split at h
      · next p accepting haccepting =>
          cases h
          exact .abandon haccepting
      · cases h
  | send w =>
      obtain ⟨x, hx, rfl⟩ := map_eq_some_iff.mp h
      exact .same
  | close w =>
      obtain ⟨x, hx, rfl⟩ := map_eq_some_iff.mp h
      split
      · next hopen => exact .close hx hopen
      · exact .same
  | event id kind =>
      cases h
      exact .event id kind
  | deliver i =>
      obtain ⟨e, he, h⟩ := bind_eq_some_iff.mp h
      simp only at h
      split at h
      · cases h
        exact .message
      · next hws hkind =>
          cases h
          exact .missed he hkind hws
      · next w hws hkind =>
          obtain ⟨x, hx, rfl⟩ := map_eq_some_iff.mp h
          exact .lost he hkind hws hx

/-! ## The table and the sockets -/

structure Inv (s : State) : Prop where
  unique : ∀ {v w : Nat} {x y : Socket}, s.sockets[v]? = some x → s.sockets[w]? = some y →
    x.id = y.id → v = w
  below : ∀ x ∈ s.sockets, x.id < s.nextId
  entry : ∀ {id : WebSocketId} {w : Nat}, s.table.get? id = some w →
    ∃ x, s.sockets[w]? = some x ∧ x.id = id ∧ x.isOpen = true ∧ x.mode ≠ none
  gone : ∀ x ∈ s.sockets, x.gone = true → x.isOpen = false
  accepted : ∀ x ∈ s.sockets, x.accepted = true ↔ x.mode = some .listeners
  /-- A socket that `accept` took stays in the table as long as it is open. -/
  listed : ∀ {w : Nat} {x : Socket}, s.sockets[w]? = some x → x.mode = some .listeners →
    x.isOpen = true → s.table.get? x.id = some w
  captured : ∀ e ∈ s.events, ∀ w ∈ e.ws, ∃ x, s.sockets[w]? = some x ∧ x.id = e.id
  accepting : ∀ p ∈ s.accepting, ∃ x, s.sockets[p.1]? = some x ∧
    (p.2 = true → x.mode = some .handlers)

variable {s s' : State} {a : Action} {w : Nat} {x y : Socket}

theorem inv_init (r : Restored) : Inv (init r) := by
  have hget {w : Nat} {x : Socket} (hx : (init r).sockets[w]? = some x) :
      ∃ id, r.ids[w]? = some id ∧ x = objectSocket id (some .handlers) := by
    rw [init, getElem?_map, map_eq_some_iff] at hx
    obtain ⟨id, hid, rfl⟩ := hx
    exact ⟨id, hid, rfl⟩
  have hmem {x : Socket} (hx : x ∈ (init r).sockets) :
      ∃ id ∈ r.ids, x = objectSocket id (some .handlers) := by
    obtain ⟨id, hid, rfl⟩ := List.mem_map.mp hx
    exact ⟨id, hid, rfl⟩
  refine ⟨?_, ?_, ?_, ?_, ?_, ?_, by rintro _ ⟨⟩, by rintro _ ⟨⟩⟩
  · intro v w x y hx hy heq
    obtain ⟨id, hid, rfl⟩ := hget hx
    obtain ⟨id', hid', rfl⟩ := hget hy
    have heq : id = id' := heq
    subst heq
    exact (getElem?_inj (List.getElem?_eq_some_iff.mp hid).1 r.nodup).mp (hid.trans hid'.symm)
  · intro x hx
    obtain ⟨id, hid, rfl⟩ := hmem hx
    exact r.below id hid
  · intro id w hentry
    have hid := mem_zipIdx_iff_getElem?.mp ((InsertionMap.get?_eq_some_iff w).mp hentry)
    refine ⟨objectSocket id (some .handlers), ?_, rfl, rfl, by rintro ⟨⟩⟩
    rw [init, getElem?_map, hid]
    rfl
  · intro x hx hgone
    obtain ⟨id, -, rfl⟩ := hmem hx
    cases hgone
  · intro x hx
    obtain ⟨id, -, rfl⟩ := hmem hx
    exact iff_of_false (by rintro ⟨⟩) (by rintro ⟨⟩)
  · intro w x hx hmode
    obtain ⟨id, -, rfl⟩ := hget hx
    cases hmode

namespace State

theorem getElem?_put_self (hx : s.sockets[w]? = some x) : (s.put w y).sockets[w]? = some y := by
  show (s.sockets.modify w fun _ => y)[w]? = some y
  rw [getElem?_modify_eq, hx]
  rfl

theorem getElem?_put_ne {v : Nat} (hne : v ≠ w) : (s.put w y).sockets[v]? = s.sockets[v]? :=
  getElem?_modify_ne _ _ (Ne.symm hne)

theorem of_getElem?_put {v : Nat} {z : Socket} (h : (s.put w y).sockets[v]? = some z) :
    v = w ∧ z = y ∨ v ≠ w ∧ s.sockets[v]? = some z := by
  rcases of_getElem?_modify h with ⟨rfl, x, -, rfl⟩ | h
  · exact .inl ⟨rfl, rfl⟩
  · exact .inr h

/-- A socket is where it was, or is the one that changed. -/
theorem exists_getElem?_put {v : Nat} {z : Socket} (hx : s.sockets[w]? = some x)
    (hz : s.sockets[v]? = some z) :
    ∃ z', (s.put w y).sockets[v]? = some z' ∧ (z' = z ∨ z = x ∧ z' = y) := by
  by_cases heq : v = w
  · subst heq
    cases hx.symm.trans hz
    exact ⟨y, getElem?_put_self hx, .inr ⟨rfl, rfl⟩⟩
  · exact ⟨z, (getElem?_put_ne heq).trans hz, .inl rfl⟩

theorem of_getElem?_lose {id : WebSocketId} {v : Nat} {z : Socket}
    (h : (s.lose id).sockets[v]? = some z) :
    ∃ x, s.sockets[v]? = some x ∧ z.id = x.id ∧ z.mode = x.mode ∧ z.isOpen = x.isOpen ∧
      z.accepted = x.accepted ∧ (z.gone = true → x.gone = true ∨ x.id = id) := by
  rw [lose, getElem?_map, map_eq_some_iff] at h
  obtain ⟨x, hx, rfl⟩ := h
  refine ⟨x, hx, ?_⟩
  split
  · next hid => exact ⟨rfl, rfl, rfl, rfl, fun _ => .inr hid⟩
  · exact ⟨rfl, rfl, rfl, rfl, .inl⟩

theorem exists_getElem?_lose {v : Nat} (hx : s.sockets[v]? = some x) (id : WebSocketId) :
    ∃ z, (s.lose id).sockets[v]? = some z ∧ z.id = x.id ∧ z.mode = x.mode ∧
      z.isOpen = x.isOpen := by
  refine ⟨if x.id = id then { x with gone := true } else x, ?_, ?_⟩
  · rw [lose, getElem?_map, hx]
    rfl
  · split
    · exact ⟨rfl, rfl, rfl⟩
    · exact ⟨rfl, rfl, rfl⟩

end State

namespace Inv

/-- One socket changes, with its entry. -/
theorem put (h : Inv s) (hx : s.sockets[w]? = some x) (hid : y.id = x.id)
    (hgone : y.gone = true → y.isOpen = false)
    (haccepted : y.accepted = true ↔ y.mode = some .listeners)
    (hhandlers : x.mode = some .handlers → y.mode = some .handlers)
    {table : InsertionMap WebSocketId Nat}
    (hothers : ∀ {id v}, id ≠ x.id → (table.get? id = some v ↔ s.table.get? id = some v))
    (hentry : ∀ v, table.get? x.id = some v → v = w ∧ y.isOpen = true ∧ y.mode ≠ none)
    (hlisted : y.mode = some .listeners → y.isOpen = true → table.get? x.id = some w) :
    Inv { s.put w y with table } where
  unique {v v'} {z z'} hz hz' heq := by
    rcases State.of_getElem?_put hz with ⟨rfl, rfl⟩ | ⟨-, hbefore⟩
    · rcases State.of_getElem?_put hz' with ⟨rfl, rfl⟩ | ⟨-, hbefore'⟩
      · rfl
      · exact h.unique hx hbefore' (hid.symm.trans heq)
    · rcases State.of_getElem?_put hz' with ⟨rfl, rfl⟩ | ⟨-, hbefore'⟩
      · exact h.unique hbefore hx (heq.trans hid)
      · exact h.unique hbefore hbefore' heq
  below := by
    refine forall_mem_modify h.below fun z hz => ?_
    show y.id < s.nextId
    rw [hid]
    exact h.below x (mem_of_getElem? hx)
  entry {id v} hget := by
    by_cases heq : id = x.id
    · subst heq
      obtain ⟨rfl, hopen, hmode⟩ := hentry v hget
      exact ⟨y, State.getElem?_put_self hx, hid, hopen, hmode⟩
    · obtain ⟨z, hz, hzid, hzopen⟩ := h.entry ((hothers heq).mp hget)
      have hne : v ≠ w := by
        rintro rfl
        cases hx.symm.trans hz
        exact heq hzid.symm
      exact ⟨z, (State.getElem?_put_ne hne).trans hz, hzid, hzopen⟩
  gone := forall_mem_modify h.gone fun _ _ => hgone
  accepted := forall_mem_modify h.accepted fun _ _ => haccepted
  listed {v z} hz hmode hopen := by
    rcases State.of_getElem?_put hz with ⟨rfl, rfl⟩ | ⟨hne, hz⟩
    · rw [hid]
      exact hlisted hmode hopen
    · have hidne : z.id ≠ x.id := fun heq => hne (h.unique hz hx heq)
      exact (hothers hidne).mpr (h.listed hz hmode hopen)
  captured e he v hv := by
    obtain ⟨z, hz, hzid⟩ := h.captured e he v hv
    obtain ⟨z', hz', rfl | ⟨rfl, rfl⟩⟩ := State.exists_getElem?_put (y := y) hx hz
    · exact ⟨z', hz', hzid⟩
    · exact ⟨z', hz', hid.trans hzid⟩
  accepting p hp := by
    obtain ⟨z, hz, hmode⟩ := h.accepting p hp
    obtain ⟨z', hz', rfl | ⟨rfl, rfl⟩⟩ := State.exists_getElem?_put (y := y) hx hz
    · exact ⟨z', hz', hmode⟩
    · exact ⟨z', hz', fun hset => hhandlers (hmode hset)⟩

/-- An event is over. -/
theorem eventDone (h : Inv s) (i : Nat) : Inv { s with events := s.events.eraseIdx i } :=
  { h with captured := fun e he => h.captured e (mem_of_mem_eraseIdx he) }

/-- A close or error event marks sockets that are closed. -/
theorem lose (h : Inv s) {id : WebSocketId}
    (hclosed : ∀ x ∈ s.sockets, x.id = id → x.isOpen = false) :
    Inv (s.lose id) := by
  refine ⟨fun hx hy heq => ?_, fun z hz => ?_, fun hget => ?_, fun z hz hgone => ?_, fun z hz => ?_,
    fun hx hmode hopen => ?_, fun e he v hv => ?_, fun p hp => ?_⟩
  · obtain ⟨x, hx, hxid, -⟩ := State.of_getElem?_lose hx
    obtain ⟨y, hy, hyid, -⟩ := State.of_getElem?_lose hy
    exact h.unique hx hy (hxid.symm.trans (heq.trans hyid))
  · obtain ⟨v, hv⟩ := mem_iff_getElem?.mp hz
    obtain ⟨x, hx, hid, -⟩ := State.of_getElem?_lose hv
    rw [hid]
    exact h.below x (mem_of_getElem? hx)
  · obtain ⟨x, hx, hid, hopen, hmode⟩ := h.entry hget
    obtain ⟨z, hz, hzid, hzmode, hzopen⟩ := State.exists_getElem?_lose hx id
    exact ⟨z, hz, hzid.trans hid, hzopen.trans hopen, hzmode ▸ hmode⟩
  · obtain ⟨v, hv⟩ := mem_iff_getElem?.mp hz
    obtain ⟨x, hx, -, -, hopen, -, hwas⟩ := State.of_getElem?_lose hv
    rw [hopen]
    rcases hwas hgone with hgone | hid
    · exact h.gone x (mem_of_getElem? hx) hgone
    · exact hclosed x (mem_of_getElem? hx) hid
  · obtain ⟨v, hv⟩ := mem_iff_getElem?.mp hz
    obtain ⟨x, hx, -, hmode, -, haccepted, -⟩ := State.of_getElem?_lose hv
    rw [haccepted, hmode]
    exact h.accepted x (mem_of_getElem? hx)
  · obtain ⟨x, hx, hid, hmode', hopen', -⟩ := State.of_getElem?_lose hx
    rw [hid]
    exact h.listed hx (hmode'.symm.trans hmode) (hopen'.symm.trans hopen)
  · obtain ⟨x, hx, hid⟩ := h.captured e he v hv
    obtain ⟨z, hz, hzid, -⟩ := State.exists_getElem?_lose hx id
    exact ⟨z, hz, hzid.trans hid⟩
  · obtain ⟨x, hx, hmode⟩ := h.accepting p hp
    obtain ⟨z, hz, -, hzmode, -⟩ := State.exists_getElem?_lose hx id
    exact ⟨z, hz, fun hset => hzmode.trans (hmode hset)⟩

end Inv

/-! ## What one step keeps -/

/-- A socket is open where it is accepted, and `accept` does not take it while `acceptWebSocket`
reads its tags; and a close or error event that finds no socket is not for one that is open. -/
def Proper (s : State) : Action → Prop
  | .accept w => ∀ x ∈ s.sockets[w]?, x.mode = none → x.isOpen = true
  | .setMode => ∀ p ∈ s.accepting.head?, ∀ x ∈ s.sockets[p.1]?, x.mode ≠ some .listeners
  | .setTable => ∀ p ∈ s.accepting.head?, ∀ x ∈ s.sockets[p.1]?, x.isOpen = true
  | .deliver i => ∀ e ∈ s.events[i]?, e.kind ≠ .message → e.ws = none →
      ∀ x ∈ s.sockets, x.id = e.id → x.isOpen = false
  | .pair _ | .acceptWebSocket _ | .abandon | .send _ | .close _ | .event _ _ => True

instance (s : State) (a : Action) : Decidable (Proper s a) := by
  cases a <;> dsimp only [Proper] <;> infer_instance

namespace Inv

theorem pair (h : Inv s) (taken : Nat) : Inv { s with
    sockets := s.sockets ++ [objectSocket (s.nextId + taken) none]
    nextId := s.nextId + taken + 1 } := by
  have hleft {v : Nat} {z : Socket} (hz : s.sockets[v]? = some z) :
      (s.sockets ++ [objectSocket (s.nextId + taken) none])[v]? = some z := by
    rw [getElem?_append_left (List.getElem?_eq_some_iff.mp hz).1, hz]
  -- The id of the new socket is above all others.
  have hnew {v : Nat} {z : Socket} (hz : s.sockets[v]? = some z) : z.id ≠ s.nextId + taken :=
    Nat.ne_of_lt (Nat.lt_add_right taken (h.below z (mem_of_getElem? hz)))
  refine ⟨fun hx hy heq => ?_, fun z hz => ?_, fun hget => ?_, fun z hz hgone => ?_, fun z hz => ?_,
    fun hx hmode hopen => ?_, fun e he v hv => ?_, fun p hp => ?_⟩
  · rcases of_getElem?_concat hx with ⟨rfl, rfl⟩ | hx
    · rcases of_getElem?_concat hy with ⟨rfl, rfl⟩ | hy
      · rfl
      · exact absurd heq.symm (hnew hy)
    · rcases of_getElem?_concat hy with ⟨rfl, rfl⟩ | hy
      · exact absurd heq (hnew hx)
      · exact h.unique hx hy heq
  · show z.id < s.nextId + taken + 1
    rcases mem_append.mp hz with hz | hz
    · exact Nat.lt_succ_of_lt (Nat.lt_add_right taken (h.below z hz))
    · cases mem_singleton.mp hz
      exact Nat.lt_succ_self _
  · obtain ⟨z, hz, hentry⟩ := h.entry hget
    exact ⟨z, hleft hz, hentry⟩
  · rcases mem_append.mp hz with hz | hz
    · exact h.gone z hz hgone
    · cases mem_singleton.mp hz
      cases hgone
  · rcases mem_append.mp hz with hz | hz
    · exact h.accepted z hz
    · cases mem_singleton.mp hz
      exact iff_of_false (by rintro ⟨⟩) (by rintro ⟨⟩)
  · rcases of_getElem?_concat hx with ⟨-, rfl⟩ | hx
    · cases hmode
    · exact h.listed hx hmode hopen
  · obtain ⟨z, hz, hid⟩ := h.captured e he v hv
    exact ⟨z, hleft hz, hid⟩
  · obtain ⟨z, hz, hmode⟩ := h.accepting p hp
    exact ⟨z, hleft hz, hmode⟩

theorem accept (h : Inv s) (hx : s.sockets[w]? = some x) (hmode : x.mode = none)
    (hopen : x.isOpen = true) :
    Inv { s.put w { x with mode := some .listeners, accepted := true } with
      table := s.table.set x.id w } := by
  refine h.put (y := { x with mode := some .listeners, accepted := true }) hx rfl
    (h.gone x (mem_of_getElem? hx)) (iff_of_true rfl rfl) ?_ ?_ ?_ ?_
  · rw [hmode]
    rintro ⟨⟩
  · intro id v hne
    rw [InsertionMap.get?_set, if_neg hne]
  · intro v hget
    rw [InsertionMap.get?_set, if_pos rfl] at hget
    exact ⟨(Option.some.inj hget).symm, hopen, by rintro ⟨⟩⟩
  · intro _ _
    rw [InsertionMap.get?_set, if_pos rfl]

/-- A socket that closes leaves the table. -/
theorem shut (h : Inv s) (hx : s.sockets[w]? = some x) (gone : Bool) :
    Inv { s.put w { x with isOpen := false, gone } with table := s.table.delete x.id } := by
  refine h.put (y := { x with isOpen := false, gone }) hx rfl (fun _ => rfl)
    (h.accepted x (mem_of_getElem? hx)) id ?_ ?_ ?_
  · intro id v hne
    rw [InsertionMap.get?_delete, if_neg hne]
  · intro v hget
    rw [InsertionMap.get?_delete, if_pos rfl] at hget
    cases hget
  · rintro - ⟨⟩

theorem setMode (h : Inv s) {accepting : List (Nat × Bool)}
    (haccepting : s.accepting = (w, false) :: accepting) (hx : s.sockets[w]? = some x)
    (hmode : x.mode ≠ some .listeners) :
    Inv { s.put w { x with mode := some .handlers } with accepting := (w, true) :: accepting } := by
  have hput : Inv (s.put w { x with mode := some .handlers }) := by
    refine h.put (y := { x with mode := some .handlers }) hx rfl
      (h.gone x (mem_of_getElem? hx)) ?_ (fun _ => rfl) (fun _ => Iff.rfl) ?_ (by rintro ⟨⟩)
    · exact iff_of_false (fun haccepted => hmode ((h.accepted x (mem_of_getElem? hx)).mp haccepted))
        (by rintro ⟨⟩)
    · intro v hget
      obtain ⟨z, hz, hid, hopen, -⟩ := h.entry hget
      have hvw : v = w := h.unique hz hx hid
      subst hvw
      cases hx.symm.trans hz
      exact ⟨rfl, hopen, by rintro ⟨⟩⟩
  refine { hput with accepting := fun p hp => ?_ }
  rcases mem_cons.mp hp with rfl | hp
  · exact ⟨_, State.getElem?_put_self hx, fun _ => rfl⟩
  · refine hput.accepting p ?_
    show p ∈ s.accepting
    rw [haccepting]
    exact mem_cons_of_mem _ hp

theorem setTable (h : Inv s) {accepting : List (Nat × Bool)}
    (haccepting : s.accepting = (w, true) :: accepting) (hx : s.sockets[w]? = some x)
    (hopen : x.isOpen = true) : Inv { s with table := s.table.set x.id w, accepting } := by
  have hmode : x.mode = some .handlers := by
    obtain ⟨z, hz, hset⟩ := h.accepting (w, true) (haccepting ▸ mem_cons_self)
    cases hx.symm.trans hz
    exact hset rfl
  refine { h with
    entry := fun {id v} hget => ?_
    listed := fun {v z} hz hlisteners hzopen => ?_
    accepting := fun p hp => h.accepting p (haccepting ▸ mem_cons_of_mem _ hp) }
  · rw [InsertionMap.get?_set] at hget
    split at hget
    · next hid =>
        cases hget
        exact ⟨x, hx, hid.symm, hopen, by rw [hmode]; rintro ⟨⟩⟩
    · exact h.entry hget
  · have hne : z.id ≠ x.id := by
      intro hid
      have hvw : v = w := h.unique hz hx hid
      subst hvw
      cases hx.symm.trans hz
      rw [hmode] at hlisteners
      cases hlisteners
    rw [InsertionMap.get?_set, if_neg hne]
    exact h.listed hz hlisteners hzopen

end Inv

theorem inv_step (s : State) (a : Action) (s' : State) (h : Inv s) (hG : Proper s a)
    (hstep : step s a = some s') : Inv s' := by
  cases of_step hstep with
  | pair taken => exact h.pair taken
  | same => exact h
  | accept hx hmode => exact h.accept hx hmode (hG _ hx hmode)
  | acceptWebSocket hx =>
      refine { h with accepting := fun p hp => ?_ }
      rcases mem_cons.mp hp with rfl | hp
      · exact ⟨_, hx, by rintro ⟨⟩⟩
      · exact h.accepting p hp
  | setMode haccepting hx => exact h.setMode haccepting hx (hG _ (by rw [haccepting]; rfl) _ hx)
  | setTable haccepting hx => exact h.setTable haccepting hx (hG _ (by rw [haccepting]; rfl) _ hx)
  | abandon haccepting =>
      exact { h with accepting := fun p hp => h.accepting p (haccepting ▸ mem_cons_of_mem _ hp) }
  | close hx hopen => exact h.shut hx true
  | event id kind =>
      refine { h with captured := fun e he w hw => ?_ }
      rcases mem_append.mp he with he | he
      · exact h.captured e he w hw
      · cases mem_singleton.mp he
        obtain ⟨x, hx, hid, -⟩ := h.entry hw
        exact ⟨x, hx, hid⟩
  | @message i => exact h.eventDone i
  | @missed i e he hkind hws => exact (h.eventDone i).lose (hG e he hkind hws)
  | @lost i w e x he hkind hws hx =>
      obtain ⟨z, hz, hid⟩ := h.captured e (mem_of_getElem? he) w hws
      cases hx.symm.trans hz
      have hshut : Inv
          { s.put w { x with isOpen := false } with table := s.table.delete e.id } := by
        rw [← hid]
        exact h.shut hx x.gone
      refine (hshut.eventDone i).lose fun y hy hyid => ?_
      obtain ⟨v, hv⟩ := mem_iff_getElem?.mp hy
      rcases State.of_getElem?_put hv with ⟨-, rfl⟩ | ⟨hne, hv⟩
      · rfl
      · exact absurd (h.unique hv hx (hyid.trans hid.symm)) hne

/-! ## Runs -/

theorem pinned_iff (h : Inv s) :
    s.pinned = true ↔ ∃ x ∈ s.sockets, x.accepted = true ∧ x.isOpen = true := by
  rw [State.pinned, List.any_eq_true]
  constructor
  · rintro ⟨⟨id, w⟩, hentry, hlisteners⟩
    obtain ⟨x, hx, -, hopen, -⟩ := h.entry ((InsertionMap.get?_eq_some_iff w).mpr hentry)
    have hmem := mem_of_getElem? hx
    rw [hx, any_some, decide_eq_true_iff] at hlisteners
    exact ⟨x, hmem, (h.accepted x hmem).mpr hlisteners, hopen⟩
  · rintro ⟨x, hmem, haccepted, hopen⟩
    obtain ⟨w, hx⟩ := mem_iff_getElem?.mp hmem
    have hlisteners := (h.accepted x hmem).mp haccepted
    have hentry := (InsertionMap.get?_eq_some_iff w).mp (h.listed hx hlisteners hopen)
    refine ⟨(x.id, w), hentry, ?_⟩
    rw [hx, any_some, decide_eq_true_iff]
    exact hlisteners

/-- In a run in which sockets are open where they are accepted, every socket of the table is open
and accepted, none that was closed or lost is in it, and the object is pinned exactly as long as a
socket that `accept` took is open. -/
theorem socket_table_holds_open_sockets (r : Restored) {as : List Action} {t : State}
    (hproper : (machine r).Meets Proper (machine r).init as) (hrun : (machine r).run as = some t) :
    (∀ id w, t.table.get? id = some w →
      ∃ x, t.sockets[w]? = some x ∧ x.isOpen = true ∧ x.mode ≠ none) ∧
    (∀ w x, t.sockets[w]? = some x → x.gone = true → ∀ id, t.table.get? id ≠ some w) ∧
    (t.pinned = true ↔ ∃ x ∈ t.sockets, x.accepted = true ∧ x.isOpen = true) := by
  have h := Machine.invariant_of_meets (inv_init r) inv_step hproper hrun
  refine ⟨fun id w hget => ?_, fun w x hx hgone id hget => ?_, pinned_iff h⟩
  · obtain ⟨x, hx, -, hopen⟩ := h.entry hget
    exact ⟨x, hx, hopen⟩
  · obtain ⟨y, hy, -, hopen, -⟩ := h.entry hget
    cases hx.symm.trans hy
    rw [h.gone x (mem_of_getElem? hx) hgone] at hopen
    cases hopen

/-- One socket of an earlier instance. -/
def restored : Restored := ⟨[3], 5, nodup_singleton 3, by decide⟩

/-- A socket for listeners is accepted and another one for handlers; the restored one closes, and
the guest closes the first. -/
def served : List Action :=
  [.pair 0, .pair 2, .accept 1, .acceptWebSocket 2, .setMode, .setTable, .send 1, .event 3 .close,
    .deliver 0, .close 1]

theorem socket_table_holds_open_sockets_served :
    ∃ t, (machine restored).run served = some t ∧ t.table.entries = [(8, 2)] ∧
      (t.pinned = true ↔ ∃ x ∈ t.sockets, x.accepted = true ∧ x.isOpen = true) := by
  have hproper : (machine restored).Meets Proper (machine restored).init served := by decide
  exact ⟨_, rfl, rfl, (socket_table_holds_open_sockets restored hproper rfl).2.2⟩

/-- No socket of an earlier instance. -/
def first : Restored := ⟨[], 1, nodup_nil, by decide⟩

/-- A socket that the guest closes before it accepts it is in the table, closed, and pins the
object.  One that a close event came for before it was accepted is in the table.  One that the guest
closes while its tags are read is in the table, closed.  One that the guest accepts while its tags
are read does not pin the object, though it is open. -/
theorem socket_table_holds_a_closed_socket :
    (∃ t, (machine first).run [.pair 0, .close 0, .accept 0] = some t ∧
      t.table.get? 1 = some 0 ∧ t.sockets = [⟨1, some .listeners, false, true, true⟩] ∧
      t.pinned = true) ∧
    (∃ t, (machine first).run [.pair 0, .event 1 .close, .deliver 0, .accept 0] = some t ∧
      t.table.get? 1 = some 0 ∧ t.sockets = [⟨1, some .listeners, true, true, true⟩]) ∧
    (∃ t, (machine first).run [.pair 0, .acceptWebSocket 0, .close 0, .setMode, .setTable] =
        some t ∧
      t.table.get? 1 = some 0 ∧ t.sockets = [⟨1, some .handlers, false, false, true⟩]) ∧
    ∃ t, (machine first).run [.pair 0, .acceptWebSocket 0, .accept 0, .setMode, .setTable] =
        some t ∧
      t.pinned = false ∧ t.sockets = [⟨1, some .handlers, true, true, false⟩] :=
  ⟨⟨_, rfl, rfl, rfl, rfl⟩, ⟨_, rfl, rfl, rfl⟩, ⟨_, rfl, rfl, rfl⟩, ⟨_, rfl, rfl, rfl⟩⟩

end OpenWorkers.Object.SocketTable
