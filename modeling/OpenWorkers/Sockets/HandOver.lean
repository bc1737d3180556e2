import OpenWorkers.Sockets.System

/-!
# The socket of an upgrade

The upgrade of a request goes to the pair or the relay that its response names.  The loop forgets
the pairs of a request when the next one begins, and the relays when a response is read.  A relay
that arrives after the response, or from a call of an earlier request, is still there when the
next request begins, and a later response can name it.
-/

namespace OpenWorkers.Sockets.HandOver

open List Option Object Scheduler Machine

/-- The socket that an effect gives the upgrade to. -/
def attaches : Effect → Option WebSocketId
  | .command id .attach | .spawn (.forward id) => some id
  | _ => none

/-- The loop has a sender of the socket that an upgrade or a command can use. -/
def Occupied (l : EventLoop) (id : WebSocketId) : Prop :=
  id ∈ l.relays ∨ id ∈ l.pairs.getD [] ∨ id ∈ l.wsCommands

instance (l : EventLoop) (id : WebSocketId) : Decidable (Occupied l id) :=
  inferInstanceAs (Decidable (id ∈ l.relays ∨ id ∈ l.pairs.getD [] ∨ id ∈ l.wsCommands))

/-- No pair and no relay of another request than the one under way has a sender. -/
def Scoped (s : State) : Prop :=
  ∀ p ∈ s.created, Occupied s.loop p.1 → p.2 = s.loop.scope

def beginsRequest : SchedulerMessage → Bool
  | .beginRequest _ => true
  | _ => false

/-- A request begins with no relay left, and a relay is handed over in the request of its
call. -/
def Guard (s : State) : Op → Prop
  | .handle _ => s.toScheduler.head?.any beginsRequest = true → s.loop.relays = []
  | .relay k => ∀ p ∈ s.bindings[k]?, p.1 = s.loop.scope
  | _ => True

instance (s : State) (op : Op) : Decidable (Guard s op) := by
  apply @Op.casesOn _ op <;> intros <;> dsimp only [Guard] <;> infer_instance

/-! ## What is seen of a run -/

/-- An upgrade: the request it is the upgrade of, the socket its response names, and the sockets
it was given to. -/
structure Upgraded where
  scope : Scope
  named : Option WebSocketId
  attached : List WebSocketId
deriving DecidableEq, Repr

def observe (s : State) : Op → List Upgraded
  | .handle alive =>
    match s.toScheduler with
    | message :: _ =>
      let attached := (s.loop.handle alive s.handled message).2.filterMap attaches
      match message with
      | .webSocketUpgrade named => [⟨s.loop.scope, named, attached⟩]
      | .objectUpgrade id => [⟨s.loop.scope, some id, attached⟩]
      | _ => []
    | [] => []
  | _ => []

/-! ## What the loop does to its tables -/

section Loop

variable {l l' : EventLoop} {message : SchedulerMessage}

theorem beginsRequest_eq_false (h : ∀ abort, message ≠ .beginRequest abort) :
    beginsRequest message = false := by
  cases message
  case beginRequest abort => exact absurd rfl (h abort)
  all_goals rfl

theorem handle_scope (hl : l.Becomes message l') (h : beginsRequest message = false) :
    l'.scope = l.scope := by
  cases hl with
  | beginRequest => cases h
  | _ => rfl

theorem scope_le_handle (hl : l.Becomes message l') : l.scope ≤ l'.scope := by
  cases hl with
  | beginRequest => exact Nat.le_succ _
  | _ => exact Nat.le_refl _

theorem handle_relays (hl : l.Becomes message l') : l'.relays ⊆ l.relays := by
  cases hl with
  | relay => exact erase_subset
  | upgrade => exact nil_subset _
  | _ => exact List.Subset.refl _

theorem makes_of_makesPair {id : WebSocketId} (h : makesPair l message = some id) :
    makes message = some id := by
  cases message
  case webSocketPair id' =>
    obtain ⟨_, _, hid⟩ := map_eq_some_iff.mp h
    rw [← hid]
    rfl
  all_goals cases h

theorem handle_pairs {id : WebSocketId} (hl : l.Becomes message l') (h : id ∈ l'.pairs.getD []) :
    beginsRequest message = false ∧ (id ∈ l.pairs.getD [] ∨ makesPair l message = some id) := by
  cases hl with
  | same hbegin => exact ⟨beginsRequest_eq_false hbegin, .inl h⟩
  | queue hbegin => exact ⟨beginsRequest_eq_false hbegin, .inl h⟩
  | pair hpairs =>
      rw [getD_some] at h
      rw [hpairs, getD_some, makesPair, hpairs]
      rcases mem_cons.mp h with rfl | h
      · exact ⟨rfl, .inr rfl⟩
      · exact ⟨rfl, .inl (mem_filter.mp h).1⟩
  | upgrade => cases h
  | beginRequest => cases h
  | _ => exact ⟨rfl, .inl h⟩

theorem handle_wsCommands {id : WebSocketId} (hl : l.Becomes message l')
    (h : id ∈ l'.wsCommands) : id ∈ l.wsCommands ∨ makes message = some id := by
  cases hl with
  | pair | connect =>
      rcases mem_cons.mp h with rfl | h
      · exact .inr rfl
      · exact .inl (mem_filter.mp h).1
  | upgrade | close => exact .inl (mem_filter.mp h).1
  | beginRequest => cases h
  | _ => exact .inl h

/-- A socket gets a sender only from the message that makes it. -/
theorem handle_occupied {id : WebSocketId} (hl : l.Becomes message l') (h : Occupied l' id) :
    Occupied l id ∨ makes message = some id := by
  rcases h with h | h | h
  · exact .inl (.inl (handle_relays hl h))
  · rcases (handle_pairs hl h).2 with h | h
    · exact .inl (.inr (.inl h))
    · exact .inr (makes_of_makesPair h)
  · rcases handle_wsCommands hl h with h | h
    · exact .inl (.inr (.inr h))
    · exact .inr h

/-- An upgrade goes to the socket it names, and only to a pair or a relay. -/
theorem upgrade_attaches (named : Option WebSocketId) :
    (l.upgrade named).2.filterMap attaches =
      (named.filter fun id =>
        (id ∈ l.pairs.getD [] ∧ id ∈ l.wsCommands) ∨ id ∈ l.relays).toList := by
  have hunused : ∀ unused : List WebSocketId,
      (unused.map Effect.hangUp).filterMap attaches = [] := by
    intro unused
    rw [filterMap_map, filterMap_eq_nil_iff]
    exact fun _ _ => rfl
  unfold EventLoop.upgrade
  dsimp only
  rw [filterMap_append, hunused, append_nil]
  cases named with
  | none => rfl
  | some id =>
      rw [filter_some]
      dsimp only
      split
      · next h => simp [h, attaches]
      · next hpair =>
        split
        · next h => simp [h, attaches]
        · next h => simp [hpair, h]

/-- A request to a binding belongs to the request that is under way. -/
theorem handle_bindings {alive : Bool} {n : Nat} {effect : Effect}
    (heffect : effect ∈ (l.handle alive n message).2) {p : Scope × Bool}
    (h : startsBinding effect = some p) : p.1 = l.scope := by
  cases EventLoop.does_of_mem_handle heffect with
  | spawn htask =>
      cases message <;> cases htask <;> cases h
      all_goals rfl
  | _ => cases h

end Loop

/-! ## The invariant -/

variable {s s' : State}

/-- Every sender of the loop is of a socket that is recorded, and ids are given once. -/
structure Known (s : State) : Prop where
  fresh : Fresh s.waiting (s.created.map Prod.fst) s.nextSocketId
  relay : ∀ id ∈ s.loop.relays, ∃ scope ≤ s.loop.scope, (id, scope) ∈ s.created
  pair : ∀ id ∈ s.loop.pairs.getD [], (id, s.loop.scope) ∈ s.created
  binding : ∀ p ∈ s.bindings, p.1 ≤ s.loop.scope

theorem known_init : Known machine.init where
  fresh := Fresh.nil 0
  relay _ h := absurd h not_mem_nil
  pair _ h := absurd h not_mem_nil
  binding _ h := absurd h not_mem_nil

/-- The request of a recorded socket is determined. -/
theorem Known.unique {id : WebSocketId} {scope scope' : Scope} (h : Known s)
    (hscope : (id, scope) ∈ s.created) (hscope' : (id, scope') ∈ s.created) : scope = scope' := by
  exact congrArg Prod.snd (inj_on_of_nodup_map h.fresh.taken_nodup hscope hscope' rfl)

/-- A socket that a message makes is not recorded yet. -/
theorem Known.not_created {id : WebSocketId} {scope : Scope} {message : SchedulerMessage}
    {rest : List SchedulerMessage} (h : Known s) (hqueue : s.toScheduler = message :: rest)
    (hmakes : makes message = some id) : (id, scope) ∉ s.created := by
  intro hmem
  refine h.fresh.not_taken ?_ (List.mem_map_of_mem hmem)
  rw [waiting_of_handle hqueue, hmakes]
  exact mem_cons_self

/-- A step that does not touch the loop, nor what is recorded. -/
theorem Known.of_eq (h : Known s) (hqueue : s'.waiting = s.waiting)
    (hcreated : s'.created = s.created)
    (hnext : s.nextSocketId ≤ s'.nextSocketId) (hloop : s'.loop = s.loop)
    (hbindings : ∀ p ∈ s'.bindings, p.1 ≤ s.loop.scope) : Known s' where
  fresh := by
    rw [hqueue, hcreated]
    exact h.fresh.mono hnext
  relay := by
    rw [hloop, hcreated]
    exact h.relay
  pair := by
    rw [hloop, hcreated]
    exact h.pair
  binding := by
    rw [hloop]
    exact hbindings

theorem makesPair_sublist {l : EventLoop} {message : SchedulerMessage} :
    (makesPair l message).toList.Sublist (makes message).toList := by
  cases h : makesPair l message with
  | none => exact nil_sublist _
  | some id =>
      rw [makes_of_makesPair h]

theorem known_handle {alive : Bool} {message : SchedulerMessage} {rest : List SchedulerMessage}
    (h : Known s) (hqueue : s.toScheduler = message :: rest) :
    Known (s.handle alive message rest) := by
  have hl := s.loop.becomes_handle alive s.handled message
  have hscope : s.loop.scope ≤ (s.handle alive message rest).loop.scope := scope_le_handle hl
  refine ⟨?_, ?_, ?_, ?_⟩
  · have hfresh := h.fresh
    rw [waiting_of_handle hqueue] at hfresh
    have hcreated : (s.handle alive message rest).created.map Prod.fst =
        s.created.map Prod.fst ++ (makesPair s.loop message).toList := by
      simp [State.handle, Function.comp_def]
    rw [hcreated]
    exact hfresh.take makesPair_sublist
  · intro id hmem
    obtain ⟨scope, hle, hcreated⟩ := h.relay id (handle_relays hl hmem)
    exact ⟨scope, Nat.le_trans hle hscope, mem_append_left _ hcreated⟩
  · intro id hmem
    obtain ⟨hbegin, hmem⟩ := handle_pairs hl hmem
    change (id, (s.loop.handle alive s.handled message).1.scope) ∈ s.created ++ _
    rw [handle_scope hl hbegin]
    rcases hmem with hmem | hmakes
    · exact mem_append_left _ (h.pair id hmem)
    · rw [hmakes]
      exact mem_append_right _ mem_cons_self
  · intro p hmem
    rcases mem_append.mp hmem with hmem | hmem
    · exact Nat.le_trans (h.binding p hmem) hscope
    · obtain ⟨effect, heffect, hstarts⟩ := mem_filterMap.mp hmem
      rw [handle_bindings heffect hstarts]
      exact hscope

theorem known_make {message : SchedulerMessage} (h : Known s)
    (hmakes : makes message = some s.nextSocketId) :
    Known { s with
      toScheduler := s.toScheduler ++ [message], nextSocketId := s.nextSocketId + 1 } := by
  refine ⟨?_, h.relay, h.pair, h.binding⟩
  rw [waiting_of_send rfl, hmakes]
  exact h.fresh.give

theorem known_relay {k : Nat} {scope : Scope} (h : Known s)
    (hbinding : s.bindings[k]? = some (scope, true)) :
    Known { s with
      bindings := s.bindings.eraseIdx k
      loop := { s.loop with relays := s.nextSocketId :: s.loop.relays }
      nextSocketId := s.nextSocketId + 1
      created := s.created ++ [(s.nextSocketId, scope)] } := by
  refine ⟨?_, ?_, ?_, ?_⟩
  · rw [map_append]
    exact h.fresh.add
  · intro id hmem
    rcases mem_cons.mp hmem with rfl | hmem
    · exact ⟨scope, h.binding _ (mem_of_getElem? hbinding),
        mem_append_right _ mem_cons_self⟩
    · obtain ⟨scope', hle, hcreated⟩ := h.relay id hmem
      exact ⟨scope', hle, mem_append_left _ hcreated⟩
  · exact fun id hmem => mem_append_left _ (h.pair id hmem)
  · exact fun p hmem => h.binding p (mem_of_mem_eraseIdx hmem)

theorem known_step (s : State) (op : Op) (s' : State) (h : Known s)
    (hstep : machine.step s op = some s') : Known s' := by
  cases moved_step hstep with
  | send hsendable =>
      refine h.of_eq ?_ rfl (Nat.le_refl _) rfl h.binding
      rw [waiting_of_send rfl, makes_of_sendable hsendable]
      exact append_nil _
  | pair => exact known_make h rfl
  | connect => exact known_make h rfl
  | closeUnaccepted =>
      refine h.of_eq ?_ rfl (Nat.le_refl _) rfl h.binding
      rw [waiting_of_send rfl]
      exact append_nil _
  | otherSocket => exact h.of_eq rfl rfl (Nat.le_succ _) rfl h.binding
  | handle hqueue => exact known_handle h hqueue
  | @answer k scope hbinding =>
      refine h.of_eq rfl rfl (Nat.le_refl _) rfl fun p hmem => ?_
      rcases mem_or_eq_of_mem_set hmem with hmem | rfl
      · exact h.binding p hmem
      · exact h.binding (scope, false) (mem_of_getElem? hbinding)
  | relay hbinding => exact known_relay h hbinding
  | touch => exact h.of_eq rfl rfl (Nat.le_refl _) rfl h.binding
  | poll => exact h.of_eq rfl rfl (Nat.le_refl _) rfl h.binding
  | cancel => exact h.of_eq rfl rfl (Nat.le_refl _) rfl h.binding
  | abortLoop => exact h.of_eq rfl rfl (Nat.le_refl _) rfl h.binding
  | cancelContext => exact h.of_eq rfl rfl (Nat.le_refl _) rfl h.binding

/-! ## The condition -/

theorem scoped_begin {alive : Bool} {abort : Option Nat} {rest : List SchedulerMessage}
    (h : Known s) : Scoped (s.handle alive (.beginRequest abort) rest) ↔ s.loop.relays = [] := by
  constructor
  · intro hscoped
    by_contra hne
    obtain ⟨id, hid⟩ := exists_mem_of_ne_nil _ hne
    obtain ⟨scope, hle, hcreated⟩ := h.relay id hid
    have heq : scope = s.loop.scope + 1 :=
      hscoped (id, scope) (mem_append_left _ hcreated) (.inl hid)
    rw [heq] at hle
    exact Nat.not_succ_le_self _ hle
  · intro hrelays p _ hoccupied
    rcases hoccupied with hmem | hmem | hmem
    · exact absurd (hrelays ▸ hmem : p.1 ∈ []) not_mem_nil
    · cases hmem
    · cases hmem

theorem scoped_handle {alive : Bool} {message : SchedulerMessage}
    {rest : List SchedulerMessage} (h : Known s) (hscoped : Scoped s)
    (hqueue : s.toScheduler = message :: rest) (hbegin : beginsRequest message = false) :
    Scoped (s.handle alive message rest) := by
  intro p hmem hoccupied
  have hl := s.loop.becomes_handle alive s.handled message
  change p.2 = (s.loop.handle alive s.handled message).1.scope
  rw [handle_scope hl hbegin]
  rcases mem_append.mp hmem with hmem | hmem
  · rcases handle_occupied hl hoccupied with hoccupied | hmakes
    · exact hscoped p hmem hoccupied
    · exact absurd hmem (h.not_created hqueue hmakes)
  · obtain ⟨id, -, rfl⟩ := List.mem_map.mp hmem
    rfl

theorem scoped_relay {k : Nat} {scope : Scope} (h : Known s) (hscoped : Scoped s) :
    Scoped { s with
      bindings := s.bindings.eraseIdx k
      loop := { s.loop with relays := s.nextSocketId :: s.loop.relays }
      nextSocketId := s.nextSocketId + 1
      created := s.created ++ [(s.nextSocketId, scope)] } ↔ scope = s.loop.scope := by
  constructor
  · intro hscoped
    exact hscoped (s.nextSocketId, scope) (mem_append_right _ mem_cons_self)
      (.inl mem_cons_self)
  · rintro rfl p hmem hoccupied
    rcases mem_append.mp hmem with hmem | hmem
    · refine hscoped p hmem ?_
      rcases hoccupied with hrelay | hoccupied
      · rcases mem_cons.mp hrelay with heq | hrelay
        · -- The id of the new relay is not recorded yet.
          exact absurd (heq ▸ List.mem_map_of_mem hmem) h.fresh.next_not_taken
        · exact .inl hrelay
      · exact .inr hoccupied
    · cases mem_singleton.mp hmem
      rfl

/-- The steps that keep the sockets in their request are those that meet the condition. -/
theorem scoped_step (s : State) (op : Op) (s' : State) (h : Known s) (hscoped : Scoped s)
    (hstep : machine.step s op = some s') : Scoped s' ↔ Guard s op := by
  cases moved_step hstep with
  | @handle alive message rest hqueue =>
      cases hbegin : beginsRequest message with
      | false =>
          refine iff_of_true (scoped_handle h hscoped hqueue hbegin) fun hany => ?_
          rw [hqueue, head?_cons, any_some, hbegin] at hany
          cases hany
      | true =>
          cases message <;> cases hbegin
          refine (scoped_begin h).trans ⟨fun hrelays _ => hrelays, fun hguard => hguard ?_⟩
          rw [hqueue]
          rfl
  | relay hbinding =>
      refine (scoped_relay h hscoped).trans ?_
      rw [Guard, hbinding]
      exact ⟨fun heq p hp => by cases hp; exact heq, fun hguard => hguard _ rfl⟩
  | touch _ htouched =>
      rcases htouched.cases_op with ⟨_, rfl⟩ | ⟨_, rfl⟩ | rfl <;> exact iff_of_true hscoped trivial
  | send => exact iff_of_true hscoped trivial
  | pair => exact iff_of_true hscoped trivial
  | connect => exact iff_of_true hscoped trivial
  | closeUnaccepted => exact iff_of_true hscoped trivial
  | otherSocket => exact iff_of_true hscoped trivial
  | answer => exact iff_of_true hscoped trivial
  | poll => exact iff_of_true hscoped trivial
  | cancel => exact iff_of_true hscoped trivial
  | abortLoop => exact iff_of_true hscoped trivial
  | cancelContext => exact iff_of_true hscoped trivial

/-! ## The upgrades -/

/-- An upgrade is given to nothing, or to the socket that the response names, which is then a
pair or a relay that the loop has. -/
theorem observe_upgraded {op : Op} {u : Upgraded} (hu : u ∈ observe s op) :
    u.scope = s.loop.scope ∧ (u.attached = [] ∨ ∃ id, u.named = some id ∧ u.attached = [id] ∧
      (id ∈ s.loop.relays ∨ id ∈ s.loop.pairs.getD [])) := by
  cases op with
  | handle alive =>
      simp only [observe] at hu
      split at hu
      · next message rest hqueue =>
        split at hu
        · next named =>
          cases mem_singleton.mp hu
          refine ⟨rfl, ?_⟩
          change (s.loop.upgrade named).2.filterMap attaches = [] ∨ ∃ id, named = some id ∧
            (s.loop.upgrade named).2.filterMap attaches = [id] ∧ _
          rw [upgrade_attaches]
          cases named with
          | none => exact .inl rfl
          | some id =>
              rw [filter_some]
              split
              · next hsome =>
                refine .inr ⟨id, rfl, rfl, ?_⟩
                exact (of_decide_eq_true hsome).elim (fun h => .inr h.1) .inl
              · exact .inl rfl
        · next id =>
          cases mem_singleton.mp hu
          refine ⟨rfl, ?_⟩
          simp only [EventLoop.handle]
          split
          · next hrelay => exact .inr ⟨id, rfl, rfl, .inl hrelay⟩
          · exact .inl rfl
        · cases hu
      · cases hu
  | send | pair | connect | closeUnaccepted | otherSocket | answer | relay | outcome | peer
  | vanish | poll | cancel | abortLoop | cancelContext => cases hu

theorem created_mono {s s' : State} {op : Op} (hstep : machine.step s op = some s') :
    s.created ⊆ s'.created := by
  cases moved_step hstep with
  | handle => exact subset_append_left _ _
  | relay => exact subset_append_left _ _
  | send | pair | connect | closeUnaccepted | otherSocket | answer | touch | poll | cancel
  | abortLoop | cancelContext => exact List.Subset.refl _

/-- An upgrade is given to one socket at most. -/
theorem attached_once {ops : List Op} (hrun : machine.run ops = some s) :
    ∀ u ∈ machine.log observe ops, u.attached.length ≤ 1 := by
  refine invariant_log
    (I := fun _ (log : List Upgraded) => ∀ u ∈ log, u.attached.length ≤ 1) nofun ?_ hrun
  intro s log op s' hlog _ u hu
  rcases mem_append.mp hu with hu | hu
  · exact hlog u hu
  · rcases (observe_upgraded hu).2 with hnone | ⟨id, -, hone, -⟩
    · rw [hnone]
      exact Nat.zero_le _
    · rw [hone]
      exact Nat.le_refl _

/-- What the runs that meet the condition keep. -/
structure Owned (s : State) (log : List Upgraded) : Prop where
  known : Known s
  inScope : Scoped s
  attached : ∀ u ∈ log, u.attached = [] ∨
    ∃ id, u.named = some id ∧ u.attached = [id] ∧ (id, u.scope) ∈ s.created

theorem owned_step (s : State) (log : List Upgraded) (op : Op) (s' : State) (h : Owned s log)
    (hguard : Guard s op) (hstep : machine.step s op = some s') :
    Owned s' (log ++ observe s op) := by
  refine ⟨known_step s op s' h.known hstep,
    (scoped_step s op s' h.known h.inScope hstep).mpr hguard, fun u hu => ?_⟩
  rcases mem_append.mp hu with hu | hu
  · rcases h.attached u hu with hnone | ⟨id, hnamed, hone, hcreated⟩
    · exact .inl hnone
    · exact .inr ⟨id, hnamed, hone, created_mono hstep hcreated⟩
  · obtain ⟨hscope, hnone | ⟨id, hnamed, hone, hsender⟩⟩ := observe_upgraded hu
    · exact .inl hnone
    · refine .inr ⟨id, hnamed, hone, created_mono hstep ?_⟩
      rw [hscope]
      rcases hsender with hrelay | hpair
      · obtain ⟨scope, -, hcreated⟩ := h.known.relay id hrelay
        have heq : scope = s.loop.scope := h.inScope (id, scope) hcreated (.inl hrelay)
        exact heq ▸ hcreated
      · exact h.known.pair id hpair

/-- **The hand-over of a socket.**  An upgrade is always given to one socket at most.  No sender of
an earlier request is ever left exactly in the runs in which each request begins with no relay
left and each relay is handed over in the request of its call; in these runs an upgrade is given
to a socket of its own request only, and one that names a socket of another request is given to
nothing. -/
theorem hand_over_stays_in_request (ops : List Op) (s : State)
    (hrun : machine.run ops = some s) :
    (∀ u ∈ machine.log observe ops, u.attached.length ≤ 1) ∧
    (machine.Always Scoped machine.init ops ↔ machine.Meets Guard machine.init ops) ∧
    (machine.Meets Guard machine.init ops → ∀ u ∈ machine.log observe ops,
      (∀ id ∈ u.attached, (id, u.scope) ∈ s.created) ∧
      ∀ id scope, u.named = some id → (id, scope) ∈ s.created → scope ≠ u.scope →
        u.attached = []) := by
  refine ⟨attached_once hrun,
    always_iff_meets known_init nofun known_step scoped_step hrun, fun hmeets u hu => ?_⟩
  have howned : Owned s (machine.log observe ops) :=
    invariant_log_of_meets ⟨known_init, nofun, nofun⟩ owned_step hmeets hrun
  rcases howned.attached u hu with hnone | ⟨id, hnamed, hone, hcreated⟩
  · refine ⟨?_, fun _ _ _ _ _ => hnone⟩
    rw [hnone]
    exact nofun
  · refine ⟨?_, fun id' scope hnamed' hcreated' hne => ?_⟩
    · rw [hone]
      intro id' hmem
      cases mem_singleton.mp hmem
      exact hcreated
    · rw [hnamed] at hnamed'
      cases hnamed'
      exact absurd (howned.known.unique hcreated' hcreated) hne

/-- Two requests: the response of the first one carries a relay, the response of the second one
carries a pair, and another pair of it closes. -/
def twoRequests : List Op :=
  [.send (.beginRequest none), .handle true, .send (.bindingWorker 1 "B"), .handle true,
    .answer 0, .relay 0, .send (.webSocketUpgrade (some 0)), .handle true,
    .send (.beginRequest none), .handle true, .pair, .pair, .handle true, .handle true,
    .send (.webSocketUpgrade (some 2)), .handle true]

theorem hand_over_stays_in_request_two_requests :
    (∃ s, machine.run twoRequests = some s ∧ s.created = [(0, 1), (1, 2), (2, 2)]) ∧
      machine.log observe twoRequests = [⟨1, some 0, [0]⟩, ⟨2, some 2, [2]⟩] ∧
      machine.Always Scoped machine.init twoRequests :=
  ⟨⟨_, rfl, rfl⟩, rfl,
    (hand_over_stays_in_request twoRequests _ rfl).2.1.mpr (by decide)⟩

/-- A binding answers a 101 after the response was read, in `waitUntil` work.  The relay is still
there when the next request begins, and the upgrade of that request is given to it. -/
theorem relay_outlives_its_request :
    let ops := [.send (.beginRequest none), .handle true, .send (.bindingWorker 1 "B"),
      .handle true, .send (.webSocketUpgrade none), .handle true, .answer 0, .relay 0,
      .send (.beginRequest none), .handle true, .send (.webSocketUpgrade (some 0)), .handle true]
    (∃ s, machine.run ops = some s ∧ s.created = [(0, 1)]) ∧
      machine.log observe ops = [⟨1, none, []⟩, ⟨2, some 0, [0]⟩] ∧
      ¬ machine.Always Scoped machine.init ops := by
  refine ⟨⟨_, rfl, rfl⟩, rfl, fun halways => ?_⟩
  have hmeets := (always_iff_meets known_init nofun known_step scoped_step rfl).mp halways
  exact absurd hmeets (by decide)

end OpenWorkers.Sockets.HandOver
