import OpenWorkers.Sockets.Frames
import Mathlib.Data.List.TakeWhile

/-!
# The frames of a server end arrive

The steps of the runtime alone, messages the loop handles and polls of the task, bring everything
the guest asked for to a client that is there.  The loop passes on what is queued until the
upgrade is with the task, the task turns to its client, and then the rest of the queue and of the
commands drains.
-/

namespace OpenWorkers.Sockets.Frames

open List Option Object Scheduler Machine

/-! ## The polls of a task -/

section Task

variable {socket socket' : Socket}

/-- The task of a client that is there gets to it before it gets to a Close of the guest: the
upgrade is with the task, which does not look at a Close next, or comes before every Close. -/
def opens (socket : Socket) : Bool :=
  match socket.mode with
  | .early true _ _ =>
    socket.branch = .cancel ∨ socket.branch = .result ∨ socket.commands.head?.all (!closes ·)
  | .early false _ _ => .attach ∈ socket.commands.takeWhile (!closes ·)
  | _ => false

/-- What is left to do before the task turns to its client. -/
def wait (socket : Socket) : Nat :=
  let turns := match socket.mode, socket.branch with
    | .early true _ _, .command | .early true _ _, .message => 2
    | .early _ _ _, .cancel => 1
    | _, _ => 0
  if socket.connected then 0 else 3 * socket.commands.length + turns + 1

/-- What is left to do before the commands of a connected task are done. -/
def effort (socket : Socket) : Nat :=
  let turns := match socket.branch with
    | .message => 2
    | .cancel => 1
    | .command | .result => 0
  3 * socket.commands.length + turns

theorem effort_poll {accepted : Bool} (hmode : socket.mode = .pumping accepted)
    (hcommands : socket.commands ≠ []) (hthere : socket.peerGone = false) :
    effort (socket.poll false) < effort socket := by
  cases hbranch : socket.branch with
  | cancel => simp [Socket.poll, effort, hmode, hbranch]
  | message =>
      cases hincoming : socket.incoming with
      | nil => simp [Socket.poll, effort, hmode, hbranch, hincoming, hthere]
      | cons message incoming =>
          cases hclosed : message.isClosed <;>
            simp [Socket.poll, effort, hmode, hbranch, hincoming, hclosed, Socket.event,
              Socket.exit]
  | command | result =>
      cases hlist : socket.commands with
      | nil => exact absurd hlist hcommands
      | cons command commands =>
          cases command <;>
            simp [Socket.poll, effort, hmode, hbranch, hlist, Socket.event, Socket.exit,
              Socket.send]
            <;> omega

/-- One poll of a task whose client is there. -/
structure Nearer (socket socket' : Socket) : Prop where
  opens : socket'.connected = true ∨ opens socket' = true
  outcome : socket'.outcome = some true
  wait : wait socket' < wait socket
  mode : socket'.mode ≠ .ended .guestClosed

theorem opens_of_attach {attached accepted : Bool} {kept : List WebSocketOutgoing}
    (hmode : socket.mode = .early attached accepted kept)
    (hcommands : ∀ command ∈ socket.commands, closes command = false)
    (hattach : .attach ∈ socket.commands) : opens socket = true := by
  rw [opens, hmode]
  cases attached with
  | false =>
      refine decide_eq_true ?_
      rwa [takeWhile_eq_self_iff.mpr fun command hmem => by rw [hcommands command hmem]; rfl]
  | true =>
      refine decide_eq_true (.inr (.inr ?_))
      cases hlist : socket.commands with
      | nil => rfl
      | cons command commands =>
          change (!closes command) = true
          rw [hcommands command (hlist ▸ mem_cons_self)]
          rfl

theorem nearer_poll (hhungUp : socket.commands = [] → socket.hungUp = false)
    (hopens : opens socket = true) (houtcome : socket.outcome = some true)
    (hconnected : socket.connected = false) : Nearer socket (socket.poll false) := by
  cases hmode : socket.mode with
  | connecting | pumping | ended =>
      rw [opens, hmode] at hopens
      cases hopens
  | early attached accepted kept =>
      cases hbranch : socket.branch with
      | cancel =>
          cases attached <;> constructor <;>
            simp_all [Socket.poll, opens, wait]
      | result => constructor <;> simp_all [Socket.poll, opens, wait]
      | command | message =>
          cases hlist : socket.commands with
          | nil => cases attached <;> constructor <;> simp_all [Socket.poll, opens, wait]
          | cons command commands =>
              cases attached <;> cases command <;> constructor <;>
                simp_all [Socket.poll, opens, wait, closes] <;> omega

end Task

/-! ## The steps of the runtime -/

section System

variable {s s' : State} {id : WebSocketId} {log : List (WebSocketId × WebSocketOutgoing)}
  {socket : Socket} {i : Nat} {message : SchedulerMessage} {rest : List SchedulerMessage}

/-- A step of the loop or of a task. -/
def ofRuntime : Op → Bool
  | .handle _ | .poll _ => true
  | _ => false

/-- The runtime works on, and nobody gives the socket up. -/
def Works (id : WebSocketId) (s : State) (op : Op) : Prop :=
  Guard id s op ∧ ofRuntime op = true

/-- The server end of the id is the socket at the position `i`. -/
structure Place (id : WebSocketId) (log : List (WebSocketId × WebSocketOutgoing)) (i : Nat)
    (s : State) (socket : Socket) : Prop where
  inv : Inv id s log
  there : s.sockets[i]? = some socket
  id_eq : socket.id = id
  kind : socket.kind = .server

namespace Place

theorem mem (h : Place id log i s socket) : socket ∈ s.sockets := mem_of_getElem? h.there

theorem kept (h : Place id log i s socket) : Kept id s (asked id log) socket :=
  h.inv.kept socket h.mem h.id_eq h.kind

theorem regular (h : Place id log i s socket) : Closing.Regular socket :=
  h.inv.orderly.regular socket h.mem

/-- A server end without a client has not left. -/
theorem early (h : Place id log i s socket) (hconnected : socket.connected = false) :
    ∃ attached accepted kept, socket.mode = .early attached accepted kept := by
  have hfits := h.regular.fits
  cases hmode : socket.mode with
  | connecting =>
      rw [hmode] at hfits
      have hkind := h.kind
      rw [hfits.1] at hkind
      cases hkind
  | early attached accepted kept => exact ⟨attached, accepted, kept, rfl⟩
  | pumping =>
      rw [hmode] at hfits
      rw [hfits.1] at hconnected
      cases hconnected
  | ended exit =>
      rw [(h.kept.undisturbed.ended exit hmode).2] at hconnected
      cases hconnected

/-- A server end with a client moves messages, or the guest has closed it. -/
theorem pumping (h : Place id log i s socket) (hconnected : socket.connected = true) :
    (∃ accepted, socket.mode = .pumping accepted) ∨
      socket.mode = .ended .guestClosed ∧ Closing.OnlyLast isClose socket.frames := by
  have hfits := h.regular.fits
  cases hmode : socket.mode with
  | connecting =>
      rw [hmode] at hfits
      rw [hfits.2.1] at hconnected
      cases hconnected
  | early =>
      rw [hmode] at hfits
      rw [hfits.1] at hconnected
      cases hconnected
  | pumping accepted => exact .inl ⟨accepted, rfl⟩
  | ended exit =>
      cases (h.kept.undisturbed.ended exit hmode).1
      rw [hmode] at hfits
      exact .inr ⟨rfl, hfits.2 hconnected⟩

/-- The task can be polled until it ends. -/
theorem poll (h : Place id log i s socket) (hmode : ∀ exit, socket.mode ≠ .ended exit)
    (hclose : socket.connected = false → (socket.poll false).mode ≠ .ended .guestClosed) :
    ∃ s', Works id s (.poll i) ∧ machine.step s (.poll i) = some s' ∧
      Place id log i s' (socket.poll false) ∧ s'.toScheduler = s.toScheduler := by
  have hcancelled := h.kept.cancelled
  have hguard : Guard id s (.poll i) := by
    intro socket' hsocket' _ hconnected hpolls command hhead
    cases h.there.symm.trans hsocket'
    cases command with
    | close code reason =>
        exact absurd ((Socket.poll_guestClosed_iff _ hmode).mpr ⟨hpolls, code, reason, hhead⟩)
          (hclose hconnected)
    | attach | accept | send => rfl
  have hstep : machine.step s (.poll i) = some (s.modify i (Socket.poll false)) := by
    change step s (.poll i) = _
    rw [step, h.there]
    dsimp only
    rw [hcancelled]
    cases hcase : socket.mode with
    | ended exit => exact absurd hcase (hmode exit)
    | _ => rfl
  have hpolled := socket.polled false
  refine ⟨_, ⟨hguard, rfl⟩, hstep, ⟨?_, ?_, hpolled.id.trans h.id_eq, hpolled.kind.trans h.kind⟩,
    rfl⟩
  · have hinv := inv_step id s log _ _ h.inv hguard hstep
    rwa [show observe s (.poll i) = [] from rfl, append_nil] at hinv
  · change (s.sockets.modify i _)[i]? = _
    rw [getElem?_modify_eq, h.there]
    rfl

/-- The loop can handle a message that leaves the request of the socket alone. -/
theorem handle (h : Place id log i s socket) (hqueue : s.toScheduler = message :: rest)
    (hgentle : gentle id s message = true) :
    Works id s (.handle true) ∧
      machine.step s (.handle true) = some (s.handle true message rest) ∧
      Place id log i (s.handle true message rest)
        (socket.receive (s.loop.handle true s.handled message).2) := by
  refine ⟨⟨?_, rfl⟩, ?_, inv_handle h.inv hqueue hgentle, ?_, h.id_eq, h.kind⟩
  · intro message' hmessage'
    rw [hqueue] at hmessage'
    cases hmessage'
    exact hgentle
  · change step s (.handle true) = _
    rw [step, hqueue, h.inv.running]
  · rw [handle_sockets, getElem?_append_left, getElem?_map, h.there]
    · rfl
    · rw [length_map]
      exact (List.getElem?_eq_some_iff.mp h.there).1

end Place

/-! ## The way to the client -/

/-- The message neither begins another request nor is the upgrade of a response that carries
another socket. -/
def calm (id : WebSocketId) : SchedulerMessage → Bool
  | .beginRequest _ => false
  | .webSocketUpgrade named => named = some id
  | _ => true

def Calm (id : WebSocketId) (s : State) : Prop :=
  ∀ message ∈ s.toScheduler, calm id message = true

theorem Place.gentle (h : Place id log i s socket) (hcalm : Calm id s)
    (hqueue : s.toScheduler = message :: rest) : gentle id s message = true := by
  have hmessage := hcalm message (hqueue ▸ mem_cons_self)
  cases message
  case webSocketPair id' =>
    have hne : id' ≠ id := by
      rintro rfl
      have hmem : socket.id ∈ s.sockets.map Socket.id := List.mem_map_of_mem h.mem
      rw [h.id_eq] at hmem
      exact h.inv.orderly.fresh.not_taken (mem_waiting (hqueue ▸ mem_cons_self)) hmem
    rw [Frames.gentle, decide_eq_true hne]
    rfl
  case webSocketUpgrade named =>
    rw [Frames.gentle, show decide (named = some id) = true from hmessage, Bool.or_true]
  case beginRequest => cases hmessage
  all_goals rfl

theorem Calm.tail (h : Calm id s) (hqueue : s.toScheduler = message :: rest)
    (hrest : s'.toScheduler = rest) : Calm id s' := by
  intro message' hmem
  rw [hrest] at hmem
  exact h message' (hqueue ▸ mem_cons_of_mem _ hmem)

theorem closes_of_commandOf {l : EventLoop} {command : WebSocketCommand}
    (h : commandOf l id message = some command)
    (hmessage : ∀ code reason, message ≠ .webSocketClose id code reason) :
    closes command = false := by
  cases message
  case webSocketClose id' code reason =>
    have hne : id' ≠ id := by
      rintro rfl
      exact hmessage code reason rfl
    rw [commandOf, if_neg hne] at h
    cases h
  case webSocketUpgrade | webSocketAccept | webSocketSend =>
    simp only [commandOf] at h
    split at h <;> cases h
    rfl
  all_goals cases h

theorem mem_pairs_handle {l l' : EventLoop} (hl : l.Becomes message l')
    (h : id ∈ l.pairs.getD []) (hcalm : calm id message = true)
    (hupgrade : message ≠ .webSocketUpgrade (some id)) : id ∈ l'.pairs.getD [] := by
  cases hl with
  | @pair id' pairs hpairs =>
      rw [hpairs, getD_some] at h
      rw [getD_some]
      by_cases heq : id = id'
      · exact heq ▸ mem_cons_self
      · exact mem_cons_of_mem _ (mem_filter.mpr ⟨h, decide_eq_true heq⟩)
  | upgrade =>
      cases of_decide_eq_true hcalm
      exact absurd rfl hupgrade
  | beginRequest => cases hcalm
  | _ => exact h

/-- A socket without a Close among its commands has its channel, so it gets what is asked. -/
theorem Place.commands_receive (h : Place id log i s socket) (hconnected : socket.connected = false)
    (hcommands : ∀ command ∈ socket.commands, closes command = false)
    (message : SchedulerMessage) :
    (socket.receive (s.loop.handle true s.handled message).2).commands =
      socket.commands ++ (commandOf s.loop id message).toList := by
  obtain ⟨attached, accepted, kept, hmode⟩ := h.early hconnected
  have hnot := not_any_front h.regular hcommands (hmode ▸ nofun)
  have hchannel := h.kept.channel.resolve_right (by rw [hnot]; exact nofun)
  rw [← commandsFor_handle true s.handled hchannel, ← h.id_eq]
  rfl

/-- The loop gets to the upgrade, which comes before every Close. -/
theorem Place.reaches_upgrade {before after : List SchedulerMessage}
    (h : Place id log i s socket) (hcalm : Calm id s)
    (hqueue : s.toScheduler = before ++ .webSocketUpgrade (some id) :: after)
    (hpair : id ∈ s.loop.pairs.getD []) (houtcome : socket.outcome = some true)
    (hconnected : socket.connected = false)
    (hcommands : ∀ command ∈ socket.commands, closes command = false)
    (hbefore : ∀ code reason, .webSocketClose id code reason ∉ before) :
    ∃ s', machine.Reaches (Works id) s s' ∧ Calm id s' ∧ ∃ socket', Place id log i s' socket' ∧
      socket'.outcome = some true ∧ opens socket' = true := by
  -- The state after the upgrade, wherever it was in the queue.
  have hupgrade : ∀ {s socket rest}, Place id log i s socket → Calm id s →
      s.toScheduler = .webSocketUpgrade (some id) :: rest → id ∈ s.loop.pairs.getD [] →
      socket.outcome = some true → socket.connected = false →
      (∀ command ∈ socket.commands, closes command = false) →
      ∃ s', machine.Reaches (Works id) s s' ∧ Calm id s' ∧ ∃ socket', Place id log i s' socket' ∧
        socket'.outcome = some true ∧ opens socket' = true := by
    intro s socket rest h hcalm hqueue hpair houtcome hconnected hcommands
    obtain ⟨hworks, hstep, hplace⟩ := h.handle hqueue (h.gentle hcalm hqueue)
    refine ⟨_, .head hstep hworks (.refl _), hcalm.tail hqueue rfl, _, hplace, houtcome, ?_⟩
    obtain ⟨attached, accepted, kept, hmode⟩ := hplace.early hconnected
    have hlist := h.commands_receive hconnected hcommands (.webSocketUpgrade (some id))
    rw [commandOf, if_pos ⟨rfl, hpair⟩] at hlist
    refine opens_of_attach hmode ?_ ?_
    · rw [hlist]
      intro command hmem
      rcases mem_append.mp hmem with hmem | hmem
      · exact hcommands command hmem
      · cases mem_singleton.mp hmem
        rfl
    · rw [hlist]
      exact mem_append_right _ mem_cons_self
  induction before generalizing s socket with
  | nil => exact hupgrade h hcalm hqueue hpair houtcome hconnected hcommands
  | cons first before ih =>
      rw [cons_append] at hqueue
      by_cases hfirst : first = .webSocketUpgrade (some id)
      · cases hfirst
        exact hupgrade h hcalm hqueue hpair houtcome hconnected hcommands
      · obtain ⟨hworks, hstep, hplace⟩ := h.handle hqueue (h.gentle hcalm hqueue)
        have hpair' := mem_pairs_handle (s.loop.becomes_handle true s.handled first) hpair
          (hcalm first (hqueue ▸ mem_cons_self)) hfirst
        have hcommands' : ∀ command ∈
            (socket.receive (s.loop.handle true s.handled first).2).commands,
            closes command = false := by
          intro command hmem
          rw [h.commands_receive hconnected hcommands] at hmem
          rcases mem_append.mp hmem with hmem | hmem
          · exact hcommands command hmem
          · refine closes_of_commandOf (mem_toList.mp hmem) fun code reason heq => ?_
            exact hbefore code reason (heq ▸ mem_cons_self)
        obtain ⟨s', hreaches, hgoal⟩ := ih hplace (hcalm.tail hqueue rfl) rfl hpair' houtcome
          hconnected hcommands' fun code reason hmem =>
            hbefore code reason (mem_cons_of_mem _ hmem)
        exact ⟨s', .head hstep hworks hreaches, hgoal⟩

/-- The task of a client that is there turns to it. -/
theorem Place.reaches_client (h : Place id log i s socket) (houtcome : socket.outcome = some true)
    (hopens : opens socket = true) : ∃ s', machine.Reaches (Works id) s s' ∧
      s'.toScheduler = s.toScheduler ∧
      ∃ socket', Place id log i s' socket' ∧ socket'.connected = true := by
  refine (reaches_of_measure (m := machine) (G := Works id)
    (I := fun t => t.toScheduler = s.toScheduler ∧ ∃ socket, Place id log i t socket ∧
      socket.outcome = some true ∧ (socket.connected = true ∨ opens socket = true))
    (Q := fun t => ∃ socket, Place id log i t socket ∧ socket.connected = true)
    (fun t => (t.sockets[i]?.map wait).getD 0) ?_ ⟨rfl, socket, h, houtcome, .inr hopens⟩).imp ?_
  · rintro t ⟨hqueue, socket, hplace, houtcome, hopens⟩
    cases hconnected : socket.connected with
    | true => exact .inl ⟨socket, hplace, hconnected⟩
    | false =>
        have hopens := hopens.resolve_left (by rw [hconnected]; exact nofun)
        obtain ⟨attached, accepted, kept, hmode⟩ := hplace.early hconnected
        have hended : ∀ exit, socket.mode ≠ .ended exit := hmode ▸ nofun
        have hhungUp : socket.commands = [] → socket.hungUp = false := by
          intro hcommands
          refine Bool.not_eq_true _ ▸ fun hhungUp => ?_
          have hany := hplace.kept.undisturbed.hungUp hhungUp
          rw [not_any_front hplace.regular (by simp [hcommands]) hended] at hany
          cases hany
        have hnearer := nearer_poll hhungUp hopens houtcome hconnected
        obtain ⟨t', hworks, hstep, hplace', hsame⟩ := hplace.poll hended fun _ => hnearer.mode
        refine .inr ⟨_, t', hworks, hstep,
          ⟨hsame.trans hqueue, _, hplace', hnearer.outcome, hnearer.opens⟩, ?_⟩
        rw [hplace'.there, hplace.there]
        exact hnearer.wait
  · rintro s' ⟨hreaches, ⟨hqueue, -⟩, hgoal⟩
    exact ⟨hreaches, hqueue, hgoal⟩

/-- The loop handles what is queued. -/
theorem Place.reaches_handled (h : Place id log i s socket) (hcalm : Calm id s)
    (hconnected : socket.connected = true) : ∃ s', machine.Reaches (Works id) s s' ∧
      s'.toScheduler = [] ∧ ∃ socket', Place id log i s' socket' ∧ socket'.connected = true := by
  refine (reaches_of_measure (m := machine) (G := Works id)
    (I := fun t => Calm id t ∧ ∃ socket, Place id log i t socket ∧ socket.connected = true)
    (Q := fun t => t.toScheduler = []) (fun t => t.toScheduler.length) ?_
    ⟨hcalm, socket, h, hconnected⟩).imp ?_
  · rintro t ⟨hcalm, socket, hplace, hconnected⟩
    cases hqueue : t.toScheduler with
    | nil => exact .inl rfl
    | cons message rest =>
        obtain ⟨hworks, hstep, hplace'⟩ := hplace.handle hqueue (hplace.gentle hcalm hqueue)
        exact .inr ⟨_, _, hworks, hstep, ⟨hcalm.tail hqueue rfl, _, hplace', hconnected⟩,
          Nat.lt_succ_self _⟩
  · rintro s' ⟨hreaches, ⟨-, hplace⟩, hgoal⟩
    exact ⟨hreaches, hgoal, hplace⟩

/-- The task takes its commands. -/
theorem Place.reaches_drained (h : Place id log i s socket) (hqueue : s.toScheduler = [])
    (hconnected : socket.connected = true) : ∃ s', machine.Reaches (Works id) s s' ∧
      s'.toScheduler = [] ∧ ∃ socket', Place id log i s' socket' ∧ socket'.connected = true ∧
        (socket'.commands = [] ∨ ∃ exit, socket'.mode = .ended exit) := by
  refine (reaches_of_measure (m := machine) (G := Works id)
    (I := fun t => t.toScheduler = [] ∧
      ∃ socket, Place id log i t socket ∧ socket.connected = true)
    (Q := fun t => ∃ socket, Place id log i t socket ∧ socket.connected = true ∧
      (socket.commands = [] ∨ ∃ exit, socket.mode = .ended exit))
    (fun t => (t.sockets[i]?.map effort).getD 0) ?_ ⟨hqueue, socket, h, hconnected⟩).imp ?_
  · rintro t ⟨hqueue, socket, hplace, hconnected⟩
    rcases hplace.pumping hconnected with ⟨accepted, hmode⟩ | ⟨hmode, -⟩
    · by_cases hcommands : socket.commands = []
      · exact .inl ⟨socket, hplace, hconnected, .inl hcommands⟩
      · have hnot : socket.connected = false →
            (socket.poll false).mode ≠ .ended .guestClosed := by
          rw [hconnected]
          exact nofun
        obtain ⟨t', hworks, hstep, hplace', hsame⟩ := hplace.poll (hmode ▸ nofun) hnot
        refine .inr ⟨_, t', hworks, hstep,
          ⟨hsame.trans hqueue, _, hplace', (socket.polled false).connected hconnected⟩, ?_⟩
        rw [hplace'.there, hplace.there]
        exact effort_poll hmode hcommands hplace.kept.undisturbed.peerGone
    · exact .inl ⟨socket, hplace, hconnected, .inr ⟨_, hmode⟩⟩
  · rintro s' ⟨hreaches, ⟨hqueue, -⟩, hgoal⟩
    exact ⟨hreaches, hqueue, hgoal⟩

/-- The runner has completed the upgrade, and the task gets to its client before it gets to a
Close of the guest. -/
inductive Coming (id : WebSocketId) (s : State) (socket : Socket) : Prop
  | connected (hconnected : socket.connected = true)
  | upgraded (houtcome : socket.outcome = some true) (hopens : opens socket = true)
  /-- The upgrade is still in the queue of the loop. -/
  | queued {before after : List SchedulerMessage} (houtcome : socket.outcome = some true)
      (hqueue : s.toScheduler = before ++ .webSocketUpgrade (some id) :: after)
      (hpair : id ∈ s.loop.pairs.getD [])
      (hcommands : ∀ command ∈ socket.commands, closes command = false)
      (hbefore : ∀ code reason, .webSocketClose id code reason ∉ before)

theorem upTo_of_onlyLast {frames more : List WebSocketOutgoing}
    (h : Closing.OnlyLast isClose frames) : upTo isClose (frames ++ more) = frames := by
  obtain ⟨hcount, hlast⟩ := h
  rcases frames.eq_nil_or_concat' with rfl | ⟨before, last, rfl⟩
  · cases hcount
  · rw [getLast?_concat, any_some] at hlast
    rw [countP_append, countP_singleton, if_pos hlast] at hcount
    rw [append_assoc, upTo_append_of_not_any (any_of_countP (Nat.succ.inj hcount)),
      singleton_append, upTo, if_pos hlast]

/-- What the client got is the beginning of what it is to get. -/
theorem Place.frames_isPrefix (h : Place id log i s socket) :
    socket.frames <+: expected id log := by
  have hframes := h.kept.frames
  rw [front, append_assoc, append_assoc] at hframes
  change _ = expected id log at hframes
  have hsilent : socket.frames.any isClose = false → socket.frames <+: expected id log := by
    intro hany
    rw [← hframes, upTo_append_of_not_any hany]
    exact prefix_append _ _
  cases hconnected : socket.connected with
  | false =>
      obtain ⟨attached, accepted, kept, hmode⟩ := h.early hconnected
      have hfits := h.regular.fits
      rw [hmode] at hfits
      exact hsilent (any_of_countP hfits.2.2.frame)
  | true =>
      rcases h.pumping hconnected with ⟨accepted, hmode⟩ | ⟨-, hlast⟩
      · have hfits := h.regular.fits
        rw [hmode] at hfits
        exact hsilent (any_of_countP hfits.2.frame)
      · have hall : socket.frames = expected id log := by rw [← hframes, upTo_of_onlyLast hlast]
        exact hall ▸ prefix_rfl

/-- A connected task that has nothing left has delivered everything. -/
theorem Place.frames_eq (h : Place id log i s socket) (hqueue : s.toScheduler = [])
    (hconnected : socket.connected = true)
    (hdrained : socket.commands = [] ∨ ∃ exit, socket.mode = .ended exit) :
    socket.frames = expected id log := by
  have hframes := h.kept.frames
  rw [queued, hqueue, flatMap_nil, append_nil] at hframes
  refine Eq.trans ?_ hframes
  rcases h.pumping hconnected with ⟨accepted, hmode⟩ | ⟨-, hlast⟩
  · have hcommands := hdrained.resolve_right (by rw [hmode]; rintro ⟨_, ⟨⟩⟩)
    have hnot := not_any_front h.regular (by simp [hcommands])
      (by rw [hmode]; rintro _ ⟨⟩)
    rw [upTo_eq_self hnot, front_pumping hmode, hcommands, flatMap_nil, append_nil]
  · rw [front, append_assoc, upTo_of_onlyLast hlast]

theorem Place.delivers_connected (h : Place id log i s socket) (hcalm : Calm id s)
    (hconnected : socket.connected = true) : ∃ s', machine.Reaches (Works id) s s' ∧
      ∃ socket' ∈ s'.sockets, socket'.id = id ∧ socket'.kind = .server ∧
        socket'.frames = expected id log := by
  obtain ⟨t, hhandled, hqueue, socket, hplace, hconnected⟩ := h.reaches_handled hcalm hconnected
  obtain ⟨s', hdrained, hqueue, socket, hplace, hconnected, hdone⟩ :=
    hplace.reaches_drained hqueue hconnected
  exact ⟨s', hhandled.trans hdrained, socket, hplace.mem, hplace.id_eq, hplace.kind,
    hplace.frames_eq hqueue hconnected hdone⟩

theorem Place.delivers_upgraded (h : Place id log i s socket) (hcalm : Calm id s)
    (houtcome : socket.outcome = some true) (hopens : opens socket = true) :
    ∃ s', machine.Reaches (Works id) s s' ∧
      ∃ socket' ∈ s'.sockets, socket'.id = id ∧ socket'.kind = .server ∧
        socket'.frames = expected id log := by
  obtain ⟨t, hclient, hqueue, socket, hplace, hconnected⟩ := h.reaches_client houtcome hopens
  have hcalm : Calm id t := by
    rw [Calm, hqueue]
    exact hcalm
  obtain ⟨s', hdelivered, hgoal⟩ := hplace.delivers_connected hcalm hconnected
  exact ⟨s', hclient.trans hdelivered, hgoal⟩

/-- **The frames of a server end.**  In a run in which nobody gives the server end of a pair up,
and the guest's close does not reach its task before the client does, the client has got the
beginning of what the guest asked for: its sends in order, up to its close and with it.  Once
the runner has completed the upgrade, the steps of the runtime alone bring the rest. -/
theorem server_frames_arrive (id : WebSocketId) (ops : List Op) (s : State)
    (hrun : machine.run ops = some s) (hmeets : machine.Meets (Guard id) machine.init ops)
    (socket : Socket) (hmem : socket ∈ s.sockets) (hid : socket.id = id)
    (hkind : socket.kind = .server) :
    socket.frames <+: expected id (machine.log observe ops) ∧
    (Calm id s → Coming id s socket → ∃ s', machine.Reaches (Works id) s s' ∧
      ∃ socket' ∈ s'.sockets, socket'.id = id ∧ socket'.kind = .server ∧
        socket'.frames = expected id (machine.log observe ops)) := by
  have hinv : Inv id s (machine.log observe ops) :=
    invariant_log_of_meets inv_init (inv_step id) hmeets hrun
  obtain ⟨i, hthere⟩ := getElem?_of_mem hmem
  have hplace : Place id (machine.log observe ops) i s socket := ⟨hinv, hthere, hid, hkind⟩
  refine ⟨hplace.frames_isPrefix, fun hcalm hcoming => ?_⟩
  cases hcoming with
  | connected hconnected => exact hplace.delivers_connected hcalm hconnected
  | upgraded houtcome hopens => exact hplace.delivers_upgraded hcalm houtcome hopens
  | queued houtcome hqueue hpair hcommands hbefore =>
      cases hconnected : socket.connected with
      | true => exact hplace.delivers_connected hcalm hconnected
      | false =>
          obtain ⟨t, hupgraded, hcalm, socket, hplace, houtcome, hopens⟩ :=
            hplace.reaches_upgrade hcalm hqueue hpair houtcome hconnected hcommands hbefore
          obtain ⟨s', hdelivered, hgoal⟩ := hplace.delivers_upgraded hcalm houtcome hopens
          exact ⟨s', hupgraded.trans hdelivered, hgoal⟩

end System

/-- The guest sends a frame on the server end of a pair, answers with the client end, sends
another frame and closes.  The client is there before the loop has handled all this. -/
def greeting : List Op :=
  [.pair, .send (.webSocketAccept 0), .send (.webSocketSend 0 (.text "a")),
    .send (.webSocketUpgrade (some 0)), .send (.webSocketSend 0 (.text "b")), .handle true,
    .outcome 0 true, .poll 0, .handle true, .send (.webSocketClose 0 1000 "bye")]

/-- The state after `greeting`. -/
def greeted : State where
  toScheduler := [.webSocketSend 0 (.text "a"), .webSocketUpgrade (some 0),
    .webSocketSend 0 (.text "b"), .webSocketClose 0 1000 "bye"]
  handled := 2
  loop := { EventLoop.init with wsCommands := [0], pairs := some [0] }
  running := true
  cancelled := []
  contextCancelled := false
  bindings := []
  sockets := [⟨0, .server, 0, [.accept], false, some true, [], false, .early false false [],
    .command,
    false, [], []⟩]
  nextSocketId := 1
  created := [(0, 0)]

theorem server_frames_arrive_greeting :
    machine.run greeting = some greeted ∧ ∃ s', machine.Reaches (Works 0) greeted s' ∧
      ∃ socket ∈ s'.sockets, socket.frames = [.text "a", .text "b", .close 1000 "bye"] := by
  refine ⟨rfl, ?_⟩
  have hcoming : ∀ socket ∈ greeted.sockets, Coming 0 greeted socket := by
    intro socket hmem
    cases mem_singleton.mp hmem
    exact @Coming.queued 0 greeted _ [.webSocketSend 0 (.text "a")] _ rfl rfl (by decide)
      (by decide) nofun
  obtain ⟨s', hreaches, socket, hmem, -, -, hframes⟩ :=
    (server_frames_arrive 0 greeting greeted rfl (by decide) _ mem_cons_self rfl rfl).2
      (by unfold Calm; decide) (hcoming _ mem_cons_self)
  exact ⟨s', hreaches, socket, hmem, hframes⟩

/-- The guest sends a frame and closes before its response is read, and the loop and the task run
in between. -/
def hasty : List Op :=
  [.pair, .send (.webSocketAccept 0), .send (.webSocketSend 0 (.text "a")),
    .send (.webSocketClose 0 1000 "bye"), .handle true, .handle true, .handle true, .handle true,
    .poll 0, .poll 0, .poll 0, .poll 0, .poll 0, .poll 0, .send (.webSocketUpgrade (some 0)),
    .handle true, .outcome 0 true]

/-- The task has ended with what it kept when the client arrives: the client gets nothing, and
was to get a frame and the Close. -/
theorem close_loses_kept_frames :
    (machine.run hasty).map (fun s =>
      (s.toScheduler, s.sockets.map fun socket => (socket.frames, socket.mode, socket.outcome))) =
        some ([], [([], .ended .guestClosed, some true)]) ∧
    expected 0 (machine.log observe hasty) = [.text "a", .close 1000 "bye"] :=
  ⟨rfl, rfl⟩

end OpenWorkers.Sockets.Frames
