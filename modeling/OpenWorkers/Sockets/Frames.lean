import OpenWorkers.Sockets.Closing
import OpenWorkers.Sockets.HandOver

/-!
# The frames of a server end

What the guest asks of the server end of a pair goes through the queue of the loop, the command
channel of the task and, before the client is there, what the task keeps.  As long as nobody gives
the socket up, nothing is lost on that way: what the client got and what is on its way is what the
guest asked for, up to its close.

It is lost if the close reaches the task before the client does: the task ends, with what it
kept, and the upgrade finds nobody.
-/

namespace OpenWorkers.Sockets.Frames

open List Option Object Scheduler

/-! ## What the guest asks for -/

/-- The frames that a message asks of a socket. -/
def messageFrames (id : WebSocketId) : SchedulerMessage → List WebSocketOutgoing
  | .webSocketSend id' frame => if id' = id then [frame] else []
  | .webSocketClose id' code reason => if id' = id then [.close code reason] else []
  | _ => []

/-- The frames that a task keeps for its client. -/
def keptFrames : Mode → List WebSocketOutgoing
  | .early _ _ kept => kept
  | _ => []

/-- What the client got and what its task has for it. -/
def front (socket : Socket) : List WebSocketOutgoing :=
  socket.frames ++ keptFrames socket.mode ++ socket.commands.flatMap commandFrames

/-- The frames of a socket that are still in the queue of the loop. -/
def queued (s : State) (id : WebSocketId) : List WebSocketOutgoing :=
  s.toScheduler.flatMap (messageFrames id)

/-- What the guest asks for, with the socket it asks it of.  A call on an id that was not given
out is not one on a socket. -/
def observe (s : State) : Op → List (WebSocketId × WebSocketOutgoing)
  | .send (.webSocketSend id frame) => if id < s.nextSocketId then [(id, frame)] else []
  | .send (.webSocketClose id code reason) =>
    if id < s.nextSocketId then [(id, .close code reason)] else []
  | _ => []

/-- What the guest asked of a socket. -/
def asked (id : WebSocketId) (log : List (WebSocketId × WebSocketOutgoing)) :
    List WebSocketOutgoing :=
  (log.filter fun call => call.1 = id).map Prod.snd

/-- The frames that the client of a socket is to get. -/
def expected (id : WebSocketId) (log : List (WebSocketId × WebSocketOutgoing)) :
    List WebSocketOutgoing :=
  upTo isClose (asked id log)

/-! ## The condition -/

/-- The message leaves the request of the socket alone: its pair is made while the response can
carry it and the request is not cancelled, the response carries it, and no other request
begins. -/
def gentle (id : WebSocketId) (s : State) : SchedulerMessage → Bool
  | .webSocketPair id' => id' ≠ id || (s.loop.pairs.isSome && !s.isCancelled s.loop.scope)
  | .webSocketUpgrade named => id ∉ s.loop.pairs.getD [] || named = some id
  | .beginRequest _ => id ∉ s.sockets.map Socket.id
  | _ => true

/-- The command is the Close of the guest. -/
def closes : WebSocketCommand → Bool
  | .close _ _ => true
  | .attach | .accept | .send _ => false

/-- Nobody gives the socket `id` up: neither the runtime nor the client, and the guest's close
does not reach the task before the client does. -/
def Guard (id : WebSocketId) (s : State) : Op → Prop
  | .handle _ => ∀ message ∈ s.toScheduler.head?, gentle id s message = true
  | .closeUnaccepted id' => id' ≠ id
  | .cancel scope => ∀ socket ∈ s.sockets, socket.id = id → socket.scope ≠ scope
  | .abortLoop | .cancelContext => False
  | .outcome i connected => ∀ socket ∈ s.sockets[i]?, socket.id = id → connected = true
  | .peer i message => ∀ socket ∈ s.sockets[i]?, socket.id = id → message.isClosed = false
  | .vanish i => ∀ socket ∈ s.sockets[i]?, socket.id ≠ id
  | .poll i => ∀ socket ∈ s.sockets[i]?, socket.id = id → socket.connected = false →
      socket.pollsCommands = true → ∀ command ∈ socket.commands.head?, closes command = false
  | _ => True

instance (id : WebSocketId) (s : State) (op : Op) : Decidable (Guard id s op) := by
  apply @Op.casesOn _ op <;> intros <;> dsimp only [Guard] <;> infer_instance

/-! ## What the loop does to the socket -/

section Loop

variable {l l' : EventLoop} {id : WebSocketId} {message : SchedulerMessage} (alive : Bool) (n : Nat)

/-- The command that a message has for a socket with a command channel. -/
def commandOf (l : EventLoop) (id : WebSocketId) : SchedulerMessage → Option WebSocketCommand
  | .webSocketUpgrade named =>
    if named = some id ∧ id ∈ l.pairs.getD [] then some .attach else none
  | .webSocketAccept id' => if id' = id then some .accept else none
  | .webSocketSend id' frame => if id' = id then some (.send frame) else none
  | .webSocketClose id' code reason => if id' = id then some (.close code reason) else none
  | _ => none

theorem flatMap_commandOf :
    (commandOf l id message).toList.flatMap commandFrames = messageFrames id message := by
  cases message
  case webSocketUpgrade | webSocketAccept | webSocketSend | webSocketClose =>
    simp only [commandOf, messageFrames]
    split <;> rfl
  all_goals rfl

/-- The commands for a socket among the effects of a message. -/
def commandsFor (id : WebSocketId) (effects : List Effect) : List WebSocketCommand :=
  effects.filterMap (commandFor id)

theorem commandsFor_command (h : id ∈ l.wsCommands) {id' : WebSocketId}
    {command : WebSocketCommand} :
    commandsFor id (l.command id' command).2 =
      (if id' = id then some command else none).toList := by
  unfold EventLoop.command
  by_cases heq : id' = id
  · subst heq
    simp [commandsFor, commandFor, h]
  · rw [if_neg heq]
    dsimp only
    split
    · simp [commandsFor, commandFor, heq]
    · rfl

theorem commandsFor_hangUp (ids : List WebSocketId) :
    commandsFor id (ids.map Effect.hangUp) = [] := by
  rw [commandsFor, filterMap_map, filterMap_eq_nil_iff]
  exact fun _ _ => rfl

theorem commandsFor_upgrade (h : id ∈ l.wsCommands) (named : Option WebSocketId) :
    commandsFor id (l.upgrade named).2 = (commandOf l id (.webSocketUpgrade named)).toList := by
  unfold EventLoop.upgrade
  dsimp only
  rw [commandsFor, filterMap_append]
  refine (congrArg (_ ++ ·) (commandsFor_hangUp _)).trans ((append_nil _).trans ?_)
  cases named with
  | none => rfl
  | some id' =>
      rw [commandOf]
      by_cases heq : id' = id
      · subst heq
        by_cases hpair : id' ∈ l.pairs.getD []
        · simp [hpair, h, commandFor]
        · simp only [hpair, false_and, if_false, and_false, toList_none]
          split <;> rfl
      · rw [if_neg fun hnamed => heq (Option.some.inj hnamed.1)]
        dsimp only
        split
        · simp [commandFor, heq]
        · split <;> rfl

/-- The loop passes on what the messages ask of a socket with a command channel. -/
theorem commandsFor_handle (h : id ∈ l.wsCommands) :
    commandsFor id (l.handle alive n message).2 = (commandOf l id message).toList := by
  cases message
  case webSocketUpgrade named => exact commandsFor_upgrade h named
  case webSocketAccept => exact commandsFor_command h
  case webSocketSend => exact commandsFor_command h
  case webSocketClose id' code reason =>
    unfold EventLoop.handle
    dsimp only
    by_cases heq : id' = id
    · subst heq
      simp [commandsFor, commandFor, commandOf, h]
    · rw [commandOf, if_neg heq]
      split
      · simp [commandsFor, commandFor, heq]
      · rfl
  all_goals
    refine filterMap_eq_nil_iff.mpr fun effect heffect => ?_
    cases EventLoop.does_of_mem_handle heffect <;> rfl

/-- A socket without a command channel gets nothing. -/
theorem commandsFor_of_not_mem (h : id ∉ l.wsCommands) :
    commandsFor id (l.handle alive n message).2 = [] := by
  refine filterMap_eq_nil_iff.mpr fun effect heffect => ?_
  have hne : ∀ {id' command}, id' ∈ l.wsCommands → commandFor id (.command id' command) = none := by
    intro id' command hmem
    rw [commandFor, if_neg]
    rintro rfl
    exact h hmem
  cases EventLoop.does_of_mem_handle heffect with
  | attach _ hcommands => exact hne hcommands
  | accept hcommands => exact hne hcommands
  | send hcommands => exact hne hcommands
  | close hcommands => exact hne hcommands
  | _ => rfl

/-- The message does not end the request of the socket, nor make another socket of its id. -/
structure Spares (l : EventLoop) (id : WebSocketId) (message : SchedulerMessage) : Prop where
  makes : makes message ≠ some id
  begins : HandOver.beginsRequest message = false
  upgrade : ∀ named, message = .webSocketUpgrade named → id ∉ l.unused named

theorem Spares.wsCommands (hspares : Spares l id message) (hl : l.Becomes message l')
    (h : id ∈ l.wsCommands) :
    id ∈ l'.wsCommands ∨ (messageFrames id message).any isClose = true := by
  have hmake : ∀ {id'}, some id' ≠ some id → id ∈ id' :: l.wsCommands.filter (· ≠ id') := by
    intro id' hne
    exact mem_cons_of_mem _
      (mem_filter.mpr ⟨h, decide_eq_true fun heq => hne (congrArg some heq.symm)⟩)
  cases hl with
  | connect => exact .inl (hmake hspares.makes)
  | pair => exact .inl (hmake hspares.makes)
  | upgrade =>
      exact .inl (mem_filter.mpr ⟨h, decide_eq_true (hspares.upgrade _ rfl)⟩)
  | @close id' code reason =>
      by_cases heq : id' = id
      · rw [messageFrames, if_pos heq]
        exact .inr rfl
      · exact .inl (mem_filter.mpr ⟨h, decide_eq_true (Ne.symm heq)⟩)
  | beginRequest => cases hspares.begins
  | _ => exact .inl h

theorem Spares.hangsUp (hspares : Spares l id message)
    (h : (l.handle alive n message).2.any (hangsUp id) = true) :
    id ∈ l.wsCommands ∧ (messageFrames id message).any isClose = true := by
  obtain ⟨effect, heffect, hhangs⟩ := List.any_eq_true.mp h
  cases EventLoop.does_of_mem_handle heffect with
  | unused hunused =>
      cases of_decide_eq_true hhangs
      exact absurd hunused (hspares.upgrade _ rfl)
  | closed hcommands =>
      cases of_decide_eq_true hhangs
      refine ⟨hcommands, ?_⟩
      rw [messageFrames, if_pos rfl]
      rfl
  | hangUp => cases hspares.begins
  | _ => cases hhangs

theorem Spares.cancels (hspares : Spares l id message) :
    (l.handle alive n message).2.filterMap cancels = [] := by
  refine filterMap_eq_nil_iff.mpr fun effect heffect => ?_
  cases EventLoop.does_of_mem_handle heffect with
  | cancel => cases hspares.begins
  | _ => rfl

theorem pairs_nodup (hl : l.Becomes message l') (h : (l.pairs.getD []).Nodup) :
    (l'.pairs.getD []).Nodup := by
  cases hl with
  | pair hpairs =>
      rw [hpairs, getD_some] at h
      exact nodup_cons.mpr ⟨by simp, h.filter _⟩
  | upgrade => exact nodup_nil
  | beginRequest => exact nodup_nil
  | _ => exact h

end Loop

/-! ## The task of the socket -/

section Task

variable {socket socket' : Socket}

/-- The client did not give the socket up, and its task has not ended but for the Close of the
guest.  The loop hangs up only behind that Close. -/
structure Undisturbed (socket : Socket) : Prop where
  outcome : socket.outcome ≠ some false
  incoming : ∀ message ∈ socket.incoming, message.isClosed = false
  peerGone : socket.peerGone = false
  hungUp : socket.hungUp = true → (front socket).any isClose = true
  ended : ∀ exit, socket.mode = .ended exit → exit = .guestClosed ∧ socket.connected = true

theorem front_early {attached accepted : Bool} {kept : List WebSocketOutgoing}
    (hmode : socket.mode = .early attached accepted kept) :
    front socket = socket.frames ++ kept ++ socket.commands.flatMap commandFrames := by
  rw [front, hmode, keptFrames]

theorem front_pumping {accepted : Bool} (hmode : socket.mode = .pumping accepted) :
    front socket = socket.frames ++ socket.commands.flatMap commandFrames := by
  rw [front, hmode]
  exact congrArg (· ++ _) (append_nil _)

theorem any_of_countP {frames : List WebSocketOutgoing} (h : frames.countP isClose = 0) :
    frames.any isClose = false :=
  List.any_eq_false.mpr (countP_eq_zero.mp h)

theorem any_commandFrames (h : Closing.Regular socket)
    (hcommands : ∀ command ∈ socket.commands, closes command = false) :
    (socket.commands.flatMap commandFrames).any isClose = false := by
  refine List.any_eq_false.mpr fun frame hframe => ?_
  obtain ⟨command, hmem, hframe⟩ := mem_flatMap.mp hframe
  cases command with
  | attach | accept => cases hframe
  | send =>
      cases mem_singleton.mp hframe
      rw [h.commands frame hmem]
      exact nofun
  | close => cases hcommands _ hmem

/-- A task that has not got a Close has no Close frame for its client. -/
theorem not_any_front (h : Closing.Regular socket)
    (hcommands : ∀ command ∈ socket.commands, closes command = false)
    (hmode : ∀ exit, socket.mode ≠ .ended exit) : (front socket).any isClose = false := by
  have hfits := h.fits
  have hrest := any_commandFrames h hcommands
  cases hcase : socket.mode with
  | connecting =>
      rw [hcase] at hfits
      rw [front, hcase, any_append, hrest, any_append, any_of_countP hfits.2.2.frame]
      rfl
  | early attached accepted kept =>
      rw [hcase] at hfits
      rw [front_early hcase, any_append, hrest, any_append,
        any_of_countP hfits.2.2.frame, any_of_countP hfits.2.1]
      rfl
  | pumping accepted =>
      rw [hcase] at hfits
      rw [front_pumping hcase, any_append, hrest, any_of_countP hfits.2.frame]
      rfl
  | ended exit => exact absurd hcase (hmode exit)

/-- A poll moves the frames on, and loses none. -/
theorem Undisturbed.polled (h : Undisturbed socket) (hregular : Closing.Regular socket)
    (hkind : socket.kind = .server) (hpolled : Socket.Polled false socket socket')
    (hclose : socket.connected = false → socket'.mode ≠ .ended .guestClosed) :
    Undisturbed socket' ∧ front socket' = front socket := by
  have hfits := hregular.fits
  have hnot : ∀ {mode}, socket.mode = mode → (∀ exit, mode ≠ .ended exit) → socket.commands = [] →
      socket.hungUp ≠ true := by
    intro mode hmode hne hcommands hhungUp
    have hany := h.hungUp hhungUp
    rw [not_any_front hregular (by simp [hcommands]) (hmode ▸ hne)] at hany
    cases hany
  -- With the same front only the end of the task is left to check.
  have hkeep : front socket' = front socket → socket'.outcome = socket.outcome →
      (∀ message ∈ socket'.incoming, message ∈ socket.incoming) →
      socket'.peerGone = socket.peerGone → socket'.hungUp = socket.hungUp →
      (∀ exit, socket'.mode = .ended exit → exit = .guestClosed ∧ socket'.connected = true) →
      Undisturbed socket' ∧ front socket' = front socket := by
    intro hfront houtcome hincoming hgone hhungUp hended
    refine ⟨⟨houtcome ▸ h.outcome, fun m hm => h.incoming m (hincoming m hm), hgone ▸ h.peerGone,
      ?_,
      hended⟩, hfront⟩
    rw [hhungUp, hfront]
    exact h.hungUp
  cases hpolled with
  | next => exact hkeep rfl rfl (fun _ hm => hm) rfl rfl h.ended
  | connectFailed hmode | connect hmode =>
      rw [hmode] at hfits
      rw [hfits.1] at hkind
      cases hkind
  | leave hmode hexit =>
      rcases hexit with ⟨_, hcancelled⟩ | ⟨_, houtcome⟩ | ⟨_, hcommands, hhungUp⟩
      · cases hcancelled
      · exact absurd houtcome h.outcome
      · exact absurd hhungUp (hnot hmode (by rintro _ ⟨⟩) hcommands)
  | leaveClosed hmode =>
      rw [hmode] at hfits
      exact absurd rfl (hclose hfits.1)
  | keep hmode hcommands =>
      refine hkeep ?_ rfl (fun _ hm => hm) rfl rfl (by rintro _ ⟨⟩)
      rw [front_early hmode, hcommands, flatMap_cons]
      simp only [front, keptFrames, append_assoc]
  | upgrade hmode =>
      refine hkeep ?_ rfl (fun _ hm => hm) rfl rfl (by rintro _ ⟨⟩)
      rw [front_early hmode]
      simp only [front, keptFrames, append_nil]
  | cancel _ hcancelled => cases hcancelled
  | pump hmode hmode' hcommands =>
      obtain ⟨accepted, rfl⟩ := hmode'
      refine hkeep ?_ rfl (fun _ hm => hm) rfl rfl (by rintro _ ⟨⟩)
      rw [front_pumping hmode, hcommands, flatMap_cons]
      simp only [front, keptFrames, append_nil, append_assoc]
  | close hmode hcommands =>
      rw [hmode] at hfits
      refine hkeep ?_ rfl (fun _ hm => hm) rfl rfl ?_
      · rw [front_pumping hmode, hcommands, flatMap_cons]
        simp only [front, keptFrames, append_nil, append_assoc, Socket.exit, Socket.event,
          Socket.send, commandFrames]
      · rintro exit hexit
        cases hexit
        exact ⟨rfl, hfits.1⟩
  | hangUp hmode hcommands hhungUp => exact absurd hhungUp (hnot hmode (by rintro _ ⟨⟩) hcommands)
  | receive hmode hincoming =>
      refine hkeep rfl rfl (fun _ hm => ?_) rfl rfl h.ended
      exact hincoming ▸ mem_cons_of_mem _ hm
  | lose hmode hlost =>
      rcases hlost with ⟨message, hmem, hclosed⟩ | hgone
      · rw [h.incoming message hmem] at hclosed
        cases hclosed
      · rw [h.peerGone] at hgone
        cases hgone

end Task

/-! ## The invariant -/

section System

variable {s s' : State} {id : WebSocketId} {log : List (WebSocketId × WebSocketOutgoing)}
  {socket : Socket} {message : SchedulerMessage} {rest : List SchedulerMessage}

/-- What the client got and what is on its way to it is what the guest asked for, up to its
close. -/
structure Kept (id : WebSocketId) (s : State) (calls : List WebSocketOutgoing) (socket : Socket) :
    Prop where
  undisturbed : Undisturbed socket
  frames : upTo isClose (front socket ++ queued s id) = upTo isClose calls
  channel : id ∈ s.loop.wsCommands ∨ (front socket).any isClose = true
  cancelled : s.isCancelled socket.scope = false

structure Inv (id : WebSocketId) (s : State) (log : List (WebSocketId × WebSocketOutgoing)) :
    Prop where
  orderly : Closing.Orderly s
  running : s.running = true
  pairs : (s.loop.pairs.getD []).Nodup
  unborn : s.nextSocketId ≤ id → asked id log = []
  waits : .webSocketPair id ∈ s.toScheduler → ∃ before after,
    s.toScheduler = before ++ .webSocketPair id :: after ∧
      after.flatMap (messageFrames id) = asked id log
  kept : ∀ socket ∈ s.sockets, socket.id = id → socket.kind = .server →
    Kept id s (asked id log) socket

theorem inv_init : Inv id machine.init [] where
  orderly := Closing.orderly_init
  running := rfl
  pairs := nodup_nil
  unborn _ := rfl
  waits h := absurd h not_mem_nil
  kept _ h := absurd h not_mem_nil

theorem mem_waiting (h : .webSocketPair id ∈ s.toScheduler) : id ∈ s.waiting :=
  mem_filterMap.mpr ⟨_, h, rfl⟩

/-- A message is queued. -/
theorem inv_send {next : WebSocketId} {log' : List (WebSocketId × WebSocketOutgoing)}
    (h : Inv id s log) (hle : s.nextSocketId ≤ next)
    (horderly : Closing.Orderly
      { s with toScheduler := s.toScheduler ++ [message], nextSocketId := next })
    (hasked : asked id log' =
      asked id log ++ if id < s.nextSocketId then messageFrames id message else [])
    (hpair : message = .webSocketPair id → id = s.nextSocketId) :
    Inv id { s with toScheduler := s.toScheduler ++ [message], nextSocketId := next } log' := by
  have hborn : id < s.nextSocketId → asked id log' = asked id log ++ messageFrames id message :=
    fun hlt => hasked.trans (by rw [if_pos hlt])
  have hunborn : s.nextSocketId ≤ id → asked id log' = [] := by
    intro hge
    rw [hasked, h.unborn hge, if_neg (Nat.not_lt.mpr hge)]
    rfl
  refine ⟨horderly, h.running, h.pairs, fun hge => hunborn (Nat.le_trans hle hge), ?_, ?_⟩
  · intro hmem
    rcases mem_append.mp hmem with hmem | hmem
    · have hlt := h.orderly.fresh.lt id (mem_append_left _ (mem_waiting hmem))
      obtain ⟨before, after, hqueue, hafter⟩ := h.waits hmem
      refine ⟨before, after ++ [message], ?_, ?_⟩
      · change s.toScheduler ++ [message] = _
        rw [hqueue, append_assoc, cons_append]
      · rw [flatMap_append, flatMap_singleton, hafter, hborn hlt]
    · cases mem_singleton.mp hmem
      exact ⟨s.toScheduler, [], rfl, (hunborn (Nat.le_of_eq (hpair rfl).symm)).symm⟩
  · intro socket hmem hid hkind
    have hlt := h.orderly.fresh.lt id
      (mem_append_right _ (hid ▸ List.mem_map_of_mem hmem))
    have hkept := h.kept socket hmem hid hkind
    refine ⟨hkept.undisturbed, ?_, hkept.channel, hkept.cancelled⟩
    rw [queued, flatMap_append, flatMap_singleton, ← append_assoc, hborn hlt]
    exact upTo_append_congr hkept.frames _

/-- What the guest asks for in a call on the socket. -/
theorem asked_observe (log : List (WebSocketId × WebSocketOutgoing))
    (message : SchedulerMessage) :
    asked id (log ++ observe s (.send message)) =
      asked id log ++ if id < s.nextSocketId then messageFrames id message else [] := by
  rw [asked, filter_append, map_append]
  refine congrArg (asked id log ++ ·) ?_
  have hcall : ∀ (id' : WebSocketId) (frame : WebSocketOutgoing),
      ((if id' < s.nextSocketId then [(id', frame)] else []).filter fun call => call.1 = id).map
          Prod.snd =
        if id < s.nextSocketId then if id' = id then [frame] else [] else [] := by
    intro id' frame
    by_cases heq : id' = id
    · subst heq
      split <;> simp
    · split <;> simp [heq]
  cases message
  case webSocketSend id' frame => exact hcall id' frame
  case webSocketClose id' code reason => exact hcall id' (.close code reason)
  all_goals exact (ite_self []).symm

/-- A step that touches neither the queue nor the socket. -/
theorem Inv.still (h : Inv id s log) (horderly : Closing.Orderly s')
    (hrunning : s'.running = s.running) (hpairs : s'.loop.pairs = s.loop.pairs)
    (hnext : s.nextSocketId ≤ s'.nextSocketId) (hqueue : s'.toScheduler = s.toScheduler)
    (hsockets : s'.sockets = s.sockets) (hcommands : s'.loop.wsCommands = s.loop.wsCommands)
    (hcancelled : ∀ socket ∈ s.sockets, socket.id = id →
      s'.isCancelled socket.scope = s.isCancelled socket.scope) :
    Inv id s' log := by
  refine ⟨horderly, hrunning.trans h.running, hpairs ▸ h.pairs,
    fun hge => h.unborn (Nat.le_trans hnext hge), hqueue ▸ h.waits, ?_⟩
  intro socket hmem hid hkind
  rw [hsockets] at hmem
  have hkept := h.kept socket hmem hid hkind
  refine ⟨hkept.undisturbed, ?_, hcommands ▸ hkept.channel, ?_⟩
  · rw [queued, hqueue]
    exact hkept.frames
  · rw [hcancelled socket hmem hid]
    exact hkept.cancelled

/-- A change of one socket that moves its frames on. -/
theorem Inv.modify {i : Nat} {f : Socket → Socket} (h : Inv id s log)
    (horderly : Closing.Orderly (s.modify i f)) (hsocket : s.sockets[i]? = some socket)
    (hid : (f socket).id = socket.id) (hkind : (f socket).kind = socket.kind)
    (hscope : (f socket).scope = socket.scope)
    (hmove : socket.id = id → socket.kind = .server → Kept id s (asked id log) socket →
      Undisturbed (f socket) ∧ front (f socket) = front socket) :
    Inv id (s.modify i f) log := by
  have hother : ∀ socket ∈ s.sockets, socket.id = id → socket.kind = .server →
      Kept id (s.modify i f) (asked id log) socket := by
    intro socket hmem hid hkind
    have hkept := h.kept socket hmem hid hkind
    exact ⟨hkept.undisturbed, hkept.frames, hkept.channel, hkept.cancelled⟩
  refine ⟨horderly, h.running, h.pairs, h.unborn, h.waits, forall_mem_modify hother ?_⟩
  intro socket' hsocket' hid' hkind'
  cases hsocket.symm.trans hsocket'
  rw [hid] at hid'
  rw [hkind] at hkind'
  have hkept := h.kept socket (mem_of_getElem? hsocket) hid' hkind'
  obtain ⟨hundisturbed, hfront⟩ := hmove hid' hkind' hkept
  refine ⟨hundisturbed, ?_, ?_, ?_⟩
  · rw [hfront]
    exact hkept.frames
  · rw [hfront]
    exact hkept.channel
  · rw [hscope]
    exact hkept.cancelled

/-- The client does not give the socket up. -/
theorem Undisturbed.touched {i : Nat} {op : Op} {socket' : Socket} (h : Undisturbed socket)
    (htouched : Touched i socket op socket') (hguard : Guard id s op)
    (hsocket : s.sockets[i]? = some socket) (hid : socket.id = id) :
    Undisturbed socket' ∧ front socket' = front socket := by
  cases htouched with
  | outcome connected =>
      refine ⟨⟨?_, h.incoming, h.peerGone, h.hungUp, h.ended⟩, rfl⟩
      rw [hguard socket hsocket hid]
      exact nofun
  | peer message =>
      refine ⟨⟨h.outcome, fun m hm => ?_, h.peerGone, h.hungUp, h.ended⟩, rfl⟩
      rcases mem_append.mp hm with hm | hm
      · exact h.incoming m hm
      · cases mem_singleton.mp hm
        exact hguard socket hsocket hid
  | vanish => exact absurd hid (hguard socket hsocket)

/-- The socket of a message that waits is not there yet. -/
theorem Inv.spares (h : Inv id s log) (hqueue : s.toScheduler = message :: rest)
    (hgentle : gentle id s message = true) (hmem : id ∈ s.sockets.map Socket.id) :
    Spares s.loop id message := by
  refine ⟨?_, ?_, ?_⟩
  · intro hmakes
    refine h.orderly.fresh.not_taken ?_ hmem
    rw [waiting_of_handle hqueue, hmakes]
    exact mem_cons_self
  · cases message <;> first | rfl | exact absurd hmem (of_decide_eq_true hgentle)
  · rintro named rfl
    rcases Bool.or_eq_true_iff.mp hgentle with hpair | hnamed
    · have hpair := of_decide_eq_true hpair
      cases named with
      | none => exact hpair
      | some id' => exact fun hmem => hpair (mem_of_mem_erase hmem)
    · cases of_decide_eq_true hnamed
      exact h.pairs.not_mem_erase

theorem isCancelled_handle {alive : Bool} {scope : Scope} (hspares : Spares s.loop id message) :
    (s.handle alive message rest).isCancelled scope = s.isCancelled scope := by
  rw [State.isCancelled, State.isCancelled, State.handle, hspares.cancels, append_nil]

theorem front_receive (effects : List Effect) :
    front (socket.receive effects) =
      front socket ++ (commandsFor socket.id effects).flatMap commandFrames := by
  simp only [front, Socket.receive, commandsFor, flatMap_append, append_assoc]

/-- A socket that is there gets what the message asks of it. -/
theorem Kept.handle {alive : Bool} {calls : List WebSocketOutgoing} (h : Kept id s calls socket)
    (hid : socket.id = id) (hqueue : s.toScheduler = message :: rest)
    (hspares : Spares s.loop id message) :
    Kept id (s.handle alive message rest) calls
      (socket.receive (s.loop.handle alive s.handled message).2) := by
  have hfront : front (socket.receive (s.loop.handle alive s.handled message).2) = _ :=
    front_receive _
  have hqueued : queued s id = messageFrames id message ++ rest.flatMap (messageFrames id) := by
    rw [queued, hqueue, flatMap_cons]
  have hclosed : (front socket).any isClose = true →
      (front (socket.receive (s.loop.handle alive s.handled message).2)).any isClose = true := by
    intro hany
    rw [hfront, any_append, hany]
    rfl
  by_cases hmem : id ∈ s.loop.wsCommands
  · rw [hid, commandsFor_handle _ _ hmem, flatMap_commandOf] at hfront
    have hnew : (messageFrames id message).any isClose = true →
        (front (socket.receive (s.loop.handle alive s.handled message).2)).any isClose = true := by
      intro hany
      rw [hfront, any_append, hany, Bool.or_true]
    refine ⟨⟨h.undisturbed.outcome, h.undisturbed.incoming, h.undisturbed.peerGone, ?_,
      h.undisturbed.ended⟩, ?_, ?_, ?_⟩
    · intro hhungUp
      rcases Bool.or_eq_true_iff.mp hhungUp with hhungUp | hhangs
      · exact hclosed (h.undisturbed.hungUp hhungUp)
      · exact hnew (hspares.hangsUp _ _ (hid ▸ hhangs)).2
    · rw [hfront, append_assoc]
      exact (congrArg (fun frames => upTo isClose (front socket ++ frames)) hqueued).symm.trans
        h.frames
    · exact (hspares.wsCommands (s.loop.becomes_handle _ _ message) hmem).imp_right hnew
    · exact (isCancelled_handle hspares).trans h.cancelled
  · -- The channel is gone, so the Close is on its way and what comes behind it does not matter.
    have hany := h.channel.resolve_left hmem
    rw [hid, commandsFor_of_not_mem _ _ hmem, flatMap_nil, append_nil] at hfront
    refine ⟨⟨h.undisturbed.outcome, h.undisturbed.incoming, h.undisturbed.peerGone,
      fun _ => hclosed hany, h.undisturbed.ended⟩, ?_, .inr (hclosed hany), ?_⟩
    · rw [hfront, upTo_append_of_any hany, ← h.frames, upTo_append_of_any hany]
    · exact (isCancelled_handle hspares).trans h.cancelled

/-- The server end of a pair that the response can carry. -/
theorem kept_ofPair {alive : Bool} (hgentle : gentle id s (.webSocketPair id) = true) :
    Kept id (s.handle alive (.webSocketPair id) rest) (rest.flatMap (messageFrames id))
      (.ofPair id s.loop.pairs.isSome s.loop.scope) := by
  rw [gentle, decide_eq_false (not_not_intro rfl), Bool.false_or, Bool.and_eq_true,
    Bool.not_eq_true'] at hgentle
  obtain ⟨hpairs, hcancelled⟩ := hgentle
  obtain ⟨pairs, hpairs⟩ := isSome_iff_exists.mp hpairs
  refine ⟨⟨nofun, nofun, rfl, ?_, nofun⟩, rfl, .inl ?_, ?_⟩
  · rw [hpairs]
    exact nofun
  · simp only [State.handle, EventLoop.handle, hpairs]
    exact mem_cons_self
  · have hcancels :
        (s.loop.handle alive s.handled (.webSocketPair id)).2.filterMap cancels = [] := by
      simp only [EventLoop.handle, hpairs]
      rfl
    rw [State.isCancelled, State.handle, hcancels, append_nil]
    exact hcancelled

/-- What the guest asked of a pair before its message is handled is in the queue behind it. -/
theorem Inv.behind_pair (h : Inv id s log) (hqueue : s.toScheduler = .webSocketPair id :: rest) :
    .webSocketPair id ∉ rest ∧ rest.flatMap (messageFrames id) = asked id log := by
  have honce : SchedulerMessage.webSocketPair id ∉ rest := by
    intro hmem
    have hnodup := (nodup_append.mp h.orderly.fresh.nodup).1
    rw [waiting_of_handle hqueue] at hnodup
    exact (nodup_cons.mp hnodup).1 (mem_filterMap.mpr ⟨_, hmem, rfl⟩)
  refine ⟨honce, ?_⟩
  obtain ⟨before, after, hsplit, hafter⟩ := h.waits (hqueue ▸ mem_cons_self)
  rw [hqueue] at hsplit
  cases before with
  | nil =>
      cases hsplit
      exact hafter
  | cons first before =>
      cases hsplit
      exact absurd (mem_append_right _ mem_cons_self) honce

theorem inv_handle {alive : Bool} (h : Inv id s log) (hqueue : s.toScheduler = message :: rest)
    (hgentle : gentle id s message = true) : Inv id (s.handle alive message rest) log := by
  refine ⟨Closing.orderly_handle h.orderly hqueue, h.running,
    pairs_nodup (s.loop.becomes_handle _ _ message) h.pairs, h.unborn, ?_, ?_⟩
  · intro hmem
    obtain ⟨before, after, hsplit, hafter⟩ := h.waits (hqueue ▸ mem_cons_of_mem _ hmem)
    rw [hqueue] at hsplit
    cases before with
    | nil =>
        cases hsplit
        exact absurd hmem (h.behind_pair hqueue).1
    | cons first before =>
        cases hsplit
        exact ⟨before, after, rfl, hafter⟩
  · intro socket hmem hid hkind
    rw [handle_sockets] at hmem
    rcases mem_append.mp hmem with hmem | hmem
    · obtain ⟨socket, hsocket, rfl⟩ := List.mem_map.mp hmem
      change socket.id = id at hid
      have hthere : id ∈ s.sockets.map Socket.id := hid ▸ List.mem_map_of_mem hsocket
      exact (h.kept socket hsocket hid hkind).handle hid hqueue (h.spares hqueue hgentle hthere)
    · cases message <;> cases mem_toList.mp hmem
      · cases hkind
      · cases hid
        rw [← (h.behind_pair hqueue).2]
        exact kept_ofPair hgentle

theorem inv_step (id : WebSocketId) (s : State) (log : List (WebSocketId × WebSocketOutgoing))
    (op : Op) (s' : State) (h : Inv id s log) (hguard : Guard id s op)
    (hstep : machine.step s op = some s') : Inv id s' (log ++ observe s op) := by
  have horderly := Closing.orderly_step s op s' h.orderly hstep
  -- The steps that the guest does not take add nothing to the log.
  have hsame : ∀ {s'}, Inv id s' log → Inv id s' (log ++ []) := fun h => by rwa [append_nil]
  have hquiet : asked id (log ++ []) = asked id log ++ if id < s.nextSocketId then [] else [] := by
    rw [ite_self, append_nil, append_nil]
  cases moved_step hstep with
  | @send message hsendable =>
      refine inv_send h (Nat.le_refl _) horderly (asked_observe log message) ?_
      rintro rfl
      cases hsendable
  | pair =>
      refine inv_send h (Nat.le_succ _) horderly hquiet fun hmessage => ?_
      cases hmessage
      rfl
  | connect => exact inv_send h (Nat.le_succ _) horderly hquiet nofun
  | closeUnaccepted =>
      refine inv_send h (Nat.le_refl _) horderly ?_ nofun
      rw [messageFrames, if_neg hguard]
      exact hquiet
  | @handle alive message rest hqueue =>
      exact hsame (inv_handle h hqueue (hguard message (by rw [hqueue]; rfl)))
  | touch hsocket htouched =>
      have hinv := h.modify horderly hsocket htouched.id htouched.kind htouched.scope
        fun hid _ hkept => hkept.undisturbed.touched htouched hguard hsocket hid
      rcases htouched.cases_op with ⟨_, rfl⟩ | ⟨_, rfl⟩ | rfl <;> exact hsame hinv
  | @poll i socket hsocket hmode =>
      have hpolled := socket.polled (s.isCancelled socket.scope)
      refine hsame (h.modify horderly hsocket hpolled.id hpolled.kind hpolled.scope
        fun hid hkind hkept => ?_)
      rw [hkept.cancelled] at hpolled ⊢
      have hclose : socket.connected = false → (socket.poll false).mode ≠ .ended .guestClosed := by
        intro hconnected hended
        obtain ⟨hpolls, code, reason, hhead⟩ := (Socket.poll_guestClosed_iff _ hmode).mp hended
        exact nomatch hguard socket hsocket hid hconnected hpolls _ hhead
      exact hkept.undisturbed.polled (h.orderly.regular _ (mem_of_getElem? hsocket)) hkind
        hpolled hclose
  | @cancel scope =>
      refine hsame (h.still horderly rfl rfl (Nat.le_refl _) rfl rfl rfl fun socket hmem hid => ?_)
      simp [State.isCancelled, hguard socket hmem hid]
  | abortLoop | cancelContext => cases hguard
  | otherSocket | relay =>
      exact hsame (h.still horderly rfl rfl (Nat.le_succ _) rfl rfl rfl fun _ _ _ => rfl)
  | answer =>
      exact hsame (h.still horderly rfl rfl (Nat.le_refl _) rfl rfl rfl fun _ _ _ => rfl)

end System

end OpenWorkers.Sockets.Frames
