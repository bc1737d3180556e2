import OpenWorkers.Lib.Erase
import OpenWorkers.Sockets.System

/-!
# A socket closes once

The task of a socket that has ended has told the guest so in its last event, and has sent a Close
frame as the last frame to a peer it was connected to, unless the peer went first.  There is one
way out that says nothing: a connected task that finds its command channel closed just leaves.
It gets there when the channel is dropped before its token is cancelled, as by an aborted loop,
and when `BeginRequest` does both between the polls of its two branches.
-/

namespace OpenWorkers.Sockets.Closing

open List Object Scheduler

/-- One element has the property, and it is the last one. -/
def OnlyLast {α : Type} (p : α → Bool) (l : List α) : Prop :=
  l.countP p = 1 ∧ l.getLast?.any p = true

theorem onlyLast_concat {α : Type} {p : α → Bool} {l : List α} {x : α} (h : l.countP p = 0)
    (hx : p x = true) : OnlyLast p (l ++ [x]) := by
  refine ⟨?_, ?_⟩
  · rw [countP_append, h, countP_singleton, if_pos hx]
  · rw [getLast?_concat]
    exact hx

/-- Until its task ends nothing says that the socket is closed.  Then the last event of the guest
does, and no other, and the last frame to a connected peer that did not leave itself. -/
structure ClosesOnce (socket : Socket) : Prop where
  open_event : (∀ exit, socket.mode ≠ .ended exit) →
    socket.events.countP WebSocketIncoming.isClosed = 0
  open_frame : (∀ exit, socket.mode ≠ .ended exit) → socket.frames.countP isClose = 0
  event : ∀ exit, socket.mode = .ended exit → OnlyLast WebSocketIncoming.isClosed socket.events
  frame : ∀ exit, socket.mode = .ended exit → socket.connected = true → exit ≠ .peerClosed →
    OnlyLast isClose socket.frames

/-- No connected task finds its command channel closed. -/
def Guard (s : State) : Op → Prop
  | .poll i => ∀ socket ∈ s.sockets[i]?, socket.mode.isPumping = true →
      socket.pollsCommands = true → socket.commands = [] → socket.hungUp = false
  | _ => True

instance (s : State) (op : Op) : Decidable (Guard s op) := by
  cases op <;> dsimp only [Guard] <;> infer_instance

/-! ## One socket -/

variable {socket socket' : Socket}

/-- Nothing said that the socket is closed. -/
structure Silent (socket : Socket) : Prop where
  event : socket.events.countP WebSocketIncoming.isClosed = 0
  frame : socket.frames.countP isClose = 0

/-- What holds of a socket in each mode of its task. -/
def Fits (socket : Socket) : Mode → Prop
  | .connecting => socket.kind = .client ∧ socket.connected = false ∧ Silent socket
  | .early _ _ kept =>
    socket.connected = false ∧ kept.countP isClose = 0 ∧ Silent socket
  | .pumping _ => socket.connected = true ∧ Silent socket
  | .ended .connectFailed => socket.kind = .client ∧ socket.connected = false
  | .ended .hungUp =>
    socket.connected = true ∧ socket.events.countP WebSocketIncoming.isClosed = 0
  | .ended .peerClosed => OnlyLast WebSocketIncoming.isClosed socket.events
  | .ended .cancelled | .ended .notUpgraded | .ended .notCarried | .ended .guestClosed =>
    OnlyLast WebSocketIncoming.isClosed socket.events ∧
      (socket.connected = true → OnlyLast isClose socket.frames)

structure Regular (socket : Socket) : Prop where
  /-- A Close frame is never sent as data. -/
  commands : ∀ frame, .send frame ∈ socket.commands → isClose frame = false
  fits : Fits socket socket.mode

theorem Fits.congr {mode : Mode} (h : Fits socket mode) (hkind : socket'.kind = socket.kind)
    (hconnected : socket'.connected = socket.connected) (hframes : socket'.frames = socket.frames)
    (hevents : socket'.events = socket.events) : Fits socket' mode := by
  have hsilent : Silent socket → Silent socket' := by
    rintro ⟨hevent, hframe⟩
    exact ⟨hevents ▸ hevent, hframes ▸ hframe⟩
  cases mode with
  | connecting => exact ⟨hkind ▸ h.1, hconnected ▸ h.2.1, hsilent h.2.2⟩
  | early => exact ⟨hconnected ▸ h.1, h.2.1, hsilent h.2.2⟩
  | pumping => exact ⟨hconnected ▸ h.1, hsilent h.2⟩
  | ended exit =>
      cases exit <;> simp only [Fits, hkind, hconnected, hframes, hevents] at h ⊢ <;> exact h

theorem countP_commandFrames {command : WebSocketCommand} {commands : List WebSocketCommand}
    (hcommands : ∀ frame, .send frame ∈ command :: commands → isClose frame = false)
    (hclose : ∀ code reason, command ≠ .close code reason) :
    (commandFrames command).countP isClose = 0 := by
  cases command with
  | attach => rfl
  | accept => rfl
  | send frame =>
      rw [commandFrames, countP_singleton, hcommands frame mem_cons_self]
      rfl
  | close code reason => exact absurd rfl (hclose code reason)

theorem Regular.polled {cancelled : Bool} (h : Regular socket)
    (hpolled : Socket.Polled cancelled socket socket') : Regular socket' := by
  have hfits := h.fits
  have hrest : ∀ {command commands}, socket.commands = command :: commands →
      ∀ frame, .send frame ∈ commands → isClose frame = false := by
    intro command commands hcommands frame hmem
    exact h.commands frame (hcommands ▸ mem_cons_of_mem _ hmem)
  -- A server end that leaves early was not connected, so it owes the peer nothing.
  have hnone : socket.connected = false → ∀ frames : List WebSocketOutgoing,
      socket.connected = true → OnlyLast isClose frames := by
    intro hfalse _ htrue
    rw [hfalse] at htrue
    cases htrue
  cases hpolled with
  | next => exact ⟨h.commands, hfits.congr rfl rfl rfl rfl⟩
  | connectFailed hmode =>
      rw [hmode] at hfits
      exact ⟨h.commands, hfits.1, hfits.2.1⟩
  | connect hmode =>
      rw [hmode] at hfits
      exact ⟨h.commands, rfl, hfits.2.2.event, hfits.2.2.frame⟩
  | leave hmode hexit =>
      rw [hmode] at hfits
      rcases hexit with ⟨rfl, _⟩ | ⟨rfl, _⟩ | ⟨rfl, _⟩
      all_goals exact ⟨h.commands, onlyLast_concat hfits.2.2.event rfl, hnone hfits.1 _⟩
  | leaveClosed hmode hcommands =>
      rw [hmode] at hfits
      exact ⟨hrest hcommands, onlyLast_concat hfits.2.2.event rfl, hnone hfits.1 _⟩
  | keep hmode hcommands hclose =>
      rw [hmode] at hfits
      refine ⟨hrest hcommands, hfits.1, ?_, hfits.2.2.event, hfits.2.2.frame⟩
      rw [countP_append, hfits.2.1, countP_commandFrames (hcommands ▸ h.commands) hclose]
  | upgrade hmode =>
      rw [hmode] at hfits
      refine ⟨h.commands, rfl, hfits.2.2.event, ?_⟩
      change (socket.frames ++ _).countP isClose = 0
      rw [countP_append, hfits.2.2.frame, hfits.2.1]
  | cancel hmode =>
      rw [hmode] at hfits
      exact ⟨h.commands, onlyLast_concat hfits.2.event rfl,
        fun _ => onlyLast_concat hfits.2.frame rfl⟩
  | pump hmode hmode' hcommands hclose =>
      rw [hmode] at hfits
      obtain ⟨accepted, rfl⟩ := hmode'
      refine ⟨hrest hcommands, hfits.1, hfits.2.event, ?_⟩
      change (socket.frames ++ _).countP isClose = 0
      rw [countP_append, hfits.2.frame, countP_commandFrames (hcommands ▸ h.commands) hclose]
  | close hmode hcommands =>
      rw [hmode] at hfits
      exact ⟨hrest hcommands, onlyLast_concat hfits.2.event rfl,
        fun _ => onlyLast_concat hfits.2.frame rfl⟩
  | hangUp hmode =>
      rw [hmode] at hfits
      exact ⟨h.commands, hfits.1, hfits.2.event⟩
  | receive hmode hincoming hopen =>
      refine ⟨h.commands, ?_⟩
      change Fits _ socket.mode
      rw [hmode] at hfits ⊢
      refine ⟨hfits.1, ?_, hfits.2.frame⟩
      change (socket.events ++ [_]).countP _ = 0
      rw [countP_append, hfits.2.event, countP_singleton, hopen]
      rfl
  | lose hmode =>
      rw [hmode] at hfits
      exact ⟨h.commands, onlyLast_concat hfits.2.event rfl⟩

/-- A socket closes once exactly if its task did not leave for a closed command channel. -/
theorem Regular.closesOnce_iff (h : Regular socket) :
    (socket.kind = .server ∨ socket.connected = true → ClosesOnce socket) ↔
      socket.mode ≠ .ended .hungUp := by
  have hfits := h.fits
  constructor
  · intro hcloses hmode
    rw [hmode] at hfits
    have hlast := (hcloses (.inr hfits.1)).event .hungUp hmode
    rw [OnlyLast, hfits.2] at hlast
    exact absurd hlast.1 nofun
  · intro hne hopen
    have hsilent : (∀ exit, socket.mode ≠ .ended exit) → Silent socket := by
      intro hmode
      cases hcase : socket.mode with
      | connecting => exact (hcase ▸ hfits : Fits socket .connecting).2.2
      | early attached accepted kept =>
          exact (hcase ▸ hfits : Fits socket (.early attached accepted kept)).2.2
      | pumping accepted => exact (hcase ▸ hfits : Fits socket (.pumping accepted)).2
      | ended exit => exact absurd hcase (hmode exit)
    refine ⟨fun h => (hsilent h).event, fun h => (hsilent h).frame, ?_, ?_⟩
    · intro exit hmode
      rw [hmode] at hfits
      cases exit with
      | connectFailed =>
          obtain ⟨hkind, hconnected⟩ := hfits
          rw [hkind, hconnected] at hopen
          exact absurd hopen (by decide)
      | hungUp => exact absurd hmode hne
      | peerClosed => exact hfits
      | cancelled | notUpgraded | notCarried | guestClosed => exact hfits.1
    · intro exit hmode hconnected hpeer
      rw [hmode] at hfits
      cases exit with
      | connectFailed =>
          rw [hfits.2] at hconnected
          cases hconnected
      | hungUp => exact absurd hmode hne
      | peerClosed => exact absurd rfl hpeer
      | cancelled | notUpgraded | notCarried | guestClosed => exact hfits.2 hconnected

/-! ## All sockets -/

variable {s s' : State}

structure Orderly (s : State) : Prop where
  fresh : Fresh s.waiting (s.sockets.map Socket.id) s.nextSocketId
  sends : ∀ id frame, .webSocketSend id frame ∈ s.toScheduler → isClose frame = false
  regular : ∀ socket ∈ s.sockets, Regular socket

theorem orderly_init : Orderly machine.init where
  fresh := Fresh.nil 0
  sends _ _ h := absurd h not_mem_nil
  regular _ h := absurd h not_mem_nil

/-- A step that does not touch the sockets, and sends no Close frame as data. -/
theorem Orderly.send {message : SchedulerMessage} (h : Orderly s)
    (hqueue : s'.toScheduler = s.toScheduler ++ [message])
    (hmessage : ∀ id frame, message = .webSocketSend id frame → isClose frame = false)
    (hsockets : s'.sockets = s.sockets)
    (hfresh : Fresh (s.waiting ++ (makes message).toList) (s.sockets.map Socket.id)
      s'.nextSocketId) : Orderly s' where
  fresh := by
    rw [hsockets, waiting_of_send hqueue]
    exact hfresh
  sends id frame hmem := by
    rw [hqueue] at hmem
    rcases mem_append.mp hmem with hmem | hmem
    · exact h.sends id frame hmem
    · exact hmessage id frame (mem_singleton.mp hmem).symm
  regular := by
    rw [hsockets]
    exact h.regular

theorem Regular.receive (h : Regular socket) {effects : List Effect}
    (heffects : ∀ id frame, .command id (.send frame) ∈ effects → isClose frame = false) :
    Regular (socket.receive effects) where
  commands frame hmem := by
    rcases mem_append.mp hmem with hmem | hmem
    · exact h.commands frame hmem
    · obtain ⟨effect, heffect, hcommand⟩ := mem_filterMap.mp hmem
      cases effect with
      | command id command =>
          simp only [commandFor] at hcommand
          split at hcommand
          · cases hcommand
            exact heffects id frame heffect
          · cases hcommand
      | spawn | enqueue | openGate | hangUp | closeStream | cancel => cases hcommand
  fits := h.fits.congr rfl rfl rfl rfl

theorem regular_newSocket {l : EventLoop} {message : SchedulerMessage}
    (h : socket ∈ (newSocket l message).toList) : Regular socket := by
  cases message <;> cases Option.mem_toList.mp h
  · exact ⟨nofun, rfl, rfl, rfl, rfl⟩
  · exact ⟨nofun, rfl, rfl, rfl, rfl⟩

theorem newSocket_id (l : EventLoop) (message : SchedulerMessage) :
    (newSocket l message).toList.map Socket.id = (makes message).toList := by
  cases message <;> rfl

theorem orderly_handle {alive : Bool} {message : SchedulerMessage}
    {rest : List SchedulerMessage} (h : Orderly s) (hqueue : s.toScheduler = message :: rest) :
    Orderly (s.handle alive message rest) := by
  refine ⟨?_, ?_, ?_⟩
  · have hfresh := h.fresh
    rw [waiting_of_handle hqueue] at hfresh
    rw [handle_sockets, map_append, map_map, newSocket_id]
    exact hfresh.take (List.Sublist.refl _)
  · exact fun id frame hmem => h.sends id frame (hqueue ▸ mem_cons_of_mem _ hmem)
  · intro socket hmem
    rw [handle_sockets] at hmem
    rcases mem_append.mp hmem with hmem | hmem
    · obtain ⟨socket, hsocket, rfl⟩ := mem_map.mp hmem
      refine (h.regular socket hsocket).receive fun id frame heffect => ?_
      cases EventLoop.does_of_mem_handle heffect with
      | send => exact h.sends id frame (hqueue ▸ mem_cons_self)
    · exact regular_newSocket hmem

theorem Orderly.modify {i : Nat} {f : Socket → Socket} (h : Orderly s)
    (hid : ∀ socket, s.sockets[i]? = some socket → (f socket).id = socket.id)
    (hregular : ∀ socket, s.sockets[i]? = some socket → Regular (f socket)) :
    Orderly (s.modify i f) where
  fresh := by
    rw [State.modify, map_modify_of_eq hid]
    exact h.fresh
  sends := h.sends
  regular := forall_mem_modify h.regular hregular

theorem Regular.touched {i : Nat} {op : Op} (h : Regular socket)
    (htouched : Touched i socket op socket') : Regular socket' := by
  cases htouched with
  | outcome => exact ⟨h.commands, h.fits.congr rfl rfl rfl rfl⟩
  | peer => exact ⟨h.commands, h.fits.congr rfl rfl rfl rfl⟩
  | vanish => exact ⟨h.commands, h.fits.congr rfl rfl rfl rfl⟩

theorem orderly_step (s : State) (op : Op) (s' : State) (h : Orderly s)
    (hstep : machine.step s op = some s') : Orderly s' := by
  cases moved_step hstep with
  | send hsendable =>
      refine h.send rfl ?_ rfl ?_
      · rintro id frame rfl
        simpa [sendable] using hsendable
      · rw [makes_of_sendable hsendable, Option.toList_none, append_nil]
        exact h.fresh
  | pair => exact h.send rfl nofun rfl h.fresh.give
  | connect => exact h.send rfl nofun rfl h.fresh.give
  | closeUnaccepted =>
      refine h.send rfl nofun rfl ?_
      change Fresh (s.waiting ++ []) _ _
      rw [append_nil]
      exact h.fresh
  | otherSocket => exact ⟨h.fresh.mono (Nat.le_succ _), h.sends, h.regular⟩
  | handle hqueue => exact orderly_handle h hqueue
  | relay => exact ⟨h.fresh.mono (Nat.le_succ _), h.sends, h.regular⟩
  | @touch _ i socket f hsocket htouched =>
      have hregular := h.regular socket (mem_of_getElem? hsocket)
      refine h.modify ?_ ?_ <;> intro socket' hsocket' <;> cases hsocket.symm.trans hsocket'
      · exact htouched.id
      · exact hregular.touched htouched
  | @poll i socket hsocket hmode =>
      have hregular := h.regular socket (mem_of_getElem? hsocket)
      refine h.modify ?_ ?_ <;> intro socket' hsocket' <;> cases hsocket.symm.trans hsocket'
      · exact (socket.polled _).id
      · exact hregular.polled (socket.polled _)
  | abortLoop =>
      refine ⟨?_, h.sends, ?_⟩
      · rw [map_map]
        exact h.fresh
      · intro socket hmem
        obtain ⟨socket, hsocket, rfl⟩ := mem_map.mp hmem
        have hregular := h.regular socket hsocket
        exact ⟨hregular.commands, hregular.fits.congr rfl rfl rfl rfl⟩
  | answer | cancel | cancelContext => exact ⟨h.fresh, h.sends, h.regular⟩

/-- No task has left for a closed command channel. -/
def NoneHungUp (s : State) : Prop :=
  ∀ socket ∈ s.sockets, socket.mode ≠ .ended .hungUp

theorem noneHungUp_init : NoneHungUp machine.init :=
  fun _ h => absurd h not_mem_nil

theorem noneHungUp_handle {alive : Bool} {message : SchedulerMessage}
    {rest : List SchedulerMessage} : NoneHungUp (s.handle alive message rest) ↔ NoneHungUp s := by
  rw [NoneHungUp, handle_sockets]
  constructor
  · intro h socket hmem
    exact h (socket.receive _) (mem_append_left _ (mem_map_of_mem hmem))
  · intro h socket hmem
    rcases mem_append.mp hmem with hmem | hmem
    · obtain ⟨socket, hsocket, rfl⟩ := mem_map.mp hmem
      exact h socket hsocket
    · cases message <;> cases Option.mem_toList.mp hmem <;> exact nofun

theorem noneHungUp_congr (h : s'.sockets.map Socket.mode = s.sockets.map Socket.mode) :
    NoneHungUp s' ↔ NoneHungUp s := by
  have hmap : ∀ s : State, NoneHungUp s ↔ ∀ mode ∈ s.sockets.map Socket.mode,
      mode ≠ .ended .hungUp := fun s => by rw [forall_mem_map, NoneHungUp]
  rw [hmap, hmap, h]

/-- A task leaves for a closed command channel in the polls that do not meet the condition. -/
theorem noneHungUp_step (s : State) (op : Op) (s' : State)
    (hstep : machine.step s op = some s') : NoneHungUp s' ↔ NoneHungUp s ∧ Guard s op := by
  cases moved_step hstep with
  | handle => exact noneHungUp_handle.trans (and_iff_left trivial).symm
  | @touch op i socket f hsocket htouched =>
      have hguard : Guard s op := by
        rcases htouched.cases_op with ⟨_, rfl⟩ | ⟨_, rfl⟩ | rfl <;> trivial
      refine (noneHungUp_congr (map_modify_of_eq ?_)).trans (and_iff_left hguard).symm
      intro socket' hsocket'
      cases hsocket.symm.trans hsocket'
      exact htouched.mode
  | @poll i socket hsocket hmode =>
      refine (forall_mem_modify_iff hsocket (hmode _)).trans (and_congr_right fun _ => ?_)
      rw [ne_eq, Socket.poll_hungUp_iff _ hmode, Guard, hsocket]
      constructor
      · rintro hnot socket' ⟨⟩ hpumping hpolls hcommands
        exact Bool.eq_false_iff.mpr fun hhungUp => hnot ⟨hpumping, hpolls, hcommands, hhungUp⟩
      · rintro hguard ⟨hpumping, hpolls, hcommands, hhungUp⟩
        rw [hguard socket rfl hpumping hpolls hcommands] at hhungUp
        cases hhungUp
  | abortLoop =>
      refine (noneHungUp_congr ?_).trans (and_iff_left trivial).symm
      rw [map_map]
      rfl
  | send | pair | connect | closeUnaccepted | otherSocket | answer | relay | cancel
  | cancelContext => exact (and_iff_left trivial).symm

/-- **The close of a socket.**  No two sockets share an id.  Every outgoing socket whose connect
succeeded and every server end tells the guest once that it is closed, with its last event, and a
connected one sends its peer one Close frame, as its last frame, unless the peer went first,
exactly in the runs in which no connected task finds its command channel closed. -/
theorem socket_closes_once (ops : List Op) (s : State) (hrun : machine.run ops = some s) :
    (s.sockets.map Socket.id).Nodup ∧
    ((∀ socket ∈ s.sockets, socket.kind = .server ∨ socket.connected = true → ClosesOnce socket) ↔
      machine.Meets Guard machine.init ops) := by
  have horderly : Orderly s := Machine.invariant orderly_init orderly_step hrun
  refine ⟨horderly.fresh.taken_nodup, ?_⟩
  have hiff : NoneHungUp s ↔ machine.Meets Guard machine.init ops :=
    Machine.iff_meets noneHungUp_init noneHungUp_step hrun
  rw [← hiff]
  exact forall₂_congr fun socket hmem => (horderly.regular socket hmem).closesOnce_iff

/-- An outgoing socket connects, the guest and the peer exchange a message, and the guest closes
it. -/
def exchange : List Op :=
  [.connect 1 "ws://a", .handle true, .outcome 0 true, .poll 0, .poll 0,
    .send (.webSocketAccept 0), .send (.webSocketSend 0 (.text "hi")), .handle true, .handle true,
    .poll 0, .poll 0, .poll 0, .poll 0, .peer 0 (.text "yes"), .poll 0, .poll 0, .poll 0,
    .send (.webSocketClose 0 1000 "bye"), .handle true, .poll 0, .poll 0]

theorem socket_closes_once_exchange :
    (∃ s, machine.run exchange = some s ∧
      s.sockets.map Socket.frames = [[.text "hi", .close 1000 "bye"]] ∧
      s.sockets.map Socket.events = [[.text "yes", .closed 1000 "bye"]]) ∧
    ∀ s, machine.run exchange = some s → ∀ socket ∈ s.sockets,
      socket.kind = .server ∨ socket.connected = true → ClosesOnce socket :=
  ⟨⟨_, rfl, rfl, rfl⟩,
    fun s hrun => (socket_closes_once exchange s hrun).2.mpr (by decide)⟩

/-- An outgoing socket that connected, and whose task left with no event and no frame. -/
def lost : Socket :=
  ⟨0, .client, 0, [], true, some true, [], false, .ended .hungUp, .command, true, [], []⟩

/-- Two ways to lose a socket with nothing said.  The loop of a dropped context is aborted, and
the task runs before the token is cancelled.  Or `BeginRequest` cancels the token and drops the
channel after the task has polled its token and before it polls the channel; the context goes on
living. -/
theorem connected_socket_leaves_silently :
    (machine.run [.connect 1 "ws://a", .handle true, .outcome 0 true, .poll 0, .poll 0,
      .abortLoop, .poll 0, .poll 0, .cancelContext]).map State.sockets = some [lost] ∧
    (machine.run [.connect 1 "ws://a", .handle true, .outcome 0 true, .poll 0, .poll 0, .poll 0,
      .send (.beginRequest none), .handle true, .poll 0]).map
        (fun s => (s.running, s.contextCancelled, s.sockets)) = some (true, false, [lost]) ∧
    ¬ ClosesOnce lost := by
  refine ⟨rfl, rfl, fun h => ?_⟩
  exact absurd (h.frame .hungUp rfl rfl nofun).1 (by decide)

end OpenWorkers.Sockets.Closing
