import OpenWorkers.Scheduler.Loop

/-!
# The task of a socket

`run_websocket`, `run_server_websocket` and `pump_websocket` of `src/runtime/scheduler.rs`.  The
task of an outgoing socket waits for the connection, the one of the server end of a pair for the
client; then both move messages.  All of them wait in a `select!` that polls its branches in
order, and anything can happen between the polls of two branches, so the model polls one branch
at a time: `poll` is one such poll.

What the task puts into the channel to the guest and into the one to the peer is kept as the
list of everything put in.
-/

namespace OpenWorkers.Sockets

open Object Scheduler

inductive WebSocketIncoming where
  | text (text : String)
  | binary (bytes : List UInt8)
  | closed (code : Nat) (reason : String)
  | error (message : String)
deriving DecidableEq, Repr

def WebSocketIncoming.isClosed : WebSocketIncoming → Bool
  | .closed _ _ => true
  | .text _ | .binary _ | .error _ => false

/-- The frame is a Close frame. -/
def isClose : WebSocketOutgoing → Bool
  | .close _ _ => true
  | .text _ | .binary _ => false

/-- `CANCELLED`. -/
def cancelledText : String := "Operation cancelled"

inductive End where
  | client
  | server
deriving DecidableEq, Repr

/-- The code and the reason of the Close frame of a cancelled socket. -/
def End.stopped : End → Nat × String
  | .client => (1001, cancelledText)
  | .server => (1011, "The worker stopped")

/-- The branch of its `select!` that a task polls next. -/
inductive Branch where
  /-- `cancel.cancelled()`. -/
  | cancel
  /-- The connect, or the upgrade of the client. -/
  | result
  /-- `cmd_rx.recv()`. -/
  | command
  /-- `recv_rx.recv()`. -/
  | message
deriving DecidableEq, Repr

/-- How a task ended. -/
inductive Exit where
  /-- It never connected, and the guest got an error for its connect. -/
  | connectFailed
  | cancelled
  | notUpgraded
  | notCarried
  | guestClosed
  | peerClosed
  /-- A connected socket lost its command channel. -/
  | hungUp
deriving DecidableEq, Repr

inductive Mode where
  | connecting
  /-- The server end before its client: the upgrade is attached, the guest has accepted, and
  what it sent. -/
  | early (attached accepted : Bool) (kept : List WebSocketOutgoing)
  | pumping (accepted : Bool)
  | ended (exit : Exit)
deriving DecidableEq, Repr

def Mode.isPumping : Mode → Bool
  | .pumping _ => true
  | _ => false

structure Socket where
  id : WebSocketId
  kind : End
  /-- The request whose token the task listens to. -/
  scope : Scope
  /-- The commands of the loop that the task has not received. -/
  commands : List WebSocketCommand
  /-- The loop has dropped its end of the command channel. -/
  hungUp : Bool
  /-- What became of the connect or the upgrade: `true` is a connection. -/
  outcome : Option Bool
  /-- The messages of the peer that the task has not received. -/
  incoming : List WebSocketIncoming
  peerGone : Bool
  mode : Mode
  branch : Branch
  connected : Bool
  /-- Everything sent to the peer. -/
  frames : List WebSocketOutgoing
  /-- Every event sent to the guest. -/
  events : List WebSocketIncoming
deriving DecidableEq, Repr

namespace Socket

/-- The task that `WebSocketConnect` starts. -/
def ofConnect (id : WebSocketId) (scope : Scope) : Socket :=
  ⟨id, .client, scope, [], false, none, [], false, .connecting, .cancel, false, [], []⟩

/-- The task that `WebSocketPair` starts.  The loop keeps no command channel of a pair that no
response can carry. -/
def ofPair (id : WebSocketId) (carried : Bool) (scope : Scope) : Socket :=
  ⟨id, .server, scope, [], !carried, none, [], false, .early false false [], .cancel, false, [],
    []⟩

def exit (s : Socket) (exit : Exit) : Socket := { s with mode := .ended exit }

def send (s : Socket) (frame : WebSocketOutgoing) : Socket :=
  { s with frames := s.frames ++ [frame] }

def event (s : Socket) (event : WebSocketIncoming) : Socket :=
  { s with events := s.events ++ [event] }

/-- The poll of one branch. -/
def poll (cancelled : Bool) (s : Socket) : Socket :=
  match s.mode, s.branch with
  | .ended _, _ => s
  | .connecting, .cancel =>
    if cancelled then s.exit .connectFailed else { s with branch := .result }
  | .connecting, _ =>
    match s.outcome with
    | none => { s with branch := .cancel }
    | some false => s.exit .connectFailed
    | some true => { s with mode := .pumping false, branch := .cancel, connected := true }
  | .early attached _ _, .cancel =>
    if cancelled then (s.event (.closed 1006 cancelledText)).exit .cancelled
    else { s with branch := if attached then .result else .command }
  | .early _ accepted kept, .result =>
    match s.outcome with
    | none => { s with branch := .command }
    | some false => (s.event (.closed 1006 "The client did not upgrade")).exit .notUpgraded
    | some true =>
      { s with
        mode := .pumping accepted, branch := .cancel, connected := true
        frames := s.frames ++ kept }
  | .early attached accepted kept, _ =>
    match s.commands with
    | .attach :: commands =>
      { s with commands, mode := .early true accepted kept, branch := .cancel }
    | .accept :: commands =>
      { s with commands, mode := .early attached true kept, branch := .cancel }
    | .send frame :: commands =>
      { s with commands, mode := .early attached accepted (kept ++ [frame]), branch := .cancel }
    | .close code reason :: commands =>
      ({ s with commands }.event (.closed code reason)).exit .guestClosed
    | [] =>
      if s.hungUp then
        (s.event (.closed 1006 "The response did not carry the socket")).exit .notCarried
      else
        { s with branch := .cancel }
  | .pumping _, .cancel =>
    if cancelled then
      ((s.send (.close s.kind.stopped.1 s.kind.stopped.2)).event
        (.closed 1006 s.kind.stopped.2)).exit .cancelled
    else
      { s with branch := .command }
  | .pumping _, .message =>
    match s.incoming with
    | message :: incoming =>
      let s := { s with incoming, branch := .cancel }.event message
      if message.isClosed then s.exit .peerClosed else s
    | [] =>
      if s.peerGone then (s.event (.closed 1006 "")).exit .peerClosed
      else { s with branch := .cancel }
  | .pumping accepted, _ =>
    match s.commands with
    | .attach :: commands => { s with commands, branch := .cancel }
    | .accept :: commands => { s with commands, mode := .pumping true, branch := .cancel }
    | .send frame :: commands => { s with commands, branch := .cancel }.send frame
    | .close code reason :: commands =>
      (({ s with commands }.send (.close code reason)).event (.closed code reason)).exit
        .guestClosed
    | [] =>
      -- The channel is closed and nothing says why: the task leaves without a word.
      if s.hungUp then s.exit .hungUp
      else { s with branch := if accepted then .message else .cancel }

/-- The next poll is one of the command channel. -/
def pollsCommands (s : Socket) : Bool :=
  match s.mode, s.branch with
  | .early _ _ _, .command | .early _ _ _, .message => true
  | .pumping _, .command | .pumping _, .result => true
  | _, _ => false

end Socket

/-! ## What a poll can do -/

/-- The frames that a command asks for. -/
def commandFrames : WebSocketCommand → List WebSocketOutgoing
  | .send frame => [frame]
  | .close code reason => [.close code reason]
  | .attach | .accept => []

namespace Socket

/-- What the poll of a branch does to a socket. -/
inductive Polled (cancelled : Bool) (s : Socket) : Socket → Prop
  /-- Nothing is ready: on to the next branch. -/
  | next (branch : Branch) : Polled cancelled s { s with branch }
  | connectFailed (hmode : s.mode = .connecting) : Polled cancelled s (s.exit .connectFailed)
  | connect (hmode : s.mode = .connecting) (houtcome : s.outcome = some true) :
      Polled cancelled s
        { s with mode := .pumping false, branch := .cancel, connected := true }
  /-- The server end leaves before it had a client. -/
  | leave {attached accepted : Bool} {kept : List WebSocketOutgoing} {exit : Exit}
      {reason : String} (hmode : s.mode = .early attached accepted kept)
      (hexit : exit = .cancelled ∧ cancelled = true ∨
        exit = .notUpgraded ∧ s.outcome = some false ∨
        exit = .notCarried ∧ s.commands = [] ∧ s.hungUp = true) :
      Polled cancelled s ((s.event (.closed 1006 reason)).exit exit)
  | leaveClosed {attached accepted : Bool} {kept : List WebSocketOutgoing} {code : Nat}
      {reason : String} {commands : List WebSocketCommand}
      (hmode : s.mode = .early attached accepted kept)
      (hcommands : s.commands = .close code reason :: commands) :
      Polled cancelled s (({ s with commands }.event (.closed code reason)).exit .guestClosed)
  | keep {attached accepted attached' accepted' : Bool} {kept : List WebSocketOutgoing}
      {command : WebSocketCommand} {commands : List WebSocketCommand}
      (hmode : s.mode = .early attached accepted kept)
      (hcommands : s.commands = command :: commands)
      (hclose : ∀ code reason, command ≠ .close code reason) :
      Polled cancelled s
        { s with
          commands, mode := .early attached' accepted' (kept ++ commandFrames command)
          branch := .cancel }
  | upgrade {attached accepted : Bool} {kept : List WebSocketOutgoing}
      (hmode : s.mode = .early attached accepted kept) (houtcome : s.outcome = some true) :
      Polled cancelled s
        { s with
          mode := .pumping accepted, branch := .cancel, connected := true
          frames := s.frames ++ kept }
  | cancel {accepted : Bool} (hmode : s.mode = .pumping accepted) (hcancelled : cancelled = true) :
      Polled cancelled s
        (((s.send (.close s.kind.stopped.1 s.kind.stopped.2)).event
          (.closed 1006 s.kind.stopped.2)).exit .cancelled)
  | pump {accepted : Bool} {mode : Mode} {command : WebSocketCommand}
      {commands : List WebSocketCommand} (hmode : s.mode = .pumping accepted)
      (hmode' : ∃ accepted', mode = .pumping accepted')
        (hcommands : s.commands = command :: commands)
      (hclose : ∀ code reason, command ≠ .close code reason) :
      Polled cancelled s
        { s with
          commands, mode, branch := .cancel, frames := s.frames ++ commandFrames command }
  | close {accepted : Bool} {code : Nat} {reason : String} {commands : List WebSocketCommand}
      (hmode : s.mode = .pumping accepted)
      (hcommands : s.commands = .close code reason :: commands) :
      Polled cancelled s
        ((({ s with commands }.send (.close code reason)).event (.closed code reason)).exit
          .guestClosed)
  | hangUp {accepted : Bool} (hmode : s.mode = .pumping accepted) (hcommands : s.commands = [])
      (hhungUp : s.hungUp = true) : Polled cancelled s (s.exit .hungUp)
  | receive {accepted : Bool} {message : WebSocketIncoming} {incoming : List WebSocketIncoming}
      (hmode : s.mode = .pumping accepted) (hincoming : s.incoming = message :: incoming)
      (hopen : message.isClosed = false) :
      Polled cancelled s ({ s with incoming, branch := .cancel }.event message)
  /-- The peer has closed the socket, or is gone. -/
  | lose {accepted : Bool} {code : Nat} {reason : String} {incoming : List WebSocketIncoming}
      {branch : Branch} (hmode : s.mode = .pumping accepted)
      (hlost : (∃ message ∈ s.incoming, message.isClosed = true) ∨ s.peerGone = true) :
      Polled cancelled s (({ s with incoming, branch }.event (.closed code reason)).exit
        .peerClosed)

theorem polled (s : Socket) (cancelled : Bool) : Polled cancelled s (s.poll cancelled) := by
  unfold poll
  split
  · exact .next s.branch
  · next hmode _ =>
    split
    · exact .connectFailed hmode
    · exact .next .result
  · next hmode _ =>
    split
    · exact .next .cancel
    · exact .connectFailed hmode
    · next houtcome => exact .connect hmode houtcome
  · next hmode _ =>
    split
    · next hcancelled => exact .leave hmode (.inl ⟨rfl, hcancelled⟩)
    · exact .next _
  · next hmode _ =>
    split
    · exact .next .command
    · next houtcome => exact .leave hmode (.inr (.inl ⟨rfl, houtcome⟩))
    · next houtcome => exact .upgrade hmode houtcome
  · next hmode _ _ =>
    split
    · next hcommands => simpa [commandFrames] using Polled.keep hmode hcommands nofun
    · next hcommands => simpa [commandFrames] using Polled.keep hmode hcommands nofun
    · next hcommands => exact .keep hmode hcommands nofun
    · next hcommands => exact .leaveClosed hmode hcommands
    · next hcommands =>
      split
      · next hhungUp => exact .leave hmode (.inr (.inr ⟨rfl, hcommands, hhungUp⟩))
      · exact .next .cancel
  · next hmode _ =>
    split
    · next hcancelled => exact .cancel hmode hcancelled
    · exact .next .command
  · next hmode _ =>
    split
    · next message incoming hincoming =>
      dsimp only
      split
      · next hclosed =>
        cases message with
        | closed code reason =>
            exact .lose hmode (.inl ⟨_, hincoming ▸ List.mem_cons_self, hclosed⟩)
        | text | binary | error => cases hclosed
      · next hopen => exact .receive hmode hincoming (Bool.not_eq_true _ ▸ hopen)
    · split
      · next hgone => exact .lose hmode (.inr hgone)
      · exact .next .cancel
  · next hmode _ _ =>
    split
    · next hcommands =>
      simpa [commandFrames] using Polled.pump hmode ⟨_, hmode⟩ hcommands nofun
    · next hcommands =>
      simpa [commandFrames] using Polled.pump hmode ⟨true, rfl⟩ hcommands nofun
    · next hcommands => exact .pump hmode ⟨_, hmode⟩ hcommands nofun
    · next hcommands => exact .close hmode hcommands
    · next hcommands =>
      split
      · next hhungUp => exact .hangUp hmode hcommands hhungUp
      · exact .next _

/-- A connected task leaves without a word when it finds its command channel closed and empty. -/
theorem poll_hungUp_iff {s : Socket} (cancelled : Bool) (hmode : ∀ exit, s.mode ≠ .ended exit) :
    (s.poll cancelled).mode = .ended .hungUp ↔
      s.mode.isPumping = true ∧ s.pollsCommands = true ∧ s.commands = [] ∧ s.hungUp = true := by
  cases hcase : s.mode with
  | ended exit => exact absurd hcase (hmode exit)
  | connecting | early | pumping =>
      cases hbranch : s.branch <;>
        simp only [poll, pollsCommands, Mode.isPumping, hcase, hbranch] <;>
        grind [exit, event, send]

/-- A task ends on the Close of the guest when it finds one in its command channel. -/
theorem poll_guestClosed_iff {s : Socket} (cancelled : Bool)
    (hmode : ∀ exit, s.mode ≠ .ended exit) :
    (s.poll cancelled).mode = .ended .guestClosed ↔
      s.pollsCommands = true ∧ ∃ code reason, s.commands.head? = some (.close code reason) := by
  cases hcase : s.mode with
  | ended exit => exact absurd hcase (hmode exit)
  | connecting | early | pumping =>
      cases hbranch : s.branch <;> simp only [poll, pollsCommands, hcase, hbranch] <;>
        grind [exit, event, send]

theorem Polled.id {s s' : Socket} {cancelled : Bool} (h : Polled cancelled s s') :
    s'.id = s.id := by
  cases h <;> rfl

theorem Polled.kind {s s' : Socket} {cancelled : Bool} (h : Polled cancelled s s') :
    s'.kind = s.kind := by
  cases h <;> rfl

theorem Polled.scope {s s' : Socket} {cancelled : Bool} (h : Polled cancelled s s') :
    s'.scope = s.scope := by
  cases h <;> rfl

theorem Polled.connected {s s' : Socket} {cancelled : Bool} (h : Polled cancelled s s')
    (hconnected : s.connected = true) : s'.connected = true := by
  cases h with
  | connect | upgrade => rfl
  | _ => exact hconnected

end Socket

end OpenWorkers.Sockets
