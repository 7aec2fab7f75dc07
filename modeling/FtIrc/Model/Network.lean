import FtIrc.Library.Transition
import FtIrc.Model.Commands

/-!
# The poll loop

The socket handlers of `Server`, the deferred disconnection, and the system whose events are the
actions of the poll loop, with one event for each round of the line loop of `receiveData`.
-/

namespace FtIrc
namespace Server

/-! ## Disconnection -/

/-- One round of the channel loop of `removeClientFromAllChannels`; the second component is the
list `emptied`. -/
def quitRound (c : ClientPtr) (st : Server × List Bytes) (entry : Bytes × ChannelPtr) :
    Server × List Bytes :=
  if !(st.1.channel entry.2).isMember c then st
  else
    let s := st.1.removeQuitUser entry.2 c
    (s, if (s.channel entry.2).isEmpty then st.2 ++ [entry.1] else st.2)

def removeClientFromAllChannels (s : Server) (c : ClientPtr) (reason : Bytes) : Server :=
  let s := if (s.client c).isRegistered then
      s.broadcastQuit c (makeCommand (s.client c) (ascii "QUIT") (ascii ":" ++ reason))
    else s
  let st := s.channels.entries.foldl (quitRound c) (s, [])
  let s := st.2.foldl deleteChannel st.1
  (s.client c).invitedChannels.foldl
    (fun s p => s.updChannel p (·.removeMemberfromInvitedUsers c)) s

/-- `_poll_fds[0].events = POLLIN`, or 0. -/
def setServerEvents (s : Server) (pollIn : Bool) : Server :=
  { s with pollFds := s.pollFds.modifyHead fun f => { f with pollIn, pollOut := false } }

def disconnect (s : Server) (fd : Fd) (reason : Bytes) : Server :=
  let cause := (s.closing.find? fd).getD reason
  let s := { s with closing := s.closing.erase fd }
  let s := match s.clients.find? fd with
    | none => s
    | some c =>
      let s := s.removeClientFromAllChannels c cause
      { s with clients := s.clients.erase fd }
  { s with pollFds := s.pollFds.eraseP (·.fd = fd) }.setServerEvents true

def cleanupDisconnected (s : Server) : Server :=
  s.toDisconnected.entries.foldl (fun s target => s.disconnect target.1 target.2)
    { s with toDisconnected := StdMap.empty }

/-! ## Timers and poll events -/

def timeoutSeconds : Int := 300

def timeoutRegistration : Int := 60

def maxSendQ : Nat := 1024 * 1024

/-- One round of `checkIdleClients`. -/
def idleRound (s : Server) (entry : Fd × ClientPtr) : Server :=
  let fd := entry.1
  let c := entry.2
  match s.closing.find? fd with
  | some reason =>
    if 5 < (s.client c).getClosingTime s.now then s.markForDisconnection fd reason else s
  | none =>
    if !(s.client c).isRegistered then
      if timeoutRegistration < (s.client c).getConnectTime s.now then
        s.markForDisconnection fd (ascii "Registration timeout")
      else s
    else
      let idle := (s.client c).getIdleTime s.now
      if timeoutSeconds < idle then s.disconnectAfterFlush c (ascii "Ping timeout")
      else if timeoutSeconds / 2 < idle ∧ (s.client c).pingSent = false then
        (s.sendReply c (ascii "PING :ircserv")).updClient c fun cl => { cl with pingSent := true }
      else s

def checkIdleClients (s : Server) : Server := s.clients.entries.foldl idleRound s

/-- One round of `refreshPollEvents`. -/
def refreshRound (st : Server × List PollFd) (p : PollFd) : Server × List PollFd :=
  let s := st.1
  if p.fd = s.serverFd then (s, st.2 ++ [p])
  else
    match s.clients.find? p.fd with
    | none => (s, st.2 ++ [{ p with pollIn := true, pollOut := false }])
    | some c =>
      if maxSendQ < (s.client c).writeBuffer.length then
        (s.markForDisconnection p.fd (ascii "SendQ exceeded"),
          st.2 ++ [{ p with pollIn := true, pollOut := false }])
      else
        (s, st.2 ++ [{ p with pollIn := true, pollOut := !(s.client c).writeBuffer.isEmpty }])

def refreshPollEvents (s : Server) : Server :=
  let st := s.pollFds.foldl refreshRound (s, [])
  { st.1 with pollFds := st.2 }

/-! ## Sockets -/

/-- The outcomes of `accept` and of making the socket non-blocking. -/
inductive AcceptResult
  | failed
  | blocking
  | accepted (fd : Fd) (addr : Ipv4)

def acceptNewClient (s : Server) : AcceptResult → Server
  | .failed => s.setServerEvents false
  | .blocking => s
  | .accepted fd addr =>
    let c := s.heap.addr s.clients.values
    { s with
      client := Function.update s.client c (Client.new fd (inetNtop addr) s.now)
      pollFds := s.pollFds ++ [⟨fd, true, false⟩]
      clients := s.clients.insert fd c }

/-- The outcomes of `recv`. -/
inductive RecvResult
  | failed
  | closed
  | data (buffer : Bytes)

/-- `receiveData` up to its line loop; the flag says whether the loop is reached. -/
def receiveChunk (s : Server) (fd : Fd) (c : ClientPtr) : RecvResult → Server × Bool
  | .failed => (s.markForDisconnection fd (ascii "Receive error"), false)
  | .closed => (s.markForDisconnection fd (ascii "Client disconnected"), false)
  | .data buffer =>
    if s.closing.contains fd then (s, false)
    else
      let s := s.updClient c fun cl =>
        ({ cl with readBuffer := cl.readBuffer ++ buffer }).updateLastActivity s.now
      if 8192 < (s.client c).readBuffer.length && !(s.client c).hasCompleteLine then
        (s.markForDisconnection fd (ascii "Input buffer overflow"), false)
      else (s, true)

/-- The guard of the line loop. -/
def lineReady (s : Server) (fd : Fd) (c : ClientPtr) : Bool :=
  !s.isMarked fd && (s.client c).hasCompleteLine && !s.closing.contains fd

/-- The body of the line loop. -/
def receiveLine (s : Server) (c : ClientPtr) : Server :=
  let line := (s.client c).popLine.1
  let s := s.updClient c fun cl => cl.popLine.2
  if line.isEmpty then s else s.operate c line

/-- The line loop, for at most the given number of rounds. -/
def receiveLines : Nat → Server → Fd → ClientPtr → Server
  | 0, s, _, _ => s
  | n + 1, s, fd, c => if s.lineReady fd c then receiveLines n (s.receiveLine c) fd c else s

/-- Each round takes one line feed out of the read buffer, so its length bounds the rounds. -/
def receiveData (s : Server) (fd : Fd) (r : RecvResult) : Server :=
  match s.clients.find? fd with
  | none => s
  | some c =>
    let st := s.receiveChunk fd c r
    if st.2 then receiveLines (st.1.client c).readBuffer.length st.1 fd c else st.1

/-- The outcomes of `send`. -/
inductive SendResult
  | failed
  | taken (count : Nat)

def sendData (s : Server) (fd : Fd) (r : SendResult) : Server :=
  match s.clients.find? fd with
  | none => s
  | some c =>
    if (s.client c).writeBuffer.isEmpty then s
    else
      match r with
      | .failed => s.markForDisconnection fd (ascii "Send error")
      | .taken count =>
        let s := s.updClient c fun cl =>
          { cl with
            writeBuffer := cl.writeBuffer.drop count
            sent := cl.sent ++ cl.writeBuffer.take count }
        match s.closing.find? fd with
        | some reason =>
          if (s.client c).writeBuffer.isEmpty then
            let s := s.markForDisconnection fd reason
            { s with closing := s.closing.erase fd }
          else s
        | none => s

/-! ## Events -/

/-- What the poll loop does, one action at a time. `recv` is `receiveData` up to its line loop and
`line` one round of that loop; `tick` sets the clock. -/
inductive Event
  | accept (r : AcceptResult)
  | recv (fd : Fd) (r : RecvResult)
  | line (fd : Fd)
  | send (fd : Fd) (r : SendResult)
  | pollError (fd : Fd)
  | pollTimeout
  | refresh
  | cleanup
  | idle
  | tick (now : Time)

/-- What the environment guarantees of an event, and the guards of the loop. `time` never returns 0,
which stands for a closing time that is not set. -/
def Enabled (s : Server) : Event → Prop
  | .accept (.accepted fd _) => fd ≠ s.serverFd ∧ s.clients.find? fd = none
  | .accept _ => True
  | .recv fd (.data buffer) => (∃ c, s.clients.find? fd = some c) ∧ 1 ≤ buffer.length ∧ buffer.length ≤ 1024
  | .recv fd _ => ∃ c, s.clients.find? fd = some c
  | .line fd => ∃ c, s.clients.find? fd = some c ∧ s.lineReady fd c
  | .send fd (.taken count) =>
    s.isMarked fd = false ∧
      ∃ c, s.clients.find? fd = some c ∧ count ≤ (s.client c).writeBuffer.length
  | .send fd .failed => s.isMarked fd = false ∧ ∃ c, s.clients.find? fd = some c
  | .pollError fd => ∃ c, s.clients.find? fd = some c
  | .tick now => 0 < now
  | .pollTimeout | .refresh | .cleanup | .idle => True

def step (s : Server) : Event → Server
  | .accept r => s.acceptNewClient r
  | .recv fd r =>
    match s.clients.find? fd with
    | none => s
    | some c => (s.receiveChunk fd c r).1
  | .line fd =>
    match s.clients.find? fd with
    | none => s
    | some c => s.receiveLine c
  | .send fd r => s.sendData fd r
  | .pollError fd => s.markForDisconnection fd (ascii "Connection error")
  | .pollTimeout => s.setServerEvents true
  | .refresh => s.refreshPollEvents
  | .cleanup => s.cleanupDisconnected
  | .idle => s.checkIdleClients
  | .tick now => { s with now }

/-- The server started by `main`, which refuses an empty password, with its events in any order. -/
def ircserv : System Server Event where
  Init s := ∃ serverFd password heap now,
    password ≠ [] ∧ 0 < now ∧ s = Server.init serverFd password heap now
  Enabled := Enabled
  next := step

/-! ## The order of the loop -/

/-- Where `run` is: in front of `refreshPollEvents`, at the results of `poll`, or in front of
`checkIdleClients`. -/
inductive Phase
  | refresh
  | serve
  | idle
  deriving DecidableEq

/-- The phase after an event, if the event can happen. An interrupted `poll` starts the loop again,
and time passes anywhere. -/
def Phase.after : Phase → Event → Option Phase
  | .refresh, .refresh => some .serve
  | .serve, .accept _ | .serve, .recv _ _ | .serve, .line _ | .serve, .send _ _
  | .serve, .pollError _ | .serve, .pollTimeout | .serve, .refresh => some .serve
  | .serve, .cleanup => some .idle
  | .idle, .idle => some .refresh
  | phase, .tick _ => some phase
  | _, _ => none

/-- `Server::run`: the events in the order of the loop. -/
def run : System (Phase × Server) Event where
  Init t := t.1 = .refresh ∧ ircserv.Init t.2
  Enabled t e := (t.1.after e).isSome = true ∧ Enabled t.2 e
  next t e := ((t.1.after e).getD t.1, step t.2 e)

end Server
end FtIrc
