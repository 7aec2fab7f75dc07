import FtIrc.Model.Channel

/-!
# Server state

`Client` and `Channel` objects live on a heap; the maps of the source hold their addresses.
`new` returns an address that no live object has, possibly that of a deleted object.
-/

namespace FtIrc

/-- The address of a new object, given those in use. -/
structure Allocator where
  addr : List Nat → Nat
  fresh : ∀ used, addr used ∉ used

structure PollFd where
  fd : Fd
  pollIn : Bool
  pollOut : Bool
  deriving DecidableEq

structure Server where
  serverFd : Fd
  password : Bytes
  heap : Allocator
  pollFds : List PollFd
  clients : StdMap Fd ClientPtr
  channels : StdMap Bytes ChannelPtr
  toDisconnected : StdMap Fd Bytes
  closing : StdMap Fd Bytes
  client : ClientPtr → Client
  channel : ChannelPtr → Channel
  now : Time

namespace Server

/-- The state after `init()`. -/
def init (serverFd : Fd) (password : Bytes) (heap : Allocator) (now : Time) : Server where
  serverFd
  password
  heap
  pollFds := [⟨serverFd, true, false⟩]
  clients := StdMap.empty
  channels := StdMap.empty
  toDisconnected := StdMap.empty
  closing := StdMap.empty
  client _ := Client.new 0 [] 0
  channel _ := Channel.new []
  now

/-- Change the object at an address. -/
def updClient (s : Server) (c : ClientPtr) (f : Client → Client) : Server :=
  { s with client := Function.update s.client c (f (s.client c)) }

def updChannel (s : Server) (p : ChannelPtr) (f : Channel → Channel) : Server :=
  { s with channel := Function.update s.channel p (f (s.channel p)) }

def LiveClient (s : Server) (c : ClientPtr) : Prop := ∃ fd, s.clients.find? fd = some c

def LiveChannel (s : Server) (p : ChannelPtr) : Prop := ∃ k, s.channels.find? k = some p

def sendReply (s : Server) (c : ClientPtr) (message : Bytes) : Server :=
  s.updClient c (·.sendReply message)

/-! ## Lookups -/

def findChannel (s : Server) (name : Bytes) : Option ChannelPtr := s.channels.find? (toLower name)

def findOrCreateChannel (s : Server) (name : Bytes) : Server × ChannelPtr :=
  let key := toLower name
  match s.findChannel key with
  | some p => (s, p)
  | none =>
    let p := s.heap.addr s.channels.values
    ({ s with
        channel := Function.update s.channel p (Channel.new name)
        channels := s.channels.insert key p }, p)

def clearInvitedUsers (s : Server) (p : ChannelPtr) : Server :=
  s.clients.values.foldl (fun s c => s.updClient c (·.removeInvitedChannel p)) s

def deleteChannel (s : Server) (name : Bytes) : Server :=
  match s.channels.find? (toLower name) with
  | none => s
  | some p => { s with channels := s.channels.erase (toLower name) }.clearInvitedUsers p

def isNicknameTaken (s : Server) (nickname : Bytes) (self : ClientPtr) : Bool :=
  s.clients.values.any fun c => c ≠ self && toLower (s.client c).nickname == toLower nickname

def checkPassword (s : Server) (password : Bytes) : Bool := s.password == password

def findClientByNickname (s : Server) (nickname : Bytes) : Option ClientPtr :=
  s.clients.values.find? fun c =>
    (s.client c).isRegistered && toLower (s.client c).nickname == toLower nickname

/-! ## Disconnection marks -/

def isMarked (s : Server) (fd : Fd) : Bool := s.toDisconnected.contains fd

def markForDisconnection (s : Server) (fd : Fd) (reason : Bytes) : Server :=
  if s.toDisconnected.contains fd then s
  else { s with toDisconnected := s.toDisconnected.insert fd reason }

def disconnectAfterFlush (s : Server) (c : ClientPtr) (reason : Bytes) : Server :=
  let s := s.sendReply c
    (ascii "ERROR :Closing Link: " ++ (s.client c).ip ++ ascii " (" ++ reason ++ ascii ")")
  let s := { s with closing := s.closing.insert (s.client c).fd reason }
  s.updClient c (·.markClosing s.now)

def disconnectClient (s : Server) (c : ClientPtr) (reason : Bytes) : Server :=
  s.disconnectAfterFlush c reason

/-! ## Registration and fan-out -/

def tryCompleteRegistration (s : Server) (c : ClientPtr) : Server :=
  let nick := (s.client c).nickname
  if !(s.client c).isRegistered && (s.client c).isPasswordVerified && !nick.isEmpty &&
      !(s.client c).username.isEmpty then
    let s := s.updClient c fun cl => { cl with isRegistered := true }
    let s := s.sendReply c (IrcReply.formatReply IrcNumeric.rplWelcome nick
      (ascii "Welcome to the ircserv Network, " ++ nick ++ ascii "!" ++ (s.client c).username ++
        ascii "@" ++ (s.client c).ip))
    let s := s.sendReply c (IrcReply.formatReply IrcNumeric.rplYourHost nick
      (ascii "Your host is ircserv, running version 1.0"))
    let s := s.sendReply c (IrcReply.formatReply IrcNumeric.rplCreated nick
      (ascii "This server was created for ircserv"))
    s.sendReply c (ascii ":ircserv " ++ IrcNumeric.rplMyInfo ++ ascii " " ++ nick ++
      ascii " ircserv 1.0 o itkol")
  else s

/-- The inner loop of the two broadcasts: `notified.insert(d).second` guards each send. -/
def notifyMembers (notice : Bytes) (members : List ClientPtr) (st : List ClientPtr × Server) :
    List ClientPtr × Server :=
  members.foldl
    (fun st d => if d ∈ st.1 then st else (d :: st.1, st.2.sendReply d notice)) st

/-- The outer loop, over the channels of `c`, starting with `notified = {c}`. -/
def notifyChannels (s : Server) (c : ClientPtr) (notice : Bytes) : Server :=
  ((s.client c).joinedChannels.values.foldl
    (fun st p => notifyMembers notice (st.2.channel p).members st) ([c], s)).2

def broadcastNickChange (s : Server) (c : ClientPtr) (notice : Bytes) : Server :=
  (s.sendReply c notice).notifyChannels c notice

def broadcastQuit (s : Server) (c : ClientPtr) (notice : Bytes) : Server :=
  s.notifyChannels c notice

end Server
end FtIrc
