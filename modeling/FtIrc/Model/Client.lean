import FtIrc.Library.StdMap
import FtIrc.Model.Text

/-!
# Connections

The `Client` object and the methods that touch one client only. The fields `sent`, `replies` and
`lines` are not in the source: they record the bytes given to `send`, the messages given to
`sendReply` and the lines taken by `popLine` since the connection was accepted.
-/

namespace FtIrc

abbrev Fd := Nat

abbrev Time := Int

/-- The address of a `Client` object. -/
abbrev ClientPtr := Nat

/-- The address of a `Channel` object. -/
abbrev ChannelPtr := Nat

structure Client where
  fd : Fd
  ip : Bytes
  nickname : Bytes
  username : Bytes
  realname : Bytes
  isRegistered : Bool
  isPasswordVerified : Bool
  joinedChannels : StdMap Bytes ChannelPtr
  invitedChannels : List ChannelPtr
  readBuffer : Bytes
  writeBuffer : Bytes
  connectedAt : Time
  lastActivity : Time
  pingSent : Bool
  closingSince : Time
  sent : Bytes
  replies : List Bytes
  lines : List Bytes

/-- What `sendReply` keeps of a message: at most 510 bytes, not cut inside a character. -/
def outputLine (message : Bytes) : Bytes :=
  if message.length ≤ 510 then message else message.take (backUp message 3 510)

/-- The bytes `sendReply` appends to the write buffer. -/
def frame (message : Bytes) : Bytes := outputLine message ++ [13, 10]

namespace Client

/-- The constructor, followed by `setIp`. -/
def new (fd : Fd) (ip : Bytes) (now : Time) : Client where
  fd
  ip
  nickname := []
  username := []
  realname := []
  isRegistered := false
  isPasswordVerified := false
  joinedChannels := StdMap.empty
  invitedChannels := []
  readBuffer := []
  writeBuffer := []
  connectedAt := now
  lastActivity := now
  pingSent := false
  closingSince := 0
  sent := []
  replies := []
  lines := []

def addJoinedChannels (c : Client) (name : Bytes) (channel : ChannelPtr) : Client :=
  { c with joinedChannels := c.joinedChannels.insert name channel }

def removeJoinedChannels (c : Client) (name : Bytes) : Client :=
  { c with joinedChannels := c.joinedChannels.erase name }

def addInvitedChannel (c : Client) (ch : ChannelPtr) : Client :=
  { c with invitedChannels := c.invitedChannels ++ [ch] }

def removeInvitedChannel (c : Client) (ch : ChannelPtr) : Client :=
  { c with invitedChannels := c.invitedChannels.filter (· ≠ ch) }

def sendReply (c : Client) (message : Bytes) : Client :=
  { c with
    writeBuffer := c.writeBuffer ++ frame message
    replies := c.replies ++ [message] }

def hasCompleteLine (c : Client) : Bool := c.readBuffer.contains 10

/-- The line in front of the first line feed, without one final carriage return. -/
def firstLine (buffer : Bytes) : Bytes :=
  let line := buffer.takeWhile (· ≠ 10)
  if line.getLast? = some 13 then line.dropLast else line

/-- `popLine`: the line, and the client without it. -/
def popLine (c : Client) : Bytes × Client :=
  (firstLine c.readBuffer,
    { c with
      readBuffer := (c.readBuffer.dropWhile (· ≠ 10)).drop 1
      lines := c.lines ++ [firstLine c.readBuffer] })

def updateLastActivity (c : Client) (now : Time) : Client :=
  { c with lastActivity := now, pingSent := false }

def getIdleTime (c : Client) (now : Time) : Int := now - c.lastActivity

def getConnectTime (c : Client) (now : Time) : Int := now - c.connectedAt

def markClosing (c : Client) (now : Time) : Client := { c with closingSince := now }

def getClosingTime (c : Client) (now : Time) : Int :=
  if c.closingSince = 0 then 0 else now - c.closingSince

def isMissingPassword (c : Client) : Bool :=
  !c.isRegistered && !c.isPasswordVerified && !c.nickname.isEmpty && !c.username.isEmpty

end Client
end FtIrc
