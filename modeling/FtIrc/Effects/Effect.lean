import FtIrc.State.Texts
import FtIrc.Membership.Disconnect

/-!
# Effects of a line

A line of a client is a sequence of effects of that client, possibly ended by closing its link, or
one entry into a channel. Each effect carries the checks that its handler has passed, so an invariant is proved once per effect.
-/

namespace FtIrc

/-! ## The lines of an effect -/

/-- The bytes of an applied mode string. -/
def modeBytes : Bytes := ascii "+-itkl"

def isNumeral (code : Bytes) : Bool := !code.isEmpty && code.all isDigit

/-- The numbers of the four lines that only registration sends. -/
def welcomeCodes : List Bytes :=
  [IrcNumeric.rplWelcome, IrcNumeric.rplYourHost, IrcNumeric.rplCreated, IrcNumeric.rplMyInfo]

/-- A number that is sent at any time. -/
def isReplyNumber (code : Bytes) : Bool := isNumeral code && !welcomeCodes.contains code

/-- The second word of a reply of the server itself: a number, or PONG. -/
def IsReplyCode (code : Bytes) : Prop := isReplyNumber code = true ∨ code = ascii "PONG"

/-- A reply of the server itself. -/
def ServerReply (m : Bytes) : Prop :=
  ∃ code rest, IsReplyCode code ∧ m = ascii ":ircserv " ++ code ++ ascii " " ++ rest

/-- The lines 001 to 004. -/
def registrationLines (c : Client) : List Bytes :=
  [IrcReply.formatReply IrcNumeric.rplWelcome c.nickname
    (ascii "Welcome to the ircserv Network, " ++ c.nickname ++ ascii "!" ++ c.username ++
      ascii "@" ++ c.ip),
   IrcReply.formatReply IrcNumeric.rplYourHost c.nickname
    (ascii "Your host is ircserv, running version 1.0"),
   IrcReply.formatReply IrcNumeric.rplCreated c.nickname
    (ascii "This server was created for ircserv"),
   ascii ":ircserv " ++ IrcNumeric.rplMyInfo ++ ascii " " ++ c.nickname ++
    ascii " ircserv 1.0 o itkol"]

/-- The reason of a QUIT. -/
def Message.quit (msg : Message) : Option Bytes :=
  if Server.findCommand msg.command = some .quit then
    some (if (msg.parameter.headD []).isEmpty then ascii "Client Quit"
      else msg.parameter.headD [])
  else none

/-! ## Changes of a channel -/

/-- A change of the four modes: a key is well-formed, and a limit is a result of `parseLimit`. -/
structure ModeChange (P : Bytes → Prop) (ch ch' : Channel) : Prop where
  rest : ch' = { ch with
    inviteOnly := ch'.inviteOnly, topicByOpOnly := ch'.topicByOpOnly, key := ch'.key,
    userLimit := ch'.userLimit }
  key : ch'.key = ch.key ∨ ch'.key = [] ∨ (isValidKey ch'.key = true ∧ P ch'.key)
  userLimit : ch'.userLimit = ch.userLimit ∨ ch'.userLimit < 10 ^ 9

namespace Server

/-- What the server checks of a nickname. -/
def NicknameFree (s : Server) (c : ClientPtr) (nickname : Bytes) : Prop :=
  isValidNickname nickname = true ∧ s.isNicknameTaken nickname c = false

/-- One effect of the line `msg` of `u`; `P` is a property of the texts of the line. -/
inductive Effect (P : Bytes → Prop) (msg : Message) (u : ClientPtr) : Server → Server → Prop
  | reply {s : Server} {m : Bytes} (hm : ServerReply m) (hP : s.Texts P → P m) :
      Effect P msg u s (s.emit (Output.one u m))
  | talk {s : Server} {out : Output} (hreg : (s.client u).isRegistered = true)
      (hout : ∀ d, ∀ m ∈ out d, ∃ rest, rest ≠ [] ∧ (s.Texts P → P rest) ∧
        m = makeCommand (s.client u) (ascii "PRIVMSG") rest) :
      Effect P msg u s (s.emit out)
  | announce {s : Server} {p : ChannelPtr} {applied args : Bytes} (hp : s.LiveChannel p)
      (hop : u ∈ (s.channel p).operators) (hne : applied ≠ [])
      (happlied : ∀ b ∈ applied, b ∈ modeBytes)
      (hlim : applied.length ≤ (msg.parameter.getD 1 []).length)
      (hargs : args = [] ∨ ∃ rest, args = byte ' ' :: rest) (hlen : args.length ≤ 86)
      (hP : P args) :
      Effect P msg u s (s.emit (Output.all (s.channel p).members
        (modeNotice (s.client u) (s.channel p).name applied args)))
  | mode {s : Server} {p : ChannelPtr} {f : Channel → Channel} (hp : s.LiveChannel p)
      (hop : u ∈ (s.channel p).operators) (hf : ModeChange P (s.channel p) (f (s.channel p))) :
      Effect P msg u s (s.updChannel p f)
  | operator {s : Server} {p : ChannelPtr} {enable : Bool} {t : ClientPtr} (hp : s.LiveChannel p)
      (hop : u ∈ (s.channel p).operators) (ht : t ∈ (s.channel p).members)
      (hne : (s.channel p).isOperator t ≠ enable) :
      Effect P msg u s ((s.updChannel p (·.setModeOperator enable t)).emit
        (Output.all (s.channel p).members
          (operatorNotice (s.client u) (s.client t) (s.channel p).name enable)))
  | topic {s : Server} {p : ChannelPtr} {t : Bytes} (hp : s.LiveChannel p)
      (hu : u ∈ (s.channel p).members)
      (hop : (s.channel p).topicByOpOnly = true → u ∈ (s.channel p).operators)
      (hlen : t.length ≤ 300) (hP : P t) :
      Effect P msg u s ((s.updChannel p fun ch => { ch with topic := t }).emit
        (Output.all (s.channel p).members (topicNotice (s.client u) (s.channel p).name t)))
  | invite {s : Server} {p : ChannelPtr} {d : ClientPtr} {nick name : Bytes} {rest : List Bytes}
      (hcmd : findCommand msg.command = some .invite) (hparam : msg.parameter = nick :: name :: rest)
      (hnick : s.findClientByNickname nick = some d) (hname : s.findChannel name = some p)
      (hp : s.LiveChannel p)
      (hu : u ∈ (s.channel p).members)
      (hop : (s.channel p).inviteOnly = true → u ∈ (s.channel p).operators)
      (hd : s.LiveClient d) (hreg : (s.client d).isRegistered = true)
      (hm : d ∉ (s.channel p).members) (hi : d ∉ (s.channel p).invitedUsers) :
      Effect P msg u s ((s.invite p d).emit
        ((Output.one u (makeReply Numeric.rplInviting (s.client u).nickname
            ((s.channel p).name ++ ascii " " ++ (s.client d).nickname))).append
          (Output.one d (inviteNotice (s.client u) (s.client d) (s.channel p).name))))
  | part {s : Server} {p : ChannelPtr} {reason : Bytes} (hp : s.LiveChannel p)
      (hu : u ∈ (s.channel p).members) (hP : s.Texts P → P reason) :
      Effect P msg u s ((s.leave p u).emit (Output.all (s.channel p).members
        (partNotice (s.client u) (s.channel p).name reason)))
  | kick {s : Server} {p : ChannelPtr} {t : ClientPtr} {reason : Bytes} (hp : s.LiveChannel p)
      (hop : u ∈ (s.channel p).operators) (ht : t ∈ (s.channel p).members)
      (hP : s.Texts P → P reason) :
      Effect P msg u s ((s.leave p t).emit (Output.all (s.channel p).members
        (kickNotice (s.client u) (s.client t) (s.channel p).name reason)))
  | rename {s : Server} {n : Bytes} (hreg : (s.client u).isRegistered = true)
      (hn : s.NicknameFree u n) (hne : n ≠ (s.client u).nickname) (hP : P n)
      (hcmd : findCommand msg.command = some .nick) :
      Effect P msg u s ((s.updClient u fun cl => { cl with nickname := n }).emit
        ((Output.one u (nickNotice (s.client u).nickname n (s.client u).username
            (s.client u).ip)).append
          (outputOnce u (s.neighbours u) (nickNotice (s.client u).nickname n
            (s.client u).username (s.client u).ip))))
  | nickname {s : Server} {n : Bytes} (hreg : (s.client u).isRegistered = false)
      (hn : s.NicknameFree u n) (hP : P n) :
      Effect P msg u s (s.updClient u fun cl => { cl with nickname := n })
  | user {s : Server} {username realname : Bytes} (hreg : (s.client u).isRegistered = false)
      (hne : username ≠ []) (hat : byte '@' ∉ username) (hspace : byte ' ' ∉ username)
      (hP : P username) :
      Effect P msg u s (s.updClient u fun cl => { cl with username, realname })
  | pass {s : Server} (hcmd : findCommand msg.command = some .pass)
      (hne : msg.parameter.headD [] ≠ []) (hreg : (s.client u).isRegistered = false) :
      Effect P msg u s (s.updClient u fun cl =>
        { cl with isPasswordVerified := s.checkPassword (msg.parameter.headD []) })
  | register {s : Server} (hreg : (s.client u).isRegistered = false)
      (hpass : (s.client u).isPasswordVerified = true) (hn : (s.client u).nickname ≠ [])
      (hu : (s.client u).username ≠ []) :
      Effect P msg u s ((s.updClient u fun cl => { cl with isRegistered := true }).emit
        (Output.list u (registrationLines (s.client u))))
  | pong {s : Server} (hcmd : findCommand msg.command = some .pong) :
      Effect P msg u s (s.updClient u (·.updateLastActivity s.now))

/-- A successful JOIN of the line `msg` of `u`. -/
inductive Entry (P : Bytes → Prop) (msg : Message) (u : ClientPtr) : Server → Server → Prop
  | join {s : Server} {p : ChannelPtr} {name : Bytes} {rest : List Bytes}
      (hcmd : findCommand msg.command = some .join) (hparam : msg.parameter = name :: rest)
      (hname : s.findChannel name = some p) (hp : s.LiveChannel p)
      (hreg : (s.client u).isRegistered = true) (hm : u ∉ (s.channel p).members)
      (hkey : (s.channel p).key = [] ∨ (s.channel p).key = rest.headD [])
      (hinv : (s.channel p).inviteOnly = true → u ∈ (s.channel p).invitedUsers)
      (hfull : (s.channel p).isFull = false) : Entry P msg u s (s.letIn p u)
  | create {s : Server} {name : Bytes} (hreg : (s.client u).isRegistered = true)
      (hname : isValidChannelName name = true) (hk : s.channels.find? (toLower name) = none)
      (hP : P name) :
      Entry P msg u s ((s.newChannel name).letIn (s.heap.addr s.channels.values) u)

abbrev Effects (P : Bytes → Prop) (msg : Message) (u : ClientPtr) : Server → Server → Prop :=
  Relation.ReflTransGen (Effect P msg u)

/-- What the line `msg` of `u` can do. Closing the link is the last thing a line does. -/
inductive Line (P : Bytes → Prop) (msg : Message) (u : ClientPtr) (s : Server) : Server → Prop
  | effects {s' : Server} (h : Effects P msg u s s') : Line P msg u s s'
  | closed {t : Server} {reason : Bytes} (h : Effects P msg u s t) (hP : P reason)
      (hcause : reason = ascii "Bad Password" ∨ msg.quit = some reason) :
      Line P msg u s (t.disconnectAfterFlush u reason)
  | entry {s' : Server} (h : Entry P msg u s s') : Line P msg u s s'

end Server
end FtIrc
