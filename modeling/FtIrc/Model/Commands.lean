import FtIrc.Model.ChannelCommands
import FtIrc.Model.Message

/-!
# Commands and dispatch

The thirteen `execute` methods, the table of `CommandRegistry`, and `Parser::operate`.
-/

namespace FtIrc
namespace Server

open IrcReply

/-- A reply of `makeReply` to the client itself, addressed to its nickname or to `*`. -/
def replyTo (s : Server) (c : ClientPtr) (code : Nat) (rest : Bytes) : Server :=
  s.sendReply c (makeReply code (targetname (s.client c)) rest)

/-- A reply of `formatReplyWithParameter` to the client itself. -/
def replyWithParameter (s : Server) (c : ClientPtr) (code parameter trailing : Bytes) : Server :=
  s.sendReply c (formatReplyWithParameter code (targetname (s.client c)) parameter trailing)

/-- A reply of `formatReply` to the client itself. -/
def replyWith (s : Server) (c : ClientPtr) (code trailing : Bytes) : Server :=
  s.sendReply c (formatReply code (targetname (s.client c)) trailing)

/-- The end of NICK and USER: complete the registration, or close the link when the password is
missing. -/
def finishRegistration (s : Server) (c : ClientPtr) : Server :=
  let s := s.tryCompleteRegistration c
  if (s.client c).isMissingPassword then
    let s := s.sendReply c
      (formatReply IrcNumeric.errPasswdMismatch (ascii "*") (ascii "Password incorrect"))
    s.disconnectClient c (ascii "Bad Password")
  else s

def executeNick (s : Server) (c : ClientPtr) (msg : Message) : Server :=
  let newNickname := msg.parameter.headD []
  if newNickname.isEmpty then
    s.replyWith c IrcNumeric.errNoNicknameGiven (ascii "No nickname given")
  else if !isValidNickname newNickname then
    s.replyWithParameter c IrcNumeric.errErroneusNickname newNickname
      (ascii "Erroneous nickname")
  else if s.isNicknameTaken newNickname c then
    s.replyWithParameter c IrcNumeric.errNicknameInUse newNickname
      (ascii "Nickname is already in use")
  else
    let wasRegistered := (s.client c).isRegistered
    let oldNickname := (s.client c).nickname
    let s := s.updClient c fun cl => { cl with nickname := newNickname }
    if wasRegistered then
      if oldNickname = newNickname then s
      else s.broadcastNickChange c
        (nickNotice oldNickname newNickname (s.client c).username (s.client c).ip)
    else s.finishRegistration c

def executePass (s : Server) (c : ClientPtr) (msg : Message) : Server :=
  let param := msg.parameter.headD []
  if param.isEmpty then
    s.replyWithParameter c IrcNumeric.errNeedMoreParams (ascii "PASS")
      (ascii "Not enough parameters")
  else if (s.client c).isRegistered then
    s.replyWith c IrcNumeric.errAlreadyRegistered (ascii "You may not reregister")
  else
    (s.updClient c fun cl => { cl with isPasswordVerified := s.checkPassword param }
      ).tryCompleteRegistration c

def executePing (s : Server) (c : ClientPtr) (msg : Message) : Server :=
  let param := msg.parameter.headD []
  if param.isEmpty then
    s.replyWith c IrcNumeric.errNoOrigin (ascii "No origin specified")
  else s.sendReply c (ascii ":ircserv PONG ircserv :" ++ param)

def executePong (s : Server) (c : ClientPtr) (_msg : Message) : Server :=
  s.updClient c (·.updateLastActivity s.now)

def executeQuit (s : Server) (c : ClientPtr) (msg : Message) : Server :=
  let param := msg.parameter.headD []
  let reason := if !param.isEmpty then param else ascii "Client Quit"
  s.disconnectClient c reason

def executeUser (s : Server) (c : ClientPtr) (msg : Message) : Server :=
  let username := msg.parameter.headD []
  if msg.parameter.length < 4 || username.isEmpty then
    s.replyWithParameter c IrcNumeric.errNeedMoreParams (ascii "USER")
      (ascii "Not enough parameters")
  else if (s.client c).isRegistered then
    s.replyWith c IrcNumeric.errAlreadyRegistered (ascii "You may not reregister")
  else if username.contains (byte '@') then
    s.replyWithParameter c IrcNumeric.errNeedMoreParams (ascii "USER")
      (ascii "Not enough parameters")
  else
    (s.updClient c fun cl =>
      { cl with username, realname := msg.parameter.getD 3 [] }).finishRegistration c

def executeInvite (s : Server) (c : ClientPtr) (msg : Message) : Server :=
  match msg.parameter with
  | nick :: name :: _ =>
    match s.findClientByNickname nick with
    | none => s.replyTo c Numeric.errNoSuchNick (nick ++ ascii " :No such nick/channel")
    | some target =>
      match s.findChannel name with
      | none => s.replyTo c Numeric.errNoSuchChannel (name ++ ascii " :No such channel")
      | some p => s.handleInvite p c target
  | _ => s.replyTo c Numeric.errNeedMoreParams (ascii "INVITE :Not enough parameters")

/-- One round of the loop of `JOIN 0`. -/
def partRound (c : ClientPtr) (s : Server) (entry : Bytes × ChannelPtr) : Server :=
  let s := s.handlePart entry.2 c []
  if (s.channel entry.2).isEmpty then s.deleteChannel entry.1 else s

def executeJoin (s : Server) (c : ClientPtr) (msg : Message) : Server :=
  match msg.parameter with
  | [] => s.replyTo c Numeric.errNeedMoreParams (ascii "JOIN :Not enough parameters")
  | name :: rest =>
    if name = ascii "0" then (s.client c).joinedChannels.entries.foldl (partRound c) s
    else if !isValidChannelName name then
      s.replyTo c Numeric.errBadChanMask (name ++ ascii " :Bad Channel Mask")
    else
      let found := s.findOrCreateChannel name
      found.1.handleJoin found.2 c (rest.headD [])

def executeKick (s : Server) (c : ClientPtr) (msg : Message) : Server :=
  match msg.parameter with
  | name :: nick :: rest =>
    match s.findChannel name with
    | none => s.replyTo c Numeric.errNoSuchChannel (name ++ ascii " :No such channel")
    | some p =>
      match s.findClientByNickname nick with
      | none =>
        let ch := s.channel p
        if !ch.isMember c then
          s.replyTo c Numeric.errNotOnChannel (ch.name ++ ascii " :You're not on that channel")
        else if !ch.isOperator c then
          s.replyTo c Numeric.errChanOPrivsNeeded
            (ch.name ++ ascii " :You're not channel operator")
        else
          s.replyTo c Numeric.errUserNotInChannel
            (nick ++ ascii " " ++ name ++ ascii " :They aren't on that channel")
      | some target =>
        let s := s.handleKick p c target (rest.headD [])
        if (s.channel p).isEmpty then s.deleteChannel name else s
  | _ => s.replyTo c Numeric.errNeedMoreParams (ascii "KICK :Not enough parameters")

def executePart (s : Server) (c : ClientPtr) (msg : Message) : Server :=
  match msg.parameter with
  | [] => s.replyTo c Numeric.errNeedMoreParams (ascii "PART :Not enough parameters")
  | name :: rest =>
    match s.findChannel name with
    | none => s.replyTo c Numeric.errNoSuchChannel (name ++ ascii " :No such channel")
    | some p =>
      let s := s.handlePart p c (rest.headD [])
      if (s.channel p).isEmpty then s.deleteChannel name else s

def executePrivmsg (s : Server) (c : ClientPtr) (msg : Message) : Server :=
  let recipient := msg.parameter.headD []
  let comment := msg.parameter.getD 1 []
  if recipient.isEmpty then
    s.replyTo c Numeric.errNoRecipient (ascii ":No recipient given (PRIVMSG)")
  else if comment.isEmpty then
    s.replyTo c Numeric.errNoTextToSend (ascii ":No text to send")
  else
    match s.findChannel recipient with
    | none =>
      match s.findClientByNickname recipient with
      | none =>
        s.replyTo c Numeric.errNoSuchNick (recipient ++ ascii " :No such nick/channel")
      | some d => s.handlePersonalPrivmsg c d comment
    | some p => s.handleChannelPrivmsg p c comment

def executeTopic (s : Server) (c : ClientPtr) (msg : Message) : Server :=
  match msg.parameter with
  | [] => s.replyTo c Numeric.errNeedMoreParams (ascii "TOPIC :Not enough parameters")
  | name :: rest =>
    match s.findChannel name with
    | none => s.replyTo c Numeric.errNoSuchChannel (name ++ ascii " :No such channel")
    | some p => s.handleTopic p c (rest.headD []) (!rest.isEmpty)

/-! ## MODE, first pass -/

/-- The variables of the loop of `Mode::execute`. -/
structure FilterLoop where
  server : Server
  paramIndex : Nat
  paramModeCount : Nat
  enable : Bool
  filteredModes : Bytes
  filteredParams : List Bytes
  lastAppliedSign : Byte

namespace FilterLoop

def isModeFlag (c : Byte) : Bool :=
  c == byte 'o' || c == byte 'i' || c == byte 't' || c == byte 'k' || c == byte 'l'

def takesParam (c : Byte) (enable : Bool) : Bool :=
  c == byte 'o' || c == byte 'k' || (c == byte 'l' && enable)

def requiresParam (c : Byte) (enable : Bool) : Bool :=
  c == byte 'o' || (enable && (c == byte 'k' || c == byte 'l'))

/-- The flags that count towards the limit of three. -/
def isParamMode (c : Byte) : Bool := c == byte 'o' || c == byte 'k' || c == byte 'l'

/-- `o` is applied at once. -/
def operatorRound (p : ChannelPtr) (user : ClientPtr) (param : Bytes) (l : FilterLoop) :
    FilterLoop :=
  match l.server.findClientByNickname param with
  | some target => { l with server := l.server.handleModeOperator p l.enable target user }
  | none =>
    { l with
      server := l.server.replyTo user Numeric.errUserNotInChannel
        (param ++ ascii " " ++ (l.server.channel p).name ++
          ascii " :They aren't on that channel") }

/-- The other flags are collected, with a sign where it changes. -/
def collect (c : Byte) (param : Option Bytes) (l : FilterLoop) : FilterLoop :=
  let sign := if l.enable then byte '+' else byte '-'
  { l with
    filteredModes :=
      (if sign ≠ l.lastAppliedSign then l.filteredModes ++ [sign] else l.filteredModes) ++ [c]
    lastAppliedSign := sign
    filteredParams :=
      match param with
      | some param =>
        if l.enable && (c == byte 'k' || c == byte 'l') then l.filteredParams ++ [param]
        else l.filteredParams
      | none => l.filteredParams }

/-- The part of a round after the parameter is taken: the limit of three, then the flag. -/
def actOn (p : ChannelPtr) (user : ClientPtr) (c : Byte) (param : Option Bytes)
    (l : FilterLoop) : FilterLoop :=
  if isParamMode c && 3 ≤ l.paramModeCount then l
  else
    let l := if isParamMode c then { l with paramModeCount := l.paramModeCount + 1 } else l
    if c = byte 'o' then l.operatorRound p user (param.getD [])
    else l.collect c param

/-- One character of the mode string. -/
def round (p : ChannelPtr) (user : ClientPtr) (modeParams : List Bytes) (l : FilterLoop)
    (c : Byte) : FilterLoop :=
  if c = byte '+' then { l with enable := true }
  else if c = byte '-' then { l with enable := false }
  else if !isModeFlag c then
    { l with
      server := l.server.replyTo user Numeric.errUnknownMode
        ([c] ++ ascii " :is unknown mode char to me for " ++ (l.server.channel p).name) }
  else if takesParam c l.enable then
    match modeParams[l.paramIndex]? with
    | some param => { l with paramIndex := l.paramIndex + 1 }.actOn p user c (some param)
    | none =>
      if requiresParam c l.enable then
        { l with
          server := l.server.replyTo user Numeric.errNeedMoreParams
            (ascii "MODE :Not enough parameters") }
      else l.actOn p user c none
  else l.actOn p user c none

end FilterLoop

/-- `Mode::execute` from the point where the first character is known to be a sign. -/
def applyModes (s : Server) (p : ChannelPtr) (user : ClientPtr) (modes : Bytes)
    (modeParams : List Bytes) : Server :=
  let l := modes.foldl (FilterLoop.round p user modeParams) ⟨s, 0, 0, true, [], [], 0⟩
  if !l.filteredModes.isEmpty then l.server.handleMode p user l.filteredModes l.filteredParams
  else l.server

def executeMode (s : Server) (c : ClientPtr) (msg : Message) : Server :=
  match msg.parameter with
  | [] => s.replyTo c Numeric.errNeedMoreParams (ascii "MODE :Not enough parameters")
  | [] :: _ => s.replyTo c Numeric.errNeedMoreParams (ascii "MODE :Not enough parameters")
  | (first :: rest) :: params =>
    -- user modes are not supported and ignored without an answer
    if first ≠ byte '#' ∧ first ≠ byte '&' then s
    else
      match s.findChannel (first :: rest) with
      | none =>
        s.replyTo c Numeric.errNoSuchChannel ((first :: rest) ++ ascii " :No such channel")
      | some p =>
        let ch := s.channel p
        match params.headD [] with
        | [] => s.handleMode p c [] params.tail
        | sign :: flags =>
          if !ch.isOperator c then
            s.replyTo c Numeric.errChanOPrivsNeeded
              (ch.name ++ ascii " :You're not channel operator")
          else if sign ≠ byte '+' ∧ sign ≠ byte '-' then
            s.replyTo c Numeric.errUnknownMode
              ([sign] ++ ascii " :is unknown mode char to me for " ++ ch.name)
          else s.applyModes p c (sign :: flags) params.tail

/-! ## Dispatch -/

inductive Command
  | nick | pass | ping | pong | quit | user | invite | join | kick | mode | part | privmsg | topic
  deriving DecidableEq

/-- The names registered by `Parser::Parser`. -/
def commands : List (Bytes × Command) :=
  [(ascii "NICK", .nick), (ascii "PASS", .pass), (ascii "PING", .ping), (ascii "PONG", .pong),
    (ascii "QUIT", .quit), (ascii "USER", .user), (ascii "INVITE", .invite),
    (ascii "JOIN", .join), (ascii "KICK", .kick), (ascii "MODE", .mode), (ascii "PART", .part),
    (ascii "PRIVMSG", .privmsg), (ascii "TOPIC", .topic)]

def findCommand (name : Bytes) : Option Command :=
  (commands.find? fun e => e.1 = name).map Prod.snd

def needLogin : Command → Bool
  | .nick | .pass | .ping | .pong | .quit | .user => false
  | .invite | .join | .kick | .mode | .part | .privmsg | .topic => true

def execute : Command → Server → ClientPtr → Message → Server
  | .nick => executeNick
  | .pass => executePass
  | .ping => executePing
  | .pong => executePong
  | .quit => executeQuit
  | .user => executeUser
  | .invite => executeInvite
  | .join => executeJoin
  | .kick => executeKick
  | .mode => executeMode
  | .part => executePart
  | .privmsg => executePrivmsg
  | .topic => executeTopic

def dispatch (s : Server) (c : ClientPtr) (msg : Message) : Server :=
  match findCommand msg.command with
  | none => s.replyWithParameter c IrcNumeric.errUnknownCommand msg.command
      (ascii "Unknown command")
  | some cmd =>
    if needLogin cmd && !(s.client c).isRegistered then
      s.sendReply c (formatReply IrcNumeric.errNotRegistered (ascii "*")
        (ascii "You have not registered"))
    else execute cmd s c msg

/-- `Parser::operate`; a line that does not parse has no effect. -/
def operate (s : Server) (c : ClientPtr) (raw : Bytes) : Server :=
  match spliter raw with
  | none => s
  | some msg => s.dispatch c msg

end Server
end FtIrc
