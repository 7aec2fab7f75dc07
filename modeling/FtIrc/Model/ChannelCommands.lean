import FtIrc.Model.Server

/-!
# Channel commands

The `handle…` methods of `Channel`, on the server state that holds the channel and its members.
-/

namespace FtIrc
namespace Server

def sendToOne (s : Server) (c : ClientPtr) (message : Bytes) : Server := s.sendReply c message

def sendToAll (s : Server) (p : ChannelPtr) (message : Bytes) : Server :=
  (s.channel p).members.foldl (fun s d => s.sendReply d message) s

def sendToAllExcept (s : Server) (p : ChannelPtr) (except : ClientPtr) (message : Bytes) : Server :=
  (s.channel p).members.foldl (fun s d => if d ≠ except then s.sendReply d message else s) s

def addMember (s : Server) (p : ChannelPtr) (c : ClientPtr) : Server :=
  if (s.channel p).isMember c then s
  else
    (s.updChannel p fun ch => { ch with members := ch.members ++ [c] }).updClient c
      (·.addJoinedChannels (s.channel p).name p)

def removeMember (s : Server) (p : ChannelPtr) (c : ClientPtr) : Server :=
  let s := s.updChannel p fun ch => { ch with members := ch.members.filter (· ≠ c) }
  let s := s.updChannel p (·.removeOperator c)
  s.updClient c (·.removeJoinedChannels (s.channel p).name)

/-- One entry of the names list; the state is the server and the batch `users`. -/
def namesRound (p : ChannelPtr) (user : ClientPtr) (header : Bytes) (limit : Nat)
    (st : Server × Bytes) (d : ClientPtr) : Server × Bytes :=
  let s := st.1
  let entry := (if (s.channel p).isOperator d then ascii "@" else []) ++ (s.client d).nickname
  let flush := !st.2.isEmpty && limit < st.2.length + 1 + entry.length
  let s := if flush then s.sendToOne user (header ++ st.2) else s
  let users := if flush then [] else st.2
  (s, (if !users.isEmpty then users ++ ascii " " else users) ++ entry)

/-- `size_t` subtraction. -/
def sizeSub (a b : Nat) : Nat := (a + 2 ^ 64 - b) % 2 ^ 64

/-- The names list of `handleJoin`. -/
def sendNames (s : Server) (p : ChannelPtr) (user : ClientPtr) : Server :=
  let header := makeReply Numeric.rplNamReply (s.client user).nickname
    (ascii "= " ++ (s.channel p).name ++ ascii " :")
  let limit := sizeSub 510 header.length
  let st := (s.channel p).members.foldl (namesRound p user header limit) (s, [])
  if !st.2.isEmpty then st.1.sendToOne user (header ++ st.2) else st.1

/-- The topic lines of `handleJoin` and of `handleTopic` without a topic. -/
def sendTopic (s : Server) (p : ChannelPtr) (user : ClientPtr) : Server :=
  let name := (s.channel p).name
  let nick := (s.client user).nickname
  if (s.channel p).topic.isEmpty then
    s.sendToOne user (makeReply Numeric.rplNoTopic nick (name ++ ascii " :No topic is set"))
  else
    s.sendToOne user (makeReply Numeric.rplTopic nick
      (name ++ ascii " :" ++ (s.channel p).topic))

/-- `handleJoin` from the point where the client is let in: the invitation is used up, the first
member becomes operator, then the notices are sent. -/
def letIn (s : Server) (p : ChannelPtr) (user : ClientPtr) : Server :=
  let s := s.updChannel p fun ch => { ch with invitedUsers := ch.invitedUsers.filter (· ≠ user) }
  let s := s.updClient user (·.removeInvitedChannel p)
  let isFirst := (s.channel p).isEmpty
  let s := s.addMember p user
  let s := if isFirst then s.updChannel p (·.addOperator user) else s
  let s := s.sendToAll p (makeCommand (s.client user) (ascii "JOIN") (s.channel p).name)
  let s := s.sendTopic p user
  let s := s.sendNames p user
  s.sendToOne user (makeReply Numeric.rplEndOfNames (s.client user).nickname
    ((s.channel p).name ++ ascii " :End of /NAMES list"))

def handleJoin (s : Server) (p : ChannelPtr) (user : ClientPtr) (key : Bytes) : Server :=
  let ch := s.channel p
  let nick := (s.client user).nickname
  if ch.isMember user then s
  else if !ch.key.isEmpty && !ch.checkKey key then
    s.sendToOne user (makeReply Numeric.errBadChannelKey nick
      (ch.name ++ ascii " :Cannot join channel (+k)"))
  else if ch.inviteOnly && !ch.isInvited user then
    s.sendToOne user (makeReply Numeric.errInviteOnlyChan nick
      (ch.name ++ ascii " :Cannot join channel (+i)"))
  else if ch.isFull then
    s.sendToOne user (makeReply Numeric.errChannelIsFull nick
      (ch.name ++ ascii " :Cannot join channel (+l)"))
  else s.letIn p user

def notOnChannel (s : Server) (p : ChannelPtr) (user : ClientPtr) : Server :=
  s.sendToOne user (makeReply Numeric.errNotOnChannel (s.client user).nickname
    ((s.channel p).name ++ ascii " :You're not on that channel"))

def chanOPrivsNeeded (s : Server) (p : ChannelPtr) (user : ClientPtr) : Server :=
  s.sendToOne user (makeReply Numeric.errChanOPrivsNeeded (s.client user).nickname
    ((s.channel p).name ++ ascii " :You're not channel operator"))

def handlePart (s : Server) (p : ChannelPtr) (user : ClientPtr) (message : Bytes) : Server :=
  if !(s.channel p).isMember user then s.notOnChannel p user
  else
    let reason := if 0 < message.length then message else (s.client user).nickname
    let s := s.sendToAll p (makeCommand (s.client user) (ascii "PART")
      ((s.channel p).name ++ ascii " :" ++ reason))
    s.removeMember p user

def handleKick (s : Server) (p : ChannelPtr) (kickingUser kickedUser : ClientPtr)
    (comment : Bytes) : Server :=
  let ch := s.channel p
  if !ch.isMember kickingUser then s.notOnChannel p kickingUser
  else if !ch.isOperator kickingUser then s.chanOPrivsNeeded p kickingUser
  else if !ch.isMember kickedUser then
    s.sendToOne kickingUser (makeReply Numeric.errUserNotInChannel (s.client kickingUser).nickname
      ((s.client kickedUser).nickname ++ ascii " " ++ ch.name ++
        ascii " :They aren't on that channel"))
  else
    let reason := if !comment.isEmpty then comment else (s.client kickingUser).nickname
    let s := s.sendToAll p (makeCommand (s.client kickingUser) (ascii "KICK")
      (ch.name ++ ascii " " ++ (s.client kickedUser).nickname) ++ ascii " :" ++ reason)
    s.removeMember p kickedUser

def handleTopic (s : Server) (p : ChannelPtr) (user : ClientPtr) (topic : Bytes)
    (hasTopicParam : Bool) : Server :=
  let ch := s.channel p
  if !ch.isMember user then s.notOnChannel p user
  else if !hasTopicParam then s.sendTopic p user
  else if ch.topicByOpOnly && !ch.isOperator user then s.chanOPrivsNeeded p user
  else
    let s := s.updChannel p fun ch => { ch with topic := truncateUtf8 topic 300 }
    s.sendToAll p (makeCommand (s.client user) (ascii "TOPIC")
      ((s.channel p).name ++ ascii " :" ++ (s.channel p).topic))

def handleInvite (s : Server) (p : ChannelPtr) (invitingUser invitedUser : ClientPtr) : Server :=
  let ch := s.channel p
  let nick := (s.client invitingUser).nickname
  let target := (s.client invitedUser).nickname
  if !ch.isMember invitingUser then s.notOnChannel p invitingUser
  else if ch.inviteOnly && !ch.isOperator invitingUser then s.chanOPrivsNeeded p invitingUser
  else if ch.isInvited invitedUser then s
  else if ch.isMember invitedUser then
    s.sendToOne invitingUser (makeReply Numeric.errUserOnChannel nick
      (target ++ ascii " " ++ ch.name ++ ascii " :is already on channel"))
  else
    let s := s.updChannel p fun ch => { ch with invitedUsers := ch.invitedUsers ++ [invitedUser] }
    let s := s.updClient invitedUser (·.addInvitedChannel p)
    let s := s.sendToOne invitingUser (makeReply Numeric.rplInviting nick
      (ch.name ++ ascii " " ++ target))
    s.sendToOne invitedUser (makeCommand (s.client invitingUser) (ascii "INVITE")
      (target ++ ascii " " ++ ch.name))

def removeQuitUser (s : Server) (p : ChannelPtr) (user : ClientPtr) : Server :=
  if (s.channel p).isMember user then s.removeMember p user else s

/-! ## MODE -/

/-- The variables of the loop of `handleMode`. -/
structure ModeLoop where
  server : Server
  enable : Bool
  paramIndex : Nat
  applied : Bytes
  appliedArgs : Bytes
  lastSign : Byte

namespace ModeLoop

/-- Set a mode of the channel and record it in `applied`. -/
def apply (l : ModeLoop) (p : ChannelPtr) (f : Channel → Channel) (enable : Bool) (flag : Byte) :
    ModeLoop :=
  { l with
    server := l.server.updChannel p f
    applied := (appendApplied l.applied l.lastSign enable flag).1
    lastSign := (appendApplied l.applied l.lastSign enable flag).2 }

/-- Take a parameter that cannot be used: only an error is sent. -/
def refuse (l : ModeLoop) (user : ClientPtr) (message : Bytes) : ModeLoop :=
  { l with server := l.server.sendToOne user message }

def keyRound (p : ChannelPtr) (user : ClientPtr) (modeParams : List Bytes) (l : ModeLoop) :
    ModeLoop :=
  let ch := l.server.channel p
  let nick := (l.server.client user).nickname
  if l.enable then
    match modeParams[l.paramIndex]? with
    | none => l
    | some newKey =>
      let l := { l with paramIndex := l.paramIndex + 1 }
      if !isValidKey newKey then
        l.refuse user (makeReply Numeric.errInvalidKey nick
          (ch.name ++ ascii " :Key is not well-formed"))
      else if !ch.key.isEmpty then
        l.refuse user (makeReply Numeric.errKeySet nick
          (ch.name ++ ascii " :Channel key already set"))
      else
        let l := l.apply p (·.setModeKey true newKey) true (byte 'k')
        { l with appliedArgs := l.appliedArgs ++ ascii " " ++ newKey }
  else if !ch.key.isEmpty then l.apply p (·.setModeKey false []) false (byte 'k')
  else l

def limitRound (p : ChannelPtr) (user : ClientPtr) (modeParams : List Bytes) (l : ModeLoop) :
    ModeLoop :=
  let ch := l.server.channel p
  if l.enable then
    match modeParams[l.paramIndex]? with
    | none => l
    | some raw =>
      let l := { l with paramIndex := l.paramIndex + 1 }
      match parseLimit raw with
      | none =>
        l.refuse user (makeReply Numeric.errInvalidModeParam (l.server.client user).nickname
          (ch.name ++ ascii " l " ++ raw ++ ascii " :Invalid limit value"))
      | some limit =>
        let l := l.apply p (·.setModeUserLimit true limit) true (byte 'l')
        { l with appliedArgs := l.appliedArgs ++ ascii " " ++ raw }
  else if 0 < ch.userLimit then l.apply p (·.setModeUserLimit false 0) false (byte 'l')
  else l

/-- One character of the mode string. -/
def round (p : ChannelPtr) (user : ClientPtr) (modeParams : List Bytes) (l : ModeLoop)
    (mode : Byte) : ModeLoop :=
  let ch := l.server.channel p
  if mode = byte '+' then { l with enable := true }
  else if mode = byte '-' then { l with enable := false }
  else if mode = byte 'i' then
    if ch.inviteOnly ≠ l.enable then
      l.apply p (·.setModeInviteOnly l.enable) l.enable (byte 'i')
    else l
  else if mode = byte 't' then
    if ch.topicByOpOnly ≠ l.enable then
      l.apply p (·.setModeTopicRestriction l.enable) l.enable (byte 't')
    else l
  else if mode = byte 'k' then l.keyRound p user modeParams
  else if mode = byte 'l' then l.limitRound p user modeParams
  else
    l.refuse user (makeReply Numeric.errUnknownMode (l.server.client user).nickname
      ([mode] ++ ascii " :is unknown mode char to me for " ++ ch.name))

end ModeLoop

def handleMode (s : Server) (p : ChannelPtr) (user : ClientPtr) (modes : Bytes)
    (modeParams : List Bytes) : Server :=
  let ch := s.channel p
  if modes.isEmpty then
    if !ch.isMember user then s.notOnChannel p user
    else
      s.sendToOne user (makeReply Numeric.rplChannelModeIs (s.client user).nickname
        (ch.name ++ ascii " " ++ ch.buildModeString))
  else if !ch.isOperator user then s.chanOPrivsNeeded p user
  else
    let l := modes.foldl (ModeLoop.round p user modeParams) ⟨s, true, 0, [], [], 0⟩
    if !l.applied.isEmpty then
      l.server.sendToAll p (makeCommand (l.server.client user) (ascii "MODE")
        (ch.name ++ ascii " " ++ l.applied ++ l.appliedArgs))
    else l.server

def handleModeOperator (s : Server) (p : ChannelPtr) (enable : Bool) (target user : ClientPtr) :
    Server :=
  let ch := s.channel p
  if !ch.isMember target then
    s.sendToOne user (makeReply Numeric.errUserNotInChannel (s.client user).nickname
      ((s.client target).nickname ++ ascii " " ++ ch.name ++
        ascii " :They aren't on that channel"))
  else if !ch.isOperator user then s.chanOPrivsNeeded p user
  else if ch.isOperator target == enable then s
  else
    let s := s.updChannel p (·.setModeOperator enable target)
    let modeStr := if enable then ascii "+o" else ascii "-o"
    s.sendToAll p (makeCommand (s.client user) (ascii "MODE")
      (ch.name ++ ascii " " ++ modeStr ++ ascii " " ++ (s.client target).nickname))

def handleChannelPrivmsg (s : Server) (p : ChannelPtr) (sender : ClientPtr) (message : Bytes) :
    Server :=
  let ch := s.channel p
  if !ch.isMember sender then
    s.sendToOne sender (makeReply Numeric.errCannotSendToChan (s.client sender).nickname
      (ch.name ++ ascii " :Cannot send to channel"))
  else
    s.sendToAllExcept p sender (makeCommand (s.client sender) (ascii "PRIVMSG")
      (ch.name ++ ascii " :" ++ message))

def handlePersonalPrivmsg (s : Server) (sender recipient : ClientPtr) (message : Bytes) : Server :=
  s.sendReply recipient (makeCommand (s.client sender) (ascii "PRIVMSG")
    ((s.client recipient).nickname ++ ascii " :" ++ message))

end Server
end FtIrc
