import FtIrc.Model.Reply

/-!
# Channels

The `Channel` object, its checks, and the two functions that write a mode string.
-/

namespace FtIrc

/-- `userLimit` is never negative: only results of `parseLimit` and 0 are stored. -/
structure Channel where
  name : Bytes
  topic : Bytes
  key : Bytes
  userLimit : Nat
  members : List ClientPtr
  operators : List ClientPtr
  invitedUsers : List ClientPtr
  inviteOnly : Bool
  topicByOpOnly : Bool

namespace Channel

def new (name : Bytes) : Channel where
  name
  topic := []
  key := []
  userLimit := 0
  members := []
  operators := []
  invitedUsers := []
  inviteOnly := false
  topicByOpOnly := false

def checkKey (ch : Channel) (key : Bytes) : Bool := ch.key == key

def isFull (ch : Channel) : Bool :=
  if ch.userLimit ≤ 0 then false else ch.userLimit ≤ ch.members.length

def isInvited (ch : Channel) (c : ClientPtr) : Bool := ch.invitedUsers.contains c

def isMember (ch : Channel) (c : ClientPtr) : Bool := ch.members.contains c

def isOperator (ch : Channel) (c : ClientPtr) : Bool := ch.operators.contains c

def isEmpty (ch : Channel) : Bool := ch.members.isEmpty

def addOperator (ch : Channel) (c : ClientPtr) : Channel :=
  if ch.isOperator c then ch else { ch with operators := ch.operators ++ [c] }

def removeOperator (ch : Channel) (c : ClientPtr) : Channel :=
  { ch with operators := ch.operators.filter (· ≠ c) }

def removeMemberfromInvitedUsers (ch : Channel) (c : ClientPtr) : Channel :=
  { ch with invitedUsers := ch.invitedUsers.filter (· ≠ c) }

def setModeInviteOnly (ch : Channel) (enable : Bool) : Channel := { ch with inviteOnly := enable }

def setModeTopicRestriction (ch : Channel) (enable : Bool) : Channel :=
  { ch with topicByOpOnly := enable }

def setModeKey (ch : Channel) (enable : Bool) (key : Bytes) : Channel :=
  { ch with key := if enable then key else [] }

def setModeOperator (ch : Channel) (enable : Bool) (c : ClientPtr) : Channel :=
  if enable then
    if ch.isOperator c then ch else { ch with operators := ch.operators ++ [c] }
  else
    if !ch.isOperator c then ch else { ch with operators := ch.operators.filter (· ≠ c) }

def setModeUserLimit (ch : Channel) (enable : Bool) (userLimit : Nat) : Channel :=
  { ch with userLimit := if enable then userLimit else 0 }

def buildModeString (ch : Channel) : Bytes :=
  let modes := ascii "+" ++ (if ch.inviteOnly then ascii "i" else []) ++
    (if ch.topicByOpOnly then ascii "t" else []) ++
    (if !ch.key.isEmpty then ascii "k" else []) ++
    (if 0 < ch.userLimit then ascii "l" else [])
  let params := (if !ch.key.isEmpty then ascii " " ++ ch.key else []) ++
    (if 0 < ch.userLimit then ascii " " ++ decimal ch.userLimit else [])
  modes ++ params

end Channel

/-- `appendApplied`, returning `applied` and `lastSign`. -/
def appendApplied (applied : Bytes) (lastSign : Byte) (enable : Bool) (flag : Byte) :
    Bytes × Byte :=
  let sign := if enable then byte '+' else byte '-'
  if sign ≠ lastSign then (applied ++ [sign] ++ [flag], sign)
  else (applied ++ [flag], lastSign)

end FtIrc
