import FtIrc.Model.Client

/-!
# Numeric replies and command prefixes

The two reply builders of the source: `IrcReply` with string codes, `makeReply` with integer codes.
-/

namespace FtIrc

namespace IrcNumeric

def rplWelcome : Bytes := ascii "001"
def rplYourHost : Bytes := ascii "002"
def rplCreated : Bytes := ascii "003"
def rplMyInfo : Bytes := ascii "004"
def errUnknownCommand : Bytes := ascii "421"
def errNotRegistered : Bytes := ascii "451"
def errNeedMoreParams : Bytes := ascii "461"
def errNoNicknameGiven : Bytes := ascii "431"
def errErroneusNickname : Bytes := ascii "432"
def errNicknameInUse : Bytes := ascii "433"
def errAlreadyRegistered : Bytes := ascii "462"
def errPasswdMismatch : Bytes := ascii "464"
def errNoOrigin : Bytes := ascii "409"

end IrcNumeric

namespace Numeric

def rplChannelModeIs : Nat := 324
def rplTopic : Nat := 332
def rplNoTopic : Nat := 331
def rplNamReply : Nat := 353
def rplEndOfNames : Nat := 366
def rplInviting : Nat := 341
def errNoSuchNick : Nat := 401
def errNoSuchChannel : Nat := 403
def errCannotSendToChan : Nat := 404
def errNoRecipient : Nat := 411
def errNoTextToSend : Nat := 412
def errNotOnChannel : Nat := 442
def errUserNotInChannel : Nat := 441
def errUserOnChannel : Nat := 443
def errNeedMoreParams : Nat := 461
def errKeySet : Nat := 467
def errInviteOnlyChan : Nat := 473
def errBadChannelKey : Nat := 475
def errBadChanMask : Nat := 476
def errChannelIsFull : Nat := 471
def errUnknownMode : Nat := 472
def errChanOPrivsNeeded : Nat := 482
def errInvalidKey : Nat := 525
def errInvalidModeParam : Nat := 696

end Numeric

namespace IrcReply

def targetname (c : Client) : Bytes := if c.isRegistered then c.nickname else ascii "*"

def formatReply (code target trailing : Bytes) : Bytes :=
  ascii ":ircserv " ++ code ++ ascii " " ++ target ++ ascii " :" ++ trailing

def formatReplyWithParameter (code target parameter trailing : Bytes) : Bytes :=
  ascii ":ircserv " ++ code ++ ascii " " ++ target ++ ascii " " ++ parameter ++ ascii " :" ++
    trailing

end IrcReply

def makeReply (code : Nat) (nick rest : Bytes) : Bytes :=
  let cmd := (if code < 100 then ascii "0" else []) ++ (if code < 10 then ascii "0" else []) ++
    decimal code
  ascii ":" ++ ascii "ircserv" ++ ascii " " ++ cmd ++ ascii " " ++ nick ++ ascii " " ++ rest

def makeCommand (c : Client) (cmd rest : Bytes) : Bytes :=
  let source := c.nickname ++ ascii "!" ++ c.username ++ ascii "@" ++ c.ip
  if rest.isEmpty then ascii ":" ++ source ++ ascii " " ++ cmd
  else ascii ":" ++ source ++ ascii " " ++ cmd ++ ascii " " ++ rest

/-- `nickNotice`. -/
def nickNotice (old newer user host : Bytes) : Bytes :=
  ascii ":" ++ old ++ ascii "!" ++ user ++ ascii "@" ++ host ++ ascii " NICK :" ++ newer

end FtIrc
