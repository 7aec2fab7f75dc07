import FtIrc.Library.Utf8

/-!
# Text helpers

Character classes of the C locale, `IrcText::toLower`, `isValidNickname`, `isValidChannelName`,
`isValidKey`, `parseLimit`, `inet_ntop`, and the three loops that look for the start of a UTF-8
character.
-/

namespace FtIrc

def tolower (c : Byte) : Byte := if 65 ≤ c ∧ c ≤ 90 then c + 32 else c

def toupper (c : Byte) : Byte := if 97 ≤ c ∧ c ≤ 122 then c - 32 else c

def isalpha (c : Byte) : Bool := (65 ≤ c && c ≤ 90) || (97 ≤ c && c ≤ 122)

def isalnum (c : Byte) : Bool := isalpha c || isDigit c

/-- RFC 2812 2.2: `{}|^` are the lower-case forms of `[]\~`. -/
def lowerChar (c : Byte) : Byte :=
  if c = byte '[' then byte '\x7b'
  else if c = byte ']' then byte '\x7d'
  else if c = byte '\\' then byte '|'
  else if c = byte '~' then byte '^'
  else tolower c

def toLower (str : Bytes) : Bytes := str.map lowerChar

def isSpecial (c : Byte) : Bool :=
  c == byte '[' || c == byte ']' || c == byte '\\' || c == 0x60 ||
  c == byte '_' || c == byte '^' || c == byte '\x7b' || c == byte '\x7d' || c == byte '|'

/-- One to nine characters, a letter or a special character first. -/
def isValidNickname (newer : Bytes) : Bool :=
  match newer with
  | [] => false
  | first :: rest =>
    newer.length ≤ 9 && (isalpha first || isSpecial first) &&
      rest.all fun c => isalnum c || isSpecial c || c == byte '-'

def isValidChannelName (name : Bytes) : Bool :=
  match name with
  | [] => false
  | first :: _ =>
    name.length ≤ 50 && (first == byte '#' || first == byte '&') &&
      !name.contains (byte ' ') && !name.contains (byte ',') && !name.contains 7

def isValidKey (key : Bytes) : Bool :=
  !key.isEmpty && key.length ≤ 42 &&
    key.all fun c => !(c ≤ byte ' ' || c == 0x7f || c == byte ',')

/-- The value of `+l`; at most nine digits, so `atoi` does not overflow. -/
def parseLimit (str : Bytes) : Option Nat :=
  if str.isEmpty || 9 < str.length then none
  else if !str.all isDigit then none
  else if 0 < atoi str then some (atoi str) else none

/-- `sin_addr`, in network order. -/
structure Ipv4 where
  a : Byte
  b : Byte
  c : Byte
  d : Byte
  deriving DecidableEq

/-- Dotted decimal notation. -/
def inetNtop (addr : Ipv4) : Bytes :=
  decimal addr.a.toNat ++ ascii "." ++ decimal addr.b.toNat ++ ascii "." ++
    decimal addr.c.toNat ++ ascii "." ++ decimal addr.d.toNat

/-- `for (back = 0; back < 3 && isContinuation(s[cut]); ++back) --cut`, with the number of steps
that are left as first argument. -/
def backUp (s : Bytes) : Nat → Nat → Nat
  | 0, cut => cut
  | back + 1, cut => if isContinuation (s.getD cut 0) then backUp s back (cut - 1) else cut

/-- `while (cut > 0 && isContinuation(s[cut])) --cut`. -/
def backUpAll (s : Bytes) : Nat → Nat
  | 0 => 0
  | cut + 1 => if isContinuation (s.getD (cut + 1) 0) then backUpAll s cut else cut + 1

def truncateUtf8 (s : Bytes) (maxBytes : Nat) : Bytes :=
  if s.length ≤ maxBytes then s else s.take (backUpAll s maxBytes)

end FtIrc
