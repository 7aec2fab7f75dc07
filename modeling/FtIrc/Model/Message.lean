import FtIrc.Model.Text

/-!
# Message parsing

`Message::spliter`. A position of the source is modelled by the part of the line from there on:
`find(' ', pos)` splits it into `token` and `afterToken`, and `npos` is an empty `afterToken`.
-/

namespace FtIrc

structure Message where
  existPrefix : Bool
  msgPrefix : Bytes
  command : Bytes
  parameter : List Bytes
  deriving DecidableEq

/-- `substr(pos, find(' ', pos) - pos)`. -/
def token (rest : Bytes) : Bytes := rest.takeWhile (· ≠ byte ' ')

/-- `substr(find(' ', pos))`, empty when there is no space. -/
def afterToken (rest : Bytes) : Bytes := rest.dropWhile (· ≠ byte ' ')

/-- `while (pos < size && s[pos] == ' ') ++pos`, also `find_first_not_of(' ')`. -/
def skipSpaces (rest : Bytes) : Bytes := rest.dropWhile (· = byte ' ')

/-- The parameter loop; the first argument is `14 - paramCount`. -/
def splitParameters : Nat → Bytes → List Bytes
  | _, [] => []
  | 0, c :: rest => [if c = byte ':' then rest else c :: rest]
  | left + 1, c :: rest =>
    if c = byte ':' then [rest]
    else if afterToken (c :: rest) = [] then [c :: rest]
    else token (c :: rest) :: splitParameters left (skipSpaces (afterToken (c :: rest)))

/-- The part of `spliter` after the prefix. -/
def splitCommand (existPrefix : Bool) (msgPrefix rest : Bytes) : Message where
  existPrefix
  msgPrefix
  command := (token rest).map toupper
  parameter := splitParameters 14 (skipSpaces (afterToken rest))

/-- The input cut: at most 510 bytes, not in the middle of a character. -/
def cutInput (raw : Bytes) : Bytes :=
  if 510 < raw.length then raw.take (backUp raw 3 510) else raw

/-- The line is refused (`false` in the source) as `none`. -/
def spliter (raw : Bytes) : Option Message :=
  if raw.isEmpty then none else
  let searing := cutInput raw
  if searing.contains 0 then none else
  let rpos := searing.findIdx? (· = 13)
  if rpos ≠ none ∧ rpos ≠ some (searing.length - 1) then none else
  let seared := if rpos = some (searing.length - 1) then searing.take (searing.length - 1) else searing
  match skipSpaces seared with
  | [] => none
  | first :: rest =>
    if first = byte ':' then
      let name := token rest
      match afterToken rest with
      | [] => none
      | after =>
        match skipSpaces after with
        | [] => none
        | body => some (splitCommand (name ≠ []) name body)
    else some (splitCommand false [] (first :: rest))

end FtIrc
