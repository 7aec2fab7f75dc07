import FtIrc.Properties.Descriptors

/-!
# After the ERROR line

A connection that closes stays in its channels until the cleanup, so others go on talking to it. It
gets nothing else, and the `send` that empties its write buffer marks it.
-/

namespace FtIrc
namespace Server

end Server
end FtIrc
