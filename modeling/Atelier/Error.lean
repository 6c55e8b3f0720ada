import Atelier.Drawing.Error
import Atelier.FileSystem.Error
import Atelier.Text.Inspect

/-!
# Errors of the tools

Everything that can make a command fail, with what is told of it: `message` for a reader, and
`inspect` with the parts of the error named.
-/

namespace Atelier

/-- Why a command failed. A walk tells the path that it could not take and how far below its root
that was. -/
inductive ToolError where
  | drawing (cause : DrawingError)
  | io (cause : IoError)
  | walk (depth : Nat) (path : Bytes) (cause : IoError)
  | serialization (reason : String)
  | invalidPath (path : String)
  | notFound (what : String)
deriving DecidableEq

namespace ToolError

def message : ToolError → String
  | drawing cause => "ArtkitError: " ++ cause.message
  | io cause => "IO error: " ++ cause.message
  | walk _ path cause =>
    "Error while walking directory: IO error for operation on " ++ Text.lossy path ++ ": " ++
      cause.message
  | serialization reason => "Error while serializing: " ++ reason
  | invalidPath path => "Invalid path: " ++ path
  | notFound what => "Not found: " ++ what

/-- The error with its parts named. -/
def inspect : ToolError → String
  | drawing cause => "ArtkitError(" ++ Text.inspect cause.message ++ ")"
  | io cause => "IoError(" ++ cause.inspect ++ ")"
  | walk depth path cause =>
    "WalkError(Error \x7b depth: " ++ depth.repr ++ ", inner: Io \x7b path: Some(" ++
      Text.inspectBytes path ++ "), err: " ++ cause.inspect ++ " \x7d \x7d)"
  | serialization reason => "SerializationError(" ++ Text.inspect reason ++ ")"
  | invalidPath path => "InvalidPath(" ++ Text.inspect path ++ ")"
  | notFound what => "NotFoundError(" ++ Text.inspect what ++ ")"

end ToolError

end Atelier
