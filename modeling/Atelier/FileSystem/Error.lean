/-!
# What a file system refuses

The reasons for which an operating system refuses a request, and the two reasons for which a request
is refused before it gets there. Each has a message and a code.
-/

namespace Atelier

/-- Why the operating system refused. -/
inductive OsError where
  | notFound
  | alreadyExists
  | notADirectory
  | isADirectory
  | nameTooLong
deriving DecidableEq, Repr

namespace OsError

def code : OsError → Nat
  | notFound => 2
  | alreadyExists => 17
  | notADirectory => 20
  | isADirectory => 21
  | nameTooLong => 36

def kind : OsError → String
  | notFound => "NotFound"
  | alreadyExists => "AlreadyExists"
  | notADirectory => "NotADirectory"
  | isADirectory => "IsADirectory"
  | nameTooLong => "InvalidFilename"

def reason : OsError → String
  | notFound => "No such file or directory"
  | alreadyExists => "File exists"
  | notADirectory => "Not a directory"
  | isADirectory => "Is a directory"
  | nameTooLong => "File name too long"

end OsError

/-- Why a file could not be read or written. -/
inductive IoError where
  | os (cause : OsError)
  | notUtf8
  | nulInPath
deriving DecidableEq, Repr

namespace IoError

def message : IoError → String
  | os cause => cause.reason ++ " (os error " ++ cause.code.repr ++ ")"
  | notUtf8 => "stream did not contain valid UTF-8"
  | nulInPath => "file name contained an unexpected NUL byte"

/-- The error with its parts named. -/
def inspect : IoError → String
  | os cause =>
    "Os \x7b code: " ++ cause.code.repr ++ ", kind: " ++ cause.kind ++ ", message: \"" ++
      cause.reason ++ "\" \x7d"
  | notUtf8 => "Error \x7b kind: InvalidData, message: \"" ++ message notUtf8 ++ "\" \x7d"
  | nulInPath => "Error \x7b kind: InvalidInput, message: \"" ++ message nulInPath ++ "\" \x7d"

end IoError

end Atelier
