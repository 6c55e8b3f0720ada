import Atelier.Bundle.Basic
import Atelier.Error
import Atelier.FileSystem.Calls

/-!
# Collecting a bundle

The files below a root whose names have a given extension, in the order of their locations. A path
in the bundle is `./` and the names on the way from the root; a root that is itself such a file is
collected under `./` alone. Names that are no text are written with replacement characters, so the
path of such a file does not lead back to it.

A directory gives its names in no particular order, and they are sorted on the walk.

Everything below a root is reached by the path text of the root and the names behind it. So a
directory, or a file to be collected, can be too far below a long root to be reached.
-/

namespace Atelier.Bundle

/-- Whether an entry of a tree is a file whose name has the extension. -/
def isWanted (extension : String) (e : Location × Item) : Bool :=
  match e.2 with
  | .directory => false
  | .file _ => (e.1.getLast?.bind Name.extension?) == some (Text.bytes extension)

/-- The path in a bundle of a file, given the names on the way from the root. -/
def entryPath (names : Location) : String :=
  "./" ++ names.text

/-- The path text by which something is reached, given the names on the way from the root. -/
def reach (root : Bytes) (names : Location) : Bytes :=
  if names = [] then root else Path.join root names.path

/-- The entry of a file with the names on the way to it. -/
def readEntry (names : Location) (content : ByteArray) : Except ToolError Entry :=
  match String.fromUTF8? content with
  | some body => .ok ⟨entryPath names, body⟩
  | none => .error (.io .notUtf8)

/-- What is collected on a visit: nothing from a directory, which only has to be reached, and a file
that is wanted. -/
def visit (root : Bytes) (extension : String) (top : Location) (e : Location × Item) :
    Except ToolError (Option Entry) :=
  let names := e.1.drop top.length
  let path := reach root names
  match e.2 with
  | .directory =>
    if Path.isTooLong path then .error (.walk names.length path (.os .nameTooLong)) else .ok none
  | .file content =>
    if ¬ isWanted extension e then .ok none
    else if Path.isTooLong path then .error (.io (.os .nameTooLong))
    else some <$> readEntry names content

/-- Collects the files with an extension at and below a root, in a tree whose directories are listed
in some order. -/
def collectListed (t : FileTree) (listed : Forest) (root : Bytes) (extension : String) :
    Except ToolError Bundle := do
  let place ← (t.find root).mapError (.walk 0 root)
  let visits ← (listed.inOrder.entriesBelow place.location).mapM
    (visit root extension place.location)
  return visits.reduceOption

/-- Collects the files with an extension at and below a root. -/
def collect (t : FileTree) (root : Bytes) (extension : String) : Except ToolError Bundle :=
  collectListed t t.top root extension

/-- The files with an extension at and below a root, as one text. -/
def package (t : FileTree) (root : Bytes) (extension : String) : Except ToolError String :=
  encode <$> collect t root extension

end Atelier.Bundle
