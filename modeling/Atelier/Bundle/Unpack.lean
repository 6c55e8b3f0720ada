import Atelier.Bundle.Basic
import Atelier.Error
import Atelier.FileSystem.Calls

/-!
# Unpacking a bundle

Writing the entries of a bundle below a prefix. All paths are checked before anything is written:
after at most one leading `./` a path must not be empty, and its parts must be names or the current
directory. Then the entries are written in order, each after the directories it needs. An error ends
the work and leaves what was written before it.
-/

namespace Atelier.Bundle

/-- A path without one leading `./`. -/
def stripCurrent (path : String) : String :=
  match path.toList with
  | '.' :: '/' :: rest => .ofList rest
  | _ => path

/-- Whether a part of a path leads neither to the root nor up. -/
def isPlain : Path.Part → Bool
  | .current | .name _ => true
  | .root | .up => false

/-- Whether a path, already stripped, stays below where it starts. -/
def isBelow (path : Bytes) : Bool :=
  path ≠ [] ∧ (Path.parts path).all isPlain

/-- The path at which an entry is to be written under a prefix. -/
def target (base : Bytes) (e : Entry) : Except ToolError Bytes :=
  let path := Text.bytes (stripCurrent e.path)
  if isBelow path then .ok (Path.join base path) else .error (.invalidPath e.path)

/-- Writes a text at a path, after the directories it needs. -/
def writeTarget (path : Bytes) (body : String) : FileAction IoError Unit := do
  FileAction.makeParents path
  FileAction.write path body.toByteArray

/-- Writes the entries of a bundle below a prefix, and tells where. -/
def writeTo (b : Bundle) (base : Bytes) : FileAction ToolError (List Bytes) := do
  match b.mapM (target base) with
  | .error e => throw e
  | .ok targets =>
    (targets.zip b).forM fun (path, e) => ExceptT.adapt .io (writeTarget path e.body)
    return targets

/-- Writes the entries of a text below a prefix. -/
def unpackage (text : String) (base : Bytes) : FileAction ToolError (List Bytes) :=
  (decode text).writeTo base

end Atelier.Bundle
