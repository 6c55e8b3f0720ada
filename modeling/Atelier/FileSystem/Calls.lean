import Atelier.Action
import Atelier.FileSystem.Error
import Atelier.FileSystem.Path
import Atelier.FileSystem.Tree

/-!
# Requests to a file tree

Finding, reading, making directories and writing, by path text, with the errors of an operating
system. A path is walked segment by segment from the root: `..` leads up, and stays where it is at
the root; a file leads nowhere, not even to itself by a slash behind it. An empty path leads
nowhere.

There is always room on the disk, and everything in a tree may be read and changed. So each request
is done as a whole or not at all, apart from making several directories. Requests that change the
tree are actions that keep what was done before an error.
-/

namespace Atelier

/-- An action on a file tree that may fail. What it did before it failed is not undone. -/
abbrev FileAction (ε α : Type) := Action FileTree ε α

/-- A place that a path leads to. -/
structure Place where
  location : Location
  item : Item
deriving DecidableEq

namespace FileTree

/-! ## Walking -/

/-- Follows one segment of a path. -/
def step (t : FileTree) (here : Place) (segment : Bytes) : Except OsError Place :=
  match here.item with
  | .file _ => .error .notADirectory
  | .directory =>
    if segment = [] ∨ segment = Path.current then .ok here
    else if segment = Path.up then .ok ⟨here.location.dropLast, .directory⟩
    else
      match Name.ofBytes? segment with
      | none => .error .nameTooLong
      | some name =>
        match t.get? (here.location ++ [name]) with
        | none => .error .notFound
        | some item => .ok ⟨here.location ++ [name], item⟩

/-- Follows the segments of a path from the root. -/
def walk (t : FileTree) (segments : List Bytes) : Except OsError Place :=
  segments.foldlM t.step ⟨[], .directory⟩

/-- Checks a path text before it is followed. -/
def checkPath (path : Bytes) : Except IoError Unit :=
  if Path.hasNul path then .error .nulInPath
  else if path = [] then .error (.os .notFound)
  else if Path.isTooLong path then .error (.os .nameTooLong)
  else .ok ()

def find (t : FileTree) (path : Bytes) : Except IoError Place := do
  checkPath path
  (t.walk (Path.segments path)).mapError .os

def findDirectory (t : FileTree) (segments : List Bytes) : Except OsError Location := do
  let place ← t.walk segments
  match place.item with
  | .directory => .ok place.location
  | .file _ => .error .notADirectory

/-! ## Reading -/

def readText (t : FileTree) (path : Bytes) : Except IoError String := do
  let place ← t.find path
  match place.item with
  | .directory => .error (.os .isADirectory)
  | .file content =>
    match String.fromUTF8? content with
    | some text => .ok text
    | none => .error .notUtf8

/-! ## Making directories -/

/-- Makes a directory in a directory that is there already, and tells where. -/
def makeDirectory (t : FileTree) (parent : Location) (segment : Bytes) :
    Except OsError (FileTree × Location) :=
  if segment = Path.up then .error .alreadyExists
  else
    match Name.ofBytes? segment with
    | none => .error .nameTooLong
    | some name =>
      match t.get? (parent ++ [name]) with
      | some _ => .error .alreadyExists
      | none => .ok (t.put parent name .directory, parent ++ [name])

/-- Takes up the outcome of making a directory. A directory that is there already is as good as a
new one. -/
def settle (segments : List Bytes) :
    Except OsError (FileTree × Location) → FileAction OsError Location
  | .ok (t, l) => do
    set t
    return l
  | .error e => do
    match (← get).findDirectory segments with
    | .ok l => return l
    | .error _ => throw e

/-- Makes a directory, and those on the way to it that are missing, and tells where it is. The
components are given from the innermost one outwards. -/
def makeDirectories : List Bytes → FileAction OsError Location
  | [] => return []
  | segment :: above => do
    let t ← get
    match t.findDirectory above.reverse >>= (t.makeDirectory · segment) with
    | .error .notFound =>
      let parent ← makeDirectories above
      settle (segment :: above).reverse ((← get).makeDirectory parent segment)
    | outcome => settle (segment :: above).reverse outcome

/-! ## Writing -/

/-- Puts a file into a directory that is there, in place of another file that has the name. -/
def putFile (t : FileTree) (parent : Location) (segment : Bytes) (content : ByteArray) :
    Except OsError FileTree :=
  match Name.ofBytes? segment with
  | none => .error .nameTooLong
  | some name =>
    match t.get? (parent ++ [name]) with
    | some .directory => .error .isADirectory
    | _ => .ok (t.put parent name (.file content))

/-- The tree after a file was written at the end of some segments. Those that end in an empty one,
or in one that is no name, can only mean a directory. -/
def writeAt (t : FileTree) (segments : List Bytes) (content : ByteArray) :
    Except OsError FileTree := do
  let trimmed := (segments.reverse.dropWhile (· = [])).reverse
  match trimmed.getLast? with
  | none => .error .isADirectory
  | some last =>
    let parent ← t.findDirectory trimmed.dropLast
    if last = Path.current ∨ last = Path.up ∨ trimmed.length < segments.length then
      .error .isADirectory
    else t.putFile parent last content

/-- The tree after a file was written. The directory that holds the file has to be there. The file
holds all of the content then, and nothing else has changed: a write never stops half way. -/
def writeFile (t : FileTree) (path : Bytes) (content : ByteArray) : Except IoError FileTree := do
  checkPath path
  (t.writeAt (Path.segments path) content).mapError .os

end FileTree

def FileAction.write (path : Bytes) (content : ByteArray) : FileAction IoError Unit := do
  set (← (← get).writeFile path content)

/-- Makes every directory that a path text leads through before its last component. -/
def FileAction.makeParents (path : Bytes) : FileAction IoError Unit := do
  let above := (Path.components path).dropLast
  if above.any Path.hasNul then throw .nulInPath
  else if Path.isTooLong (Path.parent path) then throw (.os .nameTooLong)
  else discard (ExceptT.adapt .os (FileTree.makeDirectories above.reverse))

end Atelier
