import Atelier.Command.Run
import Atelier.Command.Usage

/-!
# The command line program

The working directory is read into a file tree, the command line is carried out on the tree, and
what is new or changed in the tree is written back. The root of the tree is the working directory.
All decisions are made by `Command.execute`; this file only moves data.
-/

namespace Atelier.Program

/-- Puts what is in a directory into a tree, at every depth. What is neither a directory nor a file,
and what cannot be read, is left out. -/
partial def load (entries : Array IO.FS.DirEntry) (l : Location) (t : FileTree) : IO FileTree := do
  let mut t := t
  for entry in entries do
    if let some name := Name.ofBytes? entry.fileName then
      try
        match (← entry.path.metadata).type with
        | .dir =>
          let inside ← entry.path.readDir
          t ← load inside (l ++ [name]) (t.put l name .directory)
        | .file => t := t.put l name (.file (← IO.FS.readBinFile entry.path))
        | _ => pure ()
      catch _ => pure ()
  return t

/-- The tree that a request is carried out on: the working directory, if the request needs files. -/
def treeFor (request : Command.Request) : IO FileTree := do
  if request.needsFiles then
    let entries ← (← IO.currentDir).readDir
    load entries [] .empty
  else return .empty

/-- Writes what is new or changed in a tree to the working directory. -/
def save (before after : FileTree) : IO Unit := do
  for (l, item) in after.entries do
    unless before.get? l = some item do
      let path := l.text
      match item with
      | .directory => IO.FS.createDir path
      | .file content => IO.FS.writeBinFile path content

/-- Four bytes as a word, the lowest first. -/
def wordOf (bytes : ByteArray) (i : Nat) : UInt32 :=
  let byte (k : Nat) : UInt32 := ((bytes.data[4 * i + k]?).getD 0).toUInt32
  byte 0 ||| byte 1 <<< 8 ||| byte 2 <<< 16 ||| byte 3 <<< 24

/-- A random source that nobody has seeded. -/
def freshSource : IO Random.Source := do
  let bytes ← IO.getRandomBytes 32
  return ⟨⟨.ofFn fun i => wordOf bytes i, 0⟩, 0⟩

/-- Carries out a command line in the working directory; the result is the exit code. -/
def run (arguments : List String) : IO UInt32 := do
  let seedVariable ← IO.getEnv "ARTKIT_SEED"
  let request := Command.parse seedVariable arguments
  let before ← match request with
    | .ok request => treeFor request
    | .error _ => pure .empty
  let (outcome, after) := Command.execute seedVariable arguments (← freshSource) before
  save before after
  IO.print outcome.stdout
  if let some e := outcome.error then IO.eprintln ("Error: " ++ e.inspect)
  match request with
  | .error .help => IO.print Command.usage
  | .error .misuse => IO.eprint Command.usage
  | .ok _ => pure ()
  return .ofNat outcome.code

end Atelier.Program

/-- The program: carries out its command line. -/
def main (arguments : List String) : IO UInt32 :=
  Atelier.Program.run arguments
