import Atelier.Bundle.Collect
import Atelier.Bundle.Unpack
import Atelier.Command.Request
import Atelier.Reference.Markdown
import Atelier.Scene.Gallery

/-!
# Carrying out a command line

A command works on a file tree and writes to the standard output. A command line that is wrong does
nothing.
-/

namespace Atelier.Command

/-- How a command line ended: its exit code, what it wrote to the standard output, and the error
that it ended with. -/
structure Outcome where
  code : Nat
  stdout : String
  error : Option ToolError
deriving DecidableEq

/-- A name in a column of twenty characters. -/
def column (name : String) : String :=
  name ++ .ofList (List.replicate (20 - name.length) ' ')

def sceneLine (s : Scene) : String :=
  column s.name ++ " " ++ s.description ++ "\n"

def unknownScene (name : String) : ToolError :=
  .notFound ("scene '" ++ name ++ "' (available: " ++ ", ".intercalate Gallery.names ++ ")")

/-- A frame of a scene as one line of JSON, or as many lines. -/
def renderScene (name : String) (seed : Option UInt64) (tick : UInt64) (pretty : Bool)
    (source : Random.Source) : Except ToolError String :=
  match Gallery.find? name with
  | none => .error (unknownScene name)
  | some scene =>
    let source := (seed.map source.reseed).getD source
    let (shape, _) := scene.draw tick ⟨source, 0⟩
    let json := if pretty then shape.toPrettyJson else shape.toJson
    ((· ++ "\n") <$> json).mapError .drawing

/-- What a command works with: the file tree, and what it has written to the standard output. -/
structure Terminal where
  tree : FileTree
  stdout : String

/-- An action of a command. What it wrote before it failed stays written. -/
abbrev Working (α : Type) := Action Terminal ToolError α

namespace Working

/-- Writes a text to the standard output. -/
def print (text : String) : Working Unit :=
  modify fun w => { w with stdout := w.stdout ++ text }

/-- Does something to the file tree. -/
def onTree {α : Type} (action : FileAction ToolError α) : Working α :=
  ExceptT.mk (modifyGet fun w =>
    let (result, tree) := action.run.run w.tree
    (result, { w with tree }))

/-- Takes up a result that was worked out without changing anything. -/
def lift {α : Type} (result : Except ToolError α) : Working α :=
  match result with
  | .ok a => return a
  | .error e => throw e

/-- Hands a text out: to a file, or to the standard output. -/
def emit (text : String) : Option String → Working Unit
  | none => print text
  | some path => onTree (ExceptT.adapt .io (FileAction.write path text.toByteArray))

end Working

open Working

/-- Carries out a request. -/
def Request.run (source : Random.Source) : Request → Working Unit
  | .render scene seed tick pretty => do
    print (← lift (renderScene scene seed tick pretty source))
  | .scenes => Gallery.scenes.forM fun s => print (sceneLine s)
  | .docs output summaries => emit (Reference.Page.full.withSummaries summaries).render output
  | .package root extension output => do
    emit (← lift (Bundle.package (← get).tree root extension)) output
  | .unpackage bundle base => do
    let text ← lift (((← get).tree.readText bundle).mapError .io)
    let written ← onTree (Bundle.unpackage text base)
    print ("unpacked " ++ written.length.repr ++ " files into " ++ base ++ "\n")

/-- Carries out a command line on a file tree, given the seed of the environment and the random
source to draw from when no seed is given at all. -/
def execute (seedVariable : Option String) (arguments : List String) (source : Random.Source)
    (t : FileTree) : Outcome × FileTree :=
  match parse seedVariable arguments with
  | .error .help => (⟨0, "", none⟩, t)
  | .error .misuse => (⟨2, "", none⟩, t)
  | .ok request =>
    match (request.run source).run.run ⟨t, ""⟩ with
    | (.ok _, w) => (⟨0, w.stdout, none⟩, w.tree)
    | (.error e, w) => (⟨1, w.stdout, some e⟩, w.tree)

end Atelier.Command
