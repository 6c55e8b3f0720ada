import Atelier.Command.Arguments

/-!
# Requests

What a command line asks for. The seed of a rendering comes from the command line or, when it is not
given there, from the environment; a seed that is no number is wrong wherever it was found.
-/

namespace Atelier.Command

/-- What a command line asks for. -/
inductive Request where
  | render (scene : String) (seed : Option UInt64) (tick : UInt64) (pretty : Bool)
  | scenes
  | docs (output : Option String) (summaries : Bool)
  | package (root extension : String) (output : Option String)
  | unpackage (bundle base : String)
deriving DecidableEq, Repr

/-- Whether a request reads or writes files. -/
def Request.needsFiles : Request → Bool
  | render .. | scenes | docs none _ => false
  | docs (some _) _ | package .. | unpackage .. => true

/-- The switch that may stand before the command as well as behind it. -/
def verbose : Switch := ⟨"verbose", none, none⟩

def output : Switch := ⟨"output", some 'o', some .path⟩

def renderInputs : Inputs :=
  ⟨[verbose, ⟨"seed", none, some .number⟩, ⟨"tick", none, some .number⟩, ⟨"pretty", none, none⟩],
    [.text]⟩

def scenesInputs : Inputs := ⟨[verbose], []⟩

def docsInputs : Inputs := ⟨[verbose, output, ⟨"summaries", none, none⟩], []⟩

def packageInputs : Inputs := ⟨[verbose, output, ⟨"extension", none, some .text⟩], [.path]⟩

def unpackageInputs : Inputs := ⟨[verbose], [.path, .path]⟩

def parseSeed (text : String) : Except Refusal UInt64 :=
  match number? text with
  | some seed => .ok seed
  | none => .error .misuse

def render (seedVariable : Option String) (arguments : List String) : Except Refusal Request := do
  let found ← scan renderInputs arguments
  match found.operands with
  | [scene] =>
    let seed ← (found.value? "seed" <|> seedVariable).mapM parseSeed
    let tick := ((found.value? "tick").bind number?).getD 0
    return .render scene seed tick (found.has "pretty")
  | _ => throw .misuse

def scenes (arguments : List String) : Except Refusal Request := do
  let _ ← scan scenesInputs arguments
  return .scenes

def docs (arguments : List String) : Except Refusal Request := do
  let found ← scan docsInputs arguments
  return .docs (found.value? "output") (found.has "summaries")

def package (arguments : List String) : Except Refusal Request := do
  let found ← scan packageInputs arguments
  match found.operands with
  | [root] =>
    return .package root ((found.value? "extension").getD "rs") (found.value? "output")
  | _ => throw .misuse

def unpackage (arguments : List String) : Except Refusal Request := do
  let found ← scan unpackageInputs arguments
  match found.operands with
  | [bundle, base] => return .unpackage bundle base
  | _ => throw .misuse

/-- The commands that help can be asked about. -/
def commands : List String := ["render", "scenes", "docs", "package", "unpackage", "help"]

/-- How a command line ends that asks for help about what follows: nothing, or one command. -/
def help : List String → Refusal
  | [] => .help
  | [name] => if name ∈ commands then .help else .misuse
  | _ => .misuse

/-- What a command with its arguments asks for, given the seed of the environment. In place of a
command, only a switch that asks for help is right. -/
def parseCommand (seedVariable : Option String) (name : String) (arguments : List String) :
    Except Refusal Request :=
  match name with
  | "render" => render seedVariable arguments
  | "scenes" => scenes arguments
  | "docs" => docs arguments
  | "package" => package arguments
  | "unpackage" => unpackage arguments
  | "help" => .error (help arguments)
  | name =>
    match read [] name with
    | .refused r => .error r
    | _ => .error .misuse

/-- What a command line asks for. The switch before the command may stand there once. -/
def parse (seedVariable : Option String) : List String → Except Refusal Request
  | [] => .error .misuse
  | "--verbose" :: [] => .error .misuse
  | "--verbose" :: name :: arguments => parseCommand seedVariable name arguments
  | name :: arguments => parseCommand seedVariable name arguments

end Atelier.Command
