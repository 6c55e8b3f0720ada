/-!
# Command line arguments

Arguments are read one after the other. An argument that starts with a dash is a switch, unless it
is the dash alone; everything else is an operand, and so is everything after `--`. A switch that
takes a value finds it behind an equals sign, right behind its letter, or in the next argument,
which must then not be a switch itself. No switch may be given twice.

Every value is checked where it is found. So a command line that asks for help gets it if nothing is
wrong in front of that, whatever comes behind.
-/

namespace Atelier.Command

/-! ## What a command takes -/

/-- A whole number of 64 bits: digits, after a plus sign or not. -/
def number? (text : String) : Option UInt64 :=
  let digits := match text.toList with
    | '+' :: digits => digits
    | digits => digits
  if digits ≠ [] ∧ digits.all Char.isDigit then
    let n := digits.foldl (fun n c => 10 * n + (c.toNat - '0'.toNat)) 0
    if n < Nat.pow 2 64 then some (.ofNat n) else none
  else none

/-- What a value has to be. -/
inductive ValueKind where
  | text
  | path
  | number
deriving DecidableEq, Repr

/-- Whether a text is a value of a kind. A path must not be empty. -/
def ValueKind.accepts : ValueKind → String → Bool
  | text, _ => true
  | path, s => s ≠ ""
  | number, s => (number? s).isSome

/-- A switch that a command knows, with the kind of value that it takes. -/
structure Switch where
  name : String
  letter : Option Char
  value : Option ValueKind
deriving DecidableEq, Repr

/-- What a command takes: switches, and operands in order. -/
structure Inputs where
  switches : List Switch
  operands : List ValueKind
deriving DecidableEq, Repr

/-! ## Reading one argument -/

/-- Why a command line is not carried out: because help was asked for, or because it is wrong. -/
inductive Refusal where
  | help
  | misuse
deriving DecidableEq, Repr

/-- What was found on a command line: switches by name with their values, and operands. -/
structure Found where
  switches : List (String × Option String)
  operands : List String
deriving DecidableEq, Repr

/-- What an argument is taken for. -/
inductive Reading where
  | operand
  | switch (s : Switch) (attached : Option String)
  | refused (r : Refusal)

/-- A text cut at its first equals sign. -/
def cutAtEquals (text : List Char) : String × Option String :=
  let name := text.takeWhile (· ≠ '=')
  match text.drop name.length with
  | [] => (.ofList name, none)
  | _ :: value => (.ofList name, some (.ofList value))

/-- Reads what follows two dashes. -/
def readName (switches : List Switch) (text : List Char) : Reading :=
  let (name, attached) := cutAtEquals text
  match switches.find? fun s => s.name = name with
  | some s => .switch s attached
  | none => .refused (if name = "help" ∧ attached.isNone then .help else .misuse)

/-- Reads what follows one dash: a letter, and the value right behind it. -/
def readLetter (switches : List Switch) (letter : Char) (text : List Char) : Reading :=
  match switches.find? fun s => s.letter = some letter with
  | some s =>
    match text with
    | [] => .switch s none
    | '=' :: value => .switch s (some (.ofList value))
    | value => .switch s (some (.ofList value))
  | none => .refused (if letter = 'h' then .help else .misuse)

/-- Reads an argument that is not `--`. -/
def read (switches : List Switch) (argument : String) : Reading :=
  match argument.toList with
  | '-' :: '-' :: text => readName switches text
  | '-' :: letter :: text => readLetter switches letter text
  | _ => .operand

namespace Found

/-- Adds an operand, if one more is taken and it is of the right kind. -/
def addOperand (kinds : List ValueKind) (f : Found) (operand : String) : Except Refusal Found :=
  match kinds[f.operands.length]? with
  | none => .error .misuse
  | some kind =>
    if kind.accepts operand then .ok { f with operands := f.operands ++ [operand] }
    else .error .misuse

/-- Adds a switch that was not given before, with a value of the right kind if it takes one. -/
def addSwitch (f : Found) (s : Switch) (value : Option String) : Except Refusal Found :=
  let fits : Bool := match s.value, value with
    | none, none => true
    | some kind, some v => kind.accepts v
    | _, _ => false
  if fits ∧ ¬ f.switches.any (·.1 = s.name) then
    .ok { f with switches := f.switches ++ [(s.name, value)] }
  else .error .misuse

def has (f : Found) (name : String) : Bool :=
  f.switches.any (·.1 = name)

def value? (f : Found) (name : String) : Option String :=
  (f.switches.lookup name).join

end Found

/-! ## Reading all arguments -/

/-- Reads arguments after some were found, while a switch may still want its value. -/
def scanAfter (inputs : Inputs) : Found → Option Switch → List String → Except Refusal Found
  | found, none, [] => .ok found
  | _, some _, [] => .error .misuse
  | found, wanting, argument :: rest =>
    if argument = "--" then
      match wanting with
      | some _ => .error .misuse
      | none => rest.foldlM (Found.addOperand inputs.operands) found
    else
      match read inputs.switches argument, wanting with
      | .operand, some s => do
        scanAfter inputs (← found.addSwitch s (some argument)) none rest
      | .operand, none => do
        scanAfter inputs (← found.addOperand inputs.operands argument) none rest
      | _, some _ => .error .misuse
      | .refused r, none => .error r
      | .switch s attached, none => do
        if s.value.isSome ∧ attached.isNone then scanAfter inputs found (some s) rest
        else scanAfter inputs (← found.addSwitch s attached) none rest

def scan (inputs : Inputs) (arguments : List String) : Except Refusal Found :=
  scanAfter inputs ⟨[], []⟩ none arguments

end Atelier.Command
