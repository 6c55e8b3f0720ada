import Atelier.Action
import Atelier.Drawing.Shape

/-!
# The state of a session

A session is a studio together with names for the values, colours and shapes made in it. A name
stands for what it was last given to; a node reached by a name is the very node that was named.
-/

namespace Atelier

/-- What names stand for, the latest first. -/
abbrev Names (α : Type) := List (String × α)

/-- Everything a session has made and named. -/
structure Session where
  studio : Studio
  values : Names Value
  colors : Names (Color Value)
  shapes : Names Shape

/-- Why a step of a session makes no sense. -/
inductive Fault where
  | unknownName (name : String)
  | noChildren
  | noField (field : String)
deriving DecidableEq, Repr

def Fault.message : Fault → String
  | unknownName name => "nothing is named " ++ name
  | noChildren => "only an operator has a left and a right side"
  | noField field => "the shape has no number " ++ field

/-- An action in a session. What was made and drawn before a fault stays so. -/
abbrev Acting (α : Type) := Action Session Fault α

namespace Session

/-- A session that starts from a seed, with nothing made or named. -/
def ofSeed (seed : UInt64) : Session :=
  ⟨⟨.ofSeed seed, 0⟩, [], [], []⟩

end Session

namespace Acting

/-- Makes something in the studio of the session. -/
def make {α : Type} (action : Making α) : Acting α :=
  modifyGet fun s =>
    let (a, studio) := action s.studio
    (a, { s with studio })

def named {α : Type} (names : Session → Names α) (name : String) : Acting α := do
  match (names (← get)).lookup name with
  | some a => return a
  | none => throw (.unknownName name)

def draws : Acting Nat :=
  return (← get).studio.source.draws

end Acting

end Atelier
