/-!
# Reference entries

What the reference says of a type: its name, one line about it, and its fields. The signature of a
type is all of this but the line, in one line of text.
-/

namespace Atelier.Reference

/-- What a field holds. -/
inductive FieldKind where
  | float
  | int
  | color
  | shapes
deriving DecidableEq, Repr

def FieldKind.text : FieldKind → String
  | float => "float"
  | int => "int"
  | color => "Color"
  | shapes => "Vec<Shape>"

structure Field where
  name : String
  kind : FieldKind
  isOptional : Bool
deriving DecidableEq, Repr

namespace Field

def required (name : String) (kind : FieldKind) : Field :=
  ⟨name, kind, false⟩

def optional (name : String) (kind : FieldKind) : Field :=
  ⟨name, kind, true⟩

/-- A field as it stands in a signature. -/
def text (f : Field) : String :=
  if f.isOptional then f.name ++ ": Option<" ++ f.kind.text ++ "> = None"
  else f.name ++ ": " ++ f.kind.text

end Field

structure TypeDoc where
  name : String
  summary : String
  fields : List Field
deriving DecidableEq, Repr

/-- The signature of a type: its name and its fields in brackets. -/
def TypeDoc.signature (d : TypeDoc) : String :=
  d.name ++ "(" ++ ", ".intercalate (d.fields.map Field.text) ++ ")"

end Atelier.Reference
