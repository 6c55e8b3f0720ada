import Atelier.Drawing.Form
import Atelier.Json.Printer

/-!
# Shapes

A drawing is a tree of shapes: a form, the shapes drawn on top of it, and words that say how it is
to be drawn. Nothing is worked out until a shape is checked or written:

* `resolveAll` visits every value of the tree and stops at the first one that fails.
* `json` builds the JSON tree, and fails where it meets a value that fails.
* `toJson`, `toPrettyJson` and `toSortedJson` check first and write then.
-/

namespace Atelier

/-- How a shape is to be drawn. -/
inductive Qualifier where
  | rough
  | blurry
  | swiggly
deriving DecidableEq, Repr

def Qualifier.word : Qualifier → String
  | rough => "rough"
  | blurry => "blurry"
  | swiggly => "swiggly"

/-- A shape with its children, the first at the bottom. -/
structure Shape where
  form : Form Value (Color Value)
  items : List Shape
  qualifiers : List Qualifier

namespace Shape

def ofForm (form : Form Value (Color Value)) : Shape :=
  ⟨form, [], []⟩

def withItems (s : Shape) (items : List Shape) : Shape :=
  { s with items }

def typeName (s : Shape) : String :=
  s.form.typeName

/-- Draws one more shape on top. -/
def add (s : Shape) (item : Shape) : Shape :=
  { s with items := s.items ++ [item] }

def qualify (s : Shape) (q : Qualifier) : Shape :=
  { s with qualifiers := s.qualifiers ++ [q] }

/-! ## Checking -/

mutual

/-- Works out every value of a tree, for its errors only. -/
def resolveAll : Shape → Except DivisionByZero Unit
  | ⟨form, items, _⟩ => do
    form.values.forM fun v => discard v.resolve
    resolveItems items

def resolveItems : List Shape → Except DivisionByZero Unit
  | [] => .ok ()
  | item :: rest => do
    item.resolveAll
    resolveItems rest

end

/-! ## Writing -/

/-- The field of the qualifiers, left out when there are none. -/
def qualifierField : List Qualifier → List (String × Json)
  | [] => []
  | qualifiers => [("qualifiers", .array (qualifiers.map fun q => .string q.word))]

mutual

/-- The JSON tree of a shape: the kind, the form, the children, the qualifiers. -/
def json : Shape → Except DivisionByZero Json
  | ⟨form, items, qualifiers⟩ => do
    let fields ← form.fields
    let items ← jsonItems items
    return .object
      (("type", .string form.tag) :: fields ++ ("items", .array items) :: qualifierField qualifiers)

def jsonItems : List Shape → Except DivisionByZero (List Json)
  | [] => .ok []
  | item :: rest => do
    let tree ← item.json
    let trees ← jsonItems rest
    return tree :: trees

end

/-- Builds the JSON tree without checking first. A value that fails is then an error of the writer,
with the value's own message as its reason. -/
def serialize (s : Shape) : Except DrawingError Json :=
  s.json.mapError fun cause => .serialization cause.message

/-- Checks a shape and builds its JSON tree. -/
def checked (s : Shape) : Except DrawingError Json := do
  s.resolveAll.mapError .division
  s.serialize

def toJson (s : Shape) : Except DrawingError String :=
  (fun tree => .ofList tree.compact) <$> s.checked

/-- A shape as JSON with one field to a line. -/
def toPrettyJson (s : Shape) : Except DrawingError String :=
  (fun tree => .ofList tree.pretty) <$> s.checked

/-- The JSON tree of a shape with the fields of every object in the order of their keys. -/
def toSortedJson (s : Shape) : Except DrawingError Json :=
  Json.sorted <$> s.checked

end Shape

end Atelier
