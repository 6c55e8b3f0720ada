import Atelier.Number.Unpacked
import Atelier.Text.Bytes

/-!
# JSON trees

The data that drawings are written as. An object keeps its fields in the order in which they were
put in; `sorted` brings them, at every depth, into the order of their keys' bytes.
-/

namespace Atelier

inductive Json where
  | null
  | number (x : Float)
  | string (text : String)
  | array (items : List Json)
  | object (fields : List (String × Json))

namespace Json

/-- The tree of a double: what is not finite has no number in JSON and becomes `null`. -/
def ofFloat (x : Float) : Json :=
  if Number.finite x then number x else null

/-- Whether a field may stand before another: its key is not larger. -/
def keyLE (a b : String × Json) : Bool :=
  (Text.byteOrder a.1 b.1).isLE

mutual

/-- The same tree with the fields of every object in the order of their keys. -/
def sorted : Json → Json
  | null => null
  | number x => number x
  | string s => string s
  | array items => array (sortedItems items)
  | object fields => object ((sortedFields fields).mergeSort keyLE)

def sortedItems : List Json → List Json
  | [] => []
  | item :: rest => item.sorted :: sortedItems rest

/-- Sorts inside every field of a list, and leaves their order alone. -/
def sortedFields : List (String × Json) → List (String × Json)
  | [] => []
  | (key, value) :: rest => (key, value.sorted) :: sortedFields rest

end

end Json

end Atelier
