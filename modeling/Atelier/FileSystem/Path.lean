import Atelier.Text.Bytes
import Atelier.Text.Split

/-!
# Path texts

A path text is bytes that are cut at their slashes. Its `segments` are everything between them; its
`components` are those that lead somewhere, without the empty ones and `.`. A path text may have
4095 bytes, however many of its segments lead nowhere.

What a path text says is told by its `parts`: whether it starts at the root or at the current
directory, and then each component.
-/

namespace Atelier.Path

def slash : UInt8 := 0x2f

/-- The segment that stays where it is. -/
def current : Bytes := "."

/-- The segment that leads up. -/
def up : Bytes := ".."

/-- The pieces of a path text between its slashes. -/
def segments (path : Bytes) : List Bytes :=
  Text.split [slash] path

/-- Segments with slashes between them. -/
def ofSegments (segments : List Bytes) : Bytes :=
  [slash].intercalate segments

/-- Whether a segment leads nowhere. -/
def isIdle (segment : Bytes) : Bool :=
  segment = [] ∨ segment = current

/-- The segments of a path text that lead somewhere. -/
def components (path : Bytes) : List Bytes :=
  (segments path).filter fun s => !isIdle s

/-- A part of a path text with a meaning of its own. -/
inductive Part where
  | root
  | current
  | up
  | name (bytes : Bytes)
deriving DecidableEq, Repr

/-- What a component says. -/
def partOf (component : Bytes) : Part :=
  if component = up then .up else .name component

/-- The parts of a path text. A slash counts only where the path text starts with it, and so does
`.`. -/
def parts (path : Bytes) : List Part :=
  let start :=
    if path.head? = some slash then [.root]
    else if (segments path).head? = some current then [.current]
    else []
  start ++ (components path).map partOf

/-- A path text up to the component before its last one. -/
def parent (path : Bytes) : Bytes :=
  let above := ((segments path).reverse.dropWhile isIdle).tail
  ofSegments (above.dropWhile isIdle).reverse

/-- A path text put behind another, with a slash between them where there is none. -/
def join (base path : Bytes) : Bytes :=
  if base.getLast?.all (· = slash) then base ++ path else base ++ slash :: path

/-- Whether a path text holds a NUL, which no path may. -/
def hasNul (path : Bytes) : Bool :=
  path.contains 0

/-- Whether a path text has more bytes than a path may have. -/
def isTooLong (path : Bytes) : Bool :=
  4095 < path.length

end Atelier.Path
