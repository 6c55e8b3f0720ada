import Atelier.Text.Split

/-!
# Bundles

Several texts in one: each entry is written as `###`, its path, `##!` and its body, with nothing
between entries. Reading cuts a text at `###` and keeps the pieces that hold `##!` exactly once; all
others, such as the text before the first entry, are passed over.

The format has no escapes, so a bundle in which a marker can be found where none was meant does not
come back as it was.
-/

namespace Atelier

/-- A path and what the file there holds. -/
structure Entry where
  path : String
  body : String
deriving DecidableEq, Repr

/-- Entries in order. -/
abbrev Bundle := List Entry

namespace Bundle

/-- What stands before a path. -/
def recordMarker : String := "###"

/-- What stands between a path and its body. -/
def bodyMarker : String := "##!"

/-- An entry as text. -/
def encodeEntry (e : Entry) : String :=
  recordMarker ++ e.path ++ bodyMarker ++ e.body

/-- A bundle as one text. -/
def encode : Bundle → String
  | [] => ""
  | e :: rest => encodeEntry e ++ encode rest

/-- The entry of a piece, if the piece is a path and a body. -/
def decodePiece (piece : String) : Option Entry :=
  match Text.pieces bodyMarker piece with
  | [path, body] => some ⟨path, body⟩
  | _ => none

/-- The entries of a text. -/
def decode (text : String) : Bundle :=
  (Text.pieces recordMarker text).filterMap decodePiece

end Bundle

end Atelier
