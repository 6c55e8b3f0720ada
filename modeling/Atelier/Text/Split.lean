/-!
# Splitting a text

A text cut at every place where a separator stands. Separators are found from left to right and do
not overlap; the pieces between them may be empty. Bytes are cut in the same way.
-/

namespace Atelier.Text

variable {α : Type}

/-- Puts a character in front of the first piece. -/
def extend (c : α) : List (List α) → List (List α)
  | [] => [[c]]
  | piece :: rest => (c :: piece) :: rest

variable [DecidableEq α]

/-- Splits a text of which some characters still belong to a separator that was found. -/
def splitAfter (separator : List α) : Nat → List α → List (List α)
  | _, [] => [[]]
  | skip + 1, _ :: rest => splitAfter separator skip rest
  | 0, c :: rest =>
    if separator.isPrefixOf (c :: rest) then
      [] :: splitAfter separator (separator.length - 1) rest
    else
      extend c (splitAfter separator 0 rest)

/-- The pieces of a text between the places where a separator stands. -/
def split (separator text : List α) : List (List α) :=
  splitAfter separator 0 text

/-- The pieces of a text between its occurrences of a separator. -/
def pieces (separator : String) (text : String) : List String :=
  (split separator.toList text.toList).map .ofList

end Atelier.Text
