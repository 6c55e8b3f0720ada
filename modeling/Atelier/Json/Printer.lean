import Atelier.Json.Basic
import Atelier.Json.Quoted
import Atelier.Number.Written

/-!
# JSON trees as text

Two ways to write a tree: `compact` without any blank, and `pretty` with one item to a line and two
blanks of indentation for each depth. An empty array or object has nothing between its brackets in
either form.

Both are written from the end: every writer is given the text that comes after, so that no text is
copied for each level of nesting above it.
-/

namespace Atelier.Json

/-- A number as text; one that is not finite is written as `null`. -/
def numberText (x : Float) : List Char :=
  ((Number.literal? x).getD "null").toList

/-! ## The compact form -/

mutual

/-- A tree in the compact form, and a text after it. -/
def compactBefore : Json → List Char → List Char
  | null, after => "null".toList ++ after
  | number x, after => numberText x ++ after
  | string s, after => quoted s ++ after
  | array [], after => '[' :: ']' :: after
  | array (item :: rest), after => '[' :: item.compactBefore (compactItems rest after)
  | object [], after => '\x7b' :: '\x7d' :: after
  | object ((key, value) :: rest), after =>
    '\x7b' :: (quoted key ++ ':' :: value.compactBefore (compactFields rest after))

/-- The items after the first, the end of the array, and a text after it. -/
def compactItems : List Json → List Char → List Char
  | [], after => ']' :: after
  | item :: rest, after => ',' :: item.compactBefore (compactItems rest after)

/-- The fields after the first, the end of the object, and a text after it. -/
def compactFields : List (String × Json) → List Char → List Char
  | [], after => '\x7d' :: after
  | (key, value) :: rest, after =>
    ',' :: (quoted key ++ ':' :: value.compactBefore (compactFields rest after))

end

def compact (tree : Json) : List Char :=
  tree.compactBefore []

/-! ## The pretty form -/

/-- A new line at a depth of nesting, and a text after it. -/
def newlineBefore (depth : Nat) (after : List Char) : List Char :=
  '\n' :: (List.replicate (2 * depth) ' ' ++ after)

mutual

/-- A tree in the pretty form, whose first line is already indented, and a text after it. -/
def prettyBefore (depth : Nat) : Json → List Char → List Char
  | null, after => "null".toList ++ after
  | number x, after => numberText x ++ after
  | string s, after => quoted s ++ after
  | array [], after => '[' :: ']' :: after
  | array (item :: rest), after =>
    '[' :: newlineBefore (depth + 1)
      (prettyBefore (depth + 1) item (prettyItems depth rest after))
  | object [], after => '\x7b' :: '\x7d' :: after
  | object ((key, value) :: rest), after =>
    '\x7b' :: newlineBefore (depth + 1)
      (quoted key ++ ':' :: ' ' :: prettyBefore (depth + 1) value (prettyFields depth rest after))

/-- The items after the first, each on a line, the end of the array, and a text after it. -/
def prettyItems (depth : Nat) : List Json → List Char → List Char
  | [], after => newlineBefore depth (']' :: after)
  | item :: rest, after =>
    ',' :: newlineBefore (depth + 1)
      (prettyBefore (depth + 1) item (prettyItems depth rest after))

/-- The fields after the first, each on a line, the end of the object, and a text after it. -/
def prettyFields (depth : Nat) : List (String × Json) → List Char → List Char
  | [], after => newlineBefore depth ('\x7d' :: after)
  | (key, value) :: rest, after =>
    ',' :: newlineBefore (depth + 1)
      (quoted key ++ ':' :: ' ' :: prettyBefore (depth + 1) value (prettyFields depth rest after))

end

def pretty (tree : Json) : List Char :=
  prettyBefore 0 tree []

end Atelier.Json
