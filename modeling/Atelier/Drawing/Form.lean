import Atelier.Drawing.Color

/-!
# Forms

What a shape is apart from its children and qualifiers: one of seven kinds, each with its numbers
and with the colours it can carry. The types of the numbers and colours are parameters, so that a
form can hold expressions yet to be evaluated as well as values.
-/

namespace Atelier

/-- A form with numbers of type `α` and colours of type `κ`. A line has no inside to fill, and a
group only places its children. -/
inductive Form (α κ : Type) where
  | rect (x y width height : α) (stroke fill : Option κ)
  | square (x y side : α) (stroke fill : Option κ)
  | ellipse (cx cy rx ry : α) (stroke fill : Option κ)
  | circle (cx cy r : α) (stroke fill : Option κ)
  | polygon (cx cy r sides : α) (stroke fill : Option κ)
  | line (x0 y0 x1 y1 : α) (stroke : Option κ)
  | group (x y width height : α)
deriving DecidableEq

namespace Form

def typeName {α κ : Type} : Form α κ → String
  | rect .. => "Rect"
  | square .. => "Square"
  | ellipse .. => "Ellipse"
  | circle .. => "Circle"
  | polygon .. => "Polygon"
  | line .. => "Line"
  | group .. => "Group"

/-- The word that stands for the kind of a form in JSON. -/
def tag {α κ : Type} : Form α κ → String
  | rect .. => "rect"
  | square .. => "square"
  | ellipse .. => "ellipse"
  | circle .. => "circle"
  | polygon .. => "polygon"
  | line .. => "line"
  | group .. => "group"

def mapColor {κ κ' : Type} {m : Type → Type} [Monad m] (g : κ → m κ') :
    Option κ → m (Option κ')
  | none => return none
  | some c => return some (← g c)

/-- Replaces the numbers, then the stroke, then the fill by the results of actions. -/
def mapM {α β κ κ' : Type} {m : Type → Type} [Monad m] (f : α → m β) (g : κ → m κ') :
    Form α κ → m (Form β κ')
  | rect x y width height stroke fill =>
    return rect (← f x) (← f y) (← f width) (← f height) (← mapColor g stroke) (← mapColor g fill)
  | square x y side stroke fill =>
    return square (← f x) (← f y) (← f side) (← mapColor g stroke) (← mapColor g fill)
  | ellipse cx cy rx ry stroke fill =>
    return ellipse (← f cx) (← f cy) (← f rx) (← f ry) (← mapColor g stroke) (← mapColor g fill)
  | circle cx cy r stroke fill =>
    return circle (← f cx) (← f cy) (← f r) (← mapColor g stroke) (← mapColor g fill)
  | polygon cx cy r sides stroke fill =>
    return polygon (← f cx) (← f cy) (← f r) (← f sides) (← mapColor g stroke) (← mapColor g fill)
  | line x0 y0 x1 y1 stroke =>
    return line (← f x0) (← f y0) (← f x1) (← f y1) (← mapColor g stroke)
  | group x y width height =>
    return group (← f x) (← f y) (← f width) (← f height)

/-- Replaces the number with a given name; none if the form has no such number. -/
def set? {α κ : Type} (name : String) (v : α) : Form α κ → Option (Form α κ)
  | rect x y width height stroke fill =>
    match name with
    | "x" => some (rect v y width height stroke fill)
    | "y" => some (rect x v width height stroke fill)
    | "width" => some (rect x y v height stroke fill)
    | "height" => some (rect x y width v stroke fill)
    | _ => none
  | square x y side stroke fill =>
    match name with
    | "x" => some (square v y side stroke fill)
    | "y" => some (square x v side stroke fill)
    | "side" => some (square x y v stroke fill)
    | _ => none
  | ellipse cx cy rx ry stroke fill =>
    match name with
    | "cx" => some (ellipse v cy rx ry stroke fill)
    | "cy" => some (ellipse cx v rx ry stroke fill)
    | "rx" => some (ellipse cx cy v ry stroke fill)
    | "ry" => some (ellipse cx cy rx v stroke fill)
    | _ => none
  | circle cx cy r stroke fill =>
    match name with
    | "cx" => some (circle v cy r stroke fill)
    | "cy" => some (circle cx v r stroke fill)
    | "r" => some (circle cx cy v stroke fill)
    | _ => none
  | polygon cx cy r sides stroke fill =>
    match name with
    | "cx" => some (polygon v cy r sides stroke fill)
    | "cy" => some (polygon cx v r sides stroke fill)
    | "r" => some (polygon cx cy v sides stroke fill)
    | "sides" => some (polygon cx cy r v stroke fill)
    | _ => none
  | line x0 y0 x1 y1 stroke =>
    match name with
    | "x0" => some (line v y0 x1 y1 stroke)
    | "y0" => some (line x0 v x1 y1 stroke)
    | "x1" => some (line x0 y0 v y1 stroke)
    | "y1" => some (line x0 y0 x1 v stroke)
    | _ => none
  | group x y width height =>
    match name with
    | "x" => some (group v y width height)
    | "y" => some (group x v width height)
    | "width" => some (group x y v height)
    | "height" => some (group x y width v)
    | _ => none

/-! ## Values in a form -/

def channels : Option (Color Value) → List Value
  | none => []
  | some c => c.channels

/-- Every value in a form: the numbers, then the channels of stroke and fill. -/
def values : Form Value (Color Value) → List Value
  | rect x y width height stroke fill =>
    [x, y, width, height] ++ channels stroke ++ channels fill
  | square x y side stroke fill => [x, y, side] ++ channels stroke ++ channels fill
  | ellipse cx cy rx ry stroke fill => [cx, cy, rx, ry] ++ channels stroke ++ channels fill
  | circle cx cy r stroke fill => [cx, cy, r] ++ channels stroke ++ channels fill
  | polygon cx cy r sides stroke fill => [cx, cy, r, sides] ++ channels stroke ++ channels fill
  | line x0 y0 x1 y1 stroke => [x0, y0, x1, y1] ++ channels stroke
  | group x y width height => [x, y, width, height]

/-! ## A form in JSON -/

def numberField (name : String) (v : Value) : Except DivisionByZero (String × Json) :=
  (name, ·) <$> v.json

/-- The field of a colour, left out when there is none. -/
def colorField (name : String) :
    Option (Color Value) → Except DivisionByZero (List (String × Json))
  | none => .ok []
  | some c => (fun tree => [(name, tree)]) <$> c.json

/-- The fields of some numbers and of some colours, worked out in this order. -/
def fieldsOf (numbers : List (String × Value)) (colors : List (String × Option (Color Value))) :
    Except DivisionByZero (List (String × Json)) := do
  let numbers ← numbers.mapM fun (name, v) => numberField name v
  let colors ← colors.mapM fun (name, c) => colorField name c
  return numbers ++ colors.flatten

def fields : Form Value (Color Value) → Except DivisionByZero (List (String × Json))
  | rect x y width height stroke fill =>
    fieldsOf [("x", x), ("y", y), ("width", width), ("height", height)]
      [("stroke", stroke), ("fill", fill)]
  | square x y side stroke fill =>
    fieldsOf [("x", x), ("y", y), ("side", side)] [("stroke", stroke), ("fill", fill)]
  | ellipse cx cy rx ry stroke fill =>
    fieldsOf [("cx", cx), ("cy", cy), ("rx", rx), ("ry", ry)] [("stroke", stroke), ("fill", fill)]
  | circle cx cy r stroke fill =>
    fieldsOf [("cx", cx), ("cy", cy), ("r", r)] [("stroke", stroke), ("fill", fill)]
  | polygon cx cy r sides stroke fill =>
    fieldsOf [("cx", cx), ("cy", cy), ("r", r), ("sides", sides)]
      [("stroke", stroke), ("fill", fill)]
  | line x0 y0 x1 y1 stroke =>
    fieldsOf [("x0", x0), ("y0", y0), ("x1", x1), ("y1", y1)] [("stroke", stroke)]
  | group x y width height =>
    fieldsOf [("x", x), ("y", y), ("width", width), ("height", height)] []

end Form

end Atelier
