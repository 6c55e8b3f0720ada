import Atelier.Session.State

/-!
# Expressions of a session

How values, colours and shapes are described before they are made. Evaluating a description makes
its nodes from left to right, and so fixes the order of draws.
-/

namespace Atelier

/-- A description of a value. -/
inductive Expr where
  | number (x : Float)
  | named (name : String)
  | scalar (x : Float)
  | leaf (d : Distribution)
  | method (m : Method) (target argument : Expr)
  | operator (op : Operator) (left right : Expr) (how : Variant := .lent)
  | chain (m : Method) (start argument : Expr) (times : Nat)
  | double (m : Method) (start : Expr) (times : Nat)
deriving DecidableEq

namespace Expr

/-- Calls a method again and again, with one argument. -/
def callTimes (m : Method) (argument : Value) : Nat → Node → Making Node
  | 0, n => pure n
  | times + 1, n => do callTimes m argument times (← m.call n argument)

/-- Calls a method again and again, with the node itself as the argument. -/
def callOnSelf (m : Method) : Nat → Node → Making Node
  | 0, n => pure n
  | times + 1, n => do callOnSelf m times (← m.call n n)

/-- Makes the value that an expression describes. -/
def eval : Expr → Acting Value
  | number x => return .number x
  | named name => Acting.named Session.values name
  | scalar x => return .node (← Acting.make (Making.scalar x))
  | leaf d => return .node (← Acting.make (Making.leaf d))
  | method m target argument => do
    let target ← target.eval
    let argument ← argument.eval
    return .node (← Acting.make do m.call (← target.lift) argument)
  | operator op left right how => do
    let left ← left.eval
    let right ← right.eval
    return .node (← Acting.make (op.onValues how left right))
  | chain m start argument times => do
    let start ← start.eval
    let argument ← argument.eval
    return .node (← Acting.make do callTimes m argument times (← start.lift))
  | double m start times => do
    let start ← start.eval
    return .node (← Acting.make do callOnSelf m times (← start.lift))

/-- Makes the value that an expression describes, as a node. -/
def evalNode (e : Expr) : Acting Node := do
  Acting.make (← e.eval).lift

end Expr

inductive ColorExpr where
  | named (name : String)
  | made (c : Color Expr)
deriving DecidableEq

def ColorExpr.eval : ColorExpr → Acting (Color Value)
  | named name => Acting.named Session.colors name
  | made c => c.mapM Expr.eval

inductive ShapeExpr where
  | named (name : String)
  | made (form : Form Expr ColorExpr) (items : List ShapeExpr) (qualifiers : List Qualifier)

namespace ShapeExpr

mutual

/-- Makes the shape that is described: its form, then its children. -/
def eval : ShapeExpr → Acting Shape
  | named name => Acting.named Session.shapes name
  | made form items qualifiers => do
    let form ← form.mapM Expr.eval ColorExpr.eval
    let items ← evalItems items
    return ⟨form, items, qualifiers⟩

def evalItems : List ShapeExpr → Acting (List Shape)
  | [] => return []
  | item :: rest => do
    let shape ← item.eval
    let shapes ← evalItems rest
    return shape :: shapes

end

end ShapeExpr

end Atelier
