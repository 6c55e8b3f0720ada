import Atelier.Expression.Node

/-!
# Values

What a drawing takes where it wants a number: a plain number, or a node. A plain number that has to
stand among nodes becomes a new node of its own.

The composition of nodes comes in two forms that mean the same: methods, which take any value as
their argument (`Node.add`, `Node.subFrom`, …), and the operators `+ - * /`, of which either operand
may be a plain number.
-/

namespace Atelier

/-- A number or a node. -/
inductive Value where
  | number (x : Float)
  | node (n : Node)
deriving DecidableEq

instance : Coe Float Value := ⟨.number⟩
instance : Coe Node Value := ⟨.node⟩

namespace Value

def resolve : Value → Except DivisionByZero Float
  | number x => .ok x
  | node n => n.resolve

/-- The node of a value: a plain number gets a new one. -/
def lift : Value → Making Node
  | number x => Making.scalar x
  | node n => pure n

end Value

/-! ## Methods -/

namespace Node

/-- A node for an operator with this node on the left. -/
def combine (n : Node) (op : Operator) (other : Value) : Making Node := do
  Making.combinator op n (← other.lift)

def add (n : Node) (other : Value) : Making Node := n.combine .add other

def subtract (n : Node) (other : Value) : Making Node := n.combine .subtract other

def multiply (n : Node) (other : Value) : Making Node := n.combine .multiply other

def divide (n : Node) (other : Value) : Making Node := n.combine .divide other

/-- A value less this node. -/
def subFrom (n : Node) (other : Value) : Making Node := do
  Making.combinator .subtract (← other.lift) n

/-- A value over this node. -/
def divFrom (n : Node) (other : Value) : Making Node := do
  Making.combinator .divide (← other.lift) n

end Node

/-! ## Operators

A number on either side keeps its place. A node is handed over for good or is only lent, and then
the operator keeps a copy of the handle: there is a variant of each operator for all of these. -/

/-- How a node is handed over to an operator. -/
inductive Passing where
  | owned
  | borrowed
deriving DecidableEq, Repr

/-- Another handle on a node, which is the very same node. -/
def Node.clone (n : Node) : Node := n

/-- The handle that an operator keeps: the one that it was given, or a copy of one that it was
lent. -/
def Passing.keep : Passing → Node → Node
  | owned, n => n
  | borrowed, n => n.clone

@[simp] theorem Passing.keep_eq (p : Passing) (n : Node) : p.keep n = n := by
  cases p <;> rfl

/-- The variant of an operator: how each of its operands is handed over. A plain number is always
copied. -/
structure Variant where
  left : Passing
  right : Passing
deriving DecidableEq, Repr

/-- The variant that keeps neither operand for good. -/
def Variant.lent : Variant := ⟨.borrowed, .borrowed⟩

instance : HAdd Node Node (Making Node) := ⟨fun l r => Making.combinator .add l r⟩
instance : HSub Node Node (Making Node) := ⟨fun l r => Making.combinator .subtract l r⟩
instance : HMul Node Node (Making Node) := ⟨fun l r => Making.combinator .multiply l r⟩
instance : HDiv Node Node (Making Node) := ⟨fun l r => Making.combinator .divide l r⟩

instance : HAdd Node Float (Making Node) :=
  ⟨fun l x => do Making.combinator .add l (← Making.scalar x)⟩
instance : HSub Node Float (Making Node) :=
  ⟨fun l x => do Making.combinator .subtract l (← Making.scalar x)⟩
instance : HMul Node Float (Making Node) :=
  ⟨fun l x => do Making.combinator .multiply l (← Making.scalar x)⟩
instance : HDiv Node Float (Making Node) :=
  ⟨fun l x => do Making.combinator .divide l (← Making.scalar x)⟩

instance : HAdd Float Node (Making Node) :=
  ⟨fun x r => do Making.combinator .add (← Making.scalar x) r⟩
instance : HSub Float Node (Making Node) :=
  ⟨fun x r => do Making.combinator .subtract (← Making.scalar x) r⟩
instance : HMul Float Node (Making Node) :=
  ⟨fun x r => do Making.combinator .multiply (← Making.scalar x) r⟩
instance : HDiv Float Node (Making Node) :=
  ⟨fun x r => do Making.combinator .divide (← Making.scalar x) r⟩

def Operator.onNodes : Operator → Node → Node → Making Node
  | .add, l, r => l + r
  | .subtract, l, r => l - r
  | .multiply, l, r => l * r
  | .divide, l, r => l / r

def Operator.onNumberRight : Operator → Node → Float → Making Node
  | .add, l, x => l + x
  | .subtract, l, x => l - x
  | .multiply, l, x => l * x
  | .divide, l, x => l / x

def Operator.onNumberLeft : Operator → Float → Node → Making Node
  | .add, x, r => x + r
  | .subtract, x, r => x - r
  | .multiply, x, r => x * r
  | .divide, x, r => x / r

/-- An operator between any two values, in one of its variants. Of two plain numbers the left one
becomes a node first. -/
def Operator.onValues (op : Operator) (how : Variant) : Value → Value → Making Node
  | .node l, .node r => op.onNodes (how.left.keep l) (how.right.keep r)
  | .node l, .number x => op.onNumberRight (how.left.keep l) x
  | .number x, .node r => op.onNumberLeft x (how.right.keep r)
  | .number x, .number y => do op.onNumberRight (← Making.scalar x) y

/-! ## Methods as data -/

/-- The methods by name, for programs that choose one. -/
inductive Method where
  | add
  | subtract
  | multiply
  | divide
  | subFrom
  | divFrom
deriving DecidableEq, Repr

def Method.call : Method → Node → Value → Making Node
  | add => Node.add
  | subtract => Node.subtract
  | multiply => Node.multiply
  | divide => Node.divide
  | subFrom => Node.subFrom
  | divFrom => Node.divFrom

end Atelier
