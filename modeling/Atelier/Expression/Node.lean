import Atelier.Expression.Distribution
import Atelier.Expression.Operator

/-!
# Nodes

An expression is a graph of nodes: numbers, random numbers and operators on two nodes. A node has an
identity, so that a node used twice can be told from two equal ones. The sample of a random number
is drawn when its node is made and is part of the node, so every use of the node sees that one
sample; the value of an operator is worked out whenever it is asked for.

Nodes are made in a `Studio`, which holds the random source and the supply of identities. Everything
else about a node is a plain function: looking at a node cannot draw.
-/

namespace Atelier

/-- A node of an expression. -/
inductive Node where
  | scalar (identity : Nat) (value : Float)
  | leaf (identity : Nat) (distribution : Distribution) (sample : Float)
  | combinator (identity : Nat) (op : Operator) (left right : Node)
deriving DecidableEq

namespace Node

def identity : Node → Nat
  | scalar i _ => i
  | leaf i _ _ => i
  | combinator i _ _ _ => i

/-- Whether two handles are handles on one node. -/
def same (a b : Node) : Bool :=
  a.identity == b.identity

/-- The value that is fixed with the node itself: none for an operator. -/
def cached : Node → Option Float
  | scalar _ x => some x
  | leaf _ _ x => some x
  | combinator .. => none

/-- The value of a node: operands from left to right, and the first error stands. -/
def resolve : Node → Except DivisionByZero Float
  | scalar _ x => .ok x
  | leaf _ _ x => .ok x
  | combinator _ op left right => do
    let l ← left.resolve
    let r ← right.resolve
    op.apply l r

/-- The written form of a node, fully bracketed, and a text after it. Samples do not show. -/
def textBefore : Node → List Char → List Char
  | scalar _ x, after => (Number.plain x).toList ++ after
  | leaf _ d _, after => d.text.toList ++ after
  | combinator _ op left right, after =>
    '(' :: left.textBefore (' ' :: op.symbol :: ' ' :: right.textBefore (')' :: after))

def text (n : Node) : String :=
  .ofList (n.textBefore [])

end Node

/-- Where nodes are made: the random source, and how many nodes there are. -/
structure Studio where
  source : Random.Source
  made : Nat
deriving DecidableEq

/-- An action that may make nodes. -/
abbrev Making := StateM Studio

namespace Making

/-- An identity that no node has yet. -/
def identity : Making Nat :=
  modifyGet fun s => (s.made, { s with made := s.made + 1 })

/-- Draws one sample without making a node. -/
def sample (d : Distribution) : Making Float :=
  modifyGet fun s =>
    let (x, source) := d.sample s.source
    (x, { s with source })

def samples (d : Distribution) : Nat → Making (List Float)
  | 0 => return []
  | times + 1 => do
    let x ← sample d
    let rest ← samples d times
    return x :: rest

def scalar (x : Float) : Making Node := do
  return .scalar (← identity) x

/-- A new node for a random number, drawn now. -/
def leaf (d : Distribution) : Making Node := do
  let x ← sample d
  return .leaf (← identity) d x

def combinator (op : Operator) (left right : Node) : Making Node := do
  return .combinator (← identity) op left right

end Making

end Atelier
