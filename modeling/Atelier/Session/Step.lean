import Atelier.Error
import Atelier.Session.Expr

/-!
# Steps of a session

A session is a list of steps. Each step makes, names, changes or asks for something and has one
answer. Only `seed`, and steps that describe or sample a random number, touch the random source.
-/

namespace Atelier

inductive Side where
  | left
  | right
deriving DecidableEq, Repr

/-- The ways to write a shape as JSON. -/
inductive JsonForm where
  | compact
  | pretty
  | sorted
  | unchecked
deriving DecidableEq, Repr

inductive Step where
  | seed (seed : UInt64)
  | draws
  | define (name : String) (e : Expr)
  | child (name : String) (e : Expr) (side : Side)
  | describe (e : Expr)
  | lift (e : Expr)
  | resolve (e : Expr)
  | resolveNode (e : Expr)
  | display (e : Expr)
  | same (a b : Expr)
  | valueJson (e : Expr)
  | apply (op : Operator) (l r : Float)
  | combine (op : Operator) (l r : Expr)
  | sample (d : Distribution) (times : Nat)
  | leaf (d : Distribution)
  | defineColor (name : String) (c : ColorExpr)
  | css (c : ColorExpr)
  | channels (c : ColorExpr)
  | colorJson (c : ColorExpr)
  | defineShape (name : String) (s : ShapeExpr)
  | addItem (name : String) (item : ShapeExpr)
  | qualify (name : String) (q : Qualifier)
  | setField (name field : String) (e : Expr)
  | info (name : String)
  | resolveAll (name : String)
  | json (name : String) (form : JsonForm)
  | toolJson (name : String) (form : JsonForm)
  | toolSerialize (name : String)

inductive NodeKind where
  | scalar
  | distribution (discrete : Bool)
  | combinator (op : Operator)
deriving DecidableEq, Repr

def Node.kind : Node → NodeKind
  | scalar .. => .scalar
  | leaf _ d _ => .distribution d.isDiscrete
  | combinator _ op _ _ => .combinator op

/-- What a step answers. -/
inductive Answer where
  | draws (n : Nat)
  | number
  | node (kind : NodeKind) (cached : Option Float) (draws : Nat)
  | value (x : Float)
  | text (s : String)
  | same (b : Bool)
  | json (s : String)
  | applied (x : Float) (op : Operator)
  | samples (xs : List Float) (draws : Nat)
  | leaf (d : Distribution) (cached : Option Float) (value : Float) (draws : Nat)
  | color (channels draws : Nat)
  | channels (values : List (Except DivisionByZero Float))
  | items (n : Nat)
  | qualifiers (qs : List Qualifier)
  | info (typeName : String) (qualifiers : List Qualifier) (items : List String)
  | resolved
  | failed (e : DrawingError)
  | toolFailed (e : ToolError)

namespace Answer

/-- What is said of a value. -/
def ofValue (v : Value) (draws : Nat) : Answer :=
  match v with
  | .number _ => number
  | .node n => node n.kind n.cached draws

/-- The answer of a division that may have failed. -/
def ofResult {α : Type} (answer : α → Answer) : Except DivisionByZero α → Answer
  | .ok a => answer a
  | .error cause => failed (.division cause)

/-- The answer of a drawing that may have failed. -/
def ofDrawing {α : Type} (answer : α → Answer) : Except DrawingError α → Answer
  | .ok a => answer a
  | .error e => failed e

end Answer

/-- Writes a tree on its own: a value that fails is an error of the writer. -/
def writtenAlone (tree : Except DivisionByZero Json) : Except DrawingError String :=
  (fun t => .ofList t.compact) <$> tree.mapError fun cause => .serialization cause.message

def JsonForm.write (s : Shape) : JsonForm → Except DrawingError String
  | compact => s.toJson
  | pretty => s.toPrettyJson
  | sorted => (fun t => .ofList t.compact) <$> s.toSortedJson
  | unchecked => (fun t => .ofList t.compact) <$> s.serialize

def Node.child? : Side → Node → Option Node
  | .left, combinator _ _ l _ => some l
  | .right, combinator _ _ _ r => some r
  | _, _ => none

namespace Step

/-- Says what a value is. -/
def described (v : Value) : Acting Answer :=
  return .ofValue v (← Acting.draws)

/-- Names a value and says what it is. -/
def keep (name : String) (v : Value) : Acting Answer := do
  modify fun s => { s with values := (name, v) :: s.values }
  described v

def update (name : String) (s : Shape) : Acting Unit :=
  modify fun session => { session with shapes := (name, s) :: session.shapes }

def run : Step → Acting Answer
  | seed n => do
    modify fun s => { s with studio.source := s.studio.source.reseed n }
    return .draws (← Acting.draws)
  | draws => return .draws (← Acting.draws)
  | define name e => do keep name (← e.eval)
  | child name e side => do
    match (← e.evalNode).child? side with
    | some n => keep name n
    | none => throw .noChildren
  | describe e => do described (← e.eval)
  | lift e => do described (← e.evalNode)
  | resolve e => return .ofResult .value (← e.eval).resolve
  | resolveNode e => return .ofResult .value (← e.evalNode).resolve
  | display e => return .text (← e.evalNode).text
  | same a b => do
    let a ← a.evalNode
    let b ← b.evalNode
    return .same (a.same b)
  | valueJson e => return .ofDrawing .json (writtenAlone (← e.eval).json)
  | apply op l r => return .ofResult (.applied · op) (op.apply l r)
  | combine op l r => do
    let l ← l.evalNode
    let r ← r.evalNode
    return .ofResult .value (← Acting.make (Making.combinator op l r)).resolve
  | sample d times => do
    let xs ← Acting.make (Making.samples d times)
    return .samples xs (← Acting.draws)
  | leaf d => do
    let n ← Acting.make (Making.leaf d)
    return .ofResult (.leaf d n.cached · (← Acting.draws)) n.resolve
  | defineColor name c => do
    let c ← c.eval
    modify fun s => { s with colors := (name, c) :: s.colors }
    return .color c.channels.length (← Acting.draws)
  | css c => return .ofResult .text (← c.eval).toCss
  | channels c => return .channels ((← c.eval).channels.map Value.resolve)
  | colorJson c => return .ofDrawing .json (writtenAlone (← c.eval).json)
  | defineShape name s => do
    update name (← s.eval)
    return .draws (← Acting.draws)
  | addItem name item => do
    let item ← item.eval
    let s := (← Acting.named Session.shapes name).add item
    update name s
    return .items s.items.length
  | qualify name q => do
    let s := (← Acting.named Session.shapes name).qualify q
    update name s
    return .qualifiers s.qualifiers
  | setField name field e => do
    let v ← e.eval
    let s ← Acting.named Session.shapes name
    match s.form.set? field v with
    | some form =>
      update name { s with form }
      return .draws (← Acting.draws)
    | none => throw (.noField field)
  | info name => do
    let s ← Acting.named Session.shapes name
    return .info s.typeName s.qualifiers (s.items.map Shape.typeName)
  | resolveAll name => do
    let s ← Acting.named Session.shapes name
    return .ofResult (fun _ => .resolved) s.resolveAll
  | json name form => return .ofDrawing .json (form.write (← Acting.named Session.shapes name))
  | toolJson name form => do
    let s ← Acting.named Session.shapes name
    match form.write s with
    | .ok text => return .json text
    | .error e => return .toolFailed (.drawing e)
  | toolSerialize name => do
    let s ← Acting.named Session.shapes name
    match s.json with
    | .ok tree => return .json (.ofList tree.compact)
    | .error cause => return .toolFailed (.serialization cause.message)

/-- Takes steps in order. A step that is a fault is answered by the fault, and keeps what it made
and drew before. -/
def runAll : List Step → Session → List (Except Fault Answer) × Session
  | [], s => ([], s)
  | step :: rest, s =>
    let (answer, s) := step.run.run.run s
    let (answers, s) := runAll rest s
    (answer :: answers, s)

end Step

end Atelier
