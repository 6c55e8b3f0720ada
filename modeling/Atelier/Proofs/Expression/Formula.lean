import Atelier.Expression.Value

/-!
# Formulas

What a node was built from, said without the node: numbers, the draws of leaves, and operators on
two formulas. With a record of the samples that were drawn for leaves a formula has a value.

A node stands for a formula by a record (`Node.Stands`). Then the value of the node is that of the
formula, and this stays so however much longer the record gets.
-/

namespace Atelier

/-- Samples by the identity of the leaf for which they were drawn, the latest first. -/
abbrev Record := List (Nat × Float)

/-- What a node is built from. -/
inductive Formula where
  | number (x : Float)
  | draw (leaf : Nat)
  | apply (op : Operator) (left right : Formula)

namespace Formula

/-- The value of a formula: operands from left to right, and the first error stands. It is none if
the sample of a leaf was not recorded. -/
def evaluate (record : Record) : Formula → Option (Except DivisionByZero Float)
  | number x => some (.ok x)
  | draw i => (record.lookup i).map .ok
  | apply op left right => do
    let l ← left.evaluate record
    let r ← right.evaluate record
    return do op.apply (← l) (← r)

/-- The number that is held for a formula without evaluating it: none for an operator. -/
def held (record : Record) : Formula → Option Float
  | number x => some x
  | draw i => record.lookup i
  | apply .. => none

end Formula

namespace Node

variable {record record' : Record} {n : Node} {f : Formula}

/-- Whether a node is what was built from a formula, with the recorded samples in its leaves. -/
inductive Stands (record : Record) : Node → Formula → Prop
  | scalar (i : Nat) (x : Float) : Stands record (.scalar i x) (.number x)
  | leaf {i : Nat} {x : Float} (d : Distribution) (h : record.lookup i = some x) :
      Stands record (.leaf i d x) (.draw i)
  | combinator {l r : Node} {f g : Formula} (i : Nat) (op : Operator) (hl : Stands record l f)
      (hr : Stands record r g) : Stands record (.combinator i op l r) (.apply op f g)

/-- A node has the value of its formula. -/
theorem Stands.evaluate (h : Stands record n f) : f.evaluate record = some n.resolve := by
  induction h with
  | scalar i x => rfl
  | leaf d h => rw [Formula.evaluate, h]; rfl
  | combinator i op hl hr ihl ihr => rw [Formula.evaluate, ihl, ihr]; rfl

/-- A node holds what is held for its formula. -/
theorem Stands.held (h : Stands record n f) : f.held record = n.cached := by
  cases h with
  | scalar i x => rfl
  | leaf d h => exact h
  | combinator i op hl hr => rfl

/-- More samples on record change nothing. -/
theorem Stands.mono (hmore : ∀ i x, record.lookup i = some x → record'.lookup i = some x)
    (h : Stands record n f) : Stands record' n f := by
  induction h with
  | scalar i x => exact .scalar i x
  | leaf d h => exact .leaf d (hmore _ _ h)
  | combinator i op hl hr ihl ihr => exact .combinator i op ihl ihr

end Node

/-- Whether a value stands for a formula: a plain number for itself, a node for what it was built
from. -/
inductive Value.Stands (record : Record) : Value → Formula → Prop
  | number (x : Float) : Stands record (.number x) (.number x)
  | node {n : Node} {f : Formula} (h : n.Stands record f) : Stands record (.node n) f

theorem Value.Stands.evaluate {record : Record} {v : Value} {f : Formula} (h : v.Stands record f) :
    f.evaluate record = some v.resolve := by
  cases h with
  | number x => rfl
  | node h => exact h.evaluate

/-! ## Operands -/

/-- The operator of a method's result. -/
def Method.operator : Method → Operator
  | add => .add
  | subtract | subFrom => .subtract
  | multiply => .multiply
  | divide | divFrom => .divide

/-- What stands on the left and on the right of a method's result: the target and the argument, or
the other way round if the name of the method says so. -/
def Method.sides (m : Method) (target : Node) (argument : Value) : Value × Value :=
  match m with
  | add | subtract | multiply | divide => (target, argument)
  | subFrom | divFrom => (argument, target)

namespace Making

/-- An operator lifts its operands, the left one first, and joins them as they stand, whether they
are handed over for good or lent. -/
theorem onValues_eq (op : Operator) (how : Variant) (v w : Value) :
    op.onValues how v w = (do combinator op (← v.lift) (← w.lift)) := by
  cases v <;> cases w <;> simp only [Operator.onValues, Passing.keep_eq] <;> cases op <;> rfl

/-- A method is an operator on its two sides, in any variant. -/
theorem call_eq (m : Method) (n : Node) (v : Value) (how : Variant) :
    m.call n v = m.operator.onValues how (m.sides n v).1 (m.sides n v).2 := by
  rw [onValues_eq]
  cases m <;> rfl

end Making

/-! ## What makes nodes -/

/-- The formula of a method's result. -/
def Method.formula : Method → Formula → Formula → Formula
  | add, target, argument => .apply .add target argument
  | subtract, target, argument => .apply .subtract target argument
  | multiply, target, argument => .apply .multiply target argument
  | divide, target, argument => .apply .divide target argument
  | subFrom, target, argument => .apply .subtract argument target
  | divFrom, target, argument => .apply .divide argument target

namespace Making

variable {record : Record} {action : Making Node} {k : Node → Making Node} {l r n : Node}
  {v w : Value} {f g : Formula}

/-- Whether an action makes a node that stands for a formula, wherever it is done. -/
def Makes (record : Record) (action : Making Node) (f : Formula) : Prop :=
  ∀ s, (action s).1.Stands record f ∧ s.made ≤ (action s).2.made

theorem Makes.bind (h : Makes record action f)
    (hk : ∀ n, n.Stands record f → Makes record (k n) g) : Makes record (action >>= k) g := by
  intro s
  obtain ⟨hn, hmade⟩ := h s
  obtain ⟨hm, hmade'⟩ := hk _ hn (action s).2
  exact ⟨hm, Nat.le_trans hmade hmade'⟩

theorem makes_scalar (record : Record) (x : Float) : Makes record (scalar x) (.number x) :=
  fun s => ⟨.scalar s.made x, Nat.le_succ _⟩

theorem makes_lift (hv : v.Stands record f) : Makes record v.lift f := by
  cases hv with
  | number x => exact makes_scalar record x
  | node hn => exact fun s => ⟨hn, Nat.le_refl _⟩

theorem makes_combinator (op : Operator) (hl : l.Stands record f) (hr : r.Stands record g) :
    Makes record (combinator op l r) (.apply op f g) :=
  fun s => ⟨.combinator s.made op hl hr, Nat.le_succ _⟩

/-- A method keeps its target on the left, or on the right if its name says so. -/
theorem makes_call (m : Method) (hn : n.Stands record f) (hv : v.Stands record g) :
    Makes record (m.call n v) (m.formula f g) := by
  have hlift := makes_lift hv
  cases m with
  | add | subtract | multiply | divide => exact hlift.bind fun _ hm => makes_combinator _ hn hm
  | subFrom | divFrom => exact hlift.bind fun _ hm => makes_combinator _ hm hn

/-- An operator keeps both its operands in their places. -/
theorem makes_onValues (op : Operator) (how : Variant) (hv : v.Stands record f)
    (hw : w.Stands record g) : Makes record (op.onValues how v w) (.apply op f g) := by
  rw [onValues_eq]
  exact (makes_lift hv).bind fun _ hl => (makes_lift hw).bind fun _ hr => makes_combinator op hl hr

end Making

end Atelier
