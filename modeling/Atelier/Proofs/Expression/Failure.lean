import Atelier.Expression.Node
import Atelier.Proofs.Number.Unpacked

/-!
# When an expression has no value

An expression has no value exactly when it divides by zero somewhere. Operands are worked out before
their operator and the left one first, so the error is that of the first such division in this order
(`Node.postorder`), whatever stands above it. Without such a division the value is that of plain
arithmetic (`Node.calculate`).
-/

namespace Atelier

/-- The value of two operands, where dividing by zero is not looked for. -/
def Operator.calculate : Operator → Float → Float → Float
  | add, x, y => x + y
  | subtract, x, y => x - y
  | multiply, x, y => x * y
  | divide, x, y => x / y

namespace Node

/-! ## Parts of an expression -/

/-- A node and everything below it, operands before their operator and the left before the right.
What is used more than once is there once for each use. -/
def postorder : Node → List Node
  | scalar i x => [scalar i x]
  | leaf i d x => [leaf i d x]
  | combinator i op l r => l.postorder ++ r.postorder ++ [combinator i op l r]

/-- The value of a node by arithmetic alone. -/
def calculate : Node → Float
  | scalar _ x => x
  | leaf _ _ x => x
  | combinator _ op l r => op.calculate l.calculate r.calculate

/-- Whether a node divides a number by zero, both operands having values. -/
inductive DividesByZero : Node → Float → Prop
  | divide {l r : Node} {x y : Float} (i : Nat) (hl : l.resolve = .ok x) (hr : r.resolve = .ok y)
      (hy : y = 0.0 ∨ y = -0.0) : DividesByZero (.combinator i .divide l r) x

/-- The number that a node divides by zero, if it does. -/
def zeroDivision? : Node → Option Float
  | combinator _ .divide l r =>
    match l.resolve, r.resolve with
    | .ok x, .ok y => if y == 0.0 then some x else none
    | _, _ => none
  | _ => none

variable {n l r : Node} {x y : Float}

theorem zeroDivision?_eq_some_iff : n.zeroDivision? = some x ↔ n.DividesByZero x := by
  constructor
  · intro h
    unfold zeroDivision? at h
    split at h
    · split at h
      · rename_i x' y hl hr
        split at h
        · rename_i hy
          obtain rfl := Option.some.inj h
          exact .divide _ hl hr (Number.beq_zero_iff.1 hy)
        · cases h
      · cases h
    · cases h
  · rintro ⟨i, hl, hr, hy⟩
    simp [zeroDivision?, hl, hr, Number.beq_zero_iff.2 hy]

theorem zeroDivision?_eq_none_iff : n.zeroDivision? = none ↔ ∀ x, ¬ n.DividesByZero x := by
  simp [Option.eq_none_iff_forall_ne_some, zeroDivision?_eq_some_iff]

/-- Neither NaN nor an infinite number counts as zero. -/
theorem DividesByZero.divisor {i : Nat} {op : Operator} (h : (combinator i op l r).DividesByZero x)
    (hr : r.resolve = .ok y) : y.isNaN = false ∧ y.isInf = false := by
  cases h with
  | divide _ _ hr' hy =>
    obtain rfl := Except.ok.inj (hr'.symm.trans hr)
    rcases hy with rfl | rfl
    · exact ⟨by decide, by decide⟩
    · exact ⟨by decide, by decide⟩

/-! ## Working out -/

/-- An operator on two values fails only where its node divides by zero. -/
theorem apply_eq {i : Nat} {op : Operator} (hl : l.resolve = .ok x) (hr : r.resolve = .ok y) :
    op.apply x y =
      match (combinator i op l r).zeroDivision? with
      | some numerator => .error ⟨numerator⟩
      | none => .ok (op.calculate x y) := by
  cases op with
  | add | subtract | multiply => rfl
  | divide =>
    simp only [Operator.apply, zeroDivision?, hl, hr]
    split <;> rfl

/-- **A node has its value by arithmetic, or fails as the first division by zero does.** -/
theorem resolve_eq (n : Node) :
    n.resolve =
      match n.postorder.findSome? zeroDivision? with
      | some numerator => .error ⟨numerator⟩
      | none => .ok n.calculate := by
  induction n with
  | scalar i x => rfl
  | leaf i d x => rfl
  | combinator i op l r ihl ihr =>
    rw [resolve, postorder, List.findSome?_append, List.findSome?_append]
    cases hl : l.postorder.findSome? zeroDivision? with
    | some numerator =>
      rw [hl] at ihl
      rw [ihl]
      rfl
    | none =>
      rw [hl] at ihl
      rw [ihl]
      cases hr : r.postorder.findSome? zeroDivision? with
      | some numerator =>
        rw [hr] at ihr
        rw [ihr]
        rfl
      | none =>
        rw [hr] at ihr
        rw [ihr]
        rw [Option.none_or, Option.none_or, List.findSome?_singleton]
        exact apply_eq ihl ihr

/-- The error of a node is that of the first division by zero. -/
theorem resolve_eq_error_iff {e : DivisionByZero} :
    n.resolve = .error e ↔ ∃ before m after, n.postorder = before ++ m :: after ∧
      (∀ a ∈ before, ∀ x, ¬ a.DividesByZero x) ∧ m.DividesByZero e.numerator := by
  have herror : n.resolve = .error e ↔
      n.postorder.findSome? zeroDivision? = some e.numerator := by
    rw [resolve_eq]
    cases n.postorder.findSome? zeroDivision? with
    | none => simp
    | some numerator =>
      obtain ⟨x⟩ := e
      simp
  rw [herror, List.findSome?_eq_some_iff]
  simp only [zeroDivision?_eq_some_iff, zeroDivision?_eq_none_iff]
  constructor
  · rintro ⟨before, m, after, hsplit, hm, hbefore⟩
    exact ⟨before, m, after, hsplit, hbefore, hm⟩
  · rintro ⟨before, m, after, hsplit, hbefore, hm⟩
    exact ⟨before, m, after, hsplit, hm, hbefore⟩

theorem resolve_eq_ok_iff :
    n.resolve = .ok x ↔ (∀ m ∈ n.postorder, ∀ y, ¬ m.DividesByZero y) ∧ n.calculate = x := by
  have hnone : n.postorder.findSome? zeroDivision? = none ↔
      ∀ m ∈ n.postorder, ∀ y, ¬ m.DividesByZero y := by
    simp only [List.findSome?_eq_none_iff, zeroDivision?_eq_none_iff]
  rw [resolve_eq, ← hnone]
  cases n.postorder.findSome? zeroDivision? with
  | none => simp
  | some numerator => simp

/-- **When and how an expression fails.** There is an error exactly when a node of the expression
divides by zero, and it is the error of the first one. Otherwise the value is that of plain
arithmetic. Nothing that is NaN or infinite counts as zero. -/
theorem first_division_by_zero (n : Node) :
    ((∃ e, n.resolve = .error e) ↔ ∃ m ∈ n.postorder, ∃ x, m.DividesByZero x) ∧
      (∀ e, n.resolve = .error e ↔ ∃ before m after, n.postorder = before ++ m :: after ∧
        (∀ a ∈ before, ∀ x, ¬ a.DividesByZero x) ∧ m.DividesByZero e.numerator) ∧
      (∀ x, n.resolve = .ok x ↔
        (∀ m ∈ n.postorder, ∀ y, ¬ m.DividesByZero y) ∧ n.calculate = x) ∧
      ∀ i op l r x y, (combinator i op l r).DividesByZero x → r.resolve = .ok y →
        y.isNaN = false ∧ y.isInf = false := by
  refine ⟨?_, fun e => resolve_eq_error_iff, fun x => resolve_eq_ok_iff,
    fun i op l r x y h hr => h.divisor hr⟩
  constructor
  · rintro ⟨e, he⟩
    obtain ⟨before, m, after, hsplit, -, hm⟩ := resolve_eq_error_iff.1 he
    exact ⟨m, by simp [hsplit], _, hm⟩
  · rintro ⟨m, hmem, x, hm⟩
    cases hn : n.resolve with
    | error e => exact ⟨e, rfl⟩
    | ok y => exact absurd hm ((resolve_eq_ok_iff.1 hn).1 m hmem x)

end Node

end Atelier
