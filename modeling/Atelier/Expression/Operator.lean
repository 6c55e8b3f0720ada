import Atelier.Number.Written

/-!
# Operators

The four operators that join two numbers. Only division can fail, and it fails exactly when the
divisor is zero of either sign; the error keeps the number that was to be divided.
-/

namespace Atelier

inductive Operator where
  | add
  | subtract
  | multiply
  | divide
deriving DecidableEq, Repr

/-- A division by zero, with the number that was to be divided. -/
structure DivisionByZero where
  numerator : Float
deriving DecidableEq

def DivisionByZero.message (e : DivisionByZero) : String :=
  "Division by zero: " ++ Number.plain e.numerator ++ " / 0"

namespace Operator

/-- The sign of an operator in written expressions. -/
def symbol : Operator → Char
  | add => '+'
  | subtract => '-'
  | multiply => '*'
  | divide => '/'

/-- The value of two operands. A divisor that is NaN or infinite is no error. -/
def apply : Operator → Float → Float → Except DivisionByZero Float
  | add, l, r => .ok (l + r)
  | subtract, l, r => .ok (l - r)
  | multiply, l, r => .ok (l * r)
  | divide, l, r => if r == 0.0 then .error ⟨l⟩ else .ok (l / r)

end Operator

end Atelier
