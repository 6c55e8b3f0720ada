import Atelier.Expression.Operator

/-!
# What can go wrong with a drawing

A drawing fails where an expression in it divides by zero. Writing one may fail for a reason of the
writer's own, which is then told as text.
-/

namespace Atelier

/-- Why a drawing could not be worked out or written. -/
inductive DrawingError where
  | division (cause : DivisionByZero)
  | serialization (reason : String)
deriving DecidableEq

def DrawingError.message : DrawingError → String
  | division cause => cause.message
  | serialization reason => "Serialization error: " ++ reason

end Atelier
