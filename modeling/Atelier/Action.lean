/-!
# Actions

An action works on a state and ends in a result or in an error. What it did to the state before an
error is not undone.
-/

namespace Atelier

/-- An action on a state that may fail. What it did before it failed is not undone. -/
abbrev Action (σ ε α : Type) := ExceptT ε (StateM σ) α

end Atelier
