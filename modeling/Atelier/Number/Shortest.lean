import Atelier.Number.Unpacked

/-!
# The shortest decimal of a double

Many decimals read back as the same double. Among them this file chooses one with the fewest
digits, and among those the one nearest to the double's exact value. All comparisons are exact:
both sides are scaled to whole numbers.

* `ReadBack` is the interval of decimals that read back as a given double.
* `shortest` looks for a point of that interval on the grids of 1, 2, … 17 digits. Should no grid
  have one, the exact value is a decimal too, and is always in the interval.
-/

namespace Atelier.Number

/-- The decimal number `coefficient · 10^exponent`. -/
structure Decimal where
  coefficient : Nat
  exponent : Int
deriving DecidableEq, Repr

/-- Which of two equally near decimals is taken: the larger one, or the one with an even last
digit. -/
inductive Tie where
  | up
  | even
deriving DecidableEq, Repr

/-- The decimals that read back as one double, as multiples of `2^scale`: those between `low` and
`high`, the ends included when `closed`. -/
structure ReadBack where
  low : Nat
  value : Nat
  high : Nat
  scale : Int
  closed : Bool
deriving DecidableEq, Repr

/-- The interval around `m · 2^q`. It reaches half way to both neighbours; below a power of two the
neighbour is only half as far away. A point half way reads back as the even mantissa. -/
def ReadBack.around (m : Nat) (q : Int) : ReadBack where
  low := if m = Nat.pow 2 52 ∧ -1074 < q then 4 * m - 1 else 4 * m - 2
  value := 4 * m
  high := 4 * m + 2
  scale := q - 2
  closed := m % 2 == 0

/-- The size of `2^scale` when `10^exponent` and `2^scale` are both scaled to whole numbers. -/
def ReadBack.unit (r : ReadBack) (exponent : Int) : Nat :=
  Nat.pow 2 r.scale.toNat * Nat.pow 10 (-exponent).toNat

/-- The size of `10^exponent` under the scaling of `ReadBack.unit`. -/
def ReadBack.step (r : ReadBack) (exponent : Int) : Nat :=
  Nat.pow 10 exponent.toNat * Nat.pow 2 (-r.scale).toNat

/-- Whether a decimal reads back as the double. -/
def ReadBack.holds (r : ReadBack) (d : Decimal) : Bool :=
  let low := r.low * r.unit d.exponent
  let high := r.high * r.unit d.exponent
  let point := d.coefficient * r.step d.exponent
  if r.closed then low ≤ point && point ≤ high else low < point && point < high

/-- The nearest decimal with a given exponent that reads back as the double. Only the two
neighbours of the value on that grid can be it. -/
def ReadBack.nearest? (r : ReadBack) (tie : Tie) (exponent : Int) : Option Decimal :=
  let step := r.step exponent
  let value := r.value * r.unit exponent
  let below : Decimal := ⟨value / step, exponent⟩
  let above : Decimal := ⟨value / step + 1, exponent⟩
  match r.holds below, r.holds above with
  | false, false => none
  | true, false => some below
  | false, true => some above
  | true, true =>
    let rest := value % step
    if 2 * rest < step then some below
    else if step < 2 * rest then some above
    else match tie with
      | .up => some above
      | .even => some (if below.coefficient % 2 = 0 then below else above)

/-- The number of decimal digits of a number; none for zero. -/
def digitCount (n : Nat) : Nat :=
  if n = 0 then 0 else (Nat.toDigits 10 n).length

/-- The greatest `k` with `10^k ≤ m · 2^q`. Below one it is read off the reciprocal. -/
def leadingExponent (m : Nat) (q : Int) : Int :=
  let numerator := m * Nat.pow 2 q.toNat
  let denominator := Nat.pow 2 (-q).toNat
  if denominator ≤ numerator then digitCount (numerator / denominator) - 1
  else -digitCount ((denominator - 1) / numerator)

/-- The value `m · 2^q` written out in full: a negative power of two is a decimal as well. -/
def exactly (m : Nat) (q : Int) : Decimal :=
  ⟨m * Nat.pow 2 q.toNat * Nat.pow 5 (-q).toNat, min q 0⟩

/-- The same number without zeros at the end of its coefficient. -/
def Decimal.trim (d : Decimal) : Decimal :=
  if d.coefficient ≠ 0 ∧ d.coefficient % 10 = 0 then
    trim ⟨d.coefficient / 10, d.exponent + 1⟩
  else d
termination_by d.coefficient
decreasing_by omega

/-- The shortest decimal that reads back as `m · 2^q`, nearest of those; zero is itself. -/
def shortest (tie : Tie) (m : Nat) (q : Int) : Decimal :=
  if m = 0 then ⟨0, 0⟩
  else
    let leading := leadingExponent m q
    let grids := (List.range 17).map fun n : Nat => leading - n
    ((grids.findSome? ((ReadBack.around m q).nearest? tie)).getD (exactly m q)).trim

end Atelier.Number
