/-!
# Doubles taken apart

A double is a sign, a mantissa and a power of two, or one of the values that are not finite.
Everything that writes or cuts a number starts from this view, so that the rest is arithmetic on
`Nat` and `Int`.
-/

namespace Atelier.Number

/-- What a double stands for: `finite negative m q` is `m · 2^q` with that sign. -/
inductive Unpacked where
  | nan
  | infinite (negative : Bool)
  | finite (negative : Bool) (mantissa : Nat) (exponent : Int)
deriving DecidableEq, Repr

/-- The exponent field of a double, from 0 (zero and subnormal) to 2047 (not finite). -/
def biasedExponent (x : Float) : Nat :=
  x.toBits.toNat / Nat.pow 2 52 % 2048

/-- The sign, mantissa and exponent of a double. -/
def unpack (x : Float) : Unpacked :=
  let negative := x.toBits.toNat / Nat.pow 2 63 == 1
  let fraction := x.toBits.toNat % Nat.pow 2 52
  let biased := biasedExponent x
  if biased = 2047 then
    if fraction = 0 then .infinite negative else .nan
  else if biased = 0 then
    .finite negative fraction (-1074)
  else
    .finite negative (Nat.pow 2 52 + fraction) (biased - 1075)

/-- Whether a double is a number, neither infinite nor NaN. -/
def finite (x : Float) : Bool :=
  biasedExponent x != 2047

/-- The whole part of a double. The digits below the point are cleared in place, so the sign
stays also where nothing else does: the whole part of -0.5 is -0. -/
def truncate (x : Float) : Float :=
  if 1075 ≤ biasedExponent x then x
  else
    let cut : UInt64 := if biasedExponent x < 1023 then 63 else .ofNat (1075 - biasedExponent x)
    .ofBits (x.toBits >>> cut <<< cut)

end Atelier.Number
