import Atelier.Number.Shortest

/-!
# Numbers as text

Two ways to write a double, both with the fewest digits that read back as it.

* `plain` never has an exponent: `0.0000001`, `1000000000000000000000`, `7`, `-0`, `NaN`, `inf`.
* `literal` is the form of numbers in JSON texts: always with a point or an exponent (`7.0`,
  `1e+16`, `5e-324`). What is not finite has no literal.
-/

namespace Atelier.Number

/-- A decimal in positional form: the digits with the point put in, or zeros added where the point
lies outside them. -/
def Decimal.positional (d : Decimal) : List Char :=
  let digits := Nat.toDigits 10 d.coefficient
  let whole := digits.length + d.exponent
  if 0 ≤ d.exponent then digits ++ List.replicate d.exponent.toNat '0'
  else if 0 < whole then digits.take whole.toNat ++ '.' :: digits.drop whole.toNat
  else '0' :: '.' :: (List.replicate (-whole).toNat '0' ++ digits)

/-- A decimal with one digit before the point and an exponent that always has a sign. -/
def Decimal.scientific (d : Decimal) : List Char :=
  match Nat.toDigits 10 d.coefficient with
  | [] => []
  | lead :: rest =>
    let exponent := rest.length + d.exponent
    let sign := if exponent < 0 then '-' else '+'
    lead :: (if rest.isEmpty then [] else '.' :: rest) ++
      'e' :: sign :: Nat.toDigits 10 exponent.natAbs

/-- A decimal as a JSON number: positional with a fraction while its leading digit stands for
`10^-5` to `10^15`, scientific beyond. -/
def Decimal.literal (d : Decimal) : List Char :=
  let leading := (Nat.toDigits 10 d.coefficient).length + d.exponent - 1
  if -5 ≤ leading ∧ leading ≤ 15 then
    if 0 ≤ d.exponent then d.positional ++ ['.', '0'] else d.positional
  else d.scientific

/-- The sign in front of a number. -/
def signText (negative : Bool) : List Char :=
  if negative then ['-'] else []

/-- A double in positional form. Of two equally near digits the larger is written. -/
def plain (x : Float) : String :=
  match unpack x with
  | .nan => "NaN"
  | .infinite negative => .ofList (signText negative ++ ['i', 'n', 'f'])
  | .finite negative m q => .ofList (signText negative ++ (shortest .up m q).positional)

/-- A finite double as a JSON number. Of two equally near digits the even one is written. -/
def literal? (x : Float) : Option String :=
  match unpack x with
  | .finite negative m q => some (.ofList (signText negative ++ (shortest .even m q).literal))
  | _ => none

end Atelier.Number
