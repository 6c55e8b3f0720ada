import Atelier.Proofs.Number.Reading
import Atelier.Proofs.Text.Word

/-!
# Plain numbers

A double in positional form, with `inf` and `NaN` for what has no digits. This text determines the
double (`plain_injective`): the sign stands in front and the rest tells the kind, and digits read as
the value that is written.
-/

namespace Atelier.Number

variable {x y : Float}

/-- Whether the sign of a double is written. -/
def Unpacked.isNegative : Unpacked → Bool
  | .nan => false
  | .infinite negative => negative
  | .finite negative _ _ => negative

/-- The text of a double without its sign. -/
def Unpacked.magnitude : Unpacked → List Char
  | .nan => ['N', 'a', 'N']
  | .infinite _ => ['i', 'n', 'f']
  | .finite _ m q => (shortest .up m q).positional

theorem toList_plain (x : Float) :
    (plain x).toList = signText (unpack x).isNegative ++ (unpack x).magnitude := by
  rw [plain]
  cases unpack x with
  | nan => rfl
  | infinite negative => exact String.toList_ofList
  | finite negative m q => exact String.toList_ofList

theorem Unpacked.head?_magnitude_ne (u : Unpacked) : u.magnitude.head? ≠ some '-' := by
  cases u with
  | nan => simp [magnitude]
  | infinite negative => simp [magnitude]
  | finite negative m q => exact head?_ne_sign (Decimal.exists_digit_positional _)

/-! ## Its characters -/

/-- Whether a character can stand in a plain number: one of a number, or of `inf` and `NaN`. -/
def isPlainChar (c : Char) : Bool :=
  isNumberChar c || ['i', 'n', 'f', 'N', 'a'].contains c

theorem isWord_plain (x : Float) : Text.IsWord isPlainChar (plain x).toList := by
  rw [toList_plain]
  refine Text.IsWord.append ?_ ?_
  · cases (unpack x).isNegative <;> simp [signText, Text.IsWord, isPlainChar, isNumberChar]
  · cases unpack x with
    | nan => simp [Text.IsWord, Unpacked.magnitude, isPlainChar]
    | infinite negative => simp [Text.IsWord, Unpacked.magnitude, isPlainChar]
    | finite negative m q =>
      intro c hc
      rw [isPlainChar, Decimal.positional_isNumberChar _ c hc, Bool.true_or]

/-- The digits of a whole number, with its sign, are such characters as well. -/
theorem isWord_repr (n : Int) : Text.IsWord isPlainChar n.repr.toList := by
  have hdigits (m : Nat) : Text.IsWord isPlainChar m.repr.toList := by
    intro c hc
    rw [Nat.toList_repr] at hc
    rw [isPlainChar, (isDigits_toDigits m).isNumberChar c hc, Bool.true_or]
  rw [Int.repr_eq_if]
  split_ifs
  · exact hdigits _
  · rw [String.toList_append]
    exact Text.IsWord.append (by simp [Text.IsWord, isPlainChar, isNumberChar]) (hdigits _)

theorem plain_ne_nil (x : Float) : (plain x).toList ≠ [] := by
  rw [toList_plain]
  cases unpack x with
  | nan => simp [Unpacked.magnitude]
  | infinite negative => simp [Unpacked.magnitude]
  | finite negative m q =>
    obtain ⟨c, rest, htext, -⟩ := (shortest .up m q).exists_digit_positional
    simp [Unpacked.magnitude, htext]

/-! ## What it tells -/

/-- Digits are neither `NaN` nor `inf`. -/
theorem positional_ne_cons {d : Decimal} {c : Char} {rest : List Char} (hc : c.isDigit = false) :
    d.positional ≠ c :: rest := by
  obtain ⟨c', rest', htext, hc'⟩ := d.exists_digit_positional
  rw [htext]
  rintro ⟨⟩
  cases hc'.symm.trans hc

theorem unpack_eq_of_magnitude_eq (hsign : (unpack x).isNegative = (unpack y).isNegative)
    (h : (unpack x).magnitude = (unpack y).magnitude) : unpack x = unpack y := by
  cases hx : unpack x with
  | nan =>
    rw [hx] at h
    cases hy : unpack y with
    | nan => rfl
    | infinite _ => rw [hy] at h; cases h
    | finite _ _ _ => rw [hy] at h; exact absurd h.symm (positional_ne_cons rfl)
  | infinite negative =>
    rw [hx] at h hsign
    cases hy : unpack y with
    | nan => rw [hy] at h; cases h
    | infinite _ => rw [hy] at hsign; exact congrArg Unpacked.infinite hsign
    | finite _ _ _ => rw [hy] at h; exact absurd h.symm (positional_ne_cons rfl)
  | finite negative m q =>
    rw [hx] at h hsign
    cases hy : unpack y with
    | nan => rw [hy] at h; exact absurd h (positional_ne_cons rfl)
    | infinite _ => rw [hy] at h; exact absurd h (positional_ne_cons rfl)
    | finite negative' m' q' =>
      rw [hy] at h hsign
      obtain rfl : negative = negative' := hsign
      -- The same digits read as the same value, and no two doubles are written with one value.
      have hvalue : (shortest .up m q).value = (shortest .up m' q').value := by
        rw [← Decimal.read_positional, ← Decimal.read_positional]
        exact congrArg read h
      obtain ⟨rfl, rfl⟩ :=
        eq_of_value_shortest (isLegal_of_unpack hx) (isLegal_of_unpack hy) hvalue
      rfl

/-- **A double is determined by its plain text.** -/
theorem plain_injective : Function.Injective plain := by
  intro x y h
  have htext := congrArg String.toList h
  rw [toList_plain, toList_plain] at htext
  obtain ⟨hsign, hmagnitude⟩ := signText_append_inj (Unpacked.head?_magnitude_ne _)
    (Unpacked.head?_magnitude_ne _) htext
  exact unpack_injective (unpack_eq_of_magnitude_eq hsign hmagnitude)

end Atelier.Number
