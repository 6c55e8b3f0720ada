import Atelier.Number.Unpacked
import Mathlib.Algebra.Ring.Nat
import Mathlib.Tactic.SplitIfs

/-!
# A double and its parts

Taking a double apart loses nothing (`unpack_injective`): sign, exponent and fraction are the bits,
and all bits of the one NaN are known. A finite double is taken apart into a mantissa and an
exponent within bounds (`IsLegal`), where only the smallest exponent goes with a mantissa of fewer
than 53 bits. So no number has two forms.
-/

namespace Atelier.Number

variable {x y : Float} {m : Nat} {q : Int} {negative : Bool}

/-! ## Bits -/

theorem eq_of_toBits (h : x.toBits.toNat = y.toBits.toNat) : x = y := by
  obtain ⟨⟨a, ha⟩⟩ := x
  obtain ⟨⟨b, hb⟩⟩ := y
  obtain rfl : a = b := UInt64.toNat_inj.1 h
  rfl

/-- The fraction of a double: the 52 bits below the exponent. -/
def fraction (x : Float) : Nat :=
  x.toBits.toNat % Nat.pow 2 52

/-- Whether the sign of a double is set. -/
def isNegative (x : Float) : Bool :=
  x.toBits.toNat / Nat.pow 2 63 == 1

/-- A double is its sign, its exponent and its fraction. -/
theorem eq_of_fields (hsign : isNegative x = isNegative y)
    (hexponent : biasedExponent x = biasedExponent y) (hfraction : fraction x = fraction y) :
    x = y := by
  have hx := x.toBits.toNat_lt
  have hy := y.toBits.toNat_lt
  apply eq_of_toBits
  have hiff := congrArg (· = true) hsign
  simp only [isNegative, biasedExponent, fraction, beq_iff_eq, Nat.pow_eq, eq_iff_iff] at *
  omega

theorem fraction_lt (x : Float) : fraction x < 2 ^ 52 :=
  Nat.mod_lt _ (by decide)

/-! ## Parts -/

theorem unpack_eq (x : Float) :
    unpack x =
      if biasedExponent x = 2047 then
        if fraction x = 0 then .infinite (isNegative x) else .nan
      else if biasedExponent x = 0 then .finite (isNegative x) (fraction x) (-1074)
      else .finite (isNegative x) (Nat.pow 2 52 + fraction x) (biasedExponent x - 1075) := rfl

theorem unpack_eq_nan (h : unpack x = .nan) : biasedExponent x = 2047 ∧ fraction x ≠ 0 := by
  rw [unpack_eq] at h
  split_ifs at h with hmax hzero
  exact ⟨hmax, hzero⟩

theorem unpack_eq_infinite (h : unpack x = .infinite negative) :
    isNegative x = negative ∧ biasedExponent x = 2047 ∧ fraction x = 0 := by
  rw [unpack_eq] at h
  split_ifs at h with hmax hzero
  exact ⟨Unpacked.infinite.inj h, hmax, hzero⟩

theorem unpack_eq_finite (h : unpack x = .finite negative m q) :
    isNegative x = negative ∧
      (biasedExponent x = 0 ∧ fraction x = m ∧ q = -1074 ∨
        0 < biasedExponent x ∧ 2 ^ 52 + fraction x = m ∧ biasedExponent x - 1075 = q) := by
  rw [unpack_eq] at h
  split_ifs at h with hmax hzero hmin
  · obtain ⟨hsign, hm, hq⟩ := Unpacked.finite.inj h
    exact ⟨hsign, .inl ⟨hmin, hm, hq.symm⟩⟩
  · obtain ⟨hsign, hm, hq⟩ := Unpacked.finite.inj h
    exact ⟨hsign, .inr ⟨Nat.pos_of_ne_zero hmin, hm, hq⟩⟩

open Float.Model Float.Model.UnpackedFloat in
/-- The bits of a NaN are known. -/
theorem toBits_of_nan (hexponent : biasedExponent x = 2047) (hfraction : fraction x ≠ 0) :
    x.toBits.toBitVec = packedNaN Format.binary64 := by
  apply x.toModel.valid.eq_packedNaN
  · apply BitVec.eq_of_toNat_eq
    simp only [biasedExponent, Nat.pow_eq] at hexponent
    simp [unpackExponent, Nat.shiftRight_eq_div_pow]
    exact hexponent
  · intro hzero
    apply hfraction
    have hnat := congrArg BitVec.toNat hzero
    simp [unpackMantissa] at hnat
    simp [fraction]
    exact hnat

/-- **A double is determined by its parts.** -/
theorem unpack_injective : Function.Injective unpack := by
  intro x y h
  cases hy : unpack y with
  | nan =>
    obtain ⟨hx, hx'⟩ := unpack_eq_nan (h.trans hy)
    obtain ⟨hy, hy'⟩ := unpack_eq_nan hy
    have hbits := (toBits_of_nan hx hx').trans (toBits_of_nan hy hy').symm
    exact eq_of_toBits (congrArg BitVec.toNat hbits)
  | infinite negative =>
    obtain ⟨hsign, hx, hx'⟩ := unpack_eq_infinite (h.trans hy)
    obtain ⟨rfl, hy, hy'⟩ := unpack_eq_infinite hy
    exact eq_of_fields hsign (hx.trans hy.symm) (hx'.trans hy'.symm)
  | finite negative m q =>
    obtain ⟨hsign, hx⟩ := unpack_eq_finite (h.trans hy)
    obtain ⟨rfl, hy⟩ := unpack_eq_finite hy
    -- The mantissa alone tells whether the exponent is the smallest one.
    have hlt := fraction_lt x
    have hlt' := fraction_lt y
    exact eq_of_fields hsign (by omega) (by omega)

/-! ## Zero -/

open Float.Model Float.Model.UnpackedFloat in
theorem fields_of_zero {s : Sign} (h : x.toModel.unpack = .zero s) :
    biasedExponent x = 0 ∧ fraction x = 0 := by
  obtain ⟨-, hmax⟩ | ⟨-, hless⟩ := ite_eq_iff.1 h
  · obtain ⟨-, hinfinite⟩ | ⟨-, hnan⟩ := ite_eq_iff.1 hmax
    · cases hinfinite
    · cases hnan
  · obtain ⟨hexponent, hsmall⟩ | ⟨-, hnormal⟩ := ite_eq_iff.1 hless
    · obtain ⟨hmantissa, -⟩ | ⟨_, hsubnormal⟩ := dite_eq_iff.1 hsmall
      · have hbiased := congrArg BitVec.toNat hexponent
        have hfraction := congrArg BitVec.toNat hmantissa
        simp [unpackExponent, Nat.shiftRight_eq_div_pow] at hbiased
        simp [unpackMantissa] at hfraction
        exact ⟨hbiased, hfraction⟩
      · cases hsubnormal
    · cases hnormal

open Float.Model Float.Model.UnpackedFloat in
theorem beq_zero_iff_unpack {u : UnpackedFloat} :
    u.beq (.zero .positive) = true ↔ ∃ s, u = .zero s := by
  cases u with
  | zero s => exact iff_of_true rfl ⟨s, rfl⟩
  | notANumber => exact iff_of_false Bool.false_ne_true nofun
  | infinity s => cases s <;> exact iff_of_false Bool.false_ne_true nofun
  | finite s m e hm => cases s <;> exact iff_of_false Bool.false_ne_true nofun

/-- **What equals zero is zero**, with either sign. -/
theorem beq_zero_iff : (x == 0.0) = true ↔ x = 0.0 ∨ x = -0.0 := by
  constructor
  · intro h
    obtain ⟨s, hs⟩ := beq_zero_iff_unpack.1 h
    obtain ⟨hexponent, hfraction⟩ := fields_of_zero hs
    cases hsign : isNegative x with
    | false => exact .inl (eq_of_fields hsign hexponent hfraction)
    | true => exact .inr (eq_of_fields hsign hexponent hfraction)
  · rintro (rfl | rfl)
    · rfl
    · rfl

/-! ## Finite doubles -/

/-- Whether a mantissa and an exponent are the parts of a finite double. -/
def IsLegal (m : Nat) (q : Int) : Prop :=
  m < 2 ^ 52 ∧ q = -1074 ∨ 2 ^ 52 ≤ m ∧ m < 2 ^ 53 ∧ -1074 ≤ q

theorem isLegal_of_unpack (h : unpack x = .finite negative m q) : IsLegal m q := by
  have hlt := fraction_lt x
  cases (unpack_eq_finite h).2 with
  | inl hmin => exact .inl ⟨by omega, hmin.2.2⟩
  | inr hmore => exact .inr ⟨by omega, by omega, by omega⟩

theorem exists_unpack_of_finite (h : finite x = true) :
    ∃ negative m q, unpack x = .finite negative m q := by
  have hmax : biasedExponent x ≠ 2047 := by simpa [finite] using h
  rw [unpack_eq, if_neg hmax]
  split_ifs with hmin
  · exact ⟨_, _, _, rfl⟩
  · exact ⟨_, _, _, rfl⟩

end Atelier.Number
