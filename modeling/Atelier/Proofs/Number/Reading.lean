import Atelier.Number.Written
import Atelier.Proofs.Number.ReadBack
import Mathlib.Data.List.TakeWhile

/-!
# Reading numbers

What a written number stands for, said by a reader that knows digits, a point and an exponent. The
positional and the scientific form of a decimal both read as the value of the decimal, so the text
of a finite double determines the double (`literal?_injective`).
-/

namespace Atelier.Number

variable {d : Decimal} {x y : Float} {text whole fraction mantissa exponent : List Char} {c : Char}

/-! ## The reader -/

/-- What stands in a text before the first of some characters. -/
def before (c : Char) (text : List Char) : List Char :=
  text.takeWhile (· ≠ c)

/-- What stands in a text behind the first of some characters. -/
def behind (c : Char) (text : List Char) : List Char :=
  (text.dropWhile (· ≠ c)).tail

/-- The number that a text of digits stands for. -/
def readDigits (digits : List Char) : Nat :=
  Nat.ofDigitChars 10 digits 0

/-- The number that an exponent stands for: none is zero. -/
def readExponent : List Char → Int
  | '-' :: digits => -readDigits digits
  | '+' :: digits => readDigits digits
  | _ => 0

/-- The number that digits with or without a point stand for. -/
def readMantissa (text : List Char) : ℚ :=
  readDigits (before '.' text ++ behind '.' text) * 10 ^ (-((behind '.' text).length : Int))

/-- The number that a text of digits, with or without a point and an exponent, stands for. -/
def read (text : List Char) : ℚ :=
  readMantissa (before 'e' text) * 10 ^ readExponent (behind 'e' text)

/-! ## Reading parts -/

theorem forall_ne_of_not_mem (h : c ∉ text) : ∀ a ∈ text, decide (a ≠ c) = true := by
  intro a ha
  rw [decide_eq_true_iff]
  rintro rfl
  exact h ha

theorem before_append_cons (h : c ∉ whole) : before c (whole ++ c :: fraction) = whole := by
  rw [before, List.takeWhile_append_of_pos (forall_ne_of_not_mem h)]
  simp

theorem behind_append_cons (h : c ∉ whole) : behind c (whole ++ c :: fraction) = fraction := by
  rw [behind, List.dropWhile_append_of_pos (forall_ne_of_not_mem h)]
  simp

theorem before_of_not_mem (h : c ∉ text) : before c text = text :=
  List.takeWhile_eq_self_iff.2 (forall_ne_of_not_mem h)

theorem behind_of_not_mem (h : c ∉ text) : behind c text = [] := by
  rw [behind, List.dropWhile_eq_nil_iff.2 (forall_ne_of_not_mem h)]
  rfl

/-- Whether all characters of a text are digits. -/
def IsDigits (text : List Char) : Prop :=
  ∀ c ∈ text, c.isDigit = true

theorem IsDigits.append (h : IsDigits whole) (h' : IsDigits fraction) :
    IsDigits (whole ++ fraction) :=
  List.forall_mem_append.2 ⟨h, h'⟩

theorem isDigits_toDigits (n : Nat) : IsDigits (Nat.toDigits 10 n) :=
  fun _ hc => Nat.isDigit_of_mem_toDigits (by decide) (by decide) hc

theorem isDigits_zeros (n : Nat) : IsDigits (List.replicate n '0') := by
  intro c hc
  rw [List.eq_of_mem_replicate hc]
  rfl

theorem IsDigits.not_mem (h : IsDigits text) (hc : c.isDigit = false) : c ∉ text := by
  intro hmem
  rw [h c hmem] at hc
  cases hc

/-- What starts with digits starts with a digit. -/
theorem IsDigits.exists_digit_append (h : IsDigits whole) (hne : whole ≠ []) (text : List Char) :
    ∃ c rest, whole ++ text = c :: rest ∧ c.isDigit = true := by
  cases whole with
  | nil => exact absurd rfl hne
  | cons c rest => exact ⟨c, rest ++ text, rfl, h c List.mem_cons_self⟩

theorem readMantissa_digits (h : IsDigits whole) : readMantissa whole = readDigits whole := by
  rw [readMantissa, before_of_not_mem (h.not_mem rfl), behind_of_not_mem (h.not_mem rfl)]
  simp

theorem readMantissa_point (h : IsDigits whole) :
    readMantissa (whole ++ '.' :: fraction) =
      readDigits (whole ++ fraction) * 10 ^ (-(fraction.length : Int)) := by
  rw [readMantissa, before_append_cons (h.not_mem rfl), behind_append_cons (h.not_mem rfl)]

theorem read_mantissa (h : 'e' ∉ mantissa) : read mantissa = readMantissa mantissa := by
  rw [read, before_of_not_mem h, behind_of_not_mem h, readExponent, zpow_zero, mul_one]
  all_goals simp

theorem read_exponent (h : 'e' ∉ mantissa) :
    read (mantissa ++ 'e' :: exponent) = readMantissa mantissa * 10 ^ readExponent exponent := by
  rw [read, before_append_cons h, behind_append_cons h]

/-! ## What is written reads back -/

theorem readDigits_append_zeros (digits : List Char) (n : Nat) :
    readDigits (digits ++ List.replicate n '0') = readDigits digits * 10 ^ n := by
  rw [readDigits, Nat.ofDigitChars_append, Nat.ofDigitChars_replicate_zero, mul_comm]
  rfl

theorem readDigits_zeros_append (digits : List Char) (n : Nat) :
    readDigits (List.replicate n '0' ++ digits) = readDigits digits := by
  rw [readDigits, Nat.ofDigitChars_append, Nat.ofDigitChars_replicate_zero, mul_zero]
  rfl

theorem readDigits_toDigits (n : Nat) : readDigits (Nat.toDigits 10 n) = n :=
  Nat.ofDigitChars_ten_toDigits

theorem readExponent_toDigits (e : Int) :
    readExponent ((if e < 0 then '-' else '+') :: Nat.toDigits 10 e.natAbs) = e := by
  split_ifs with h
  · rw [readExponent, readDigits_toDigits]
    omega
  · rw [readExponent, readDigits_toDigits]
    omega

namespace Decimal

/-- The positional form of a decimal: its digits and zeros behind them, or digits with a point that
stands as many digits from the end as the exponent says. -/
theorem positional_cases (d : Decimal) :
    (∃ n : Nat, d.exponent = n ∧
        d.positional = Nat.toDigits 10 d.coefficient ++ List.replicate n '0') ∨
      d.exponent < 0 ∧ ∃ whole fraction, d.positional = whole ++ '.' :: fraction ∧ whole ≠ [] ∧
        IsDigits whole ∧ IsDigits fraction ∧ readDigits (whole ++ fraction) = d.coefficient ∧
        -(fraction.length : Int) = d.exponent := by
  rw [positional]
  have hdigits := isDigits_toDigits d.coefficient
  have hread := readDigits_toDigits d.coefficient
  generalize Nat.toDigits 10 d.coefficient = digits at hdigits hread ⊢
  split_ifs with hwhole hpoint
  · exact .inl ⟨d.exponent.toNat, (Int.toNat_of_nonneg hwhole).symm, rfl⟩
  · refine .inr ⟨by omega, _, _, rfl, ?_, fun c hc => hdigits c (List.mem_of_mem_take hc),
      fun c hc => hdigits c (List.mem_of_mem_drop hc), ?_, ?_⟩
    · intro hnil
      have hlength := congrArg List.length hnil
      simp only [List.length_take, List.length_nil] at hlength
      omega
    · rw [List.take_append_drop, hread]
    · rw [List.length_drop]
      omega
  · refine .inr ⟨by omega, ['0'], _, rfl, List.cons_ne_nil _ _, isDigits_zeros 1,
      (isDigits_zeros _).append hdigits, ?_, ?_⟩
    · have hzeros := readDigits_zeros_append digits ((-(digits.length + d.exponent)).toNat + 1)
      rwa [List.replicate_succ, List.cons_append, hread] at hzeros
    · rw [List.length_append, List.length_replicate]
      omega

theorem readDigits_padded (d : Decimal) (n : Nat) :
    readDigits (Nat.toDigits 10 d.coefficient ++ List.replicate n '0') =
      d.coefficient * 10 ^ n := by
  rw [readDigits_append_zeros, readDigits_toDigits]

theorem read_positional (d : Decimal) : read d.positional = d.value := by
  cases d.positional_cases with
  | inl h =>
    obtain ⟨n, hexponent, htext⟩ := h
    have hdigits := (isDigits_toDigits d.coefficient).append (isDigits_zeros n)
    rw [htext, read_mantissa (hdigits.not_mem rfl), readMantissa_digits hdigits,
      d.readDigits_padded, value, hexponent, zpow_natCast]
    push_cast
    rfl
  | inr h =>
    obtain ⟨-, whole, fraction, htext, -, hwhole, hfraction, hread, hexponent⟩ := h
    have hmantissa : 'e' ∉ whole ++ '.' :: fraction := by
      simp [hwhole.not_mem (c := 'e') rfl, hfraction.not_mem (c := 'e') rfl]
    rw [htext, read_mantissa hmantissa, readMantissa_point hwhole, hread, hexponent, value]

/-- A point and a zero behind a whole number change nothing. -/
theorem read_positional_append (h : 0 ≤ d.exponent) :
    read (d.positional ++ ['.', '0']) = d.value := by
  cases d.positional_cases with
  | inr h' => omega
  | inl h' =>
    obtain ⟨n, hexponent, htext⟩ := h'
    have hdigits := (isDigits_toDigits d.coefficient).append (isDigits_zeros n)
    have hmantissa : 'e' ∉ d.positional ++ ['.', '0'] := by
      rw [htext]
      simp [(isDigits_toDigits d.coefficient).not_mem (c := 'e') rfl]
    have hmore : Nat.toDigits 10 d.coefficient ++ List.replicate n '0' ++ ['0'] =
        Nat.toDigits 10 d.coefficient ++ List.replicate (n + 1) '0' := by
      rw [List.append_assoc, List.replicate_succ']
    rw [read_mantissa hmantissa, htext, readMantissa_point hdigits, hmore, d.readDigits_padded,
      value, hexponent, zpow_natCast, pow_succ]
    push_cast
    simp [mul_assoc]

theorem read_scientific (d : Decimal) : read d.scientific = d.value := by
  rw [scientific]
  have hdigits := isDigits_toDigits d.coefficient
  have hread := readDigits_toDigits d.coefficient
  cases hcoefficient : Nat.toDigits 10 d.coefficient with
  | nil => exact absurd hcoefficient Nat.toDigits_ne_nil
  | cons lead rest =>
    rw [hcoefficient] at hdigits hread
    have hlead : IsDigits [lead] := fun c hc => hdigits c (by simp_all)
    have hrest : IsDigits rest := fun c hc => hdigits c (List.mem_cons_of_mem _ hc)
    have hmantissa : 'e' ∉ lead :: (if rest.isEmpty then [] else '.' :: rest) := by
      have hlead' := hlead.not_mem (c := 'e') rfl
      have hrest' := hrest.not_mem (c := 'e') rfl
      split_ifs
      · simpa using hlead'
      · simpa [hrest'] using hlead'
    have hvalue : readMantissa (lead :: (if rest.isEmpty then [] else '.' :: rest)) =
        d.coefficient * 10 ^ (-(rest.length : Int)) := by
      split_ifs with hnil
      · obtain rfl := List.isEmpty_iff.1 hnil
        rw [readMantissa_digits hlead, hread]
        simp
      · have hpoint : readMantissa ([lead] ++ '.' :: rest) =
            readDigits ([lead] ++ rest) * 10 ^ (-(rest.length : Int)) := readMantissa_point hlead
        rwa [List.singleton_append, List.singleton_append, hread] at hpoint
    have hsum : -(rest.length : Int) + (rest.length + d.exponent) = d.exponent := by omega
    dsimp only
    rw [read_exponent hmantissa, hvalue, readExponent_toDigits, mul_assoc,
      ← zpow_add₀ (by norm_num), hsum, value]

/-- **A decimal as a JSON number reads as its value.** -/
theorem read_literal (d : Decimal) : read d.literal = d.value := by
  rw [literal]
  split_ifs with hrange hexponent
  · exact read_positional_append hexponent
  · exact d.read_positional
  · exact d.read_scientific

end Decimal

/-! ## JSON numbers -/

/-- Whether a character can stand in a JSON number. -/
def isNumberChar (c : Char) : Bool :=
  c.isDigit || c == '+' || c == '-' || c == '.' || c == 'e'

theorem IsDigits.isNumberChar (h : IsDigits text) : ∀ c ∈ text, isNumberChar c = true := by
  intro c hc
  simp [Number.isNumberChar, h c hc]

namespace Decimal

theorem positional_isNumberChar (d : Decimal) : ∀ c ∈ d.positional, isNumberChar c = true := by
  cases d.positional_cases with
  | inl h =>
    obtain ⟨n, -, htext⟩ := h
    rw [htext]
    exact ((isDigits_toDigits _).append (isDigits_zeros n)).isNumberChar
  | inr h =>
    obtain ⟨-, whole, fraction, htext, -, hwhole, hfraction, -⟩ := h
    rw [htext, List.forall_mem_append, List.forall_mem_cons]
    exact ⟨hwhole.isNumberChar, rfl, hfraction.isNumberChar⟩

theorem scientific_isNumberChar (d : Decimal) : ∀ c ∈ d.scientific, isNumberChar c = true := by
  have hdigits := (isDigits_toDigits d.coefficient).isNumberChar
  rw [scientific]
  cases hcoefficient : Nat.toDigits 10 d.coefficient with
  | nil => simp
  | cons lead rest =>
    rw [hcoefficient, List.forall_mem_cons] at hdigits
    have hexponent := (isDigits_toDigits (rest.length + d.exponent).natAbs).isNumberChar
    dsimp only
    rw [List.cons_append, List.forall_mem_cons, List.forall_mem_append, List.forall_mem_cons,
      List.forall_mem_cons]
    refine ⟨hdigits.1, ?_, rfl, ?_, hexponent⟩
    · split_ifs
      · simp
      · exact List.forall_mem_cons.2 ⟨rfl, hdigits.2⟩
    · split_ifs
      · rfl
      · rfl

theorem literal_isNumberChar (d : Decimal) : ∀ c ∈ d.literal, isNumberChar c = true := by
  rw [literal]
  split_ifs
  · exact List.forall_mem_append.2 ⟨d.positional_isNumberChar, by simp [Number.isNumberChar]⟩
  · exact d.positional_isNumberChar
  · exact d.scientific_isNumberChar

theorem exists_digit_positional (d : Decimal) :
    ∃ c rest, d.positional = c :: rest ∧ c.isDigit = true := by
  cases d.positional_cases with
  | inl h =>
    obtain ⟨n, -, htext⟩ := h
    rw [htext]
    exact (isDigits_toDigits _).exists_digit_append Nat.toDigits_ne_nil _
  | inr h =>
    obtain ⟨-, whole, fraction, htext, hne, hwhole, -⟩ := h
    rw [htext]
    exact hwhole.exists_digit_append hne _

/-- A number without its sign starts with a digit. -/
theorem exists_digit_literal (d : Decimal) :
    ∃ c rest, d.literal = c :: rest ∧ c.isDigit = true := by
  obtain ⟨c, rest, htext, hc⟩ := d.exists_digit_positional
  rw [literal]
  split_ifs
  · exact ⟨c, rest ++ ['.', '0'], by rw [htext, List.cons_append], hc⟩
  · exact ⟨c, rest, htext, hc⟩
  · have hdigits := isDigits_toDigits d.coefficient
    rw [scientific]
    cases hcoefficient : Nat.toDigits 10 d.coefficient with
    | nil => exact absurd hcoefficient Nat.toDigits_ne_nil
    | cons lead rest =>
      rw [hcoefficient] at hdigits
      exact ⟨lead, _, rfl, hdigits lead List.mem_cons_self⟩

end Decimal

/-- A sign does not run into the number behind it. -/
theorem signText_append_inj {negative negative' : Bool} {text text' : List Char}
    (htext : text.head? ≠ some '-') (htext' : text'.head? ≠ some '-')
    (h : signText negative ++ text = signText negative' ++ text') :
    negative = negative' ∧ text = text' := by
  cases negative with
  | false =>
    cases negative' with
    | false => exact ⟨rfl, h⟩
    | true => exact absurd (congrArg List.head? h) htext
  | true =>
    cases negative' with
    | false => exact absurd (congrArg List.head? h).symm htext'
    | true => exact ⟨rfl, (List.cons.inj h).2⟩

/-- What starts with a digit has no sign of its own. -/
theorem head?_ne_sign (h : ∃ c rest, text = c :: rest ∧ c.isDigit = true) :
    text.head? ≠ some '-' := by
  obtain ⟨c, rest, rfl, hc⟩ := h
  rintro ⟨⟩
  cases hc

theorem literal?_eq_some {s : String} (h : literal? x = some s) :
    ∃ negative m q, unpack x = .finite negative m q ∧
      s.toList = signText negative ++ (shortest .even m q).literal := by
  unfold literal? at h
  split at h
  · rename_i negative m q hunpack
    cases h
    exact ⟨negative, m, q, hunpack, String.toList_ofList⟩
  · cases h

theorem exists_literal?_of_finite (h : finite x = true) : ∃ s, literal? x = some s := by
  obtain ⟨negative, m, q, hunpack⟩ := exists_unpack_of_finite h
  rw [literal?, hunpack]
  exact ⟨_, rfl⟩

theorem literal?_isNumberChar {s : String} (h : literal? x = some s) :
    ∀ c ∈ s.toList, isNumberChar c = true := by
  obtain ⟨negative, m, q, -, htext⟩ := literal?_eq_some h
  rw [htext, List.forall_mem_append]
  refine ⟨?_, Decimal.literal_isNumberChar _⟩
  cases negative with
  | false => simp [signText]
  | true => simp [signText, isNumberChar]

/-- A number starts with a digit or with the sign of a negative number. -/
theorem exists_head_literal? {s : String} (h : literal? x = some s) :
    ∃ c rest, s.toList = c :: rest ∧ (c.isDigit = true ∨ c = '-') := by
  obtain ⟨negative, m, q, -, htext⟩ := literal?_eq_some h
  obtain ⟨c, rest, hliteral, hc⟩ := (shortest .even m q).exists_digit_literal
  rw [htext, hliteral]
  cases negative with
  | false => exact ⟨c, rest, rfl, .inl hc⟩
  | true => exact ⟨'-', c :: rest, rfl, .inr rfl⟩

/-- **A finite double is determined by its JSON number.** -/
theorem literal?_injective {s : String} (hx : literal? x = some s) (hy : literal? y = some s) :
    x = y := by
  obtain ⟨negative, m, q, hunpack, htext⟩ := literal?_eq_some hx
  obtain ⟨negative', m', q', hunpack', htext'⟩ := literal?_eq_some hy
  have hhead (d : Decimal) := head?_ne_sign d.exists_digit_literal
  obtain ⟨rfl, hliteral⟩ := signText_append_inj (hhead _) (hhead _) (htext.symm.trans htext')
  -- Equal texts read as equal values, and no two doubles share the value they are written as.
  have hvalue : (shortest .even m q).value = (shortest .even m' q').value := by
    rw [← Decimal.read_literal, hliteral, Decimal.read_literal]
  obtain ⟨rfl, rfl⟩ :=
    eq_of_value_shortest (isLegal_of_unpack hunpack) (isLegal_of_unpack hunpack') hvalue
  exact unpack_injective (hunpack.trans hunpack'.symm)

end Atelier.Number
