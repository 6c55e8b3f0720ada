import Atelier.Number.Shortest
import Atelier.Proofs.Number.Unpacked
import Mathlib.Tactic.Linarith
import Mathlib.Tactic.Ring
import Mathlib.Data.Rat.Cast.Order

/-!
# Which double a decimal reads back as

The decimals that read back as a double form an interval around its value. Two doubles of one sign
never share such a decimal (`ReadBack.eq_of_covers`): their intervals touch at most in one point,
half way between the two, and of two neighbours only the even one takes it.

The shortest decimal of a double is in the interval of the double (`covers_shortest`), so no two
doubles have the same one.
-/

namespace Atelier.Number

variable {m m' : Nat} {q q' : Int} {d : Decimal} {r : ReadBack} {v : ℚ} {tie : Tie}

/-- The number that a decimal stands for. -/
def Decimal.value (d : Decimal) : ℚ :=
  d.coefficient * 10 ^ d.exponent

namespace ReadBack

/-- Whether a number reads back as the double. -/
def Covers (r : ReadBack) (v : ℚ) : Prop :=
  if r.closed then r.low * 2 ^ r.scale ≤ v ∧ v ≤ r.high * 2 ^ r.scale
  else r.low * 2 ^ r.scale < v ∧ v < r.high * 2 ^ r.scale

/-! ## Scaling -/

theorem zpow_eq_toNat {b : ℚ} (hb : b ≠ 0) (e : Int) :
    b ^ e * b ^ (-e).toNat = b ^ e.toNat := by
  rw [← zpow_natCast, ← zpow_natCast, ← zpow_add₀ hb]
  congr 1
  omega

theorem step_pos (r : ReadBack) (e : Int) : 0 < r.step e := by
  simp [step]

/-- `unit` and `step` are `2^scale` and `10^exponent`, both scaled alike. -/
theorem unit_mul (r : ReadBack) (e : Int) :
    (r.unit e : ℚ) * 10 ^ e = r.step e * 2 ^ r.scale := by
  have htwo := zpow_eq_toNat two_ne_zero r.scale
  have hten := zpow_eq_toNat (b := 10) (by norm_num) e
  simp only [unit, step, Nat.pow_eq, Nat.cast_mul, Nat.cast_pow, Nat.cast_ofNat]
  rw [← htwo, ← hten]
  ring

/-- Comparing multiples of `unit` and `step` is comparing multiples of `2^scale` and
`10^exponent`. -/
theorem scaled_le_iff (r : ReadBack) (e : Int) (a c : Nat) :
    (a * r.unit e ≤ c * r.step e ↔ a * (2 : ℚ) ^ r.scale ≤ c * 10 ^ e) ∧
      (c * r.step e ≤ a * r.unit e ↔ c * (10 : ℚ) ^ e ≤ a * 2 ^ r.scale) := by
  have hstep : (0 : ℚ) < r.step e := by exact_mod_cast r.step_pos e
  have hten : (0 : ℚ) < 10 ^ e := zpow_pos (by norm_num) e
  have hunit : (a * r.unit e : ℚ) * 10 ^ e = r.step e * (a * 2 ^ r.scale) := by
    rw [mul_assoc, r.unit_mul]
    ring
  have hpoint : (c * r.step e : ℚ) * 10 ^ e = r.step e * (c * 10 ^ e) := by ring
  constructor
  · rw [← Nat.cast_le (α := ℚ), ← mul_le_mul_iff_left₀ hten, Nat.cast_mul, Nat.cast_mul, hunit,
      hpoint, mul_le_mul_iff_right₀ hstep]
  · rw [← Nat.cast_le (α := ℚ), ← mul_le_mul_iff_left₀ hten, Nat.cast_mul, Nat.cast_mul, hunit,
      hpoint, mul_le_mul_iff_right₀ hstep]

/-- A decimal reads back as the double when its value does. -/
theorem holds_iff : r.holds d = true ↔ r.Covers d.value := by
  obtain ⟨hlow, hlow'⟩ := r.scaled_le_iff d.exponent r.low d.coefficient
  obtain ⟨hhigh', hhigh⟩ := r.scaled_le_iff d.exponent r.high d.coefficient
  rw [holds, Covers, Decimal.value]
  cases r.closed with
  | true => simp [hlow, hhigh]
  | false => simp [← not_le, hlow', hhigh']

/-! ## Intervals of different doubles -/

theorem Covers.le (h : r.Covers v) : r.low * 2 ^ r.scale ≤ v ∧ v ≤ r.high * 2 ^ r.scale := by
  rw [Covers] at h
  split at h
  · exact h
  · exact ⟨h.1.le, h.2.le⟩

theorem Covers.lt (h : r.Covers v) (hopen : r.closed = false) :
    r.low * 2 ^ r.scale < v ∧ v < r.high * 2 ^ r.scale := by
  simpa [Covers, hopen] using h

/-- The lower end of an interval, which is nearer below a power of two. -/
theorem low_around (m : Nat) (q : Int) :
    4 * m - 2 ≤ (around m q).low ∧
      (m = 2 ^ 52 ∧ -1074 < q → (around m q).low = 4 * m - 1) := by
  rw [around]
  dsimp only
  split_ifs with hpower
  · exact ⟨by omega, fun _ => rfl⟩
  · exact ⟨le_rfl, fun h => absurd h hpower⟩

theorem closed_around_of_odd (q : Int) (hodd : m % 2 = 1) : (around m q).closed = false := by
  simp [around, hodd]

variable {w : ℚ}

/-- The bounds of an interval in quarters of the last place of its double. -/
theorem Covers.bounds (h : (around m q).Covers (w * 2 ^ (q - 2))) :
    (around m q).low ≤ w ∧ w ≤ 4 * m + 2 ∧ (m % 2 = 1 → (around m q).low < w ∧ w < 4 * m + 2) := by
  have hpos := zpow_pos (two_pos (α := ℚ)) (q - 2)
  have hscale : (around m q).scale = q - 2 := rfl
  have hhigh : ((around m q).high : ℚ) = 4 * m + 2 := by simp [around]
  have hle := h.le
  rw [hscale, hhigh, mul_le_mul_iff_left₀ hpos, mul_le_mul_iff_left₀ hpos] at hle
  refine ⟨hle.1, hle.2, fun hodd => ?_⟩
  have hlt := h.lt (closed_around_of_odd q hodd)
  rwa [hscale, hhigh, mul_lt_mul_iff_left₀ hpos, mul_lt_mul_iff_left₀ hpos] at hlt

theorem exists_eq_mul (v : ℚ) (e : Int) : ∃ w, v = w * 2 ^ e :=
  ⟨v / 2 ^ e, (div_mul_cancel₀ v (zpow_ne_zero e two_ne_zero)).symm⟩

/-- With one exponent, the intervals of neighbours touch half way, where only the even one has its
end. -/
theorem not_covers_of_lt (hlt : m < m') (h : (around m q).Covers v)
    (h' : (around m' q).Covers v) : False := by
  obtain ⟨w, rfl⟩ := exists_eq_mul v (q - 2)
  obtain ⟨-, hhigh, hodd⟩ := h.bounds
  obtain ⟨hlow, -, hodd'⟩ := h'.bounds
  have hnat := (low_around m' q).1
  by_cases hnext : m' = m + 1
  · have hbelow : 4 * (m : ℚ) + 2 ≤ (around m' q).low := by
      exact_mod_cast (by omega : 4 * m + 2 ≤ (around m' q).low)
    cases Nat.mod_two_eq_zero_or_one m with
    | inl heven => linarith [(hodd' (by omega)).1]
    | inr hodd₁ => linarith [(hodd hodd₁).2]
  · have hbelow : 4 * (m : ℚ) + 6 ≤ (around m' q).low := by
      exact_mod_cast (by omega : 4 * m + 6 ≤ (around m' q).low)
    linarith

/-- With a smaller exponent, the greatest mantissa comes nearest. It is odd, so its interval does
not have its end. -/
theorem not_covers_of_exponent_lt (hm : IsLegal m q) (hm' : IsLegal m' q') (hlt : q < q')
    (h : (around m q).Covers v) (h' : (around m' q').Covers v) : False := by
  obtain ⟨w, rfl⟩ := exists_eq_mul v (q' - 2)
  obtain ⟨k, hk⟩ : ∃ k : Nat, q' - 2 = (q - 2) + ((k + 1 : Nat) : Int) :=
    ⟨(q' - q - 1).toNat, by omega⟩
  obtain ⟨hlow, -, -⟩ := h'.bounds
  rw [hk, zpow_add₀ two_ne_zero, zpow_natCast, mul_comm (2 ^ (q - 2)), ← mul_assoc] at h
  obtain ⟨-, hhigh, hodd⟩ := h.bounds
  have hbelow : (2 : ℚ) ^ 54 ≤ w + 1 := by
    have hnat : 2 ^ 54 ≤ (around m' q').low + 1 := by
      have hends := low_around m' q'
      unfold IsLegal at hm hm'
      omega
    have hcast : (2 : ℚ) ^ 54 ≤ (around m' q').low + 1 := by exact_mod_cast hnat
    linarith
  have htwice : 2 * w ≤ w * 2 ^ (k + 1) := by
    have hone : (1 : ℚ) ≤ 2 ^ k := one_le_pow₀ one_le_two
    have hw : 0 ≤ w := by linarith
    have hmul := mul_le_mul_of_nonneg_left hone hw
    rw [pow_succ]
    linarith
  have hbound : m + 1 ≤ 2 ^ 53 := by
    unfold IsLegal at hm
    omega
  by_cases htop : m + 1 = 2 ^ 53
  · have hcast : (m : ℚ) + 1 = 2 ^ 53 := by exact_mod_cast htop
    linarith [(hodd (by omega)).2]
  · have hcast : (m : ℚ) + 2 ≤ 2 ^ 53 := by exact_mod_cast (by omega : m + 2 ≤ 2 ^ 53)
    linarith

/-- **No number reads back as two doubles.** -/
theorem eq_of_covers (hm : IsLegal m q) (hm' : IsLegal m' q') (h : (around m q).Covers v)
    (h' : (around m' q').Covers v) : m = m' ∧ q = q' := by
  have hq : q = q' := by
    rcases lt_trichotomy q q' with hlt | heq | hgt
    · exact (not_covers_of_exponent_lt hm hm' hlt h h').elim
    · exact heq
    · exact (not_covers_of_exponent_lt hm' hm hgt h' h).elim
  subst hq
  rcases lt_trichotomy m m' with hlt | heq | hgt
  · exact (not_covers_of_lt hlt h h').elim
  · exact ⟨heq, rfl⟩
  · exact (not_covers_of_lt hgt h' h).elim

/-! ## The shortest decimal -/

theorem holds_of_nearest? {e : Int} (h : r.nearest? tie e = some d) : r.holds d = true := by
  unfold nearest? at h
  dsimp only at h
  -- Only the two neighbours are ever taken, each where it was seen to read back.
  split at h
  · cases h
  · cases h
    assumption
  · cases h
    assumption
  · cases tie with
    | up =>
      split_ifs at h
      all_goals
        cases h
        assumption
    | even =>
      split_ifs at h
      all_goals
        cases h
        assumption

/-- The value of a double reads back as it. -/
theorem covers_self (hm : m ≠ 0) (q : Int) : (around m q).Covers (m * 2 ^ q) := by
  have hpos := zpow_pos (two_pos (α := ℚ)) (q - 2)
  have hvalue : (m : ℚ) * 2 ^ q = (4 * m : Nat) * 2 ^ (q - 2) := by
    rw [zpow_sub₀ two_ne_zero]
    push_cast
    ring
  have hlow : (around m q).low < 4 * m := by
    rw [around]
    dsimp only
    split_ifs
    · omega
    · omega
  have hinside : (around m q).low * (2 : ℚ) ^ (q - 2) < m * 2 ^ q ∧
      m * 2 ^ q < (around m q).high * (2 : ℚ) ^ (q - 2) := by
    rw [hvalue, mul_lt_mul_iff_left₀ hpos, mul_lt_mul_iff_left₀ hpos, Nat.cast_lt, Nat.cast_lt]
    exact ⟨hlow, Nat.lt_add_of_pos_right two_pos⟩
  rw [Covers]
  split
  · exact ⟨hinside.1.le, hinside.2.le⟩
  · exact hinside

end ReadBack

namespace Decimal

theorem value_trim (d : Decimal) : d.trim.value = d.value := by
  fun_induction trim d with
  | case1 d h ih =>
    have hcoefficient : (d.coefficient : ℚ) = (d.coefficient / 10 : Nat) * 10 := by
      exact_mod_cast (by omega : d.coefficient = d.coefficient / 10 * 10)
    rw [ih, value, value, hcoefficient, zpow_add_one₀ (by norm_num)]
    ring
  | case2 d h => rfl

theorem value_exactly (m : Nat) (q : Int) : (exactly m q).value = m * 2 ^ q := by
  obtain ⟨n, rfl | rfl⟩ := q.eq_nat_or_neg
  · simp [exactly, value]
  · have hten : (10 : ℚ) ^ n = 5 ^ n * 2 ^ n := by
      rw [← mul_pow]
      norm_num
    have hcancel : (5 : ℚ) ^ n * (10 ^ n)⁻¹ = (2 ^ n)⁻¹ := by
      rw [hten, mul_inv, mul_inv_cancel_left₀ (pow_ne_zero n (by norm_num))]
    simp [exactly, value, mul_assoc, hcancel]

end Decimal

/-- **The shortest decimal of a double reads back as it.** -/
theorem covers_shortest (tie : Tie) (hm : m ≠ 0) (q : Int) :
    (ReadBack.around m q).Covers (shortest tie m q).value := by
  rw [shortest, if_neg hm]
  dsimp only
  rw [Decimal.value_trim]
  cases hgrid : (List.findSome? ((ReadBack.around m q).nearest? tie) _) with
  | none =>
    rw [Option.getD_none, Decimal.value_exactly]
    exact ReadBack.covers_self hm q
  | some d =>
    obtain ⟨e, -, he⟩ := List.exists_of_findSome?_eq_some hgrid
    exact ReadBack.holds_iff.1 (ReadBack.holds_of_nearest? he)

theorem value_shortest_pos (tie : Tie) (hm : m ≠ 0) (q : Int) :
    0 < (shortest tie m q).value := by
  have hlow : 0 < (ReadBack.around m q).low := by
    have hends := (ReadBack.low_around m q).1
    omega
  have hpos : (0 : ℚ) < (ReadBack.around m q).low * 2 ^ (ReadBack.around m q).scale :=
    mul_pos (by exact_mod_cast hlow) (zpow_pos two_pos _)
  exact hpos.trans_le (covers_shortest tie hm q).le.1

/-- **No two doubles of one sign have shortest decimals of one value.** -/
theorem eq_of_value_shortest (hm : IsLegal m q) (hm' : IsLegal m' q')
    (h : (shortest tie m q).value = (shortest tie m' q').value) : m = m' ∧ q = q' := by
  have hzero : (shortest tie 0 q).value = 0 ∧ (shortest tie 0 q').value = 0 := by
    simp [shortest, Decimal.value]
  by_cases hm₀ : m = 0
  · by_cases hm₀' : m' = 0
    · unfold IsLegal at hm hm'
      omega
    · subst hm₀
      have hpos := value_shortest_pos tie hm₀' q'
      rw [← h, hzero.1] at hpos
      exact absurd hpos (lt_irrefl 0)
  · by_cases hm₀' : m' = 0
    · subst hm₀'
      have hpos := value_shortest_pos tie hm₀ q
      rw [h, hzero.2] at hpos
      exact absurd hpos (lt_irrefl 0)
    · have hcovers := covers_shortest tie hm₀ q
      rw [h] at hcovers
      exact ReadBack.eq_of_covers hm hm' hcovers (covers_shortest tie hm₀' q')

end Atelier.Number
