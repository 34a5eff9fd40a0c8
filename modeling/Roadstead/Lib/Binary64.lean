import Mathlib.Algebra.Order.Floor.Ring
import Mathlib.Data.Rat.Floor
import Mathlib.Algebra.Field.Rat
import Mathlib.Tactic.Linarith

/-!
# Rounding to binary64

A finite double is a rational number; the product of two of them is the exact
rational product rounded to the nearest representable one, ties to even.
`Binary64.nearest` is that rounding, for results below the overflow threshold
(there is no infinity and no NaN here), and `Binary64.mul` the rounded product.
-/

namespace Binary64

/-- `⌊log₂ |q|⌋`, for `q ≠ 0`.  The logarithms of numerator and denominator
locate it up to one. -/
def exponent (q : ℚ) : ℤ :=
  let e : ℤ := (q.num.natAbs.log2 : ℤ) - (q.den.log2 : ℤ)
  if (2 : ℚ) ^ e ≤ |q| then e else e - 1

/-- The distance between neighbouring doubles at the magnitude of `q`: 53
significant bits, and no exponent below that of the subnormals. -/
def ulp (q : ℚ) : ℚ := 2 ^ max (exponent q - 52) (-1074)

/-- The integer nearest to `q`, the even one of two. -/
def roundHalfEven (q : ℚ) : ℤ :=
  let f := ⌊q⌋
  let r := q - f
  if r < 1 / 2 then f
  else if 1 / 2 < r then f + 1
  else if f % 2 = 0 then f else f + 1

/-- The rounded integer is one of the two around `q`. -/
theorem roundHalfEven_mem (q : ℚ) : ⌊q⌋ ≤ roundHalfEven q ∧ roundHalfEven q ≤ ⌊q⌋ + 1 := by
  unfold roundHalfEven
  simp only
  split
  · omega
  · split
    · omega
    · split <;> omega

/-- No integer is nearer by more than a half. -/
theorem abs_roundHalfEven_sub_le (q : ℚ) : |(roundHalfEven q : ℚ) - q| ≤ 1 / 2 := by
  have below := Int.floor_le q
  have above := Int.lt_floor_add_one q
  rw [abs_le]
  unfold roundHalfEven
  simp only
  split
  · constructor <;> linarith
  · rename_i up
    rw [not_lt] at up
    split
    · push_cast
      constructor <;> linarith
    · rename_i down
      rw [not_lt] at down
      split
      · constructor <;> linarith
      · push_cast
        constructor <;> linarith

theorem roundHalfEven_intCast (n : ℤ) : roundHalfEven n = n := by
  unfold roundHalfEven
  simp

theorem roundHalfEven_mono {p q : ℚ} (h : p ≤ q) : roundHalfEven p ≤ roundHalfEven q := by
  rcases (Int.floor_mono h).lt_or_eq with apart | same
  · have := (roundHalfEven_mem p).2
    have := (roundHalfEven_mem q).1
    omega
  · have above := (roundHalfEven_mem p).2
    have below := (roundHalfEven_mem q).1
    by_cases down : p - ⌊p⌋ < 1 / 2
    · have : roundHalfEven p = ⌊p⌋ := if_pos down
      omega
    · by_cases up : 1 / 2 < q - ⌊q⌋
      · have : roundHalfEven q = ⌊q⌋ + 1 := by
          unfold roundHalfEven
          simp only
          rw [if_neg (not_lt.mpr up.le), if_pos up]
        omega
      · -- Both are halfway, so they are the same number.
        have fraction : p - ⌊p⌋ ≤ q - ⌊q⌋ := by
          rw [same]
          exact sub_le_sub_right h _
        have tie : p = q := by
          have : (⌊p⌋ : ℚ) = ⌊q⌋ := by rw [same]
          linarith [not_lt.mp down, not_lt.mp up]
        rw [tie]

/-- The double nearest to `q`. -/
def nearest (q : ℚ) : ℚ := if q = 0 then 0 else roundHalfEven (q / ulp q) * ulp q

/-- A power of two that is not above the magnitude of `q`. -/
theorem zpow_exponent_le {q : ℚ} (ne : q ≠ 0) : (2 : ℚ) ^ exponent q ≤ |q| := by
  unfold exponent
  simp only
  split
  · assumption
  · -- The numerator is at least the power of its logarithm, the denominator below the next one.
    have num : ((2 : ℚ) ^ q.num.natAbs.log2) ≤ q.num.natAbs := by
      exact_mod_cast Nat.log2_self_le (Int.natAbs_ne_zero.mpr (Rat.num_ne_zero.mpr ne))
    have den : (q.den : ℚ) ≤ 2 ^ (q.den.log2 + 1) := by exact_mod_cast Nat.lt_log2_self.le
    have pos : (0 : ℚ) < q.den := by exact_mod_cast q.den_pos
    have abs : |q| = q.num.natAbs / q.den := by
      conv_lhs => rw [← Rat.num_div_den q]
      rw [abs_div, abs_of_pos pos, Nat.cast_natAbs, Int.cast_abs]
    have apart : (q.num.natAbs.log2 : ℤ) - q.den.log2 - 1 = q.num.natAbs.log2 - ((q.den.log2 + 1 : ℕ) : ℤ) := by
      push_cast
      ring
    rw [abs, apart, zpow_sub₀ two_ne_zero, zpow_natCast, zpow_natCast]
    exact div_le_div₀ (Nat.cast_nonneg _) num pos den

/-- Below half of the least positive double there is none but zero. -/
theorem nearest_eq_zero {q : ℚ} (nonneg : 0 ≤ q) (tiny : q < 2 ^ (-1075 : ℤ)) : nearest q = 0 := by
  unfold nearest
  split
  · rfl
  · rename_i ne
    have small : exponent q < -1075 := by
      have below := (zpow_exponent_le ne).trans_lt (abs_of_nonneg nonneg ▸ tiny)
      exact (zpow_lt_zpow_iff_right₀ one_lt_two).mp below
    have least : ulp q = 2 ^ (-1074 : ℤ) := by
      rw [ulp, max_eq_right (by omega)]
    have pos : (0 : ℚ) < 2 ^ (-1074 : ℤ) := zpow_pos two_pos _
    have half : q / 2 ^ (-1074 : ℤ) < 1 / 2 := by
      rw [div_lt_iff₀ pos]
      refine tiny.trans_eq ?_
      rw [show (-1075 : ℤ) = -1 + -1074 from rfl, zpow_add₀ two_ne_zero, zpow_neg_one, one_div]
    have floor : ⌊q / 2 ^ (-1074 : ℤ)⌋ = 0 := by
      rw [Int.floor_eq_zero_iff]
      exact ⟨div_nonneg nonneg pos.le, half.trans one_half_lt_one⟩
    have round : roundHalfEven (q / 2 ^ (-1074 : ℤ)) = 0 := by
      rw [roundHalfEven, floor, Int.cast_zero, sub_zero]
      exact if_pos half
    rw [least, round, Int.cast_zero, zero_mul]

/-- The product of two doubles. -/
def mul (p q : ℚ) : ℚ := nearest (p * q)

/-- Conversion to an integer drops the fraction, towards zero. -/
def toInt (q : ℚ) : ℤ := q.num.tdiv q.den

end Binary64
