import Mathlib.Data.Int.Log
import SotRwb1.Lib.Decimal

/-!
# Doubles

`nearestDouble` is what reading a numeral comes to: 53 binary places are kept, the
nearest value is taken, and on ties the one with an even last place.  The error is at
most one part in `2 ^ 53`, so a decimal with up to fifteen digits is found again by
rounding the double to its places.

## Main definitions

* `lastPlace` — the exponent of the last place of a double of a given size.
* `nearestDouble` — the double nearest to a number.
-/

namespace PyLib

/-- The exponent of the last place of a double of this size: there are 53 places, and
none below `2 ^ -1074`. -/
def lastPlace (x : ℚ) : ℤ := max (Int.log 2 |x|) (-1022) - 52

/-- The double nearest to a number that is in range, ties to even. -/
def nearestDouble (x : ℚ) : ℚ := roundHalfEven (x / 2 ^ lastPlace x) * 2 ^ lastPlace x

/-- The last place is worth at most one part in `2 ^ 52`, of the number or of the least
one that has all places. -/
theorem two_zpow_lastPlace_le {x : ℚ} (h : x ≠ 0) :
    (2 : ℚ) ^ lastPlace x ≤ max |x| (2 ^ (-1022 : ℤ)) / 2 ^ 52 := by
  rw [lastPlace, zpow_sub₀ (by norm_num : (2 : ℚ) ≠ 0)]
  refine div_le_div_of_nonneg_right ?_ (by positivity)
  rcases le_total (Int.log 2 |x|) (-1022) with hsmall | hnormal
  · rw [max_eq_right hsmall]
    exact le_max_right _ _
  · rw [max_eq_left hnormal]
    exact le_max_of_le_left (Int.zpow_log_le_self (by norm_num) (abs_pos.mpr h))

/-- **Error.**  The nearest double is off by at most half of that. -/
theorem abs_nearestDouble_sub_le (x : ℚ) :
    |nearestDouble x - x| ≤ max |x| (2 ^ (-1022 : ℤ)) / 2 ^ 53 := by
  by_cases hzero : x = 0
  · have hround : roundHalfEven (0 : ℚ) = 0 := by simpa using roundHalfEven_intCast 0
    rw [hzero, nearestDouble, zero_div, hround, Int.cast_zero, zero_mul, sub_zero, abs_zero]
    exact div_nonneg (le_max_of_le_left le_rfl) (by norm_num)
  · have hpos : (0 : ℚ) < 2 ^ lastPlace x := zpow_pos (by norm_num) _
    have hsplit : nearestDouble x - x =
        (roundHalfEven (x / 2 ^ lastPlace x) - x / 2 ^ lastPlace x) * 2 ^ lastPlace x := by
      rw [nearestDouble, sub_mul, div_mul_cancel₀ _ hpos.ne']
    have hhalf := (isNearestEven_roundHalfEven (x / 2 ^ lastPlace x)).1
    rw [abs_sub_comm] at hhalf
    calc |nearestDouble x - x|
        = |(roundHalfEven (x / 2 ^ lastPlace x) : ℚ) - x / 2 ^ lastPlace x| *
            2 ^ lastPlace x := by rw [hsplit, abs_mul, abs_of_pos hpos]
      _ ≤ 1 / 2 * 2 ^ lastPlace x := by gcongr
      _ ≤ 1 / 2 * (max |x| (2 ^ (-1022 : ℤ)) / 2 ^ 52) := by
          gcongr
          exact two_zpow_lastPlace_le hzero
      _ = max |x| (2 ^ (-1022 : ℤ)) / 2 ^ 53 := by ring

theorem abs_nearestDouble_sub_le_of_le {x b : ℚ} (hb : 1 ≤ b) (hx : |x| ≤ b) :
    |nearestDouble x - x| ≤ b / 2 ^ 53 := by
  have hleast : (2 : ℚ) ^ (-1022 : ℤ) ≤ 1 := zpow_le_one_of_nonpos₀ (by norm_num) (by norm_num)
  refine (abs_nearestDouble_sub_le x).trans ?_
  gcongr
  exact max_le hx (hleast.trans hb)

/-- The error in units of the last decimal place. -/
theorem abs_nearestDouble_mul_sub_le {n : ℤ} {places : ℕ} (hplaces : places ≤ 15) :
    |nearestDouble (n / 10 ^ places) * 10 ^ places - n| ≤ max |(n : ℚ)| 1 / 2 ^ 53 := by
  have hpow : (0 : ℚ) < 10 ^ places := by positivity
  have hleast : (10 : ℚ) ^ places * 2 ^ (-1022 : ℤ) ≤ 1 := by
    calc (10 : ℚ) ^ places * 2 ^ (-1022 : ℤ)
        ≤ 10 ^ 15 * 2 ^ (-52 : ℤ) := by
          gcongr <;> norm_num
      _ ≤ 1 := by norm_num
  calc |nearestDouble (n / 10 ^ places) * 10 ^ places - n|
      = |nearestDouble (n / 10 ^ places) - n / 10 ^ places| * 10 ^ places := by
        rw [← abs_of_pos hpow, ← abs_mul, sub_mul, abs_of_pos hpow, div_mul_cancel₀ _ hpow.ne']
    _ ≤ max |(n : ℚ) / 10 ^ places| (2 ^ (-1022 : ℤ)) / 2 ^ 53 * 10 ^ places := by
        gcongr
        exact abs_nearestDouble_sub_le _
    _ = max |(n : ℚ)| (10 ^ places * 2 ^ (-1022 : ℤ)) / 2 ^ 53 := by
        rw [div_mul_eq_mul_div, max_mul_of_nonneg _ _ hpow.le, abs_div, abs_of_pos hpow,
          div_mul_cancel₀ _ hpow.ne', mul_comm (2 ^ (-1022 : ℤ) : ℚ)]
    _ ≤ max |(n : ℚ)| 1 / 2 ^ 53 := by gcongr

/-- **Decimals.**  A decimal with up to fifteen digits is found again from its double. -/
theorem roundHalfEven_nearestDouble {n : ℤ} {places : ℕ} (hplaces : places ≤ 15)
    (h : |nearestDouble (n / 10 ^ places) * 10 ^ places| < 2 ^ 51) :
    roundHalfEven (nearestDouble (n / 10 ^ places) * 10 ^ places) = n := by
  have herror := abs_nearestDouble_mul_sub_le (n := n) hplaces
  have hsmall : max |(n : ℚ)| 1 < 2 ^ 52 := by
    have htriangle : |(n : ℚ)| ≤ |nearestDouble (n / 10 ^ places) * 10 ^ places| +
        |nearestDouble (n / 10 ^ places) * 10 ^ places - n| := by
      have hsum := abs_sub (nearestDouble (n / 10 ^ places) * 10 ^ places)
        (nearestDouble (n / 10 ^ places) * 10 ^ places - n)
      rwa [sub_sub_cancel] at hsum
    rcases max_cases |(n : ℚ)| 1 with ⟨hmax, -⟩ | ⟨hmax, -⟩
    · rw [hmax] at herror ⊢
      linarith
    · rw [hmax]
      norm_num
  have hhalf : |nearestDouble (n / 10 ^ places) * 10 ^ places - n| < 1 / 2 := by
    refine lt_of_le_of_lt herror ?_
    rw [div_lt_iff₀ (by positivity)]
    linarith
  exact IsNearestEven.roundHalfEven_eq ⟨hhalf.le, fun htie => absurd htie hhalf.ne⟩

end PyLib
