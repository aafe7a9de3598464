import Mathlib.Algebra.Order.Field.Rat
import Mathlib.Algebra.Order.Round
import Mathlib.Tactic.Linarith

/-!
# Rounding to nearest, ties away from zero

The rounding is given as a relation between a rational number and an integer. It has at
most one answer for each number, and the answers follow the order of the numbers.
-/

namespace OpenNpux.Lib

def NearestAway (q : ℚ) (n : ℤ) : Prop :=
  |q - n| ≤ 1 / 2 ∧ (|q - n| = 1 / 2 → |q| ≤ |(n : ℚ)|)

theorem NearestAway.mono {q r : ℚ} {m n : ℤ} (hq : NearestAway q m) (hr : NearestAway r n)
    (h : q ≤ r) : m ≤ n := by
  by_contra hLess
  have hStep : (n : ℚ) + 1 ≤ m := by exact_mod_cast (by omega : n + 1 ≤ m)
  obtain ⟨hqNear, hqTie⟩ := hq
  obtain ⟨hrNear, hrTie⟩ := hr
  have hqLow := (abs_le.1 hqNear).1
  have hrHigh := (abs_le.1 hrNear).2
  -- Neighbouring answers in the wrong order leave only a common tie between them.
  have hqEq : q = n + 1 / 2 := by linarith
  have hrEq : r = n + 1 / 2 := by linarith
  have hmEq : (m : ℚ) = n + 1 := by linarith
  have hqAway := hqTie (by rw [hqEq, hmEq]; norm_num)
  have hrAway := hrTie (by rw [hrEq]; norm_num)
  rw [hqEq, hmEq] at hqAway
  rw [hrEq] at hrAway
  rcases lt_or_ge n 0 with hSign | hSign
  · have hNeg : (n : ℚ) + 1 ≤ 0 := by exact_mod_cast hSign
    rw [abs_of_neg (by linarith), abs_of_nonpos hNeg] at hqAway
    linarith
  · have hNonneg : (0 : ℚ) ≤ n := by exact_mod_cast hSign
    rw [abs_of_pos (by linarith), abs_of_nonneg hNonneg] at hrAway
    linarith

theorem nearestAway_intCast (n : ℤ) : NearestAway n n := by
  constructor
  · norm_num
  · intro _
    exact le_rfl

/-- Over a common denominator the distances are those of the numerators. -/
theorem nearestAway_div {v d n : ℤ} (hd : 0 < d) (hNear : 2 * |v - n * d| ≤ d)
    (hTie : 2 * |v - n * d| = d → |v| ≤ |n| * d) : NearestAway ((v : ℚ) / d) n := by
  have hdPos : (0 : ℚ) < d := by exact_mod_cast hd
  have hDistance : |(v : ℚ) / d - n| = |v - n * d| / d := by
    rw [show (v : ℚ) / d - n = (v - n * d) / d by field_simp, abs_div, abs_of_pos hdPos]
    push_cast
    rfl
  constructor
  · rw [hDistance, div_le_iff₀ hdPos]
    have : (2 : ℚ) * (|v - n * d| : ℤ) ≤ d := by exact_mod_cast hNear
    linarith
  · intro hHalf
    rw [hDistance, div_eq_iff hdPos.ne'] at hHalf
    have hEven : 2 * |v - n * d| = d := by
      have : (2 : ℚ) * (|v - n * d| : ℤ) = d := by linarith
      exact_mod_cast this
    rw [abs_div, abs_of_pos hdPos, div_le_iff₀ hdPos]
    exact_mod_cast hTie hEven

end OpenNpux.Lib
