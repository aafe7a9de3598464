import OpenNpux.Lib.CInt
import OpenNpux.Lib.Nearest
import Mathlib.Tactic.Ring

/-!
# Fixed-point requantization

The gemmlowp arithmetic of the hybrid kernels: a saturating rounding doubling high
multiplication followed by a rounding right shift. The sign-dependent nudge before a
truncating division is a floor with half added, and the mask, remainder and threshold of
the right shift round to nearest with ties away from zero. No value computed on the way
leaves its C++ type, and for a multiplier that is not negative the result follows the order
of the values.
-/

namespace OpenNpux.Hybrid

open Lib

def int32Min : Int := -2 ^ 31

def int32Max : Int := 2 ^ 31 - 1

def saturatingRoundingDoublingHighMul (a b : Int) : Int :=
  if a = int32Min ∧ b = int32Min then int32Max
  else
    let product := i64 (a * b)
    let nudge : Int := if product ≥ 0 then 2 ^ 30 else 1 - 2 ^ 30
    i32 ((product + nudge).tdiv (2 ^ 31))

def roundingDivideByPowerOfTwo (value exponent : Int) : Int :=
  if exponent ≤ 0 then value
  else
    let mask : Int := 2 ^ exponent.toNat - 1
    let remainder := value % 2 ^ exponent.toNat
    let threshold := mask / 2 + if value < 0 then 1 else 0
    value / 2 ^ exponent.toNat + if remainder > threshold then 1 else 0

def saturate32 (value : Int) : Int := max int32Min (min int32Max value)

def multiplyByQuantizedMultiplier (value multiplier shift : Int) : Int :=
  let leftShift := max shift 0
  let rightShift := max (-shift) 0
  let shifted := i64 (value * 2 ^ leftShift.toNat)
  roundingDivideByPowerOfTwo
    (saturatingRoundingDoublingHighMul (saturate32 shifted) multiplier) rightShift

/-! ## Ranges -/

/-- The arithmetic types of the requantization. -/
inductive CType
  | int32
  | int64
  | uint32
  deriving DecidableEq, Repr

def CType.Holds : CType → Int → Prop
  | .int32, z => -2 ^ 31 ≤ z ∧ z < 2 ^ 31
  | .int64, z => -2 ^ 63 ≤ z ∧ z < 2 ^ 63
  | .uint32, z => 0 ≤ z ∧ z < 2 ^ 32

instance (type : CType) (z : Int) : Decidable (type.Holds z) := by
  cases type <;> exact inferInstanceAs (Decidable (_ ∧ _))

/-- The exact results of the operations of each function, with the type in which the
source computes them. -/
def highMulValues (a b : Int) : List (CType × Int) :=
  if a = int32Min ∧ b = int32Min then []
  else
    let product := a * b
    let nudge : Int := if product ≥ 0 then 2 ^ 30 else 1 - 2 ^ 30
    [(.int64, product), (.int64, nudge), (.int64, product + nudge),
      (.int64, (product + nudge).tdiv (2 ^ 31)), (.int32, (product + nudge).tdiv (2 ^ 31))]

def roundingDivideValues (value exponent : Int) : List (CType × Int) :=
  if exponent ≤ 0 then []
  else
    let mask : Int := 2 ^ exponent.toNat - 1
    let remainder := value % 2 ^ exponent.toNat
    let threshold := mask / 2 + if value < 0 then 1 else 0
    [(.uint32, 2 ^ exponent.toNat), (.uint32, mask), (.uint32, remainder), (.uint32, threshold),
      (.int32, value / 2 ^ exponent.toNat),
      (.int32, value / 2 ^ exponent.toNat + if remainder > threshold then 1 else 0)]

def requantizationValues (value multiplier shift : Int) : List (CType × Int) :=
  let leftShift := max shift 0
  let rightShift := max (-shift) 0
  let shifted := value * 2 ^ leftShift.toNat
  let bounded := saturate32 shifted
  [(.int32, -shift), (.int64, 2 ^ leftShift.toNat), (.int64, shifted), (.int32, bounded)] ++
    highMulValues bounded multiplier ++
    roundingDivideValues (saturatingRoundingDoublingHighMul bounded multiplier) rightShift

/-- The high half of the doubled product, half added before the floor. -/
def highProduct (s multiplier : Int) : Int :=
  if s = int32Min ∧ multiplier = int32Min then int32Max else (s * multiplier + 2 ^ 30) / 2 ^ 31

theorem saturate32_range (z : Int) : CType.int32.Holds (saturate32 z) := by
  simp only [CType.Holds, saturate32, int32Min, int32Max]
  omega

theorem saturate32_mono {y z : Int} (h : y ≤ z) : saturate32 y ≤ saturate32 z := by
  simp only [saturate32, int32Min, int32Max]
  omega

/-- Products of two `int32` values, the corner that saturates apart. -/
theorem product_range {a b : Int} (ha : CType.int32.Holds a) (hb : CType.int32.Holds b)
    (hCorner : ¬(a = int32Min ∧ b = int32Min)) :
    -2 ^ 62 ≤ a * b ∧ a * b ≤ 2 ^ 62 - 2 ^ 31 := by
  simp only [CType.Holds, int32Min] at ha hb hCorner
  rcases le_or_gt 0 a with hSign | hSign
  · constructor <;> nlinarith
  · rcases eq_or_ne a (-2 ^ 31) with rfl | hNe
    · have : b ≠ -2 ^ 31 := fun h => hCorner ⟨rfl, h⟩
      constructor <;> omega
    · constructor <;> nlinarith [lt_of_le_of_ne ha.1 (Ne.symm hNe)]

/-- Truncation towards zero after the nudge is the floor after adding half. -/
theorem tdiv_nudge (product : Int) :
    (product + if product ≥ 0 then 2 ^ 30 else 1 - 2 ^ 30).tdiv (2 ^ 31) =
      (product + 2 ^ 30) / 2 ^ 31 := by
  split
  · rw [Int.tdiv_eq_ediv_of_nonneg (by omega)]
  · rw [Int.tdiv_eq_ediv, show Int.sign (2 ^ 31) = 1 from rfl]
    omega

theorem highMul_eq_highProduct {a b : Int} (ha : CType.int32.Holds a)
    (hb : CType.int32.Holds b) : saturatingRoundingDoublingHighMul a b = highProduct a b := by
  unfold saturatingRoundingDoublingHighMul highProduct
  split
  · rfl
  · rename_i hCorner
    have hRange := product_range ha hb hCorner
    have hProduct : i64 (a * b) = a * b := i64_of_range (by omega) (by omega)
    simp only [hProduct, tdiv_nudge]
    exact i32_of_range (by omega) (by omega)

theorem highProduct_range {a b : Int} (ha : CType.int32.Holds a) (hb : CType.int32.Holds b) :
    CType.int32.Holds (highProduct a b) := by
  unfold highProduct
  split
  · simp only [CType.Holds, int32Max]
    omega
  · rename_i hCorner
    have hRange := product_range ha hb hCorner
    simp only [CType.Holds]
    omega

theorem highProduct_mono {s t b : Int} (hb : 0 ≤ b) (h : s ≤ t) :
    highProduct s b ≤ highProduct t b := by
  have hPositive : b ≠ int32Min := by
    unfold int32Min
    omega
  simp only [highProduct, hPositive, and_false, if_false]
  exact Int.ediv_le_ediv (by decide) (by nlinarith)

theorem highMulValues_hold {a b : Int} (ha : CType.int32.Holds a) (hb : CType.int32.Holds b) :
    ∀ v ∈ highMulValues a b, v.1.Holds v.2 := by
  unfold highMulValues
  split
  · simp
  · rename_i hCorner
    have hRange := product_range ha hb hCorner
    simp only [List.forall_mem_cons, List.not_mem_nil, false_implies, implies_true, and_true,
      tdiv_nudge, CType.Holds]
    split <;> omega

section Remainder

/-! A numerator `2 * half * q + r` over the denominator `2 * half`. -/

variable {half q r : Int}

theorem nearestAway_down (hHalf : 1 ≤ half) (hLow : 0 ≤ r) (hNear : r ≤ half)
    (hTie : r = half → q < 0) :
    NearestAway (((2 * half * q + r : Int) : ℚ) / (2 * half : Int)) q := by
  have hRest : 2 * half * q + r - q * (2 * half) = r := by ring
  apply nearestAway_div (by omega)
  · rw [hRest, abs_of_nonneg hLow]
    omega
  · intro hEven
    rw [hRest, abs_of_nonneg hLow] at hEven
    have hNegative := hTie (by omega)
    rw [abs_of_nonpos (by nlinarith), abs_of_neg hNegative]
    nlinarith

theorem nearestAway_up (hHalf : 1 ≤ half) (hNear : half ≤ r) (hHigh : r < 2 * half)
    (hTie : r = half → 0 ≤ q) :
    NearestAway (((2 * half * q + r : Int) : ℚ) / (2 * half : Int)) (q + 1) := by
  have hRest : 2 * half * q + r - (q + 1) * (2 * half) = r - 2 * half := by ring
  apply nearestAway_div (by omega)
  · rw [hRest, abs_of_nonpos (by omega)]
    omega
  · intro hEven
    rw [hRest, abs_of_nonpos (by omega)] at hEven
    have hNonneg := hTie (by omega)
    rw [abs_of_nonneg (by nlinarith), abs_of_nonneg (by omega)]
    nlinarith

/-- The remainder rounds up when it passes the threshold, which is one higher for a
negative numerator. -/
theorem nearestAway_of_remainder (hHalf : 1 ≤ half) (hLow : 0 ≤ r) (hHigh : r < 2 * half) :
    NearestAway (((2 * half * q + r : Int) : ℚ) / (2 * half : Int))
      (q + if r > (2 * half - 1) / 2 + (if 2 * half * q + r < 0 then 1 else 0) then 1 else 0) := by
  have hMiddle : (2 * half - 1) / 2 = half - 1 := by omega
  have hSign : 2 * half * q + r < 0 ↔ q < 0 := by
    constructor
    · intro h
      by_contra hNonneg
      nlinarith
    · intro h
      nlinarith
  rw [hMiddle]
  by_cases hNegative : q < 0
  · rw [if_pos (hSign.2 hNegative)]
    by_cases hPast : r > half - 1 + 1
    · rw [if_pos hPast]
      exact nearestAway_up hHalf (by omega) hHigh (by omega)
    · rw [if_neg hPast, add_zero]
      exact nearestAway_down hHalf hLow (by omega) fun _ => hNegative
  · rw [if_neg (hSign.not.2 hNegative), add_zero]
    by_cases hPast : r > half - 1
    · rw [if_pos hPast]
      exact nearestAway_up hHalf (by omega) hHigh fun _ => by omega
    · rw [if_neg hPast, add_zero]
      exact nearestAway_down hHalf hLow (by omega) (by omega)

end Remainder

theorem roundingDivide_nearestAway (value exponent : Int) :
    NearestAway ((value : ℚ) / 2 ^ exponent.toNat)
      (roundingDivideByPowerOfTwo value exponent) := by
  unfold roundingDivideByPowerOfTwo
  split
  · rename_i hZero
    rw [Int.toNat_of_nonpos hZero, pow_zero, div_one]
    exact nearestAway_intCast value
  · rename_i hPositive
    obtain ⟨k, hk⟩ := Nat.exists_eq_add_of_le' (show 1 ≤ exponent.toNat by omega)
    have hEven : (2 : Int) ^ exponent.toNat = 2 * 2 ^ k := by rw [hk, pow_succ']
    have hHalf : (1 : Int) ≤ 2 ^ k := one_le_pow₀ (by decide)
    have hSplit := Int.mul_ediv_add_emod value (2 * 2 ^ k)
    have hNearest := nearestAway_of_remainder (q := value / (2 * 2 ^ k)) hHalf
      (Int.emod_nonneg value (by omega)) (Int.emod_lt_of_pos value (by omega))
    rw [hSplit] at hNearest
    rw [show (2 : ℚ) ^ exponent.toNat = ((2 * 2 ^ k : Int) : ℚ) by rw [← hEven]; push_cast; rfl]
    simpa only [hEven] using hNearest

theorem roundingDivideValues_hold {value exponent : Int} (hValue : CType.int32.Holds value)
    (hExponent : exponent ≤ 31) : ∀ v ∈ roundingDivideValues value exponent, v.1.Holds v.2 := by
  unfold roundingDivideValues
  split
  · simp
  · rename_i hPositive
    obtain ⟨k, hk⟩ := Nat.exists_eq_add_of_le' (show 1 ≤ exponent.toNat by omega)
    have hEven : (2 : Int) ^ exponent.toNat = 2 * 2 ^ k := by rw [hk, pow_succ']
    have hHalf : (1 : Int) ≤ 2 ^ k := one_le_pow₀ (by decide)
    have hBound : (2 : Int) ^ k ≤ 2 ^ 30 := pow_le_pow_right₀ (by decide) (by omega)
    have hLow := Int.emod_nonneg value (show (2 * 2 ^ k : Int) ≠ 0 by omega)
    have hHigh := Int.emod_lt_of_pos value (show (0 : Int) < 2 * 2 ^ k by omega)
    simp only [List.forall_mem_cons, List.not_mem_nil, false_implies, implies_true, and_true,
      CType.Holds, hEven] at hValue ⊢
    have hQuotientLow : -2 ^ 30 ≤ value / (2 * 2 ^ k) := by
      rw [Int.le_ediv_iff_mul_le (by omega)]
      nlinarith
    have hQuotientHigh : value / (2 * 2 ^ k) < 2 ^ 30 := by
      rw [Int.ediv_lt_iff_lt_mul (by omega)]
      nlinarith
    have hMiddle : (2 * 2 ^ k - 1 : Int) / 2 = 2 ^ k - 1 := by omega
    rw [hMiddle]
    generalize (2 : Int) ^ k = half at *
    split <;> split <;> omega

theorem shifted_range {value shift : Int} (hValue : CType.int32.Holds value)
    (hShift : shift ≤ 30) :
    CType.int64.Holds (2 ^ (max shift 0).toNat) ∧
      CType.int64.Holds (value * 2 ^ (max shift 0).toNat) := by
  have hPositive : (1 : Int) ≤ 2 ^ (max shift 0).toNat := one_le_pow₀ (by decide)
  have hBound : (2 : Int) ^ (max shift 0).toNat ≤ 2 ^ 30 :=
    pow_le_pow_right₀ (by decide) (by omega)
  simp only [CType.Holds] at hValue ⊢
  refine ⟨by omega, ?_, ?_⟩ <;> nlinarith

theorem multiply_nearestAway {value multiplier shift : Int}
    (hValue : CType.int32.Holds value) (hMultiplier : CType.int32.Holds multiplier)
    (hShift : -31 ≤ shift ∧ shift ≤ 30) :
    NearestAway
      ((highProduct (saturate32 (value * 2 ^ (max shift 0).toNat)) multiplier : ℚ) /
        2 ^ (max (-shift) 0).toNat)
      (multiplyByQuantizedMultiplier value multiplier shift) := by
  have hShifted := (shifted_range hValue hShift.2).2
  unfold multiplyByQuantizedMultiplier
  dsimp only
  rw [i64_of_range hShifted.1 hShifted.2,
    highMul_eq_highProduct (saturate32_range _) hMultiplier]
  exact roundingDivide_nearestAway _ _

theorem requantizationValues_hold {value multiplier shift : Int}
    (hValue : CType.int32.Holds value) (hMultiplier : CType.int32.Holds multiplier)
    (hShift : -31 ≤ shift ∧ shift ≤ 30) :
    ∀ v ∈ requantizationValues value multiplier shift, v.1.Holds v.2 := by
  have hBounded := saturate32_range (value * 2 ^ (max shift 0).toNat)
  obtain ⟨hPower, hShifted⟩ := shifted_range hValue hShift.2
  unfold requantizationValues
  dsimp only
  intro v hv
  rcases List.mem_append.1 hv with hv | hDivide
  · rcases List.mem_append.1 hv with hFirst | hHigh
    · simp only [List.mem_cons, List.not_mem_nil, or_false] at hFirst
      rcases hFirst with rfl | rfl | rfl | rfl
      · simp only [CType.Holds]
        omega
      · exact hPower
      · exact hShifted
      · exact hBounded
    · exact highMulValues_hold hBounded hMultiplier v hHigh
  · rw [highMul_eq_highProduct hBounded hMultiplier] at hDivide
    exact roundingDivideValues_hold (highProduct_range hBounded hMultiplier) (by omega) v hDivide

/-- The result is correctly rounded, every value on the way fits its type, and the result
follows the order of the values. -/
theorem multiplyByQuantizedMultiplier_correct {value multiplier shift : Int}
    (hValue : CType.int32.Holds value) (hMultiplier : CType.int32.Holds multiplier)
    (hShift : -31 ≤ shift ∧ shift ≤ 30) :
    NearestAway
        ((highProduct (saturate32 (value * 2 ^ (max shift 0).toNat)) multiplier : ℚ) /
          2 ^ (max (-shift) 0).toNat)
        (multiplyByQuantizedMultiplier value multiplier shift) ∧
      (∀ v ∈ requantizationValues value multiplier shift, v.1.Holds v.2) ∧
      (0 ≤ multiplier → ∀ value', CType.int32.Holds value' → value ≤ value' →
        multiplyByQuantizedMultiplier value multiplier shift ≤
          multiplyByQuantizedMultiplier value' multiplier shift) := by
  refine ⟨multiply_nearestAway hValue hMultiplier hShift,
    requantizationValues_hold hValue hMultiplier hShift, ?_⟩
  intro hNonneg value' hValue' hLe
  apply (multiply_nearestAway hValue hMultiplier hShift).mono
    (multiply_nearestAway hValue' hMultiplier hShift)
  have hShifted : value * 2 ^ (max shift 0).toNat ≤ value' * 2 ^ (max shift 0).toNat :=
    mul_le_mul_of_nonneg_right hLe (by positivity)
  have hProduct := highProduct_mono hNonneg (saturate32_mono hShifted)
  gcongr

theorem multiplyByQuantizedMultiplier_correct_tie :
    multiplyByQuantizedMultiplier (-3) (2 ^ 30) (-1) = -1 ∧
      NearestAway ((highProduct (saturate32 (-3 * 2 ^ (max (-1 : Int) 0).toNat)) (2 ^ 30) : ℚ) /
        2 ^ (max (- -1 : Int) 0).toNat) (multiplyByQuantizedMultiplier (-3) (2 ^ 30) (-1)) :=
  ⟨by decide, (multiplyByQuantizedMultiplier_correct (by decide) (by decide) (by decide)).1⟩

end OpenNpux.Hybrid
