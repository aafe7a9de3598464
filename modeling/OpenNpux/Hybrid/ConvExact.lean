import OpenNpux.Hybrid.ConvValue
import OpenNpux.Hybrid.Rounding

/-!
# The convolution over exact integers

The reference takes every sum, product and coordinate over the integers. The 64-bit
accumulator and the wrapped tap coordinates agree with it, and so does the
requantization. The last addition, of the output zero point, is made in 32 bits: where
it overflows the kernel clamps to the other end of the activation range.
-/

namespace OpenNpux.Hybrid

open Lib Finset

/-! ## The reference -/

/-- The input coordinate of a tap over the integers. -/
def exactTap (out stride tap padding size : Nat) : Option Nat :=
  let z : Int := out * stride + tap - padding
  if 0 ≤ z ∧ z < size then some z.toNat else none

/-- The term of a tap for an output value, of either kernel. -/
def convTerm (depthwise : Bool) (base : Nat) (d : OperatorDescriptor) (m : ByteMem)
    (k : Nat × Nat × Nat × Nat) : Nat → Nat → Nat → Nat → Int :=
  if depthwise then depthwiseTerm base d m k.1 k.2.2.2
    (k.2.2.2 / ((d.tensors 3).dimensions 3 / (d.tensors 0).dimensions 3))
  else conv2DTerm base d m k.1 k.2.2.2

/-- The sum over the taps with coordinates over the integers. -/
def exactTapSum (d : OperatorDescriptor) (outY outX : Nat)
    (term : Nat → Nat → Nat → Nat → Int) : Int :=
  ∑ filterY ∈ range ((d.tensors 1).dimensions 1), ∑ filterX ∈ range ((d.tensors 1).dimensions 2),
    (exactTap outY d.strideHeight filterY d.paddingHeight ((d.tensors 0).dimensions 1)).elim 0
      fun inY => (exactTap outX d.strideWidth filterX d.paddingWidth
        ((d.tensors 0).dimensions 2)).elim 0 fun inX => term filterY filterX inY inX

section Reference

variable (depthwise : Bool) (base : Nat) (d : OperatorDescriptor) (m : ByteMem)
  (k : Nat × Nat × Nat × Nat)

def exactAccumulator : Int :=
  int32At m (tensorData base (d.tensors 2) + k.2.2.2 * 4) +
    exactTapSum d k.2.1 k.2.2.1 (convTerm depthwise base d m k)

/-- The requantization without a fixed width. -/
def exactMultiply (value multiplier shift : Int) : Int :=
  roundingDivideByPowerOfTwo (highProduct (saturate32 (value * 2 ^ (max shift 0).toNat)) multiplier)
    (max (-shift) 0)

/-- The requantized accumulator plus the output zero point. -/
def exactScaled : Int :=
  exactMultiply (saturate32 (exactAccumulator depthwise base d m k))
    (int32At m (d.multiplierAddress - base + k.2.2.2 * 4))
    (int32At m (d.shiftAddress - base + k.2.2.2 * 4)) + d.outputZeroPoint

def exactValue : Int := clampActivation d (exactScaled depthwise base d m k)

end Reference

/-! ## Coordinates -/

/-- The coordinates and paddings of a convolution are below `2 ^ 31`. -/
structure TapsBelow (d : OperatorDescriptor) : Prop where
  rows : ∀ outY < (d.tensors 3).dimensions 1, ∀ filterY < (d.tensors 1).dimensions 1,
    outY * d.strideHeight + filterY < 2 ^ 31
  columns : ∀ outX < (d.tensors 3).dimensions 2, ∀ filterX < (d.tensors 1).dimensions 2,
    outX * d.strideWidth + filterX < 2 ^ 31
  paddingHeight : d.paddingHeight < 2 ^ 31
  paddingWidth : d.paddingWidth < 2 ^ 31

theorem i32_u32 (z : Int) : i32 (u32 z) = i32 z := by
  have hWord : (u32 z : Int) = z % 2 ^ 32 := by
    unfold u32
    omega
  unfold i32
  rw [hWord]
  exact @Int.emod_bmod z (2 ^ 32)

theorem tapIndex_eq_exactTap {out stride tap padding size : Nat}
    (hTap : out * stride + tap < 2 ^ 31) (hPadding : padding < 2 ^ 31) (hSize : size < 2 ^ 31) :
    tapIndex out stride tap padding size = exactTap out stride tap padding size := by
  have hTap : (out * stride + tap : Int) < 2 ^ 31 := by exact_mod_cast hTap
  have hPositive : (0 : Int) ≤ out * stride + tap := by positivity
  have hCoordinate : tapCoordinate out stride tap padding = out * stride + tap - padding := by
    rw [tapCoordinate, i32_u32, i32_of_range (by omega) (by omega)]
  have hSigned : i32 size = size := i32_of_range (by omega) (by omega)
  rw [tapIndex, exactTap, hCoordinate, hSigned]
  by_cases hOutside : (out * stride + tap - padding : Int) < 0 ∨
      (out * stride + tap - padding : Int) ≥ size
  · rw [if_pos hOutside, if_neg (by omega)]
  · rw [if_neg hOutside, if_pos (by omega)]

theorem dimension_le_volume {t : OperatorTensor} (h : 0 < t.volume) :
    t.dimensions 1 ≤ t.volume ∧ t.dimensions 2 ≤ t.volume := by
  constructor
  · exact Nat.le_of_dvd h ⟨t.dimensions 0 * t.dimensions 2 * t.dimensions 3, by
      unfold OperatorTensor.volume; ring⟩
  · exact Nat.le_of_dvd h ⟨t.dimensions 0 * t.dimensions 1 * t.dimensions 3, by
      unfold OperatorTensor.volume; ring⟩

/-! ## The accumulator -/

section Accumulator

variable {depthwise : Bool} {d : OperatorDescriptor} {base : Nat} {m : ByteMem}

theorem tapTerm_bound {outY outX : Nat} {term : Nat → Nat → Nat → Nat → Int} {c : Int} (hc : 0 ≤ c)
    (h : ∀ filterY filterX inY inX, |term filterY filterX inY inX| ≤ c) (filterY filterX : Nat) :
    |tapTerm d outY outX term filterY filterX| ≤ c := by
  unfold tapTerm
  cases tapIndex outY d.strideHeight filterY d.paddingHeight ((d.tensors 0).dimensions 1) with
  | none => simpa using hc
  | some inY =>
    cases tapIndex outX d.strideWidth filterX d.paddingWidth ((d.tensors 0).dimensions 2) with
    | none => simpa using hc
    | some inX => exact h _ _ _ _

/-- So many products for each tap, and no more in all than the filter has elements. -/
theorem tapSum_bound {outY outX products : Nat} {term : Nat → Nat → Nat → Nat → Int}
    (hTerm : ∀ filterY filterX inY inX, |term filterY filterX inY inX| ≤ products * (255 * 255))
    (hCount : (d.tensors 1).dimensions 1 * (d.tensors 1).dimensions 2 * products ≤ 2 ^ 32) :
    |tapSum d outY outX term| ≤ 2 ^ 48 :=
  calc
    |tapSum d outY outX term| ≤ (d.tensors 1).dimensions 1 * ((d.tensors 1).dimensions 2 *
        (products * (255 * 255))) :=
      abs_sum_range_le fun _ _ => abs_sum_range_le fun _ _ =>
        tapTerm_bound (by positivity) hTerm _ _
    _ = ((d.tensors 1).dimensions 1 * (d.tensors 1).dimensions 2 * products : Nat) *
        (255 * 255) := by
      push_cast
      ring
    _ ≤ (2 ^ 32 : Nat) * 2 ^ 16 := by gcongr; norm_num
    _ = 2 ^ 48 := by norm_num

theorem convTapSum_bound (hShape : ConvShape d depthwise) (hZeros : OperandZeros d)
    (hFilter : 0 < (d.tensors 1).size ∧ (d.tensors 1).size < 2 ^ 32)
    (k : Nat × Nat × Nat × Nat) :
    |tapSum d k.2.1 k.2.2.1 (convTerm depthwise base d m k)| ≤ 2 ^ 48 := by
  have hProduct (lhs rhs : Nat) : |centered d (int8At m lhs) (int8At m rhs)| ≤ 255 * 255 :=
    centered_bound hZeros (int8At_range _ _) (int8At_range _ _)
  rw [hShape.filter, OperatorTensor.volume] at hFilter
  cases depthwise with
  | false =>
    have hDepth : (d.tensors 1).dimensions 3 = (d.tensors 0).dimensions 3 := hShape.layout.2
    rw [hDepth] at hFilter
    refine tapSum_bound (fun _ _ _ _ => abs_sum_range_le fun _ _ => hProduct _ _) ?_
    exact (Nat.le_of_dvd hFilter.1 ⟨(d.tensors 1).dimensions 0, by ring⟩).trans hFilter.2.le
  | true =>
    refine @tapSum_bound d _ _ 1 _ (fun _ _ _ _ => ?_) ?_
    · rw [Nat.cast_one, one_mul]
      exact hProduct _ _
    · exact (Nat.le_of_dvd hFilter.1
        ⟨(d.tensors 1).dimensions 0 * (d.tensors 1).dimensions 3, by ring⟩).trans hFilter.2.le

theorem tapSum_exact (hTaps : TapsBelow d) (hRows : (d.tensors 0).dimensions 1 < 2 ^ 31)
    (hColumns : (d.tensors 0).dimensions 2 < 2 ^ 31) {outY outX : Nat}
    (hOutY : outY < (d.tensors 3).dimensions 1) (hOutX : outX < (d.tensors 3).dimensions 2)
    (term : Nat → Nat → Nat → Nat → Int) :
    tapSum d outY outX term = exactTapSum d outY outX term := by
  refine sum_congr rfl fun filterY hFilterY => sum_congr rfl fun filterX hFilterX => ?_
  rw [tapTerm, tapIndex_eq_exactTap (hTaps.rows _ hOutY _ (mem_range.1 hFilterY))
      hTaps.paddingHeight hRows,
    tapIndex_eq_exactTap (hTaps.columns _ hOutX _ (mem_range.1 hFilterX))
      hTaps.paddingWidth hColumns]

end Accumulator

theorem multiply_eq_exact {value multiplier shift : Int} (hValue : CType.int32.Holds value)
    (hMultiplier : CType.int32.Holds multiplier) (hShift : shift ≤ 30) :
    multiplyByQuantizedMultiplier value multiplier shift =
      exactMultiply value multiplier shift := by
  have hShifted := (shifted_range hValue hShift).2
  unfold multiplyByQuantizedMultiplier exactMultiply
  dsimp only
  rw [i64_of_range hShifted.1 hShifted.2,
    highMul_eq_highProduct (saturate32_range _) hMultiplier]

theorem roundingDivide_range {value exponent : Int} (hValue : CType.int32.Holds value)
    (hExponent : exponent ≤ 31) :
    CType.int32.Holds (roundingDivideByPowerOfTwo value exponent) := by
  by_cases hZero : exponent ≤ 0
  · rw [roundingDivideByPowerOfTwo, if_pos hZero]
    exact hValue
  · apply roundingDivideValues_hold hValue hExponent
      (.int32, roundingDivideByPowerOfTwo value exponent)
    simp [roundingDivideValues, roundingDivideByPowerOfTwo, hZero]

theorem exactMultiply_range (value : Int) {multiplier shift : Int}
    (hMultiplier : CType.int32.Holds multiplier) (hShift : -31 ≤ shift) :
    CType.int32.Holds (exactMultiply value multiplier shift) :=
  roundingDivide_range (highProduct_range (saturate32_range _) hMultiplier) (by omega)

theorem int32At_range (m : ByteMem) (offset : Nat) : CType.int32.Holds (int32At m offset) :=
  i32_range _

theorem i32_shift (z k : Int) : i32 (z + k * 2 ^ 32) = i32 z := by
  unfold i32
  exact Int.add_mul_bmod_self_right z k (2 ^ 32)

/-- Where the sum overflows, the wrapped one is clamped to the other end. -/
theorem clampActivation_wrapped_iff {d : OperatorDescriptor}
    (hActivation : activationValid d = true)
    {z : Int} (hLow : -2 ^ 31 - 2 ^ 7 ≤ z) (hHigh : z < 2 ^ 31 + 2 ^ 7) :
    clampActivation d (i32 z) = clampActivation d z ↔
      d.activationMin = d.activationMax ∨ CType.int32.Holds z := by
  simp only [activationValid, Bool.and_eq_true, decide_eq_true_eq] at hActivation
  by_cases hRange : CType.int32.Holds z
  · rw [i32_of_range hRange.1 hRange.2]
    exact iff_of_true rfl (.inr hRange)
  · simp only [hRange, or_false]
    unfold CType.Holds at hRange
    unfold clampActivation
    rcases lt_or_ge z 0 with hNegative | hPositive
    · have hWrapped : i32 z = z + 2 ^ 32 := by
        rw [← i32_shift z 1]
        exact i32_of_range (by omega) (by omega)
      omega
    · have hWrapped : i32 z = z - 2 ^ 32 := by
        rw [← i32_shift z (-1)]
        exact i32_of_range (by omega) (by omega)
      omega

theorem Stored.iff_value {base : Nat} {d : OperatorDescriptor} {m : ByteMem}
    {value value' : Nat × Nat × Nat × Nat → Int} (h : Stored base d value m) :
    Stored base d value' m ↔ ∀ k, InOutput d k → value k = value' k :=
  forall₂_congr fun k hk => by rw [h k hk]

section Exact

variable {depthwise : Bool} {d : OperatorDescriptor} {m : ByteMem} {dp base capacity : Nat}
  (hInside : DeclaredInside d base capacity) (hCapacity : capacity < 2 ^ 31)
  (hZeros : OperandZeros d) (hTaps : TapsBelow d)

include hInside hCapacity hZeros hTaps

theorem convAccumulator_exact (m : ByteMem) (hShape : ConvShape d depthwise)
    {k : Nat × Nat × Nat × Nat} (hk : InOutput d k) :
    i64 (convAccumulator base d m (convTerm depthwise base d m k) k.2.1 k.2.2.1 k.2.2.2) =
      exactAccumulator depthwise base d m k := by
  have hInput := hInside.tensors 0 (by rw [hShape.tensorCount]; decide)
  have hFilter := hInside.tensors 1 (by rw [hShape.tensorCount]; decide)
  have hDims := dimension_le_volume (hShape.input ▸ hInput.nonempty)
  rw [← hShape.input] at hDims
  have hSize : (d.tensors 0).size ≤ capacity := by
    have := hInput.above
    have := hInput.below
    omega
  have hBound := abs_le.1 (@convTapSum_bound depthwise d base m hShape hZeros
    ⟨hFilter.nonempty, (hInside.words 1).size⟩ k)
  have hBias := int32At_range m (tensorData base (d.tensors 2) + k.2.2.2 * 4)
  unfold CType.Holds at hBias
  rw [convAccumulator, i64_of_range (by omega) (by omega), exactAccumulator,
    tapSum_exact hTaps (by omega) (by omega) hk.2.1 hk.2.2.1]

/-- The value that a kernel stores is the exact one, but for the last reduction. -/
theorem convValue_exact (hShape : ConvShape d depthwise) (hShifts : ShiftsValid base d m)
    {k : Nat × Nat × Nat × Nat} (hk : InOutput d k) :
    convValue base d m (convTerm depthwise base d m k) k.2.1 k.2.2.1 k.2.2.2 =
      clampActivation d (i32 (exactScaled depthwise base d m k)) := by
  have hMultiply := multiply_eq_exact (saturate32_range (exactAccumulator depthwise base d m k))
    (int32At_range m (d.multiplierAddress - base + k.2.2.2 * 4)) (hShifts _ hk.2.2.2).2
  rw [convValue, convAccumulator_exact hInside hCapacity hZeros hTaps m hShape hk, requantized,
    hMultiply, exactScaled]

theorem convValue_exact_iff (hShape : ConvShape d depthwise)
    (hOutputZero : -128 ≤ d.outputZeroPoint ∧ d.outputZeroPoint ≤ 127)
    (hShifts : ShiftsValid base d m) {k : Nat × Nat × Nat × Nat} (hk : InOutput d k) :
    convValue base d m (convTerm depthwise base d m k) k.2.1 k.2.2.1 k.2.2.2 =
        exactValue depthwise base d m k ↔
      d.activationMin = d.activationMax ∨ CType.int32.Holds (exactScaled depthwise base d m k) := by
  have hRange := exactMultiply_range (saturate32 (exactAccumulator depthwise base d m k))
    (int32At_range m (d.multiplierAddress - base + k.2.2.2 * 4)) (hShifts _ hk.2.2.2).1
  unfold CType.Holds at hRange
  rw [convValue_exact hInside hCapacity hZeros hTaps hShape hShifts hk, exactValue]
  apply clampActivation_wrapped_iff hShape.activation
  · unfold exactScaled
    omega
  · unfold exactScaled
    omega

end Exact

/-- A convolution returns, and it has stored the exact values just when the addition of
the output zero point stays in 32 bits, or the activation range is a single value. -/
theorem conv2D_exact_iff {m : ByteMem} {dp base capacity : Nat}
    (hInside : DeclaredInside (.read m dp) base capacity) (hCapacity : capacity < 2 ^ 31)
    (hCommon : (commonConvValid (.read m dp) false m).result = some ())
    (hApart : RegionsApart base dp (.read m dp)) (hZeros : OperandZeros (.read m dp))
    (hOutputZero : -128 ≤ (OperatorDescriptor.read m dp).outputZeroPoint ∧
      (OperatorDescriptor.read m dp).outputZeroPoint ≤ 127)
    (hShifts : ShiftsValid base (.read m dp) m) (hTaps : TapsBelow (.read m dp)) (elapsed : Nat) :
    (runGem5HybridConv2D dp base elapsed m).result = some () ∧
        Stored base (.read m dp) (exactValue false base (.read m dp) m)
          (runGem5HybridConv2D dp base elapsed m).state ↔
      ∀ k, InOutput (.read m dp) k →
        (OperatorDescriptor.read m dp).activationMin =
          (OperatorDescriptor.read m dp).activationMax ∨
          CType.int32.Holds (exactScaled false base (.read m dp) m k) := by
  have hShape := convShape_of_accepted hInside hCommon
  obtain ⟨-, ⟨⟩, hResult, hStored⟩ := conv2D_runs hInside hApart hZeros hCommon hShifts elapsed
  rw [hStored.iff_value]
  simp only [hResult, true_and]
  exact forall₂_congr fun k hk => convValue_exact_iff hInside hCapacity hZeros hTaps hShape
    hOutputZero hShifts hk

instance (d : OperatorDescriptor) (k : Nat × Nat × Nat × Nat) : Decidable (InOutput d k) :=
  inferInstanceAs (Decidable (_ ∧ _))

instance (base : Nat) (d : OperatorDescriptor) (m : ByteMem) : Decidable (ShiftsValid base d m) :=
  inferInstanceAs (Decidable (∀ outC < (d.tensors 3).dimensions 3, _))

/-- The pointwise convolution with the given bias, multiplier and output zero point. -/
def pointwiseMemory (bias multiplier zeroPoint : Nat) : ByteMem :=
  (ByteMem.ofWords 512 (pointwiseWords 0x20000000 2)).storeWords
    [(32, bias), (36, bias), (96, multiplier), (100, multiplier), (512 + 204, zeroPoint)]

theorem conv2D_exact_pointwise :
    (runGem5HybridConv2D 512 0x20000000 0 (pointwiseMemory 5 (2 ^ 30) 3)).result = some () ∧
      Stored 0x20000000 (.read (pointwiseMemory 5 (2 ^ 30) 3) 512)
        (exactValue false 0x20000000 (.read (pointwiseMemory 5 (2 ^ 30) 3) 512)
          (pointwiseMemory 5 (2 ^ 30) 3))
        (runGem5HybridConv2D 512 0x20000000 0 (pointwiseMemory 5 (2 ^ 30) 3)).state := by
  refine (conv2D_exact_iff (@declaredInside_of_validate _ _ _ 4096 (by decide +kernel))
    (by decide) (by decide +kernel) ?_ ?_ (by decide +kernel) (by decide +kernel) ?_ 0).2 ?_
  · constructor <;> decide +kernel
  · constructor <;> decide +kernel
  · constructor <;> decide +kernel
  · rintro ⟨batch, outY, outX, outC⟩ ⟨hBatch, hOutY, hOutX, hOutC⟩
    obtain rfl : batch = 0 := Nat.lt_one_iff.1 hBatch
    obtain rfl : outY = 0 := Nat.lt_one_iff.1 hOutY
    obtain rfl : outX = 0 := Nat.lt_one_iff.1 hOutX
    have hOutC : outC < 2 := hOutC
    obtain rfl | rfl : outC = 0 ∨ outC = 1 := by omega
    · decide +kernel
    · decide +kernel

/-- With the largest bias and multiplier the addition of the zero point overflows. -/
theorem conv2D_not_exact :
    ¬ ∀ (m : ByteMem) (dp base capacity elapsed : Nat), capacity ≤ 8 * 1024 * 1024 →
      validateGem5HybridDescriptor (.read m dp) base capacity = .none →
      (commonConvValid (.read m dp) false m).result = some () →
      ((OperatorDescriptor.read m dp).tensors 2).dimensions 0 =
        ((OperatorDescriptor.read m dp).tensors 3).dimensions 3 →
      RegionsApart base dp (.read m dp) → OperandZeros (.read m dp) →
      (-128 ≤ (OperatorDescriptor.read m dp).outputZeroPoint ∧
        (OperatorDescriptor.read m dp).outputZeroPoint ≤ 127) →
      ShiftsValid base (.read m dp) m → TapsBelow (.read m dp) →
      Stored base (.read m dp) (exactValue false base (.read m dp) m)
        (runGem5HybridConv2D dp base elapsed m).state := by
  intro hStored
  have hValue := hStored (pointwiseMemory (2 ^ 31 - 1) (2 ^ 31 - 1) 127) 512 0x20000000 4096 0
    (by decide) (by decide +kernel) (by decide +kernel) (by decide +kernel)
    (by constructor <;> decide +kernel) (by constructor <;> decide +kernel) (by decide +kernel)
    (by decide +kernel) (by constructor <;> decide +kernel) (0, 0, 0, 0) (by decide +kernel)
  revert hValue
  decide +kernel

end OpenNpux.Hybrid
