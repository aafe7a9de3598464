import Mathlib.Algebra.BigOperators.GroupWithZero.Finset
import Mathlib.Algebra.BigOperators.Intervals
import OpenNpux.Hybrid.Kernel

/-!
# Shape checks of the kernels

The element count of a tensor divides by each dimension to detect overflow, so the
checks are programs too. Each one is read off as a predicate on the descriptor.
-/

namespace OpenNpux.Hybrid

open Lib

def countStep (t : OperatorTensor) (i : Nat) : Option Nat → Kernel (Option Nat)
  | none => pure none
  | some count =>
    if t.dimensions i = 0 then pure none
    else do
      let limit ← divide (2 ^ 64 - 1) (t.dimensions i)
      if count > limit then return none else return some (u64 (count * t.dimensions i))

/-- The source returns zero at once; here the accumulator stays empty to the end of the loop. -/
def elementCount (t : OperatorTensor) : Kernel Nat :=
  if t.rank = 0 ∨ t.rank > operatorMaxDims then pure 0
  else do
    let count ← Prog.loop t.rank (some 1) (countStep t)
    return count.getD 0

def tensorBytesMatch (t : OperatorTensor) (elementSize : Nat) : Kernel Bool := do
  let count ← elementCount t
  let limit ← divide (2 ^ 32 - 1) elementSize
  return count != 0 && decide (count ≤ limit) && t.size == count * elementSize

def sameShape (lhs rhs : OperatorTensor) : Bool :=
  lhs.rank == rhs.rank && (List.range lhs.rank).all fun i => lhs.dimensions i == rhs.dimensions i

def activationValid (d : OperatorDescriptor) : Bool :=
  decide (-128 ≤ d.activationMin) && decide (d.activationMax ≤ 127) &&
    decide (d.activationMin ≤ d.activationMax)

def commonConvValid (d : OperatorDescriptor) (depthwise : Bool) : Kernel Unit := do
  Prog.require (d.tensorCount == 4 && d.quantizationCount != 0 && d.strideHeight != 0 &&
    d.strideWidth != 0)
  let input := d.tensors 0
  let filter := d.tensors 1
  let bias := d.tensors 2
  let output := d.tensors 3
  Prog.require (input.elementType == ElementType.int8.code &&
    filter.elementType == ElementType.int8.code && bias.elementType == ElementType.int32.code &&
    output.elementType == ElementType.int8.code && input.rank == 4 && filter.rank == 4 &&
    bias.rank == 1 && output.rank == 4)
  Prog.require (input.size == (← elementCount input))
  Prog.require (filter.size == (← elementCount filter))
  Prog.require (bias.size == u64 ((← elementCount bias) * 4))
  Prog.require (output.size == (← elementCount output))
  Prog.require (input.dimensions 0 != 0 && output.dimensions 0 == input.dimensions 0 &&
    d.quantizationCount == output.dimensions 3)
  Prog.require (activationValid d)
  if depthwise then
    Prog.require (filter.dimensions 0 == 1 && filter.dimensions 3 == output.dimensions 3)
    Prog.require ((← modulo (output.dimensions 3) (input.dimensions 3)) == 0)
  else
    Prog.require (filter.dimensions 0 == output.dimensions 3 &&
      filter.dimensions 3 == input.dimensions 3)

/-! ## What the checks establish -/

theorem flat_lt {rows columns i j : Nat} (hi : i < rows) (hj : j < columns) :
    i * columns + j < rows * columns :=
  calc
    i * columns + j < i * columns + columns := Nat.add_lt_add_left hj _
    _ = (i + 1) * columns := (Nat.succ_mul i columns).symm
    _ ≤ rows * columns := Nat.mul_le_mul_right columns hi

/-- A nonzero element count is the product of the dimensions. -/
structure Counted (t : OperatorTensor) (n : Nat) : Prop where
  rank_pos : 0 < t.rank
  rank_le : t.rank ≤ operatorMaxDims
  count : n = ∏ i ∈ Finset.range t.rank, t.dimensions i

theorem Counted.dimension_ne_zero {t : OperatorTensor} {n i : Nat} (h : Counted t n) (hn : n ≠ 0)
    (hi : i < t.rank) : t.dimensions i ≠ 0 := by
  rw [h.count, Finset.prod_ne_zero_iff] at hn
  exact hn i (Finset.mem_range.mpr hi)

def OperatorTensor.volume (t : OperatorTensor) : Nat :=
  t.dimensions 0 * t.dimensions 1 * t.dimensions 2 * t.dimensions 3

theorem Counted.eq_volume {t : OperatorTensor} {n : Nat} (h : Counted t n) (hRank : t.rank = 4) :
    n = t.volume := by
  rw [h.count, hRank, OperatorTensor.volume]
  simp [Finset.prod_range_succ]

theorem Counted.eq_length {t : OperatorTensor} {n : Nat} (h : Counted t n) (hRank : t.rank = 1) :
    n = t.dimensions 0 := by
  rw [h.count, hRank]
  simp

theorem Counted.eq_matrix {t : OperatorTensor} {n : Nat} (h : Counted t n) (hRank : t.rank = 2) :
    n = t.dimensions 0 * t.dimensions 1 := by
  rw [h.count, hRank]
  simp [Finset.prod_range_succ]

theorem sameShape_count {t u : OperatorTensor} {n k : Nat} (h : sameShape t u = true)
    (ht : Counted t n) (hu : Counted u k) : n = k := by
  simp only [sameShape, Bool.and_eq_true, beq_iff_eq, List.all_eq_true, List.mem_range] at h
  rw [ht.count, hu.count, ← h.1]
  exact Finset.prod_congr rfl fun i hi => h.2 i (Finset.mem_range.mp hi)

/-- The channel arrangement of a filter: `[out, h, w, in]`, or `[1, h, w, out]` depthwise. -/
def FilterLayout (depthwise : Bool) (input filter output : OperatorTensor) : Prop :=
  if depthwise then
    filter.dimensions 0 = 1 ∧ filter.dimensions 3 = output.dimensions 3 ∧
      input.dimensions 3 ∣ output.dimensions 3
  else
    filter.dimensions 0 = output.dimensions 3 ∧ filter.dimensions 3 = input.dimensions 3

/-- What the shape checks give a convolution. No field relates the bias to a channel count. -/
structure ConvShape (d : OperatorDescriptor) (depthwise : Bool) : Prop where
  tensorCount : d.tensorCount = 4
  input : (d.tensors 0).size = (d.tensors 0).volume
  filter : (d.tensors 1).size = (d.tensors 1).volume
  bias : (d.tensors 2).size = (d.tensors 2).dimensions 0 * 4
  output : (d.tensors 3).size = (d.tensors 3).volume
  batches : (d.tensors 3).dimensions 0 = (d.tensors 0).dimensions 0
  channels : d.quantizationCount = (d.tensors 3).dimensions 3
  quantized : d.quantizationCount ≠ 0
  activation : activationValid d = true
  layout : FilterLayout depthwise (d.tensors 0) (d.tensors 1) (d.tensors 3)

section Events

variable {ok : Access → Prop} (hDivide : ∀ b, b ≠ 0 → ok (.divide b))
include hDivide

theorem countStep_yields (t : OperatorTensor) (i : Nat) {count : Option Nat}
    (h : ∀ c, count = some c → c = ∏ j ∈ Finset.range i, t.dimensions j) :
    (countStep t i count).Yields ok
      fun next => ∀ c, next = some c → c = ∏ j ∈ Finset.range (i + 1), t.dimensions j := by
  cases count with
  | none => exact .pure (by simp)
  | some count =>
    refine .ite (fun _ => .pure (by simp)) fun hDim => ?_
    refine (yields_divide _ (hDivide _ hDim)).bind fun limit hLimit => ?_
    refine .ite (fun _ => .pure (by simp)) fun hFits => .pure ?_
    rintro _ ⟨rfl⟩
    have hBound : count * t.dimensions i ≤ 2 ^ 64 - 1 := by
      rw [← Nat.le_div_iff_mul_le (Nat.pos_of_ne_zero hDim), ← hLimit]
      exact Nat.le_of_not_lt hFits
    rw [← Nat.cast_mul, u64_natCast (by omega), Finset.prod_range_succ, h count rfl]

theorem elementCount_yields (t : OperatorTensor) :
    (elementCount t).Yields ok fun n => n ≠ 0 → Counted t n := by
  refine .ite (fun _ => .pure fun h => absurd rfl h) fun hRank => ?_
  have hLoop := Prog.Yields.loop
    (I := fun i count => ∀ c, count = some c → c = ∏ j ∈ Finset.range i, t.dimensions j)
    (n := t.rank) (a := some 1) (by simp) fun i _ _ h => countStep_yields hDivide t i h
  refine hLoop.bind fun count hCount => .pure fun hn => ?_
  cases count with
  | none => exact absurd rfl hn
  | some c => exact ⟨by omega, by omega, hCount c rfl⟩

theorem tensorBytesMatch_yields (t : OperatorTensor) {elementSize : Nat} (hSize : elementSize ≠ 0) :
    (tensorBytesMatch t elementSize).Yields ok
      fun b => b = true → ∃ n, n ≠ 0 ∧ Counted t n ∧ t.size = n * elementSize := by
  refine (elementCount_yields hDivide t).bind fun n hn => ?_
  refine (yields_divide _ (hDivide _ hSize)).bind fun limit _ => .pure fun h => ?_
  simp only [Bool.and_eq_true, bne_iff_ne, beq_iff_eq] at h
  exact ⟨n, h.1.1, hn h.1.1, h.2⟩

/-- A tensor whose declared size is nonzero and equals its element count. -/
theorem elementCount_size_yields {t : OperatorTensor} (hSize : 0 < t.size) :
    (elementCount t).Yields ok fun n => (t.size == n) = true → n ≠ 0 ∧ t.size = n ∧
      Counted t n := by
  refine (elementCount_yields hDivide t).mono fun n hn hEq => ?_
  have hEq := beq_iff_eq.mp hEq
  have hne : n ≠ 0 := by omega
  exact ⟨hne, hEq, hn hne⟩

omit hDivide in
theorem bias_size_eq {t : OperatorTensor} {n : Nat} (hWords : t.Words) (hSize : 0 < t.size)
    (hRank : t.rank = 1) (hCounted : n ≠ 0 → Counted t n) (h : t.size = u64 (n * 4)) :
    t.size = t.dimensions 0 * 4 := by
  have hne : n ≠ 0 := by
    rintro rfl
    exact absurd hSize (by rw [h]; decide)
  have hLength := (hCounted hne).eq_length hRank
  have hBound := hWords.dimensions 0
  rw [h, hLength]
  exact_mod_cast u64_natCast (n := t.dimensions 0 * 4) (by omega)

theorem commonConvValid_yields {d : OperatorDescriptor} {base capacity : Nat} (depthwise : Bool)
    (hInside : DeclaredInside d base capacity) :
    (commonConvValid d depthwise).Yields ok fun _ => ConvShape d depthwise := by
  refine (Prog.Yields.require _).bind fun _ hHeader => ?_
  simp only [Bool.and_eq_true, beq_iff_eq, bne_iff_ne] at hHeader
  have hNonempty : ∀ i < 4, 0 < (d.tensors i).size := fun i hi =>
    (hInside.tensors i (by omega)).nonempty
  refine (Prog.Yields.require _).bind fun _ hRanks => ?_
  simp only [Bool.and_eq_true, beq_iff_eq] at hRanks
  refine (elementCount_size_yields hDivide (hNonempty 0 (by omega))).bind fun nInput hInput => ?_
  refine (Prog.Yields.require _).bind fun _ hInputEq => ?_
  obtain ⟨hInputNe, hInputSize, hInput⟩ := hInput hInputEq
  refine (elementCount_size_yields hDivide (hNonempty 1 (by omega))).bind fun nFilter hFilter => ?_
  refine (Prog.Yields.require _).bind fun _ hFilterEq => ?_
  obtain ⟨_, hFilterSize, hFilter⟩ := hFilter hFilterEq
  refine (elementCount_yields hDivide _).bind fun nBias hBias => ?_
  refine (Prog.Yields.require _).bind fun _ hBiasEq => ?_
  have hBiasSize := bias_size_eq (hInside.words 2) (hNonempty 2 (by omega)) hRanks.1.2 hBias
    (beq_iff_eq.mp hBiasEq)
  refine (elementCount_size_yields hDivide (hNonempty 3 (by omega))).bind fun nOutput hOutput => ?_
  refine (Prog.Yields.require _).bind fun _ hOutputEq => ?_
  obtain ⟨_, hOutputSize, hOutput⟩ := hOutput hOutputEq
  refine (Prog.Yields.require _).bind fun _ hDims => ?_
  simp only [Bool.and_eq_true, beq_iff_eq, bne_iff_ne] at hDims
  refine (Prog.Yields.require _).bind fun _ hActivation => ?_
  have hShape : FilterLayout depthwise (d.tensors 0) (d.tensors 1) (d.tensors 3) →
      ConvShape d depthwise := fun hLayout =>
    { tensorCount := hHeader.1.1.1
      input := hInputSize.trans (hInput.eq_volume hRanks.1.1.1.2)
      filter := hFilterSize.trans (hFilter.eq_volume hRanks.1.1.2)
      bias := hBiasSize
      output := hOutputSize.trans (hOutput.eq_volume hRanks.2)
      batches := hDims.1.2
      channels := hDims.2
      quantized := hHeader.1.1.2
      activation := hActivation
      layout := hLayout }
  cases depthwise with
  | true =>
    refine (Prog.Yields.require _).bind fun _ hFilterDims => ?_
    have hInputChannels := hInput.dimension_ne_zero hInputNe (i := 3) (by omega)
    refine (yields_modulo _ (hDivide _ hInputChannels)).bind fun r hr => ?_
    refine (Prog.Yields.require _).mono fun _ hZero => hShape ?_
    simp only [Bool.and_eq_true, beq_iff_eq] at hFilterDims hZero
    exact ⟨hFilterDims.1, hFilterDims.2, Nat.dvd_of_mod_eq_zero (hr ▸ hZero)⟩
  | false =>
    refine (Prog.Yields.require _).mono fun _ hFilterDims => hShape ?_
    simp only [Bool.and_eq_true, beq_iff_eq] at hFilterDims
    exact hFilterDims

end Events
end OpenNpux.Hybrid
