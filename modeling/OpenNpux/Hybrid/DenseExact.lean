import OpenNpux.Hybrid.Rounding
import OpenNpux.Hybrid.Values

/-!
# Matrix products over exact integers

The matrix product and the fully connected layer accumulate in 32 bits, one product after
the other. No addition overflows exactly if all exact partial sums fit, and what is stored
is then the clamped exact sum. Nothing limits the inner dimension below the size of the
memory: with 33025 products and no bias every sum fits, and with 33026 it need not.
-/

namespace OpenNpux.Hybrid

open Lib Finset

/-! ## The reference -/

theorem i32_add (y z : Int) : i32 (i32 y + z) = i32 (y + z) := by
  unfold i32
  exact Int.bmod_add_bmod

/-- What a kernel adds up for one element: a bias, the products and a zero point. -/
structure DenseSum where
  bias : Int
  depth : Nat
  term : Nat → Int
  zeroPoint : Int

namespace DenseSum

variable (z : DenseSum)

/-- The exact sum before round `k`. -/
def partialSum (k : Nat) : Int := z.bias + ∑ inner ∈ range k, z.term inner

def value : Int := z.zeroPoint + z.partialSum z.depth

/-- The kernel's accumulator before round `k`. -/
def accumulator : Nat → Int
  | 0 => z.bias
  | k + 1 => i32 (accumulator k + z.term k)

/-- What the kernel clamps. -/
def result : Int := i32 (z.accumulator z.depth + z.zeroPoint)

/-- None of the kernel's additions overflows. -/
structure Defined : Prop where
  round : ∀ k < z.depth, CType.int32.Holds (z.accumulator k + z.term k)
  zeroPoint : CType.int32.Holds (z.accumulator z.depth + z.zeroPoint)

structure Fits : Prop where
  partialSum : ∀ k ≤ z.depth, CType.int32.Holds (z.partialSum k)
  value : CType.int32.Holds z.value

variable {z}

theorem partialSum_succ (k : Nat) : z.partialSum (k + 1) = z.partialSum k + z.term k := by
  rw [partialSum, partialSum, sum_range_succ, add_assoc]

theorem accumulator_eq (hBias : CType.int32.Holds z.bias) (k : Nat) :
    z.accumulator k = i32 (z.partialSum k) := by
  induction k with
  | zero => rw [accumulator, partialSum, sum_range_zero, add_zero, i32_of_range hBias.1 hBias.2]
  | succ k ih => rw [accumulator, ih, i32_add, partialSum_succ]

theorem accumulator_of_fits (hBias : CType.int32.Holds z.bias) (h : z.Fits) {k : Nat}
    (hk : k ≤ z.depth) : z.accumulator k = z.partialSum k := by
  rw [accumulator_eq hBias, i32_of_range (h.partialSum k hk).1 (h.partialSum k hk).2]

theorem accumulator_of_defined (h : z.Defined) {k : Nat} (hk : k ≤ z.depth) :
    z.accumulator k = z.partialSum k := by
  induction k with
  | zero => simp [accumulator, partialSum]
  | succ k ih =>
    have hRound := h.round k hk
    rw [accumulator, i32_of_range hRound.1 hRound.2, ih (Nat.le_of_succ_le hk), partialSum_succ]

theorem result_eq (hBias : CType.int32.Holds z.bias) : z.result = i32 z.value := by
  rw [result, accumulator_eq hBias, i32_add, value, add_comm]

theorem defined_iff (hBias : CType.int32.Holds z.bias) : z.Defined ↔ z.Fits := by
  constructor
  · intro h
    constructor
    · intro k hk
      cases k with
      | zero => simpa [partialSum] using hBias
      | succ k =>
        rw [partialSum_succ, ← accumulator_of_defined h (Nat.le_of_succ_le hk)]
        exact h.round k hk
    · rw [value, add_comm, ← accumulator_of_defined h le_rfl]
      exact h.zeroPoint
  · intro h
    constructor
    · intro k hk
      rw [accumulator_of_fits hBias h hk.le, ← partialSum_succ]
      exact h.partialSum (k + 1) hk
    · rw [accumulator_of_fits hBias h le_rfl, add_comm]
      exact h.value

/-- How long a sum may be: each product is at most `255 * 255`. -/
theorem fits_of_depth (hTerm : ∀ k < z.depth, |z.term k| ≤ 255 * 255)
    (hDepth : |z.bias| + z.depth * (255 * 255) + |z.zeroPoint| < 2 ^ 31) : z.Fits := by
  have hPartial {k : Nat} (hk : k ≤ z.depth) :
      |z.partialSum k| ≤ |z.bias| + z.depth * (255 * 255) := by
    have hSum := abs_sum_range_le fun i hi => hTerm i (Nat.lt_of_lt_of_le hi hk)
    have hCount : (k : Int) ≤ z.depth := Int.ofNat_le.2 hk
    have hBoth := abs_add_le z.bias (∑ inner ∈ range k, z.term inner)
    rw [partialSum]
    omega
  have hZero := abs_nonneg z.zeroPoint
  constructor
  · intro k hk
    have hSum := abs_le.1 (hPartial hk)
    exact ⟨by omega, by omega⟩
  · have hSum := hPartial (le_refl z.depth)
    have hValue := abs_le.1 ((abs_add_le z.zeroPoint (z.partialSum z.depth)).trans
      (add_le_add_right hSum _))
    rw [← value] at hValue
    exact ⟨by omega, by omega⟩

end DenseSum

/-- Row `row` of tensor 0 times the vector of tensor 1 found at `rhs inner`. -/
def dotTerm (base : Nat) (d : OperatorDescriptor) (m : ByteMem) (depth row : Nat)
    (rhs : Nat → Nat) (inner : Nat) : Int :=
  centered d (int8At m (tensorData base (d.tensors 0) + (row * depth + inner)))
    (int8At m (tensorData base (d.tensors 1) + rhs inner))

def matMulSum (base : Nat) (d : OperatorDescriptor) (m : ByteMem) (row col : Nat) : DenseSum where
  bias := 0
  depth := (d.tensors 0).dimensions 1
  term := dotTerm base d m ((d.tensors 0).dimensions 1) row
    fun inner => inner * (d.tensors 1).dimensions 1 + col
  zeroPoint := d.outputZeroPoint

def exactBias (base : Nat) (d : OperatorDescriptor) (m : ByteMem) (out : Nat) : Int :=
  if d.tensorCount = 4 then int32At m (tensorData base (d.tensors 2) + out * 4) else 0

def fullyConnectedSum (base : Nat) (d : OperatorDescriptor) (m : ByteMem) (batch out : Nat) :
    DenseSum where
  bias := exactBias base d m out
  depth := (d.tensors 0).dimensions 1
  term := dotTerm base d m ((d.tensors 0).dimensions 1) batch
    fun inner => out * (d.tensors 0).dimensions 1 + inner
  zeroPoint := d.outputZeroPoint

theorem matMulSum_zeroPoint (base : Nat) (d : OperatorDescriptor) (m : ByteMem) (row col : Nat) :
    (matMulSum base d m row col).zeroPoint = d.outputZeroPoint := rfl

theorem fullyConnectedSum_zeroPoint (base : Nat) (d : OperatorDescriptor) (m : ByteMem)
    (batch out : Nat) : (fullyConnectedSum base d m batch out).zeroPoint = d.outputZeroPoint := rfl

theorem matMulSum_fits {base : Nat} {d : OperatorDescriptor} {m : ByteMem} (hZeros : OperandZeros d)
    (hDepth : (d.tensors 0).dimensions 1 * (255 * 255) + |d.outputZeroPoint| < 2 ^ 31)
    (row col : Nat) : (matMulSum base d m row col).Fits := by
  refine DenseSum.fits_of_depth (fun _ _ => ?_) ?_
  · exact centered_bound hZeros (int8At_range _ _) (int8At_range _ _)
  · simpa [matMulSum] using hDepth

theorem exactBias_range (base : Nat) (d : OperatorDescriptor) (m : ByteMem) (out : Nat) :
    CType.int32.Holds (exactBias base d m out) := by
  unfold exactBias
  split
  · exact i32_range _
  · decide

/-- Every element of a matrix of `columns` columns is the clamped value. -/
def DenseStored (base : Nat) (d : OperatorDescriptor) (t : OperatorTensor) (rows columns : Nat)
    (value : Nat → Nat → Int) (m : ByteMem) : Prop :=
  ∀ i < rows, ∀ j < columns,
    int8At m (tensorData base t + (i * columns + j)) = clampActivation d (value i j)

/-- The kernel returns, no addition of it overflows, and what it stores is exact. -/
structure DenseComputed (kernel : Kernel Unit) (base : Nat) (d : OperatorDescriptor)
    (t : OperatorTensor) (rows columns : Nat) (sum : Nat → Nat → DenseSum) (m : ByteMem) :
    Prop where
  returned : (kernel m).result = some ()
  defined : ∀ i < rows, ∀ j < columns, (sum i j).Defined
  stored : DenseStored base d t rows columns (fun i j => (sum i j).value) (kernel m).state

/-! ## The kernels -/

/-- The output of a matrix kernel is apart from what it reads. -/
structure DenseApart (base dp : Nat) (d : OperatorDescriptor) (output : Nat) : Prop where
  lhs : ApartFrom base (d.tensors output) (tensorData base (d.tensors 0)) (d.tensors 0).size
  rhs : ApartFrom base (d.tensors output) (tensorData base (d.tensors 1)) (d.tensors 1).size
  bias : d.tensorCount = 4 →
    ApartFrom base (d.tensors output) (tensorData base (d.tensors 2)) (d.tensors 2).size
  descriptor : ApartFrom base (d.tensors output) dp descriptorBytes

theorem u32_index_eq {t : OperatorTensor} {rows columns i j : Nat} (hWords : t.Words)
    (hSize : t.size = rows * columns) (hi : i < rows) (hj : j < columns) :
    u32 (i * columns + j) = i * columns + j := by
  have hExact := flat_lt hi hj
  exact_mod_cast u32_natCast (n := i * columns + j) (by have := hWords.size; omega)

section Fill

variable {base dp : Nat} {t : OperatorTensor} {d : OperatorDescriptor} {m m' : ByteMem}

theorem dotProduct_evaluates (hZeros : OperandZeros d) (hFilling : Filling base dp t d m m')
    (hLhs : ApartFrom base t (tensorData base (d.tensors 0)) (d.tensors 0).size)
    (hRhs : ApartFrom base t (tensorData base (d.tensors 1)) (d.tensors 1).size)
    (hWords : (d.tensors 0).Words) {rows row : Nat} {z : DenseSum}
    (hSize : (d.tensors 0).size = rows * z.depth) (hRow : row < rows) {rhs rhs' : Nat → Nat}
    (hIndex : ∀ inner < z.depth, rhs' inner = rhs inner ∧ rhs inner < (d.tensors 1).size)
    (hTerm : z.term = dotTerm base d m z.depth row rhs) :
    (dotProduct dp base d z.depth row rhs' z.bias).Evaluates m' (z.accumulator z.depth) := by
  refine .loop z.accumulator rfl rfl fun inner hInner => ?_
  obtain ⟨hSame, hLess⟩ := hIndex inner hInner
  rw [DenseSum.accumulator, hTerm, dotTerm,
    ← hFilling.int8At hLhs (by rw [hSize]; exact flat_lt hRow hInner), ← hFilling.int8At hRhs hLess,
    u32_index_eq hWords hSize hRow hInner, hSame]
  exact (centeredProduct_evaluates hFilling.same hZeros _ _).bind (.pure _ _)

theorem storeActivated_runs (hFilling : Filling base dp t d m m') (output index : Nat)
    {z : DenseSum} (hZero : z.zeroPoint = d.outputZeroPoint) :
    (storeActivated dp base d output index (z.accumulator z.depth)).Runs (fun _ => True) m'
      fun _ m'' => m'' = m'.storeWord (tensorData base (d.tensors output) + index) 1
        (u32 (clampActivation d z.result)) := by
  refine Prog.Evaluates.runs_bind (a := .read m' dp) ⟨rfl, rfl⟩ ?_
  rw [hFilling.same.clampActivation, hFilling.same.outputZeroPoint, ← hZero, ← DenseSum.result]
  exact .emit_bind trivial (.modify rfl)

/-- The two loops of a matrix kernel leave every value in its place. -/
theorem denseLoops_fill {rows columns : Nat} (hSize : t.size = rows * columns)
    (hActivation : activationValid d = true) {body : Nat → Nat → Kernel Unit}
    {value : Nat → Nat → Int}
    (hBody : ∀ i < rows, ∀ j < columns, ∀ m', AgreeOn (besideTensor base t) m m' →
      (body i j).Runs (fun _ => True) m' fun _ m'' =>
        m'' = m'.storeWord (tensorData base t + (i * columns + j)) 1
          (u32 (clampActivation d (value i j)))) :
    Prog.Runs (fun _ => True)
      (Prog.loop rows () fun i _ => Prog.loop columns () fun j _ => body i j) m fun _ m' =>
        DenseStored base d t rows columns value m' := by
  let K : Nat × Nat → Prop := fun k => k.1 < rows ∧ k.2 < columns
  let place : Nat × Nat → Nat := fun k => tensorData base t + (k.1 * columns + k.2)
  let byte : Nat × Nat → UInt8 := fun k =>
    ByteMem.bytesOf (u32 (clampActivation d (value k.1 k.2))) 0
  have hKept : ∀ k, K k → ∀ m m', ByteMem.Filled K place byte m m' → m (place k) = byte k →
      m' (place k) = byte k := by
    refine fun k hk _ _ h hDone => h.kept (fun k k' hk hk' hPlace => ?_) hk hDone
    obtain ⟨hRow, hColumn⟩ := flat_injective hk.2 hk'.2 (Nat.add_left_cancel hPlace)
    exact Prod.ext hRow hColumn
  have hAgree : ∀ m', ByteMem.Filled K place byte m m' → AgreeOn (besideTensor base t) m m' := by
    refine fun m' h a ha => h.outside fun k hk hPlace => ?_
    have hLess := flat_lt hk.1 hk.2
    unfold besideTensor at ha
    dsimp only [place] at hPlace
    omega
  have hLoops : Prog.Runs (fun _ => True)
      (Prog.loop rows () fun i _ => Prog.loop columns () fun j _ => body i j) m fun _ m' =>
        ByteMem.Filled K place byte m m' ∧
          ∀ i < rows, ∀ j < columns, m' (place (i, j)) = byte (i, j) := by
    refine .each (fun i hi s s' h hDone j hj => hKept (i, j) ⟨hi, hj⟩ s s' h (hDone j hj))
      fun i hi m₁ h₁ => ?_
    refine .each (fun j hj s s' h hDone => hKept (i, j) ⟨hi, hj⟩ s s' h hDone) fun j hj m₂ h₂ => ?_
    exact runs_fill (K := K) (k := (i, j)) ⟨hi, hj⟩
      (hBody i hi j hj m₂ (hAgree m₂ (IsTrans.trans _ _ _ h₁ h₂)))
  exact hLoops.mono fun _ m' h i hi j hj =>
    int8At_of_byte (h.2 i hi j hj) (clampActivation_range hActivation _)

end Fill

theorem DenseStored.kept {base : Nat} {d : OperatorDescriptor} {t : OperatorTensor}
    {rows columns : Nat} {value : Nat → Nat → Int} {m m' : ByteMem}
    (h : DenseStored base d t rows columns value m) (hSize : t.size = rows * columns)
    (hAgree : AgreeOn (fun i => ¬besideTensor base t i) m m') :
    DenseStored base d t rows columns value m' := by
  intro i hi j hj
  have hLess := flat_lt hi hj
  rw [← h i hi j hj, int8At, int8At, hAgree _ (by unfold besideTensor; omega)]

/-- What the kernel leaves is exact if all partial sums fit, and only then is it defined. -/
theorem denseComputed_iff {kernel : Kernel Unit} {base : Nat} {d : OperatorDescriptor}
    {t : OperatorTensor} {rows columns : Nat} {sum : Nat → Nat → DenseSum} {m : ByteMem}
    (hBias : ∀ i < rows, ∀ j < columns, CType.int32.Holds (sum i j).bias)
    (hRuns : kernel.Runs (fun _ => True) m fun _ m' => DenseStored base d t rows columns
      (fun i j => (sum i j).result) m') :
    DenseComputed kernel base d t rows columns sum m ↔
      ∀ i < rows, ∀ j < columns, (sum i j).Fits := by
  obtain ⟨-, ⟨⟩, hResult, hStored⟩ := hRuns
  constructor
  · intro h i hi j hj
    exact (DenseSum.defined_iff (hBias i hi j hj)).1 (h.defined i hi j hj)
  · intro hFits
    refine ⟨hResult, fun i hi j hj => ?_, fun i hi j hj => ?_⟩
    · exact (DenseSum.defined_iff (hBias i hi j hj)).2 (hFits i hi j hj)
    · have hValue := (hFits i hi j hj).value
      rw [hStored i hi j hj]
      dsimp only
      rw [DenseSum.result_eq (hBias i hi j hj), i32_of_range hValue.1 hValue.2]

theorem initialAccumulator_evaluates {base dp output out : Nat} {d : OperatorDescriptor}
    {m m' : ByteMem} (hFilling : Filling base dp (d.tensors output) d m m')
    (hApart : DenseApart base dp d output)
    (hBias : d.tensorCount = 4 → (d.tensors 2).size = (d.tensors 1).dimensions 0 * 4)
    (hOut : out < (d.tensors 1).dimensions 0) :
    (initialAccumulator base d out).Evaluates m' (exactBias base d m out) := by
  unfold initialAccumulator exactBias
  split
  · rename_i hFour
    have hSize := hBias hFour
    rw [← hFilling.int32At (hApart.bias hFour) (by omega)]
    exact ⟨rfl, rfl⟩
  · exact .pure _ _

section Kernels

variable {base dp capacity : Nat} {m : ByteMem}
  (hInside : DeclaredInside (.read m dp) base capacity) (hZeros : OperandZeros (.read m dp))

include hInside hZeros

theorem matMul_runs (hChecks : (matMulChecks (.read m dp) m).result = some ())
    (hApart : DenseApart base dp (.read m dp) 2) (elapsed : Nat) :
    (runGem5HybridMatMulInt8 dp base elapsed).Runs (fun _ => True) m fun _ m' =>
      DenseStored base (.read m dp) ((OperatorDescriptor.read m dp).tensors 2)
        (((OperatorDescriptor.read m dp).tensors 0).dimensions 0)
        (((OperatorDescriptor.read m dp).tensors 1).dimensions 1)
        (fun i j => (matMulSum base (.read m dp) m i j).result) m' := by
  obtain ⟨-, hLhs, hRhs, hOutput, hActivation⟩ :=
    (@matMulChecks_yields (.read m dp) base capacity).returned hChecks
  refine .congr (descriptorAt_bind dp _ m) ?_
  unfold matMulFrom
  refine (evaluates_of_leaves (leaves_matMulChecks _) hChecks).runs_bind ?_
  refine (denseLoops_fill hOutput hActivation fun i hi j hj m' hAgree => ?_).bind
    fun _ m' hStored =>
    (finishRun_keeps hApart.descriptor _ _ _ _ m').mono fun _ _ hKept => hStored.kept hOutput hKept
  have hFilling := hApart.descriptor.filling hAgree
  have hDot := @dotProduct_evaluates _ _ _ _ _ _ hZeros hFilling hApart.lhs hApart.rhs
    (hInside.words 0) _ i (matMulSum base (.read m dp) m i j) hLhs hi _ _
    (fun inner hInner => ⟨u32_index_eq (hInside.words 1) hRhs hInner hj,
      by rw [hRhs]; exact flat_lt hInner hj⟩) rfl
  rw [u32_index_eq (hInside.words 2) hOutput hi hj]
  exact hDot.runs_bind (storeActivated_runs hFilling _ _ (matMulSum_zeroPoint _ _ _ _ _))

theorem fullyConnected_runs (hChecks : (fullyConnectedChecks (.read m dp) m).result = some ())
    (hApart : DenseApart base dp (.read m dp) ((OperatorDescriptor.read m dp).tensorCount - 1))
    (elapsed : Nat) :
    (runGem5HybridFullyConnectedInt8 dp base elapsed).Runs (fun _ => True) m fun _ m' =>
      DenseStored base (.read m dp) ((OperatorDescriptor.read m dp).tensors
          ((OperatorDescriptor.read m dp).tensorCount - 1))
        (((OperatorDescriptor.read m dp).tensors 0).dimensions 0)
        (((OperatorDescriptor.read m dp).tensors 1).dimensions 0)
        (fun i j => (fullyConnectedSum base (.read m dp) m i j).result) m' := by
  obtain ⟨-, hInput, hWeights, hOutput, hBias, hActivation⟩ :=
    (@fullyConnectedChecks_yields (.read m dp) base capacity).returned hChecks
  refine .congr (descriptorAt_bind dp _ m) ?_
  unfold fullyConnectedFrom
  refine (evaluates_of_leaves (leaves_fullyConnectedChecks _) hChecks).runs_bind ?_
  refine (denseLoops_fill hOutput hActivation fun i hi j hj m' hAgree => ?_).bind
    fun _ m' hStored =>
    (finishRun_keeps hApart.descriptor _ _ _ _ m').mono fun _ _ hKept => hStored.kept hOutput hKept
  have hFilling := hApart.descriptor.filling hAgree
  have hInitial := initialAccumulator_evaluates hFilling hApart hBias hj
  have hDot := @dotProduct_evaluates _ _ _ _ _ _ hZeros hFilling hApart.lhs hApart.rhs
    (hInside.words 0) _ i (fullyConnectedSum base (.read m dp) m i j) hInput hi _ _
    (fun inner hInner => ⟨u32_index_eq (hInside.words 1) hWeights hj hInner,
      by rw [hWeights]; exact flat_lt hj hInner⟩) rfl
  rw [u32_index_eq (hInside.words _) hOutput hi hj]
  exact hInitial.runs_bind (hDot.runs_bind (storeActivated_runs hFilling _ _
    (fullyConnectedSum_zeroPoint _ _ _ _ _)))

/-- On every descriptor that passes its checks a kernel computes the exact values, without
overflow, just when all exact partial sums fit into 32 bits. -/
theorem dense_exact_iff (elapsed : Nat) :
    ((matMulChecks (.read m dp) m).result = some () → DenseApart base dp (.read m dp) 2 →
      (DenseComputed (runGem5HybridMatMulInt8 dp base elapsed) base (.read m dp)
          ((OperatorDescriptor.read m dp).tensors 2)
          (((OperatorDescriptor.read m dp).tensors 0).dimensions 0)
          (((OperatorDescriptor.read m dp).tensors 1).dimensions 1)
          (matMulSum base (.read m dp) m) m ↔
        ∀ i < ((OperatorDescriptor.read m dp).tensors 0).dimensions 0,
          ∀ j < ((OperatorDescriptor.read m dp).tensors 1).dimensions 1,
            (matMulSum base (.read m dp) m i j).Fits)) ∧
    ((fullyConnectedChecks (.read m dp) m).result = some () →
      DenseApart base dp (.read m dp) ((OperatorDescriptor.read m dp).tensorCount - 1) →
      (DenseComputed (runGem5HybridFullyConnectedInt8 dp base elapsed) base (.read m dp)
          ((OperatorDescriptor.read m dp).tensors ((OperatorDescriptor.read m dp).tensorCount - 1))
          (((OperatorDescriptor.read m dp).tensors 0).dimensions 0)
          (((OperatorDescriptor.read m dp).tensors 1).dimensions 0)
          (fullyConnectedSum base (.read m dp) m) m ↔
        ∀ i < ((OperatorDescriptor.read m dp).tensors 0).dimensions 0,
          ∀ j < ((OperatorDescriptor.read m dp).tensors 1).dimensions 0,
            (fullyConnectedSum base (.read m dp) m i j).Fits)) := by
  constructor
  · intro hChecks hApart
    exact denseComputed_iff (fun _ _ _ _ => (by decide : CType.int32.Holds 0))
      (matMul_runs hInside hZeros hChecks hApart elapsed)
  · intro hChecks hApart
    exact denseComputed_iff (fun _ _ _ _ => exactBias_range _ _ _ _)
      (fullyConnected_runs hInside hZeros hChecks hApart elapsed)

end Kernels

/-- The product of a row and a column of the given length, with the descriptor behind the
tensors and every byte before it the same. -/
def vectorProduct (depth zeroPoint : Nat) (byte : UInt8) : ByteMem := fun i =>
  if 131072 ≤ i then
    ByteMem.ofWords 131072
      [operatorAbiMagic, operatorAbiVersion, descriptorBytes, OperatorOpcode.matMulInt8.code,
        OperatorState.submitted.code, 0, 0, OperatorMode.hybrid.code, 3,
        0x20000000, depth, 2, 1, depth, 0, 0, ElementType.int8.code, zeroPoint,
        0x20000000 + 40000, depth, 2, depth, 1, 0, 0, ElementType.int8.code, zeroPoint,
        0x20000000 + 80000, 1, 2, 1, 1, 0, 0, ElementType.int8.code, 0,
        0, 0, 0, 0, 0, 0, 0, 0, 0, 0, 0, 0, 0, 0, 0, 0, 2 ^ 32 - 128, 127, 0] i
  else byte

/-- The longest product of `-128` by `-128` with zero points 127 whose sum fits. -/
theorem dense_exact_longest :
    DenseComputed (runGem5HybridMatMulInt8 131072 0x20000000 0) 0x20000000
      (.read (vectorProduct 33025 127 0x80) 131072)
      ((OperatorDescriptor.read (vectorProduct 33025 127 0x80) 131072).tensors 2) 1 1
      (matMulSum 0x20000000 (.read (vectorProduct 33025 127 0x80) 131072)
        (vectorProduct 33025 127 0x80)) (vectorProduct 33025 127 0x80) := by
  have hZeros : OperandZeros (.read (vectorProduct 33025 127 0x80) 131072) := by
    constructor <;> decide +kernel
  refine ((dense_exact_iff (@declaredInside_of_validate _ _ _ (8 * 1024 * 1024) (by decide +kernel))
    hZeros 0).1 (by decide +kernel) (by constructor <;> decide +kernel)).2 fun i _ j _ => ?_
  exact matMulSum_fits hZeros (by decide +kernel) i j

theorem vectorProduct_int8At {depth zeroPoint i : Nat} (hi : i < 131072) :
    int8At (vectorProduct depth zeroPoint 0x80) i = -128 := by
  rw [int8At, vectorProduct, if_neg (Nat.not_le.2 hi)]
  decide

/-- Every product is `255 * 255`, and there are 33026 of them. -/
theorem vectorProduct_value :
    (matMulSum 0x20000000 (.read (vectorProduct 33026 127 0x80) 131072)
      (vectorProduct 33026 127 0x80) 0 0).value = 33026 * 65025 := by
  have hLhs : tensorData 0x20000000
      ((OperatorDescriptor.read (vectorProduct 33026 127 0x80) 131072).tensors 0) = 0 := by
    decide +kernel
  have hRhs : tensorData 0x20000000
      ((OperatorDescriptor.read (vectorProduct 33026 127 0x80) 131072).tensors 1) = 40000 := by
    decide +kernel
  have hDepth : ((OperatorDescriptor.read (vectorProduct 33026 127 0x80) 131072).tensors
      0).dimensions 1 = 33026 := by decide +kernel
  have hColumns : ((OperatorDescriptor.read (vectorProduct 33026 127 0x80) 131072).tensors
      1).dimensions 1 = 1 := by decide +kernel
  have hProduct : centered (.read (vectorProduct 33026 127 0x80) 131072) (-128) (-128) = 65025 := by
    decide +kernel
  have hZero : (OperatorDescriptor.read (vectorProduct 33026 127 0x80) 131072).outputZeroPoint =
      0 := by
    decide +kernel
  unfold DenseSum.value DenseSum.partialSum matMulSum
  dsimp only
  rw [hDepth, hColumns, hZero, zero_add, zero_add, sum_congr rfl fun inner hInner => ?_, sum_const,
    card_range, nsmul_eq_mul, Nat.cast_ofNat]
  have hInner := mem_range.1 hInner
  rw [dotTerm, hLhs, hRhs, vectorProduct_int8At (by omega),
    vectorProduct_int8At (by omega), hProduct]

/-- With an inner dimension of 33026 the sum passes `2 ^ 31`. -/
theorem dense_not_exact :
    ¬ ∀ (m : ByteMem) (dp base elapsed : Nat),
      validateGem5HybridDescriptor (.read m dp) base (8 * 1024 * 1024) = .none →
      (matMulChecks (.read m dp) m).result = some () → DenseApart base dp (.read m dp) 2 →
      OperandZeros (.read m dp) →
      DenseStored base (.read m dp) ((OperatorDescriptor.read m dp).tensors 2)
        (((OperatorDescriptor.read m dp).tensors 0).dimensions 0)
        (((OperatorDescriptor.read m dp).tensors 1).dimensions 1)
        (fun i j => (matMulSum base (.read m dp) m i j).value)
        (runGem5HybridMatMulInt8 dp base elapsed m).state := by
  intro hStored
  have hValid : validateGem5HybridDescriptor
      (.read (vectorProduct 33026 127 0x80) 131072) 0x20000000
      (8 * 1024 * 1024) = .none := by decide +kernel
  have hChecks : (matMulChecks (.read (vectorProduct 33026 127 0x80) 131072)
      (vectorProduct 33026 127 0x80)).result = some () := by decide +kernel
  have hApart : DenseApart 0x20000000 131072 (.read (vectorProduct 33026 127 0x80) 131072) 2 := by
    constructor <;> decide +kernel
  have hZeros : OperandZeros (.read (vectorProduct 33026 127 0x80) 131072) := by
    constructor <;> decide +kernel
  have hExact := hStored _ _ _ 0 hValid hChecks hApart hZeros 0 (by decide +kernel) 0
    (by decide +kernel)
  obtain ⟨-, ⟨⟩, -, hRun⟩ := matMul_runs (declaredInside_of_validate hValid) hZeros hChecks hApart 0
  have hWrapped := hRun 0 (by decide +kernel) 0 (by decide +kernel)
  rw [hExact] at hWrapped
  dsimp only at hWrapped
  rw [DenseSum.result_eq (by decide), vectorProduct_value] at hWrapped
  revert hWrapped
  decide +kernel

end OpenNpux.Hybrid
