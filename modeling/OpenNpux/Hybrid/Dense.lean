import OpenNpux.Hybrid.Checks

/-!
# Matrix product, fully connected layer and addition

The three int8 kernels without requantization. Each checks the sizes of its tensors
before it touches them; the fully connected layer, unlike the convolutions, compares
the bias length with the number of outputs.
-/

namespace OpenNpux.Hybrid

open Lib

def requireBytes (d : OperatorDescriptor) (i elementSize : Nat) : Kernel Unit := do
  Prog.require (← tensorBytesMatch (d.tensors i) elementSize)

def storeActivated (dp base : Nat) (d : OperatorDescriptor) (output index : Nat)
    (accumulator : Int) : Kernel Unit := do
  let now ← descriptorAt dp
  storeI8 (.tensor output) (tensorData base (d.tensors output) + index)
    (clampActivation now (i32 (accumulator + now.outputZeroPoint)))

/-- Row `row` of tensor 0 times a vector of tensor 1 found at `rhs inner`. -/
def dotProduct (dp base : Nat) (d : OperatorDescriptor) (depth row : Nat) (rhs : Nat → Nat)
    (initial : Int) : Kernel Int :=
  Prog.loop depth initial fun inner accumulator => do
    let product ← centeredProduct dp (tensorData base (d.tensors 0) + u32 (row * depth + inner))
      (tensorData base (d.tensors 1) + rhs inner)
    return i32 (accumulator + product)

def int8Matrix (t : OperatorTensor) : Bool :=
  t.elementType == ElementType.int8.code && t.rank == 2

def matMulChecks (d : OperatorDescriptor) : Kernel Unit := do
  Prog.require (d.tensorCount == 3 && int8Matrix (d.tensors 0) && int8Matrix (d.tensors 1) &&
    int8Matrix (d.tensors 2))
  requireBytes d 0 1
  requireBytes d 1 1
  requireBytes d 2 1
  Prog.require ((d.tensors 1).dimensions 0 == (d.tensors 0).dimensions 1 &&
    (d.tensors 2).dimensions 0 == (d.tensors 0).dimensions 0 &&
    (d.tensors 2).dimensions 1 == (d.tensors 1).dimensions 1 && activationValid d)

def matMulFrom (dp base elapsed : Nat) (d : OperatorDescriptor) : Kernel Unit := do
  matMulChecks d
  let m := (d.tensors 0).dimensions 0
  let k := (d.tensors 0).dimensions 1
  let n := (d.tensors 1).dimensions 1
  Prog.loop m () fun row _ => Prog.loop n () fun col _ => do
    let accumulator ← dotProduct dp base d k row (fun inner => u32 (inner * n + col)) 0
    storeActivated dp base d 2 (u32 (row * n + col)) accumulator
  finishRun dp (u64 (m * n * k)) elapsed 2 fun now =>
    u32 ((now.tensors 0).size + (now.tensors 1).size)

def runGem5HybridMatMulInt8 (dp base elapsed : Nat) : Kernel Unit := do
  matMulFrom dp base elapsed (← descriptorAt dp)

def biasChecks (d : OperatorDescriptor) : Kernel Unit :=
  if d.tensorCount = 4 then do
    Prog.require ((d.tensors 2).elementType == ElementType.int32.code && (d.tensors 2).rank == 1)
    requireBytes d 2 4
  else pure ()

def fullyConnectedChecks (d : OperatorDescriptor) : Kernel Unit := do
  Prog.require (decide (3 ≤ d.tensorCount) && decide (d.tensorCount ≤ 4) &&
    int8Matrix (d.tensors 0) && int8Matrix (d.tensors 1) &&
    int8Matrix (d.tensors (d.tensorCount - 1)))
  requireBytes d 0 1
  requireBytes d 1 1
  requireBytes d (d.tensorCount - 1) 1
  biasChecks d
  Prog.require ((d.tensors 1).dimensions 1 == (d.tensors 0).dimensions 1 &&
    (d.tensors (d.tensorCount - 1)).dimensions 0 == (d.tensors 0).dimensions 0 &&
    (d.tensors (d.tensorCount - 1)).dimensions 1 == (d.tensors 1).dimensions 0 &&
    activationValid d &&
    (d.tensorCount != 4 || (d.tensors 2).dimensions 0 == (d.tensors 1).dimensions 0))

def initialAccumulator (base : Nat) (d : OperatorDescriptor) (out : Nat) : Kernel Int :=
  if d.tensorCount = 4 then loadI32 (.tensor 2)
    (tensorData base (d.tensors 2) + out * 4) else pure 0

def fullyConnectedFrom (dp base elapsed : Nat) (d : OperatorDescriptor) : Kernel Unit := do
  fullyConnectedChecks d
  let batches := (d.tensors 0).dimensions 0
  let inputDepth := (d.tensors 0).dimensions 1
  let outputDepth := (d.tensors 1).dimensions 0
  Prog.loop batches () fun batch _ => Prog.loop outputDepth () fun out _ => do
    let bias ← initialAccumulator base d out
    let accumulator ← dotProduct dp base d inputDepth batch
      (fun inner => u32 (out * inputDepth + inner)) bias
    storeActivated dp base d (d.tensorCount - 1) (u32 (batch * outputDepth + out)) accumulator
  finishRun dp (u64 (batches * outputDepth * inputDepth)) elapsed (d.tensorCount - 1) fun now =>
    u32 ((now.tensors 0).size + (now.tensors 1).size +
      if d.tensorCount = 4 then (now.tensors 2).size else 0)

def runGem5HybridFullyConnectedInt8 (dp base elapsed : Nat) : Kernel Unit := do
  fullyConnectedFrom dp base elapsed (← descriptorAt dp)

def addChecks (d : OperatorDescriptor) : Kernel Unit := do
  Prog.require (d.tensorCount == 3 && (d.tensors 0).elementType == ElementType.int8.code &&
    (d.tensors 1).elementType == ElementType.int8.code &&
    (d.tensors 2).elementType == ElementType.int8.code &&
    sameShape (d.tensors 0) (d.tensors 1) && sameShape (d.tensors 0) (d.tensors 2))
  requireBytes d 0 1
  requireBytes d 1 1
  requireBytes d 2 1
  Prog.require (activationValid d)

def addFrom (dp base elapsed : Nat) (d : OperatorDescriptor) : Kernel Unit := do
  addChecks d
  let count ← elementCount (d.tensors 2)
  Prog.loop count () fun i _ => do
    let lhs ← loadI8 (.tensor 0) (tensorData base (d.tensors 0) + i)
    let rhs ← loadI8 (.tensor 1) (tensorData base (d.tensors 1) + i)
    let now ← descriptorAt dp
    storeActivated dp base d 2 i
      (i32 (i32 (lhs - (now.tensors 0).zeroPoint) + i32 (rhs - (now.tensors 1).zeroPoint)))
  finishRun dp count elapsed 2 fun now => u32 ((now.tensors 0).size + (now.tensors 1).size)

def runGem5HybridAddInt8 (dp base elapsed : Nat) : Kernel Unit := do
  addFrom dp base elapsed (← descriptorAt dp)

/-! ## Bounds -/

/-- An index computed in 32 bits is exact below a declared size. -/
theorem u32_index_lt {t : OperatorTensor} {rows columns i j : Nat} (hWords : t.Words)
    (hSize : t.size = rows * columns) (hi : i < rows) (hj : j < columns) :
    u32 (i * columns + j) < t.size := by
  have hExact := flat_lt hi hj
  have hCast : u32 (i * columns + j) = i * columns + j := by
    exact_mod_cast u32_natCast (n := i * columns + j) (by have := hWords.size; omega)
  omega

section Events

variable {d : OperatorDescriptor} {base capacity : Nat}

theorem requireBytes_yields (i : Nat) {elementSize : Nat} (hSize : elementSize ≠ 0) :
    (requireBytes d i elementSize).Yields (Access.Inside d base capacity)
      fun _ => ∃ n, n ≠ 0 ∧ Counted (d.tensors i) n ∧ (d.tensors i).size = n * elementSize :=
  (tensorBytesMatch_yields (fun _ hb => hb) _ hSize).bind fun _ hMatch =>
    (Prog.Yields.require _).mono fun _ hTrue => hMatch hTrue

theorem requireBytes_matrix {i : Nat} (hMatrix : int8Matrix (d.tensors i) = true) :
    (requireBytes d i 1).Yields (Access.Inside d base capacity)
      fun _ => (d.tensors i).size = (d.tensors i).dimensions 0 * (d.tensors i).dimensions 1 := by
  simp only [int8Matrix, Bool.and_eq_true, beq_iff_eq] at hMatrix
  refine (requireBytes_yields i one_ne_zero).mono fun _ h => ?_
  obtain ⟨n, _, hCounted, hSize⟩ := h
  rw [hSize, hCounted.eq_matrix hMatrix.2, Nat.mul_one]

variable (hInside : DeclaredInside d base capacity)
include hInside

theorem storeActivated_yields (dp : Nat) {output index : Nat} (accumulator : Int)
    (hOutput : output < d.tensorCount) (hIndex : index < (d.tensors output).size) :
    Safe d base capacity (storeActivated dp base d output index accumulator) :=
  (yields_descriptorAt dp).bind fun _ _ =>
    yields_storeI8 (hInside.within_tensor hOutput (by omega))

theorem dotProduct_yields (dp : Nat) {depth rows row : Nat} {rhs : Nat → Nat} (initial : Int)
    (hCount : 1 < d.tensorCount) (hSize : (d.tensors 0).size = rows * depth) (hRow : row < rows)
    (hRhs : ∀ inner < depth, rhs inner < (d.tensors 1).size) :
    Safe d base capacity (dotProduct dp base d depth row rhs initial) :=
  .each fun inner hInner _ =>
    (centeredProduct_yields hInside dp hCount
      (u32_index_lt (hInside.words 0) hSize hRow hInner) (hRhs inner hInner)).bind
      fun _ _ => .pure trivial

omit hInside in
theorem matMulChecks_yields : (matMulChecks d).Yields (Access.Inside d base capacity) fun _ =>
    d.tensorCount = 3 ∧
      (d.tensors 0).size = (d.tensors 0).dimensions 0 * (d.tensors 0).dimensions 1 ∧
      (d.tensors 1).size = (d.tensors 0).dimensions 1 * (d.tensors 1).dimensions 1 ∧
      (d.tensors 2).size = (d.tensors 0).dimensions 0 * (d.tensors 1).dimensions 1 ∧
      activationValid d = true := by
  refine (Prog.Yields.require _).bind fun _ hTypes => ?_
  simp only [Bool.and_eq_true, beq_iff_eq] at hTypes
  refine (requireBytes_matrix hTypes.1.1.2).bind fun _ hLhs => ?_
  refine (requireBytes_matrix hTypes.1.2).bind fun _ hRhs => ?_
  refine (requireBytes_matrix hTypes.2).bind fun _ hOutput => ?_
  refine (Prog.Yields.require _).mono fun _ hDims => ?_
  simp only [Bool.and_eq_true, beq_iff_eq] at hDims
  obtain ⟨⟨⟨hInner, hRows⟩, hColumns⟩, hActivation⟩ := hDims
  exact ⟨hTypes.1.1.1, hLhs, hInner ▸ hRhs, by rw [hOutput, hRows, hColumns], hActivation⟩

theorem matMul_yields (dp elapsed : Nat) :
    Safe d base capacity (matMulFrom dp base elapsed d) := by
  refine matMulChecks_yields.bind fun _ ⟨hCount, hLhs, hRhs, hOutput, _⟩ => ?_
  refine Prog.Yields.bind (.each fun row hRow _ => .each fun col hCol _ => ?_)
    fun _ _ => yields_finishRun _ _ _ _ _
  refine (dotProduct_yields hInside dp 0 (by omega) hLhs hRow fun inner hInner =>
    u32_index_lt (hInside.words 1) hRhs hInner hCol).bind fun accumulator _ => ?_
  exact storeActivated_yields hInside dp accumulator (by omega)
    (u32_index_lt (hInside.words 2) hOutput hRow hCol)

omit hInside in
theorem biasChecks_yields : (biasChecks d).Yields (Access.Inside d base capacity) fun _ =>
    d.tensorCount = 4 → (d.tensors 2).size = (d.tensors 2).dimensions 0 * 4 := by
  refine .ite (fun _ => ?_) fun hNone => .pure fun h => absurd h hNone
  refine (Prog.Yields.require _).bind fun _ hRank => ?_
  simp only [Bool.and_eq_true, beq_iff_eq] at hRank
  refine (requireBytes_yields 2 (by decide)).mono fun _ hBytes _ => ?_
  obtain ⟨n, _, hCounted, hSize⟩ := hBytes
  rw [hSize, hCounted.eq_length hRank.2]

omit hInside in
theorem fullyConnectedChecks_yields :
    (fullyConnectedChecks d).Yields (Access.Inside d base capacity) fun _ =>
      3 ≤ d.tensorCount ∧
        (d.tensors 0).size = (d.tensors 0).dimensions 0 * (d.tensors 0).dimensions 1 ∧
        (d.tensors 1).size = (d.tensors 1).dimensions 0 * (d.tensors 0).dimensions 1 ∧
        (d.tensors (d.tensorCount - 1)).size =
          (d.tensors 0).dimensions 0 * (d.tensors 1).dimensions 0 ∧
        (d.tensorCount = 4 → (d.tensors 2).size = (d.tensors 1).dimensions 0 * 4) ∧
        activationValid d = true := by
  refine (Prog.Yields.require _).bind fun _ hTypes => ?_
  simp only [Bool.and_eq_true, decide_eq_true_eq] at hTypes
  refine (requireBytes_matrix hTypes.1.1.2).bind fun _ hInput => ?_
  refine (requireBytes_matrix hTypes.1.2).bind fun _ hWeights => ?_
  refine (requireBytes_matrix hTypes.2).bind fun _ hOutput => ?_
  refine biasChecks_yields.bind fun _ hBias => ?_
  refine (Prog.Yields.require _).mono fun _ hDims => ?_
  simp only [Bool.and_eq_true, Bool.or_eq_true, bne_iff_ne, beq_iff_eq] at hDims
  obtain ⟨⟨⟨⟨hDepth, hRows⟩, hColumns⟩, hActivation⟩, hLength⟩ := hDims
  refine ⟨hTypes.1.1.1.1, hInput, hDepth ▸
    hWeights, by rw [hOutput, hRows, hColumns], ?_, hActivation⟩
  intro hFour
  rw [hBias hFour, hLength.resolve_left fun h => h hFour]

theorem fullyConnected_yields (dp elapsed : Nat) :
    Safe d base capacity (fullyConnectedFrom dp base elapsed d) := by
  refine fullyConnectedChecks_yields.bind fun _ ⟨hCount, hInput, hWeights, hOutput, hBias, _⟩ => ?_
  refine Prog.Yields.bind (.each fun batch hBatch _ => .each fun out hOut _ => ?_)
    fun _ _ => yields_finishRun _ _ _ _ _
  have hInitial : Safe d base capacity (initialAccumulator base d out) := by
    refine .ite (fun hFour => ?_) fun _ => .pure trivial
    have hSize := hBias hFour
    exact yields_loadI32 (hInside.within_tensor (by omega) (by omega))
  refine hInitial.bind fun bias _ => ?_
  refine (dotProduct_yields hInside dp bias (by omega) hInput hBatch fun inner hInner =>
    u32_index_lt (hInside.words 1) hWeights hOut hInner).bind fun accumulator _ => ?_
  exact storeActivated_yields hInside dp accumulator (by omega)
    (u32_index_lt (hInside.words _) hOutput hBatch hOut)

omit hInside in
theorem addChecks_yields : (addChecks d).Yields (Access.Inside d base capacity) fun _ =>
    d.tensorCount = 3 ∧ ∀ i < 3, ∀ n, n ≠ 0 → Counted (d.tensors 2) n → (d.tensors i).size = n := by
  refine (Prog.Yields.require _).bind fun _ hTypes => ?_
  simp only [Bool.and_eq_true, beq_iff_eq] at hTypes
  obtain ⟨⟨⟨⟨⟨hCount, _⟩, _⟩, _⟩, hRhsShape⟩, hOutputShape⟩ := hTypes
  refine (requireBytes_yields 0 one_ne_zero).bind fun _ ⟨n, _, hLhs, hLhsSize⟩ => ?_
  refine (requireBytes_yields 1 one_ne_zero).bind fun _ ⟨k, _, hRhs, hRhsSize⟩ => ?_
  refine (requireBytes_yields 2 one_ne_zero).bind fun _ ⟨l, _, hOutput, hOutputSize⟩ => ?_
  refine (Prog.Yields.require _).mono fun _ _ => ⟨hCount, fun i hi count _ hCounted => ?_⟩
  have hLhsEq := sameShape_count hOutputShape hLhs hCounted
  have hRhsEq := sameShape_count hRhsShape hLhs hRhs
  have hOutputEq := sameShape_count hOutputShape hLhs hOutput
  obtain rfl | rfl | rfl : i = 0 ∨ i = 1 ∨ i = 2 := by omega
  all_goals omega

theorem add_yields (dp elapsed : Nat) : Safe d base capacity (addFrom dp base elapsed d) := by
  refine addChecks_yields.bind fun _ ⟨hCount, hSizes⟩ => ?_
  refine (elementCount_yields (fun _ hb => hb) _).bind fun count hCounted => ?_
  refine Prog.Yields.bind (.each fun i hi _ => ?_) fun _ _ => yields_finishRun _ _ _ _ _
  have hSize : ∀ j < 3, (d.tensors j).size = count := fun j hj =>
    hSizes j hj count (by omega) (hCounted (by omega))
  have hLhs := hSize 0 (by omega)
  have hRhs := hSize 1 (by omega)
  have hOutput := hSize 2 (by omega)
  refine (yields_loadI8 (hInside.within_tensor (by omega) (by omega))).bind fun lhs _ => ?_
  refine (yields_loadI8 (hInside.within_tensor (by omega) (by omega))).bind fun rhs _ => ?_
  refine (yields_descriptorAt dp).bind fun now _ => ?_
  exact storeActivated_yields hInside dp _ (by omega) (by omega)

end Events
end OpenNpux.Hybrid
