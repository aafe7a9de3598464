import OpenNpux.Hybrid.Dense

/-!
# Softmax and layer normalization

The two kernels compute in the host's single-precision floats. Their operations are
parameters; `FloatOps.Lawful` lists the facts of the format that keep a divisor from
being zero. A float value in memory is its 32-bit pattern.
-/

namespace OpenNpux.Hybrid

open Lib

structure FloatOps (F : Type) where
  ofBits : Nat → F
  toBits : F → Nat
  ofInt : Int → F
  add : F → F → F
  sub : F → F → F
  mul : F → F → F
  div : F → F → F
  sqrt : F → F
  exp : F → F
  lround : F → Int
  lt : F → F → Bool
  eq : F → F → Bool
  isFinite : F → Bool

namespace FloatOps

variable {F : Type} (ops : FloatOps F)

/-- The literal `0.0f`. -/
def zero : F := ops.ofBits 0

/-- The literal `1.0f`. -/
def one : F := ops.ofBits 0x3f800000

/-- The literal `255.0f`. -/
def byteScale : F := ops.ofBits 0x437f0000

/-- The literal `1.0e-5f`. -/
def defaultEpsilon : F := ops.ofBits 0x3727c5ac

def max (a b : F) : F := if ops.lt a b then b else a

structure Lawful : Prop where
  zero_not_lt : ops.lt ops.zero ops.zero = false
  square_not_lt : ∀ a, ops.lt (ops.mul a a) ops.zero = false
  add_not_lt : ∀ a b, ops.lt a ops.zero = false → ops.lt b ops.zero = false →
    ops.lt (ops.add a b) ops.zero = false
  div_not_lt : ∀ a (n : Nat), ops.lt a ops.zero = false → n ≠ 0 → n < 2 ^ 32 →
    ops.lt (ops.div a (ops.ofInt n)) ops.zero = false
  ofInt_ne_zero : ∀ n : Nat, n ≠ 0 → n < 2 ^ 32 → ops.eq (ops.ofInt n) ops.zero = false
  sqrt_ne_zero : ∀ a e, ops.lt a ops.zero = false → ops.lt ops.zero e = true →
    ops.eq (ops.sqrt (ops.add a e)) ops.zero = false
  pos_of_finite : ∀ e, ops.isFinite e = true → ops.lt e ops.zero = false →
    ops.eq e ops.zero = false → ops.lt ops.zero e = true
  defaultEpsilon_pos : ops.lt ops.zero ops.defaultEpsilon = true

end FloatOps

section Kernels

variable {F : Type} (ops : FloatOps F)

def loadFloat (region : Region) (offset : Nat) : Kernel F := do
  return ops.ofBits (← loadBits region offset)

def storeFloat (region : Region) (offset : Nat) (value : F) : Kernel Unit :=
  storeBits region offset (ops.toBits value)

def divideFloat (a b : F) : Kernel F := do
  Prog.emit (.divideFloat (ops.eq b ops.zero))
  return ops.div a b

/-- Row length, element count and row count of the innermost dimension. -/
def rowShape (input : OperatorTensor) : Kernel (Nat × Nat × Nat) := do
  let depth := input.dimensions (input.rank - 1)
  let total ← elementCount input
  Prog.require (depth != 0 && total != 0)
  Prog.require ((← modulo total depth) == 0)
  let rows ← divide total depth
  return (depth, total, rows)

def floatElement (base : Nat) (t : OperatorTensor) (i : Nat) : Nat := tensorData base t + i * 4

def softmaxFloatRow (base : Nat) (d : OperatorDescriptor) (depth row : Nat) : Kernel Unit := do
  let input := fun i => floatElement base (d.tensors 0) (u64 (row * depth + i))
  let output := fun i => floatElement base (d.tensors 1) (u64 (row * depth + i))
  let first ← loadFloat ops (.tensor 0) (input 0)
  let maxValue ← Prog.loop (depth - 1) first fun i maxValue => do
    return ops.max maxValue (← loadFloat ops (.tensor 0) (input (i + 1)))
  let sum ← Prog.loop depth ops.zero fun i sum => do
    let value ← loadFloat ops (.tensor 0) (input i)
    storeFloat ops (.tensor 1) (output i) (ops.exp (ops.sub value maxValue))
    return ops.add sum (← loadFloat ops (.tensor 1) (output i))
  Prog.require (!ops.eq sum ops.zero && ops.isFinite sum)
  Prog.loop depth () fun i _ => do
    let value ← loadFloat ops (.tensor 1) (output i)
    storeFloat ops (.tensor 1) (output i) (← divideFloat ops value sum)

def softmaxInt8Row (base : Nat) (d : OperatorDescriptor) (depth row : Nat) : Kernel Unit := do
  let input := fun i => tensorData base (d.tensors 0) + u64 (row * depth + i)
  let output := fun i => tensorData base (d.tensors 1) + u64 (row * depth + i)
  let first ← loadI8 (.tensor 0) (input 0)
  let maxValue ← Prog.loop (depth - 1) (ops.ofInt first) fun i maxValue => do
    return ops.max maxValue (ops.ofInt (← loadI8 (.tensor 0) (input (i + 1))))
  let sum ← Prog.loop depth ops.zero fun i sum => do
    let value ← loadI8 (.tensor 0) (input i)
    return ops.add sum (ops.exp (ops.sub (ops.ofInt value) maxValue))
  Prog.require (!ops.eq sum ops.zero && ops.isFinite sum)
  Prog.loop depth () fun i _ => do
    let value ← loadI8 (.tensor 0) (input i)
    let probability ← divideFloat ops (ops.exp (ops.sub (ops.ofInt value) maxValue)) sum
    let quantized := i32 (i32 (ops.lround (ops.mul probability ops.byteScale)) - 128)
    storeI8 (.tensor 1) (output i) (max (-128) (min 127 quantized))

/-- A pair of tensors of one element type whose sizes fit their shapes. -/
def typedPair (d : OperatorDescriptor) (type : ElementType) (elementSize : Nat) : Kernel Bool :=
  if (d.tensors 0).elementType = type.code ∧ (d.tensors 1).elementType = type.code then do
    if !(← tensorBytesMatch (d.tensors 0) elementSize) then return false
    tensorBytesMatch (d.tensors 1) elementSize
  else pure false

def softmaxRows (base : Nat) (d : OperatorDescriptor) (depth rows : Nat) : Kernel Unit := do
  if ← typedPair d .float32 4 then
    Prog.loop rows () fun row _ => softmaxFloatRow ops base d depth row
  else if ← typedPair d .int8 1 then
    Prog.loop rows () fun row _ => softmaxInt8Row ops base d depth row
  else Prog.require false

def softmaxFrom (dp base elapsed : Nat) (d : OperatorDescriptor) : Kernel Unit := do
  Prog.require (d.tensorCount == 2 && (d.tensors 0).rank != 0 &&
    sameShape (d.tensors 0) (d.tensors 1))
  let (depth, total, rows) ← rowShape (d.tensors 0)
  softmaxRows ops base d depth rows
  finishRun dp total elapsed 1 fun now => (now.tensors 0).size

def runGem5HybridSoftmax (dp base elapsed : Nat) : Kernel Unit := do
  softmaxFrom ops dp base elapsed (← descriptorAt dp)

def layerNormChecks (d : OperatorDescriptor) : Kernel Unit := do
  Prog.require (d.tensorCount == 4 && (d.tensors 0).elementType == ElementType.float32.code &&
    (d.tensors 1).elementType == ElementType.float32.code &&
    (d.tensors 2).elementType == ElementType.float32.code &&
    (d.tensors 3).elementType == ElementType.float32.code && (d.tensors 0).rank != 0 &&
    sameShape (d.tensors 0) (d.tensors 3) && (d.tensors 1).rank == 1 && (d.tensors 2).rank == 1)
  requireBytes d 0 4
  requireBytes d 1 4
  requireBytes d 2 4
  requireBytes d 3 4

/-- A zero `reserved[0]` selects the default; any other pattern must be finite and positive. -/
def epsilonOf (bits : Nat) : Kernel F :=
  if bits = 0 then pure ops.defaultEpsilon
  else do
    let epsilon := ops.ofBits bits
    Prog.require (ops.isFinite epsilon && !(ops.lt epsilon ops.zero || ops.eq epsilon ops.zero))
    return epsilon

def layerNormRow (base : Nat) (d : OperatorDescriptor) (depth : Nat) (epsilon : F) (row : Nat) :
    Kernel Unit := do
  let input := fun i => floatElement base (d.tensors 0) (u64 (row * depth + i))
  let sum ← Prog.loop depth ops.zero fun i mean => do
    return ops.add mean (← loadFloat ops (.tensor 0) (input i))
  let mean ← divideFloat ops sum (ops.ofInt depth)
  let squares ← Prog.loop depth ops.zero fun i variance => do
    let centered := ops.sub (← loadFloat ops (.tensor 0) (input i)) mean
    return ops.add variance (ops.mul centered centered)
  let variance ← divideFloat ops squares (ops.ofInt depth)
  let invStddev ← divideFloat ops ops.one (ops.sqrt (ops.add variance epsilon))
  Prog.loop depth () fun i _ => do
    let value ← loadFloat ops (.tensor 0) (input i)
    let scale ← loadFloat ops (.tensor 1) (floatElement base (d.tensors 1) i)
    let bias ← loadFloat ops (.tensor 2) (floatElement base (d.tensors 2) i)
    storeFloat ops (.tensor 3) (floatElement base (d.tensors 3) (u64 (row * depth + i)))
      (ops.add (ops.mul (ops.mul (ops.sub value mean) invStddev) scale) bias)

def layerNormFrom (dp base elapsed : Nat) (d : OperatorDescriptor) : Kernel Unit := do
  layerNormChecks d
  let (depth, total, rows) ← rowShape (d.tensors 0)
  Prog.require ((d.tensors 1).dimensions 0 == depth && (d.tensors 2).dimensions 0 == depth)
  let epsilon ← epsilonOf ops (d.reserved 0)
  Prog.loop rows () fun row _ => layerNormRow ops base d depth epsilon row
  finishRun dp (u64 (total * 5)) elapsed 3 fun now =>
    u32 ((now.tensors 0).size + (now.tensors 1).size + (now.tensors 2).size)

def runGem5HybridLayerNorm (dp base elapsed : Nat) : Kernel Unit := do
  layerNormFrom ops dp base elapsed (← descriptorAt dp)

end Kernels
/-! ## Bounds -/

section Events

variable {F : Type} {ops : FloatOps F} {d : OperatorDescriptor} {base capacity : Nat}

theorem rowShape_yields (input : OperatorTensor) :
    (rowShape input).Yields (Access.Inside d base capacity) fun shape =>
      shape.1 = input.dimensions (input.rank - 1) ∧ shape.1 ≠ 0 ∧ shape.2.1 ≠ 0 ∧
        Counted input shape.2.1 ∧ shape.2.2 * shape.1 = shape.2.1 := by
  refine (elementCount_yields (fun _ hb => hb) input).bind fun total hTotal => ?_
  refine (Prog.Yields.require _).bind fun _ hNonzero => ?_
  simp only [Bool.and_eq_true, bne_iff_ne] at hNonzero
  refine (yields_modulo total hNonzero.1).bind fun r hr => ?_
  refine (Prog.Yields.require _).bind fun _ hZero => ?_
  refine (yields_divide total hNonzero.1).bind fun rows hRows => .pure ?_
  refine ⟨rfl, hNonzero.1, hNonzero.2, hTotal hNonzero.2, ?_⟩
  rw [hRows]
  exact Nat.div_mul_cancel (Nat.dvd_of_mod_eq_zero (hr ▸ beq_iff_eq.mp hZero))

/-- Position `i` of a row is an element of a tensor of `rows * depth` elements. -/
theorem u64_index_lt {t : OperatorTensor} {rows depth elementSize row i : Nat} (hWords : t.Words)
    (hSize : t.size = rows * depth * elementSize) (hElement : elementSize ≠ 0) (hRow : row < rows)
    (hi : i < depth) : u64 (row * depth + i) * elementSize + elementSize ≤ t.size := by
  have hExact := flat_lt hRow hi
  have hFits : rows * depth ≤ t.size := by
    rw [hSize]
    exact Nat.le_mul_of_pos_right _ (Nat.pos_of_ne_zero hElement)
  have hCast : u64 (row * depth + i) = row * depth + i := by
    exact_mod_cast u64_natCast (n := row * depth + i) (by have := hWords.size; omega)
  rw [hCast, hSize, ← Nat.succ_mul]
  exact Nat.mul_le_mul_right elementSize hExact

variable (hInside : DeclaredInside d base capacity)
include hInside

theorem loadFloat_yields {i index : Nat} (hi : i < d.tensorCount)
    (hIndex : index * 4 + 4 ≤ (d.tensors i).size) :
    Safe d base capacity (loadFloat ops (.tensor i) (floatElement base (d.tensors i) index)) :=
  (yields_loadBits (hInside.within_tensor hi hIndex)).bind fun _ _ => .pure trivial

theorem storeFloat_yields {i index : Nat} (value : F) (hi : i < d.tensorCount)
    (hIndex : index * 4 + 4 ≤ (d.tensors i).size) :
    Safe d base capacity
      (storeFloat ops (.tensor i) (floatElement base (d.tensors i) index) value) :=
  yields_storeBits (hInside.within_tensor hi hIndex)

omit hInside in
theorem divideFloat_yields (a : F) {b : F} (hb : ops.eq b ops.zero = false) :
    (divideFloat ops a b).Yields (Access.Inside d base capacity) fun q => q = ops.div a b := by
  have hEvent : Access.Inside d base capacity (.divideFloat (ops.eq b ops.zero)) := hb
  exact (Prog.Yields.emit hEvent).bind fun _ _ => .pure rfl

theorem softmaxFloatRow_yields {rows depth row : Nat} (hCount : d.tensorCount = 2)
    (hInput : (d.tensors 0).size = rows * depth * 4)
    (hOutput : (d.tensors 1).size = rows * depth * 4) (hDepth : depth ≠ 0) (hRow : row < rows) :
    Safe d base capacity (softmaxFloatRow ops base d depth row) := by
  have hLoad : ∀ i < depth, Safe d base capacity (loadFloat ops (.tensor 0)
      (floatElement base (d.tensors 0) (u64 (row * depth + i)))) := fun i hi =>
    loadFloat_yields hInside (by omega) (u64_index_lt (hInside.words 0) hInput (by decide) hRow hi)
  have hOut : ∀ i < depth, u64 (row * depth + i) * 4 + 4 ≤ (d.tensors 1).size := fun i hi =>
    u64_index_lt (hInside.words 1) hOutput (by decide) hRow hi
  refine (hLoad 0 (by omega)).bind fun first _ => ?_
  refine Prog.Yields.bind (.each fun i hi _ => ?_) fun maxValue _ => ?_
  · exact (hLoad (i + 1) (by omega)).bind fun _ _ => .pure trivial
  refine Prog.Yields.bind (.each fun i hi sum => ?_) fun sum _ => ?_
  · refine (hLoad i hi).bind fun _ _ => ?_
    refine (storeFloat_yields hInside _ (by omega) (hOut i hi)).bind fun _ _ => ?_
    exact (loadFloat_yields hInside (by omega) (hOut i hi)).bind fun _ _ => .pure trivial
  refine (Prog.Yields.require _).bind fun _ hSum => .each fun i hi _ => ?_
  simp only [Bool.and_eq_true, Bool.not_eq_true'] at hSum
  refine (loadFloat_yields hInside (by omega) (hOut i hi)).bind fun value _ => ?_
  refine (divideFloat_yields value hSum.1).bind fun q _ => ?_
  exact storeFloat_yields hInside q (by omega) (hOut i hi)

theorem softmaxInt8Row_yields {rows depth row : Nat} (hCount : d.tensorCount = 2)
    (hInput : (d.tensors 0).size = rows * depth * 1)
    (hOutput : (d.tensors 1).size = rows * depth * 1) (hDepth : depth ≠ 0) (hRow : row < rows) :
    Safe d base capacity (softmaxInt8Row ops base d depth row) := by
  have hLoad : ∀ i < depth, Safe d base capacity
      (loadI8 (.tensor 0) (tensorData base (d.tensors 0) + u64 (row * depth + i))) := by
    intro i hi
    have hIndex := u64_index_lt (hInside.words 0) hInput one_ne_zero hRow hi
    exact yields_loadI8 (hInside.within_tensor (by omega) (by omega))
  refine (hLoad 0 (by omega)).bind fun first _ => ?_
  refine Prog.Yields.bind (.each fun i hi _ => ?_) fun maxValue _ => ?_
  · exact (hLoad (i + 1) (by omega)).bind fun _ _ => .pure trivial
  refine Prog.Yields.bind (.each fun i hi sum => ?_) fun sum _ => ?_
  · exact (hLoad i hi).bind fun _ _ => .pure trivial
  refine (Prog.Yields.require _).bind fun _ hSum => .each fun i hi _ => ?_
  simp only [Bool.and_eq_true, Bool.not_eq_true'] at hSum
  refine (hLoad i hi).bind fun value _ => ?_
  refine (divideFloat_yields _ hSum.1).bind fun probability _ => ?_
  have hIndex := u64_index_lt (hInside.words 1) hOutput one_ne_zero hRow hi
  exact yields_storeI8 (hInside.within_tensor (by omega) (by omega))

omit hInside in
theorem typedPair_yields (type : ElementType) {elementSize : Nat} (hSize : elementSize ≠ 0) :
    (typedPair d type elementSize).Yields (Access.Inside d base capacity) fun b => b = true →
      ∃ n k, Counted (d.tensors 0) n ∧ Counted (d.tensors 1) k ∧
        (d.tensors 0).size = n * elementSize ∧ (d.tensors 1).size = k * elementSize := by
  refine .ite (fun _ => ?_) fun _ => .pure (by simp)
  refine (tensorBytesMatch_yields (fun _ hb => hb) _ hSize).bind fun b hb => ?_
  refine .ite (fun _ => .pure (by simp)) fun hTrue => ?_
  obtain ⟨n, _, hInput, hInputSize⟩ := hb (by simpa using hTrue)
  refine (tensorBytesMatch_yields (fun _ hb => hb) _ hSize).mono fun b' hb' hTrue' => ?_
  obtain ⟨k, _, hOutput, hOutputSize⟩ := hb' hTrue'
  exact ⟨n, k, hInput, hOutput, hInputSize, hOutputSize⟩

theorem softmaxRows_yields {total rows depth : Nat} (hCount : d.tensorCount = 2)
    (hShape : sameShape (d.tensors 0) (d.tensors 1) = true) (hTotal : Counted (d.tensors 0) total)
    (hRows : rows * depth = total) (hDepth : depth ≠ 0) :
    Safe d base capacity (softmaxRows ops base d depth rows) := by
  have hSizes : ∀ {elementSize : Nat}, (∃ n k, Counted (d.tensors 0) n ∧ Counted (d.tensors 1) k ∧
      (d.tensors 0).size = n * elementSize ∧ (d.tensors 1).size = k * elementSize) →
      (d.tensors 0).size = rows * depth * elementSize ∧
        (d.tensors 1).size = rows * depth * elementSize := by
    rintro elementSize ⟨n, k, hInput, hOutput, hInputSize, hOutputSize⟩
    have hPair := sameShape_count hShape hInput hOutput
    have hSame : n = total := hInput.count.trans hTotal.count.symm
    rw [hInputSize, hOutputSize, ← hPair, hSame, hRows]
    exact ⟨rfl, rfl⟩
  refine (typedPair_yields .float32 four_ne_zero).bind fun _ hFloat => .ite ?_ fun _ => ?_
  · intro hTrue
    obtain ⟨hIn, hOut⟩ := hSizes (hFloat hTrue)
    exact .each fun row hRow _ => softmaxFloatRow_yields hInside hCount hIn hOut hDepth hRow
  refine (typedPair_yields .int8 one_ne_zero).bind fun _ hInt8 => .ite ?_ fun _ => ?_
  · intro hTrue
    obtain ⟨hIn, hOut⟩ := hSizes (hInt8 hTrue)
    exact .each fun row hRow _ => softmaxInt8Row_yields hInside hCount hIn hOut hDepth hRow
  · exact (Prog.Yields.require _).forget

theorem softmax_yields (dp elapsed : Nat) :
    Safe d base capacity (softmaxFrom ops dp base elapsed d) := by
  refine (Prog.Yields.require _).bind fun _ hTypes => ?_
  simp only [Bool.and_eq_true, beq_iff_eq] at hTypes
  obtain ⟨⟨hCount, _⟩, hShape⟩ := hTypes
  refine (rowShape_yields _).bind fun ⟨depth, total, rows⟩ ⟨_, hDepth, _, hTotal, hRows⟩ => ?_
  exact (softmaxRows_yields hInside hCount hShape hTotal hRows hDepth).bind fun _ _ =>
    yields_finishRun _ _ _ _ _

variable (hLawful : ops.Lawful)

omit hInside in
theorem layerNormChecks_yields : (layerNormChecks d).Yields (Access.Inside d base capacity)
    fun _ => d.tensorCount = 4 ∧ (d.tensors 1).size = (d.tensors 1).dimensions 0 * 4 ∧
      (d.tensors 2).size = (d.tensors 2).dimensions 0 * 4 ∧
      ∀ n, Counted (d.tensors 0) n →
        (d.tensors 0).size = n * 4 ∧ (d.tensors 3).size = n * 4 := by
  refine (Prog.Yields.require _).bind fun _ hTypes => ?_
  simp only [Bool.and_eq_true, beq_iff_eq] at hTypes
  obtain ⟨⟨⟨⟨⟨⟨⟨⟨hCount, _⟩, _⟩, _⟩, _⟩, _⟩, hShape⟩, hScaleRank⟩, hBiasRank⟩ := hTypes
  refine (requireBytes_yields 0 four_ne_zero).bind fun _ ⟨n, _, hInput, hInputSize⟩ => ?_
  refine (requireBytes_yields 1 four_ne_zero).bind fun _ ⟨_, _, hScale, hScaleSize⟩ => ?_
  refine (requireBytes_yields 2 four_ne_zero).bind fun _ ⟨_, _, hBias, hBiasSize⟩ => ?_
  refine (requireBytes_yields 3 four_ne_zero).mono fun _ ⟨k, _, hOutput, hOutputSize⟩ => ?_
  rw [hScale.eq_length hScaleRank] at hScaleSize
  rw [hBias.eq_length hBiasRank] at hBiasSize
  refine ⟨hCount, hScaleSize, hBiasSize, fun total hTotal => ?_⟩
  have hSame : n = total := hInput.count.trans hTotal.count.symm
  have hPair := sameShape_count hShape hInput hOutput
  rw [hInputSize, hOutputSize, ← hPair, hSame]
  exact ⟨rfl, rfl⟩

include hLawful

omit hInside in
theorem epsilonOf_yields (bits : Nat) : (epsilonOf ops bits).Yields (Access.Inside d base capacity)
    fun epsilon => ops.lt ops.zero epsilon = true := by
  refine .ite (fun _ => .pure hLawful.defaultEpsilon_pos) fun _ => ?_
  refine (Prog.Yields.require _).bind fun _ hFinite => .pure ?_
  simp only [Bool.and_eq_true, Bool.not_eq_true', Bool.or_eq_false_iff] at hFinite
  exact hLawful.pos_of_finite _ hFinite.1 hFinite.2.1 hFinite.2.2

theorem layerNormRow_yields {rows depth row : Nat} {epsilon : F} (hCount : d.tensorCount = 4)
    (hInput : (d.tensors 0).size = rows * depth * 4) (hScale : (d.tensors 1).size = depth * 4)
    (hBias : (d.tensors 2).size = depth * 4) (hOutput : (d.tensors 3).size = rows * depth * 4)
    (hDepth : depth ≠ 0) (hWord : depth < 2 ^ 32) (hRow : row < rows)
    (hEpsilon : ops.lt ops.zero epsilon = true) :
    Safe d base capacity (layerNormRow ops base d depth epsilon row) := by
  have hLoad : ∀ i < depth, Safe d base capacity (loadFloat ops (.tensor 0)
      (floatElement base (d.tensors 0) (u64 (row * depth + i)))) := fun i hi =>
    loadFloat_yields hInside (by omega) (u64_index_lt (hInside.words 0) hInput (by decide) hRow hi)
  refine Prog.Yields.bind (.each fun i hi _ => ?_) fun sum _ => ?_
  · exact (hLoad i hi).bind fun _ _ => .pure trivial
  refine (divideFloat_yields sum (hLawful.ofInt_ne_zero depth hDepth hWord)).bind fun mean _ => ?_
  -- a sum of squares never becomes negative
  refine Prog.Yields.bind (Prog.Yields.loop (I := fun _ v => ops.lt v ops.zero = false)
    hLawful.zero_not_lt fun i hi v hv => ?_) fun squares hSquares => ?_
  · refine (hLoad i hi).bind fun _ _ => .pure ?_
    exact hLawful.add_not_lt _ _ hv (hLawful.square_not_lt _)
  refine (divideFloat_yields squares (hLawful.ofInt_ne_zero depth hDepth hWord)).bind
    fun variance hVariance => ?_
  have hNonneg : ops.lt variance ops.zero = false := by
    rw [hVariance]
    exact hLawful.div_not_lt _ depth hSquares hDepth hWord
  refine (divideFloat_yields _ (hLawful.sqrt_ne_zero _ _ hNonneg hEpsilon)).bind fun inv _ => ?_
  refine .each fun i hi _ => ?_
  refine (hLoad i hi).bind fun value _ => ?_
  refine (loadFloat_yields hInside (by omega) (by omega)).bind fun scale _ => ?_
  refine (loadFloat_yields hInside (by omega) (by omega)).bind fun bias _ => ?_
  exact storeFloat_yields hInside _ (by omega)
    (u64_index_lt (hInside.words 3) hOutput (by decide) hRow hi)

theorem layerNorm_yields (dp elapsed : Nat) :
    Safe d base capacity (layerNormFrom ops dp base elapsed d) := by
  refine layerNormChecks_yields.bind fun _ ⟨hCount, hScale, hBias, hSizes⟩ => ?_
  refine (rowShape_yields _).bind fun ⟨depth, total, rows⟩ ⟨hLast, hDepth, _, hTotal, hRows⟩ => ?_
  refine (Prog.Yields.require _).bind fun _ hLengths => ?_
  simp only [Bool.and_eq_true, beq_iff_eq] at hLengths
  simp only at hRows hLast hDepth hTotal
  obtain ⟨hInput, hOutput⟩ := hSizes total hTotal
  rw [hLengths.1] at hScale
  rw [hLengths.2] at hBias
  rw [← hRows] at hInput hOutput
  refine (epsilonOf_yields hLawful _).bind fun epsilon hEpsilon => ?_
  refine Prog.Yields.bind (.each fun row hRow _ => ?_) fun _ _ => yields_finishRun _ _ _ _ _
  have hWord : depth < 2 ^ 32 := hLast ▸ (hInside.words 0).dimensions _
  exact layerNormRow_yields hInside hLawful hCount hInput hScale hBias hOutput hDepth hWord hRow
    hEpsilon

end Events
end OpenNpux.Hybrid
