import Mathlib.Analysis.SpecialFunctions.Exp
import OpenNpux.Hybrid.Conv
import OpenNpux.Hybrid.FloatKernels

/-!
# Operator dispatch

Validation, the kernel selected by the opcode, and the final state of the descriptor.
Every access stays inside the ranges that the descriptor declares, except that a
convolution reads its bias past the end when the bias is shorter than the output
channels: no check compares the two.
-/

namespace OpenNpux.Hybrid

open Lib

section Dispatch

variable {F : Type} (ops : FloatOps F)

def runKernel (dp base elapsed : Nat) : Option OperatorOpcode → Kernel Bool
  | some .conv2DInt8 => (runGem5HybridConv2D dp base elapsed).attempt
  | some .depthwiseConv2DInt8 => (runGem5HybridDepthwiseConv2D dp base elapsed).attempt
  | some .matMulInt8 => (runGem5HybridMatMulInt8 dp base elapsed).attempt
  | some .fullyConnectedInt8 => (runGem5HybridFullyConnectedInt8 dp base elapsed).attempt
  | some .addInt8 => (runGem5HybridAddInt8 dp base elapsed).attempt
  | some .softmax => (runGem5HybridSoftmax ops dp base elapsed).attempt
  | some .layerNorm => (runGem5HybridLayerNorm ops dp base elapsed).attempt
  | some .partialMobilenet | none => do
    setField dp 20 4 OperatorError.unsupported.code
    return false

/-- The descriptor fields that are reset before a kernel runs. -/
def beginRun (dp : Nat) : Kernel Unit := do
  setField dp 16 4 OperatorState.running.code
  setField dp 20 4 OperatorError.none.code
  setField dp 232 8 0
  setField dp 240 8 0
  setField dp 248 8 0
  setField dp 256 8 0

def concludeRun (dp : Nat) (success : Bool) : Kernel Bool := do
  let now ← descriptorAt dp
  if !success && now.error == OperatorError.none.code then
    setField dp 20 4 OperatorError.execution.code
  if success && now.modeledCycles == 0 then setField dp 240 8 now.operationCount
  setField dp 16 4 (if success then OperatorState.complete.code else OperatorState.error.code)
  return success

def rejectRun (dp : Nat) (error : OperatorError) : Kernel Bool := do
  setField dp 16 4 OperatorState.error.code
  setField dp 20 4 error.code
  return false

def dispatchGem5HybridOperator (dp base capacity elapsed : Nat) : Kernel Bool := do
  let d ← descriptorAt dp
  match validateGem5HybridDescriptor d base capacity with
  | .none =>
    beginRun dp
    let success ← runKernel ops dp base elapsed (OperatorOpcode.ofCode (← descriptorAt dp).opcode)
    concludeRun dp success
  | error => rejectRun dp error

end Dispatch

/-! ## The started descriptor -/

def started (dp : Nat) (m : ByteMem) : ByteMem := (beginRun dp m).state

theorem started_load (dp : Nat) (m : ByteMem) {a n : Nat} (hLow : a + n ≤ dp + 16 ∨ dp + 24 ≤ a)
    (hHigh : a + n ≤ dp + 232 ∨ dp + 264 ≤ a) : (started dp m).load a n = m.load a n := by
  have hState : started dp m = ((((((m.storeWord (dp + 16) 4 2).storeWord (dp + 20) 4 0).storeWord
      (dp + 232) 8 0).storeWord (dp + 240) 8 0).storeWord (dp + 248) 8 0).storeWord
        (dp + 256) 8 0) := rfl
  rw [hState]
  simp only [ByteMem.storeWord]
  rw [ByteMem.load_store_disjoint, ByteMem.load_store_disjoint, ByteMem.load_store_disjoint,
    ByteMem.load_store_disjoint, ByteMem.load_store_disjoint, ByteMem.load_store_disjoint] <;> omega

/-- Two descriptors that declare the same ranges. -/
structure SameRanges (d d' : OperatorDescriptor) : Prop where
  tensorCount : d'.tensorCount = d.tensorCount
  tensors : ∀ i < d.tensorCount,
    (d'.tensors i).address = (d.tensors i).address ∧ (d'.tensors i).size = (d.tensors i).size
  quantizationCount : d'.quantizationCount = d.quantizationCount
  multiplierAddress : d'.multiplierAddress = d.multiplierAddress
  shiftAddress : d'.shiftAddress = d.shiftAddress

theorem started_sameRanges {dp : Nat} {m : ByteMem}
    (hCount : (OperatorDescriptor.read m dp).tensorCount ≤ operatorMaxTensors) :
    SameRanges (.read m dp) (.read (started dp m) dp) where
  tensorCount := started_load dp m (by omega) (by omega)
  tensors i hi := by
    have hi4 : i < 4 := Nat.lt_of_lt_of_le hi hCount
    exact ⟨started_load dp m (by omega) (by omega), started_load dp m (by omega) (by omega)⟩
  quantizationCount := started_load dp m (by omega) (by omega)
  multiplierAddress := started_load dp m (by omega) (by omega)
  shiftAddress := started_load dp m (by omega) (by omega)

namespace SameRanges

variable {d d' : OperatorDescriptor} {base capacity : Nat}

theorem declaredInside (h : SameRanges d d') (hWords : ∀ i, (d'.tensors i).Words)
    (hInside : DeclaredInside d base capacity) : DeclaredInside d' base capacity where
  words := hWords
  tensors i hi := by
    have hi' : i < d.tensorCount := h.tensorCount ▸ hi
    rw [(h.tensors i hi').1, (h.tensors i hi').2]
    exact hInside.tensors i hi'
  multipliers hCount := by
    rw [h.multiplierAddress, h.quantizationCount]
    exact hInside.multipliers (h.quantizationCount ▸ hCount)
  shifts hCount := by
    rw [h.shiftAddress, h.quantizationCount]
    exact hInside.shifts (h.quantizationCount ▸ hCount)

theorem declaredRange_eq (h : SameRanges d d') {region : Region} (hDeclared : Declared d region) :
    declaredRange d' base region = declaredRange d base region := by
  cases region with
  | tensor i =>
    rw [declaredRange, declaredRange, (h.tensors i hDeclared).1, (h.tensors i hDeclared).2]
  | multiplier => rw [declaredRange, declaredRange, h.multiplierAddress, h.quantizationCount]
  | shift => rw [declaredRange, declaredRange, h.shiftAddress, h.quantizationCount]

theorem declared_iff (h : SameRanges d d') (region : Region) :
    Declared d' region ↔ Declared d region := by
  cases region with
  | tensor i => rw [Declared, Declared, h.tensorCount]
  | multiplier => rw [Declared, Declared, h.quantizationCount]
  | shift => rw [Declared, Declared, h.quantizationCount]

theorem within_iff (h : SameRanges d d') (region : Region) (offset bytes : Nat) :
    Within d' base capacity region offset bytes ↔ Within d base capacity region offset bytes := by
  constructor
  · rintro ⟨hDeclared, hAbove, hBelow, hInside⟩
    have hDeclared' := (h.declared_iff region).mp hDeclared
    rw [h.declaredRange_eq hDeclared'] at hAbove hBelow
    exact ⟨hDeclared', hAbove, hBelow, hInside⟩
  · rintro ⟨hDeclared, hAbove, hBelow, hInside⟩
    refine ⟨(h.declared_iff region).mpr hDeclared, ?_, ?_, hInside⟩ <;>
      rwa [h.declaredRange_eq hDeclared]

theorem inside_iff (h : SameRanges d d') (e : Access) :
    e.Inside d' base capacity ↔ e.Inside d base capacity := by
  cases e with
  | read region offset bytes => exact h.within_iff region offset bytes
  | write region offset bytes => exact h.within_iff region offset bytes
  | divide _ => exact Iff.rfl
  | divideFloat _ => exact Iff.rfl
  | requantize _ => exact Iff.rfl

end SameRanges

/-! ## Staying inside -/

section Inside

variable {F : Type} (ops : FloatOps F)

/-- No access of the dispatch leaves the ranges that the descriptor declares on entry. -/
def StaysInside (m : ByteMem) (dp base capacity elapsed : Nat) : Prop :=
  ∀ e ∈ (dispatchGem5HybridOperator ops dp base capacity elapsed m).trace,
    e.Inside (.read m dp) base capacity

/-- The checks of a convolution kernel accept the memory they find. -/
def ChecksPass (d : OperatorDescriptor) (base : Nat) (m : ByteMem) : Prop :=
  (OperatorOpcode.ofCode d.opcode = some .conv2DInt8 ∧
      (conv2DChecks base d m).result.isSome = true) ∨
    (OperatorOpcode.ofCode d.opcode = some .depthwiseConv2DInt8 ∧
      (depthwiseChecks base d m).result.isSome = true)

/-- A convolution passes all its checks although its bias is shorter than the output channels. -/
def ShortBias (m : ByteMem) (dp base capacity : Nat) : Prop :=
  validateGem5HybridDescriptor (.read m dp) base capacity = .none ∧
    ChecksPass (.read (started dp m) dp) base (started dp m) ∧
    ((OperatorDescriptor.read (started dp m) dp).tensors 2).dimensions 0 <
      ((OperatorDescriptor.read (started dp m) dp).tensors 3).dimensions 3

instance (d : OperatorDescriptor) (base : Nat) (m : ByteMem) : Decidable (ChecksPass d base m) :=
  inferInstanceAs (Decidable ((_ ∧ _) ∨ (_ ∧ _)))

instance (m : ByteMem) (dp base capacity : Nat) : Decidable (ShortBias m dp base capacity) :=
  inferInstanceAs (Decidable (_ ∧ _ ∧ _))

variable {ops} {m : ByteMem} {dp base capacity elapsed : Nat}

theorem concludeRun_trace (dp : Nat) (success : Bool) (m : ByteMem) :
    (concludeRun dp success m).trace = [] := by
  unfold concludeRun
  cases success <;> simp [Prog.bind_apply, descriptorAt, setField] <;> split <;> rfl

theorem dispatch_trace_rejected
    (h : validateGem5HybridDescriptor (.read m dp) base capacity ≠ .none) :
    (dispatchGem5HybridOperator ops dp base capacity elapsed m).trace = [] := by
  rw [dispatchGem5HybridOperator, descriptorAt_bind]
  cases hError : validateGem5HybridDescriptor (.read m dp) base capacity with
  | none => exact absurd hError h
  | _ => rfl

theorem runKernel_total (ops : FloatOps F) (dp base elapsed : Nat)
    (opcode : Option OperatorOpcode) : (runKernel ops dp base elapsed opcode).Total := by
  intro m
  rcases opcode with _ | opcode
  · rfl
  · cases opcode <;> rfl

/-- Only the kernel accesses tensors; it starts on the memory with the reset fields. -/
theorem dispatch_trace_valid
    (h : validateGem5HybridDescriptor (.read m dp) base capacity = .none) :
    (dispatchGem5HybridOperator ops dp base capacity elapsed m).trace =
      (runKernel ops dp base elapsed
        (OperatorOpcode.ofCode (OperatorDescriptor.read (started dp m) dp).opcode)
        (started dp m)).trace := by
  have hBegin : (beginRun dp m).result = some () := rfl
  have hSilent : (beginRun dp m).trace = [] := rfl
  obtain ⟨success, hSuccess⟩ := Option.isSome_iff_exists.mp
    (runKernel_total ops dp base elapsed (OperatorOpcode.ofCode
      (OperatorDescriptor.read (started dp m) dp).opcode) (started dp m))
  unfold started at hSuccess ⊢
  rw [dispatchGem5HybridOperator, descriptorAt_bind]
  simp only [h]
  rw [Prog.bind_trace hBegin, descriptorAt_bind, Prog.bind_trace hSuccess, concludeRun_trace,
    hSilent, List.nil_append, List.append_nil]

theorem trace_of_checked {α : Type} {checks : Kernel α} {rest : α → Kernel Unit}
    {d : OperatorDescriptor} {post : α → Prop}
    (hChecks : checks.Yields (Access.Inside d base capacity) post)
    (hRest : (checks m).result.isSome = true → ∀ a, post a → Safe d base capacity (rest a)) :
    ∀ e ∈ ((checks >>= rest) m).trace, e.Inside d base capacity := by
  cases hResult : (checks m).result with
  | none =>
    rw [Prog.bind_rejected hResult]
    exact fun e he => hChecks.events he
  | some a =>
    rw [Prog.bind_trace hResult]
    intro e he
    rcases List.mem_append.mp he with he | he
    · exact hChecks.events he
    · exact (hRest (by simp [hResult]) a (hChecks.returned hResult)).events he

theorem runKernel_inside (hLawful : ops.Lawful) {d : OperatorDescriptor} (hd : d = .read m dp)
    (hInside : DeclaredInside d base capacity)
    (hBias : ChecksPass d base m → (d.tensors 3).dimensions 3 ≤ (d.tensors 2).dimensions 0) :
    ∀ e ∈ (runKernel ops dp base elapsed (OperatorOpcode.ofCode d.opcode) m).trace,
      e.Inside d base capacity := by
  subst hd
  intro e he
  cases hOpcode : OperatorOpcode.ofCode (OperatorDescriptor.read m dp).opcode with
  | none =>
    rw [hOpcode] at he
    cases he
  | some opcode =>
    rw [hOpcode] at he
    cases opcode with
    | partialMobilenet => cases he
    | conv2DInt8 =>
      rw [runKernel, Prog.attempt_trace, runGem5HybridConv2D, descriptorAt_bind] at he
      refine trace_of_checked (conv2DChecks_yields hInside) (fun hPass _ hShape => ?_) e he
      exact (conv2DLoops_yields hInside dp hShape (hBias (.inl ⟨hOpcode, hPass⟩))).bind
        fun _ _ => yields_finishRun _ _ _ _ _
    | depthwiseConv2DInt8 =>
      rw [runKernel, Prog.attempt_trace, runGem5HybridDepthwiseConv2D, descriptorAt_bind] at he
      refine trace_of_checked (depthwiseChecks_yields hInside) (fun hPass q hq => ?_) e he
      obtain ⟨hShape, rfl⟩ := hq
      exact (depthwiseLoops_yields hInside dp hShape (hBias (.inr ⟨hOpcode, hPass⟩))).bind
        fun _ _ => yields_finishRun _ _ _ _ _
    | matMulInt8 =>
      rw [runKernel, Prog.attempt_trace, runGem5HybridMatMulInt8, descriptorAt_bind] at he
      exact (matMul_yields hInside dp elapsed).events he
    | fullyConnectedInt8 =>
      rw [runKernel, Prog.attempt_trace, runGem5HybridFullyConnectedInt8, descriptorAt_bind] at he
      exact (fullyConnected_yields hInside dp elapsed).events he
    | addInt8 =>
      rw [runKernel, Prog.attempt_trace, runGem5HybridAddInt8, descriptorAt_bind] at he
      exact (add_yields hInside dp elapsed).events he
    | softmax =>
      rw [runKernel, Prog.attempt_trace, runGem5HybridSoftmax, descriptorAt_bind] at he
      exact (softmax_yields hInside dp elapsed).events he
    | layerNorm =>
      rw [runKernel, Prog.attempt_trace, runGem5HybridLayerNorm, descriptorAt_bind] at he
      exact (layerNorm_yields hInside hLawful dp elapsed).events he

/-- The first bias value that the declared range does not hold. -/
def pastBias (base : Nat) (d : OperatorDescriptor) : Access :=
  .read (.tensor 2) (tensorData base (d.tensors 2) + (d.tensors 2).dimensions 0 * 4) 4

theorem pastBias_outside {d : OperatorDescriptor} {depthwise : Bool}
    (hInside : DeclaredInside d base capacity) (hShape : ConvShape d depthwise) :
    ¬ (pastBias base d).Inside d base capacity := by
  intro hWithin
  have hBelow := Within.below hWithin
  have hAbove := (hInside.tensors 2 (by rw [hShape.tensorCount]; omega)).above
  rw [tensorData_eq (hInside.words 2).address hAbove, declaredRange, hShape.bias] at hBelow
  omega

theorem runKernel_reads_past_bias (ops : FloatOps F) (elapsed : Nat) {d : OperatorDescriptor}
    (hd : d = .read m dp) (hInside : DeclaredInside d base capacity) (hPass : ChecksPass d base m)
    (hShort : (d.tensors 2).dimensions 0 < (d.tensors 3).dimensions 3) :
    pastBias base d ∈ (runKernel ops dp base elapsed (OperatorOpcode.ofCode d.opcode) m).trace ∧
      ¬ (pastBias base d).Inside d base capacity := by
  subst hd
  rcases hPass with ⟨hOpcode, hPass⟩ | ⟨hOpcode, hPass⟩
  · obtain ⟨u, hResult⟩ := Option.isSome_iff_exists.mp hPass
    have hShape := (conv2DChecks_yields hInside).returned hResult
    have hOutput := (hInside.tensors 3 (by rw [hShape.tensorCount]; omega)).nonempty
    rw [hOpcode]
    refine ⟨?_, pastBias_outside hInside hShape⟩
    rw [runKernel, Prog.attempt_trace, runGem5HybridConv2D, descriptorAt_bind, conv2DFrom,
      Prog.bind_trace hResult]
    exact List.mem_append_right _
      ((conv2DLoops_reaches dp base hShape hOutput hShort).bind_left _ _)
  · obtain ⟨q, hResult⟩ := Option.isSome_iff_exists.mp hPass
    have hShape := ((depthwiseChecks_yields hInside).returned hResult).1
    have hOutput := (hInside.tensors 3 (by rw [hShape.tensorCount]; omega)).nonempty
    rw [hOpcode]
    refine ⟨?_, pastBias_outside hInside hShape⟩
    rw [runKernel, Prog.attempt_trace, runGem5HybridDepthwiseConv2D, descriptorAt_bind,
      depthwiseFrom, Prog.bind_trace hResult]
    exact List.mem_append_right _
      ((depthwiseLoops_reaches dp base hShape hOutput hShort q).bind_left _ _)

theorem started_declaredInside (h : validateGem5HybridDescriptor (.read m dp) base
    capacity = .none) :
    SameRanges (.read m dp) (.read (started dp m) dp) ∧
      DeclaredInside (.read (started dp m) dp) base capacity := by
  have hSame := started_sameRanges (tensorCount_le_of_validate h)
  exact ⟨hSame, hSame.declaredInside (fun _ => OperatorTensor.read_words _ _)
    (declaredInside_of_validate h)⟩

theorem ShortBias.not_staysInside (h : ShortBias m dp base capacity) :
    ¬ StaysInside ops m dp base capacity elapsed := by
  obtain ⟨hValid, hPass, hShort⟩ := h
  obtain ⟨hSame, hInside⟩ := started_declaredInside hValid
  obtain ⟨hMem, hOutside⟩ := runKernel_reads_past_bias ops elapsed rfl hInside hPass hShort
  intro hStays
  rw [StaysInside, dispatch_trace_valid hValid] at hStays
  exact hOutside ((hSame.inside_iff _).mpr (hStays _ hMem))

theorem staysInside_of_not_shortBias (hLawful : ops.Lawful)
    (h : ¬ ShortBias m dp base capacity) : StaysInside ops m dp base capacity elapsed := by
  intro e he
  by_cases hValid : validateGem5HybridDescriptor (.read m dp) base capacity = .none
  · obtain ⟨hSame, hInside⟩ := started_declaredInside hValid
    rw [dispatch_trace_valid hValid] at he
    refine (hSame.inside_iff e).mp (runKernel_inside hLawful rfl hInside (fun hPass => ?_) e he)
    by_contra hShort
    exact h ⟨hValid, hPass, Nat.lt_of_not_le hShort⟩
  · rw [dispatch_trace_rejected hValid] at he
    cases he

theorem dispatch_stays_inside_iff (hLawful : ops.Lawful) (m : ByteMem)
    (dp base capacity elapsed : Nat) :
    StaysInside ops m dp base capacity elapsed ↔ ¬ ShortBias m dp base capacity :=
  ⟨fun hStays hShort => hShort.not_staysInside hStays, staysInside_of_not_shortBias hLawful⟩

end Inside

/-- A 1x1 convolution from one to two channels whose bias has `biasLength` values. -/
def pointwiseWords (base biasLength : Nat) : List Nat :=
  [operatorAbiMagic, operatorAbiVersion, descriptorBytes, OperatorOpcode.conv2DInt8.code,
    OperatorState.submitted.code, 0, 0, OperatorMode.hybrid.code, 4,
    base, 1, 4, 1, 1, 1, 1, ElementType.int8.code, 0,
    base + 16, 2, 4, 2, 1, 1, 1, ElementType.int8.code, 0,
    base + 32, biasLength * 4, 1, biasLength, 0, 0, 0, ElementType.int32.code, 0,
    base + 64, 2, 4, 1, 1, 1, 2, ElementType.int8.code, 0,
    1, 1, 0, 0, base + 96, base + 128, 0, 2 ^ 32 - 128, 127, 2]

/-- The value of a finite single-precision pattern. -/
def decodeFloat (bits : Nat) : ℚ :=
  let exponent := bits / 2 ^ 23 % 2 ^ 8
  let significand : ℚ := (if exponent = 0 then 0 else 2 ^ 23) + (bits % 2 ^ 23 : Nat)
  (if bits < 2 ^ 31 then 1 else -1) * significand * 2 ^ max exponent 1 / 2 ^ 150

/-- Exact real arithmetic on decoded patterns; results are not encoded back. -/
noncomputable def exactFloat : FloatOps ℝ where
  ofBits bits := decodeFloat bits
  toBits _ := 0
  ofInt n := n
  add := (· + ·)
  sub := (· - ·)
  mul := (· * ·)
  div := (· / ·)
  sqrt := Real.sqrt
  exp := Real.exp
  lround := round
  lt a b := decide (a < b)
  eq a b := decide (a = b)
  isFinite _ := true

theorem exactFloat_zero : exactFloat.zero = 0 := by
  simp [FloatOps.zero, exactFloat, decodeFloat]

theorem exactFloat_nonneg (a : ℝ) : exactFloat.lt a exactFloat.zero = false ↔ 0 ≤ a := by
  rw [exactFloat_zero]
  exact decide_eq_false_iff_not.trans not_lt

theorem exactFloat_pos (a : ℝ) : exactFloat.lt exactFloat.zero a = true ↔ 0 < a := by
  rw [exactFloat_zero]
  exact decide_eq_true_iff

theorem exactFloat_ne_zero (a : ℝ) : exactFloat.eq a exactFloat.zero = false ↔ a ≠ 0 := by
  rw [exactFloat_zero]
  exact decide_eq_false_iff_not

theorem exactFloat_lawful : exactFloat.Lawful where
  zero_not_lt := (exactFloat_nonneg _).mpr exactFloat_zero.ge
  square_not_lt a := (exactFloat_nonneg _).mpr (mul_self_nonneg a)
  add_not_lt a b ha hb := (exactFloat_nonneg _).mpr
    (add_nonneg ((exactFloat_nonneg a).mp ha) ((exactFloat_nonneg b).mp hb))
  div_not_lt a n ha _ _ := (exactFloat_nonneg _).mpr
    (div_nonneg ((exactFloat_nonneg a).mp ha) (Int.cast_nonneg (Int.natCast_nonneg n)))
  ofInt_ne_zero n hn _ := (exactFloat_ne_zero _).mpr (by simpa [exactFloat] using hn)
  sqrt_ne_zero a e ha he := (exactFloat_ne_zero _).mpr (Real.sqrt_pos.mpr
    (add_pos_of_nonneg_of_pos ((exactFloat_nonneg a).mp ha) ((exactFloat_pos e).mp he))).ne'
  pos_of_finite e _ hLt hEq := (exactFloat_pos e).mpr
    (((exactFloat_nonneg e).mp hLt).lt_of_ne ((exactFloat_ne_zero e).mp hEq).symm)
  defaultEpsilon_pos := (exactFloat_pos _).mpr (by
    norm_num [FloatOps.defaultEpsilon, exactFloat, decodeFloat])

theorem dispatch_stays_inside_pointwise :
    StaysInside exactFloat (ByteMem.ofWords 512 (pointwiseWords 0x20000000 2)) 512 0x20000000 4096
      0 :=
  (dispatch_stays_inside_iff exactFloat_lawful _ _ _ _ _).mpr (by decide +kernel)

theorem dispatch_reads_past_short_bias :
    ¬ ∀ (m : ByteMem) (dp base capacity elapsed : Nat), capacity ≤ 8 * 1024 * 1024 →
      StaysInside exactFloat m dp base capacity elapsed := by
  intro hStays
  have hShort : ShortBias (ByteMem.ofWords 512 (pointwiseWords 0x20000000 1)) 512 0x20000000
      4096 := by
    decide +kernel
  exact hShort.not_staysInside (hStays _ _ _ _ 0 (by decide))

end OpenNpux.Hybrid
