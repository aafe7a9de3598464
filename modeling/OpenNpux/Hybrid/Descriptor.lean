import OpenNpux.Lib.Bytes
import OpenNpux.Lib.CInt

/-!
# The hybrid operator descriptor

The descriptor is a C structure of 296 bytes in memory; the bridge finds it inside
EXTMEM, next to the tensors it describes. `OperatorDescriptor.read` decodes it from the
bytes at its address, so that a later store to those bytes changes what is read.
-/

namespace OpenNpux.Hybrid

open Lib

def operatorAbiMagic : Nat := 0x4e50584f

def operatorAbiVersion : Nat := 4

/-- The value of `sizeof(coral_operator_descriptor)`. -/
def descriptorBytes : Nat := 296

def operatorMaxTensors : Nat := 4

def operatorMaxDims : Nat := 4

inductive OperatorMode
  | rtl | hybrid | sampled
deriving DecidableEq

def OperatorMode.code : OperatorMode → Nat
  | .rtl => 0
  | .hybrid => 1
  | .sampled => 2

inductive OperatorOpcode
  | partialMobilenet | conv2DInt8 | depthwiseConv2DInt8 | matMulInt8 | fullyConnectedInt8
  | addInt8 | softmax | layerNorm
deriving DecidableEq

def OperatorOpcode.code : OperatorOpcode → Nat
  | .partialMobilenet => 1
  | .conv2DInt8 => 2
  | .depthwiseConv2DInt8 => 3
  | .matMulInt8 => 4
  | .fullyConnectedInt8 => 5
  | .addInt8 => 6
  | .softmax => 7
  | .layerNorm => 8

def OperatorOpcode.ofCode : Nat → Option OperatorOpcode
  | 1 => some .partialMobilenet
  | 2 => some .conv2DInt8
  | 3 => some .depthwiseConv2DInt8
  | 4 => some .matMulInt8
  | 5 => some .fullyConnectedInt8
  | 6 => some .addInt8
  | 7 => some .softmax
  | 8 => some .layerNorm
  | _ => none

inductive OperatorState
  | idle | submitted | running | complete | error
deriving DecidableEq

def OperatorState.code : OperatorState → Nat
  | .idle => 0
  | .submitted => 1
  | .running => 2
  | .complete => 3
  | .error => 4

inductive OperatorError
  | none | badDescriptor | unsupported | execution | address
deriving DecidableEq

def OperatorError.code : OperatorError → Nat
  | .none => 0
  | .badDescriptor => 1
  | .unsupported => 2
  | .execution => 3
  | .address => 4

inductive ElementType
  | int8 | int32 | float32
deriving DecidableEq

def ElementType.code : ElementType → Nat
  | .int8 => 1
  | .int32 => 2
  | .float32 => 3

structure OperatorTensor where
  address : Nat
  size : Nat
  rank : Nat
  dimensions : Nat → Nat
  elementType : Nat
  zeroPoint : Int

structure OperatorDescriptor where
  magic : Nat
  version : Nat
  descriptorSize : Nat
  opcode : Nat
  state : Nat
  error : Nat
  flags : Nat
  executionMode : Nat
  tensorCount : Nat
  tensors : Nat → OperatorTensor
  strideHeight : Nat
  strideWidth : Nat
  paddingHeight : Nat
  paddingWidth : Nat
  multiplierAddress : Nat
  shiftAddress : Nat
  outputZeroPoint : Int
  activationMin : Int
  activationMax : Int
  quantizationCount : Nat
  operationCount : Nat
  hostElapsedNs : Nat
  modeledCycles : Nat
  bytesRead : Nat
  bytesWritten : Nat
  reserved : Nat → Nat

def OperatorTensor.read (m : ByteMem) (p : Nat) : OperatorTensor where
  address := m.load p 4
  size := m.load (p + 4) 4
  rank := m.load (p + 8) 4
  dimensions i := m.load (p + 12 + 4 * i) 4
  elementType := m.load (p + 28) 4
  zeroPoint := i32 (m.load (p + 32) 4)

def OperatorDescriptor.read (m : ByteMem) (p : Nat) : OperatorDescriptor where
  magic := m.load p 4
  version := m.load (p + 4) 4
  descriptorSize := m.load (p + 8) 4
  opcode := m.load (p + 12) 4
  state := m.load (p + 16) 4
  error := m.load (p + 20) 4
  flags := m.load (p + 24) 4
  executionMode := m.load (p + 28) 4
  tensorCount := m.load (p + 32) 4
  tensors i := .read m (p + 36 + 36 * i)
  strideHeight := m.load (p + 180) 4
  strideWidth := m.load (p + 184) 4
  paddingHeight := m.load (p + 188) 4
  paddingWidth := m.load (p + 192) 4
  multiplierAddress := m.load (p + 196) 4
  shiftAddress := m.load (p + 200) 4
  outputZeroPoint := i32 (m.load (p + 204) 4)
  activationMin := i32 (m.load (p + 208) 4)
  activationMax := i32 (m.load (p + 212) 4)
  quantizationCount := m.load (p + 216) 4
  operationCount := m.load (p + 224) 8
  hostElapsedNs := m.load (p + 232) 8
  modeledCycles := m.load (p + 240) 8
  bytesRead := m.load (p + 248) 8
  bytesWritten := m.load (p + 256) 8
  reserved i := m.load (p + 264 + 4 * i) 4

/-! ## Validation -/

def rangeValid (address size base capacity : Nat) : Bool :=
  size != 0 && decide (size ≤ capacity) && decide (base ≤ address) &&
    decide (address - base ≤ capacity - size)

def tensorValid (t : OperatorTensor) (base capacity : Nat) : Bool :=
  (t.elementType == ElementType.int8.code || t.elementType == ElementType.int32.code ||
      t.elementType == ElementType.float32.code) &&
    t.rank != 0 && decide (t.rank ≤ operatorMaxDims) && rangeValid t.address t.size base capacity

def headerValid (d : OperatorDescriptor) : Bool :=
  d.magic == operatorAbiMagic && d.version == operatorAbiVersion &&
    d.descriptorSize == descriptorBytes && d.executionMode == OperatorMode.hybrid.code &&
    d.state == OperatorState.submitted.code && decide (d.tensorCount ≤ operatorMaxTensors)

def quantizationValid (d : OperatorDescriptor) (base capacity : Nat) : Bool :=
  d.quantizationCount == 0 ||
    (decide (d.quantizationCount * 4 < 2 ^ 32) &&
      rangeValid d.multiplierAddress (d.quantizationCount * 4) base capacity &&
      rangeValid d.shiftAddress (d.quantizationCount * 4) base capacity)

/-- Every check on a tensor reports the same error, so their order is not kept. -/
def validateGem5HybridDescriptor (d : OperatorDescriptor) (base capacity : Nat) : OperatorError :=
  if !headerValid d then .badDescriptor
  else if !(List.range d.tensorCount).all (fun i => tensorValid (d.tensors i) base capacity) then
    .address
  else if (d.multiplierAddress == 0) != (d.shiftAddress == 0) then .badDescriptor
  else if !quantizationValid d base capacity then .address
  else .none

/-- A declared range lies inside EXTMEM. -/
structure RangeInside (address size base capacity : Nat) : Prop where
  nonempty : 0 < size
  above : base ≤ address
  below : address + size ≤ base + capacity

theorem rangeValid_iff (address size base capacity : Nat) :
    rangeValid address size base capacity = true ↔ RangeInside address size base capacity := by
  simp only [rangeValid, Bool.and_eq_true, bne_iff_ne, decide_eq_true_eq]
  constructor
  · rintro ⟨⟨⟨hSize, hFits⟩, hAbove⟩, hRoom⟩
    exact ⟨by omega, hAbove, by omega⟩
  · rintro ⟨hSize, hAbove, hBelow⟩
    omega

structure OperatorTensor.Words (t : OperatorTensor) : Prop where
  address : t.address < 2 ^ 32
  size : t.size < 2 ^ 32
  dimensions : ∀ i, t.dimensions i < 2 ^ 32

theorem OperatorTensor.read_words (m : ByteMem) (p : Nat) : (read m p).Words :=
  ⟨m.load_lt p 4, m.load_lt (p + 4) 4, fun i => m.load_lt (p + 12 + 4 * i) 4⟩

/-- What validation guarantees to every kernel. -/
structure DeclaredInside (d : OperatorDescriptor) (base capacity : Nat) : Prop where
  words : ∀ i, (d.tensors i).Words
  tensors : ∀ i < d.tensorCount,
    RangeInside (d.tensors i).address (d.tensors i).size base capacity
  multipliers : d.quantizationCount ≠ 0 →
    RangeInside d.multiplierAddress (d.quantizationCount * 4) base capacity
  shifts : d.quantizationCount ≠ 0 →
    RangeInside d.shiftAddress (d.quantizationCount * 4) base capacity

theorem tensorCount_le_of_validate {d : OperatorDescriptor} {base capacity : Nat}
    (h : validateGem5HybridDescriptor d base capacity = .none) :
    d.tensorCount ≤ operatorMaxTensors := by
  by_contra hCount
  simp [validateGem5HybridDescriptor, headerValid, hCount] at h

theorem declaredInside_of_validate {m : ByteMem} {p base capacity : Nat}
    (h : validateGem5HybridDescriptor (.read m p) base capacity = .none) :
    DeclaredInside (.read m p) base capacity := by
  unfold validateGem5HybridDescriptor at h
  split at h
  · cases h
  split at h
  · cases h
  split at h
  · cases h
  split at h
  · cases h
  rename_i _ hTensors _ hQuantization
  simp only [Bool.not_eq_true', Bool.not_eq_false, List.all_eq_true, List.mem_range, tensorValid,
    Bool.and_eq_true, rangeValid_iff] at hTensors
  simp only [Bool.not_eq_true', Bool.not_eq_false, quantizationValid, Bool.or_eq_true, beq_iff_eq,
    Bool.and_eq_true, decide_eq_true_eq, rangeValid_iff] at hQuantization
  refine ⟨fun i => OperatorTensor.read_words m _, fun i hi => (hTensors i hi).2, ?_, ?_⟩
  · exact fun hCount => (hQuantization.resolve_left hCount).1.2
  · exact fun hCount => (hQuantization.resolve_left hCount).2

end OpenNpux.Hybrid
