import OpenNpux.Hybrid.Descriptor
import OpenNpux.Lib.Prog

/-!
# Kernel programs over host memory

A kernel runs on the host memory that holds EXTMEM at offset zero and the descriptor
at some offset, inside EXTMEM or beyond it. Every access through a tensor, every division
and every requantization is an event; a kernel that returns `false` is a rejected
program. A kernel reads the descriptor again wherever the source dereferences it after
its first store.
-/

namespace OpenNpux.Hybrid

open Lib

inductive Region
  | tensor (index : Nat)
  | multiplier
  | shift
deriving DecidableEq

inductive Access
  | read (region : Region) (offset bytes : Nat)
  | write (region : Region) (offset bytes : Nat)
  | divide (divisor : Nat)
  | divideFloat (zero : Bool)
  | requantize (shift : Int)
deriving DecidableEq

abbrev Kernel (α : Type) := Prog ByteMem Access α

def descriptorAt (dp : Nat) : Kernel OperatorDescriptor := do
  return .read (← Prog.get) dp

theorem descriptorAt_bind {α : Type} (dp : Nat) (f : OperatorDescriptor → Kernel α) (m : ByteMem) :
    (descriptorAt dp >>= f) m = f (.read m dp) m := rfl

def setField (dp offset bytes value : Nat) : Kernel Unit :=
  Prog.modify fun m => m.storeWord (dp + offset) bytes value

def loadBits (region : Region) (offset : Nat) : Kernel Nat := do
  Prog.emit (.read region offset 4)
  return (← Prog.get).load offset 4

def loadI32 (region : Region) (offset : Nat) : Kernel Int := do
  return i32 (← loadBits region offset)

def loadI8 (region : Region) (offset : Nat) : Kernel Int := do
  Prog.emit (.read region offset 1)
  return i8 ((← Prog.get) offset).toNat

def storeBits (region : Region) (offset bits : Nat) : Kernel Unit := do
  Prog.emit (.write region offset 4)
  Prog.modify fun m => m.storeWord offset 4 bits

def storeI8 (region : Region) (offset : Nat) (value : Int) : Kernel Unit := do
  Prog.emit (.write region offset 1)
  Prog.modify fun m => m.storeWord offset 1 (u32 value)

def divide (a b : Nat) : Kernel Nat := do
  Prog.emit (.divide b)
  return a / b

def modulo (a b : Nat) : Kernel Nat := do
  Prog.emit (.divide b)
  return a % b

/-- The source's `TensorData`, as an offset from the start of EXTMEM. -/
def tensorData (base : Nat) (t : OperatorTensor) : Nat := u32 (t.address - base)

theorem tensorData_eq {base : Nat} {t : OperatorTensor} (hAddress : t.address < 2 ^ 32)
    (hBase : base ≤ t.address) : tensorData base t = t.address - base := by
  rw [tensorData, ← Int.ofNat_sub hBase, u32_natCast (by omega)]

def centeredProduct (dp lhsOffset rhsOffset : Nat) : Kernel Int := do
  let lhs ← loadI8 (.tensor 0) lhsOffset
  let rhs ← loadI8 (.tensor 1) rhsOffset
  let now ← descriptorAt dp
  return i32 (i32 (lhs - (now.tensors 0).zeroPoint) * i32 (rhs - (now.tensors 1).zeroPoint))

def clampActivation (d : OperatorDescriptor) (value : Int) : Int :=
  max d.activationMin (min d.activationMax value)

/-- The statistics a kernel leaves in the descriptor before it returns `true`. -/
def finishRun (dp operations elapsed output : Nat) (bytesRead : OperatorDescriptor → Nat) :
    Kernel Unit := do
  setField dp 224 8 operations
  let now ← descriptorAt dp
  setField dp 248 8 (bytesRead now)
  setField dp 256 8 (now.tensors output).size
  setField dp 232 8 elapsed

/-! ## Staying inside the declared ranges -/

/-- Start and length of what the descriptor declares for a region. -/
def declaredRange (d : OperatorDescriptor) (base : Nat) : Region → Nat × Nat
  | .tensor i => ((d.tensors i).address - base, (d.tensors i).size)
  | .multiplier => (d.multiplierAddress - base, d.quantizationCount * 4)
  | .shift => (d.shiftAddress - base, d.quantizationCount * 4)

def Declared (d : OperatorDescriptor) : Region → Prop
  | .tensor i => i < d.tensorCount
  | .multiplier | .shift => d.quantizationCount ≠ 0

/-- An access stays inside its declared range and inside EXTMEM. -/
structure Within (d : OperatorDescriptor) (base capacity : Nat) (region : Region)
    (offset bytes : Nat) : Prop where
  declared : Declared d region
  above : (declaredRange d base region).1 ≤ offset
  below : offset + bytes ≤ (declaredRange d base region).1 + (declaredRange d base region).2
  inside : offset + bytes ≤ capacity

def Access.Inside (d : OperatorDescriptor) (base capacity : Nat) : Access → Prop
  | .read region offset bytes => Within d base capacity region offset bytes
  | .write region offset bytes => Within d base capacity region offset bytes
  | .divide divisor => divisor ≠ 0
  | .divideFloat zero => zero = false
  | .requantize _ => True

/-- Every access of the program is an allowed one, from whatever memory it starts. -/
abbrev Safe {α : Type} (d : OperatorDescriptor) (base capacity : Nat) (p : Kernel α) : Prop :=
  p.Yields (Access.Inside d base capacity) fun _ => True

namespace DeclaredInside

variable {d : OperatorDescriptor} {base capacity : Nat}

theorem within_tensor (h : DeclaredInside d base capacity) {i index bytes : Nat}
    (hi : i < d.tensorCount) (hIndex : index + bytes ≤ (d.tensors i).size) :
    Within d base capacity (.tensor i) (tensorData base (d.tensors i) + index) bytes := by
  obtain ⟨_, hAbove, hBelow⟩ := h.tensors i hi
  rw [tensorData_eq (h.words i).address hAbove]
  exact ⟨hi, Nat.le_add_right _ _, by simp only [declaredRange]; omega, by omega⟩

theorem within_multiplier (h : DeclaredInside d base capacity) {i : Nat}
    (hi : i < d.quantizationCount) :
    Within d base capacity .multiplier (d.multiplierAddress - base + i * 4) 4 := by
  obtain ⟨_, hAbove, hBelow⟩ := h.multipliers (by omega)
  exact ⟨Nat.ne_of_gt (by omega), Nat.le_add_right _ _, by simp only [declaredRange]; omega,
    by omega⟩

theorem within_shift (h : DeclaredInside d base capacity) {i : Nat}
    (hi : i < d.quantizationCount) :
    Within d base capacity .shift (d.shiftAddress - base + i * 4) 4 := by
  obtain ⟨_, hAbove, hBelow⟩ := h.shifts (by omega)
  exact ⟨Nat.ne_of_gt (by omega), Nat.le_add_right _ _, by simp only [declaredRange]; omega,
    by omega⟩

end DeclaredInside

/-! ## Events of the primitives -/

section Events

variable {ok : Access → Prop}

theorem yields_descriptorAt (dp : Nat) : (descriptorAt dp).Yields ok fun _ => True :=
  Prog.Yields.get.bind fun _ _ => .pure trivial

theorem yields_setField (dp offset bytes value : Nat) :
    (setField dp offset bytes value).Yields ok fun _ => True :=
  Prog.Yields.modify _

theorem yields_loadBits {region : Region} {offset : Nat} (h : ok (.read region offset 4)) :
    (loadBits region offset).Yields ok fun _ => True :=
  (Prog.Yields.emit h).bind fun _ _ => Prog.Yields.get.bind fun _ _ => .pure trivial

theorem yields_loadI32 {region : Region} {offset : Nat} (h : ok (.read region offset 4)) :
    (loadI32 region offset).Yields ok fun _ => True :=
  (yields_loadBits h).bind fun _ _ => .pure trivial

theorem yields_loadI8 {region : Region} {offset : Nat} (h : ok (.read region offset 1)) :
    (loadI8 region offset).Yields ok fun _ => True :=
  (Prog.Yields.emit h).bind fun _ _ => Prog.Yields.get.bind fun _ _ => .pure trivial

theorem yields_storeBits {region : Region} {offset bits : Nat} (h : ok (.write region offset 4)) :
    (storeBits region offset bits).Yields ok fun _ => True :=
  (Prog.Yields.emit h).bind fun _ _ => Prog.Yields.modify _

theorem yields_storeI8 {region : Region} {offset : Nat} {value : Int}
    (h : ok (.write region offset 1)) : (storeI8 region offset value).Yields ok fun _ => True :=
  (Prog.Yields.emit h).bind fun _ _ => Prog.Yields.modify _

theorem yields_divide (a : Nat) {b : Nat} (h : ok (.divide b)) :
    (divide a b).Yields ok fun q => q = a / b :=
  (Prog.Yields.emit h).bind fun _ _ => .pure rfl

theorem yields_modulo (a : Nat) {b : Nat} (h : ok (.divide b)) :
    (modulo a b).Yields ok fun r => r = a % b :=
  (Prog.Yields.emit h).bind fun _ _ => .pure rfl

theorem yields_finishRun (dp operations elapsed output : Nat)
    (bytesRead : OperatorDescriptor → Nat) :
    (finishRun dp operations elapsed output bytesRead).Yields ok fun _ => True := by
  refine (yields_setField _ _ _ _).bind fun _ _ => ?_
  refine (yields_descriptorAt dp).bind fun _ _ => ?_
  refine (yields_setField _ _ _ _).bind fun _ _ => ?_
  exact (yields_setField _ _ _ _).bind fun _ _ => yields_setField _ _ _ _

theorem centeredProduct_yields {d : OperatorDescriptor} {base capacity : Nat}
    (hInside : DeclaredInside d base capacity) (dp : Nat) {i j : Nat} (hCount : 1 < d.tensorCount)
    (hi : i < (d.tensors 0).size) (hj : j < (d.tensors 1).size) :
    Safe d base capacity (centeredProduct dp (tensorData base (d.tensors 0) + i)
      (tensorData base (d.tensors 1) + j)) := by
  refine (yields_loadI8 (hInside.within_tensor (by omega) (by omega))).bind fun _ _ => ?_
  refine (yields_loadI8 (hInside.within_tensor hCount (by omega))).bind fun _ _ => ?_
  exact (yields_descriptorAt dp).bind fun _ _ => .pure trivial

end Events

/-! ## The primitives never reject -/

theorem total_descriptorAt (dp : Nat) : (descriptorAt dp).Total :=
  Prog.Total.get.bind fun _ => .pure _

theorem total_loadBits (region : Region) (offset : Nat) : (loadBits region offset).Total :=
  (Prog.Total.emit _).bind fun _ => Prog.Total.get.bind fun _ => .pure _

theorem total_loadI32 (region : Region) (offset : Nat) : (loadI32 region offset).Total :=
  (total_loadBits _ _).bind fun _ => .pure _

theorem total_loadI8 (region : Region) (offset : Nat) : (loadI8 region offset).Total :=
  (Prog.Total.emit _).bind fun _ => Prog.Total.get.bind fun _ => .pure _

theorem total_storeI8 (region : Region) (offset : Nat) (value : Int) :
    (storeI8 region offset value).Total :=
  (Prog.Total.emit _).bind fun _ => .modify _

theorem total_divide (a b : Nat) : (divide a b).Total :=
  (Prog.Total.emit _).bind fun _ => .pure _

theorem centeredProduct_total (dp lhs rhs : Nat) : (centeredProduct dp lhs rhs).Total :=
  (total_loadI8 _ _).bind fun _ => (total_loadI8 _ _).bind fun _ =>
    (total_descriptorAt dp).bind fun _ => .pure _

end OpenNpux.Hybrid
