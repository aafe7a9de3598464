import Mathlib.Algebra.GroupWithZero.Nat
import Mathlib.Logic.Function.Iterate

/-!
# The custom multiply-accumulate unit

The registers of the RTL block and the bridge object that clocks it. A command counts
three clocks down; while it runs, another command is ignored and the operand registers
stay writable. The bridge clocks the block only while it believes it to be active.
-/

namespace OpenNpux.Bridge

structure MacRtl where
  operandA : UInt32 := 0
  operandB : UInt32 := 0
  accumulator : UInt32 := 0
  result : UInt32 := 0
  cycles : UInt32 := 0
  countdown : BitVec 3 := 0
  busy : Bool := false
  done : Bool := false
deriving DecidableEq

namespace MacRtl

def countDown (r : MacRtl) : MacRtl :=
  if r.busy then
    if r.countdown = 1 then
      { r with
        cycles := r.cycles + 1
        result := r.operandA * r.operandB + r.accumulator
        countdown := 0
        busy := false
        done := true }
    else { r with cycles := r.cycles + 1, countdown := r.countdown - 1 }
  else r

/-- One rising edge; a register write sees the values from before the edge. -/
def posedge (r : MacRtl) (write : Option (UInt8 × UInt32)) : MacRtl :=
  match write with
  | none => r.countDown
  | some (0x00, value) => { r.countDown with operandA := value }
  | some (0x04, value) => { r.countDown with operandB := value }
  | some (0x08, value) => { r.countDown with accumulator := value }
  | some (0x0c, value) =>
    if value &&& 1 = 1 ∧ r.busy = false then
      { r.countDown with countdown := 3, busy := true, done := false }
    else r.countDown
  | some _ => r.countDown

def readData (r : MacRtl) : UInt8 → UInt32
  | 0x00 => r.operandA
  | 0x04 => r.operandB
  | 0x08 => r.accumulator
  | 0x10 => r.result
  | 0x14 => (if r.busy then 2 else 0) + (if r.done then 1 else 0)
  | 0x18 => r.cycles
  | 0x1c => 0x4e5058a1
  | _ => 0

end MacRtl

structure Gem5CustomMac where
  model : MacRtl := {}
  activeCycles : Nat := 0
deriving DecidableEq

namespace Gem5CustomMac

def macBase : Nat := 0x30000000

def macSize : Nat := 0x100

def reset (_ : Gem5CustomMac) : Gem5CustomMac := {}

def step (mac : Gem5CustomMac) : Gem5CustomMac := { mac with model := mac.model.posedge none }

def stepIfActive (mac : Gem5CustomMac) : Gem5CustomMac :=
  if mac.activeCycles = 0 then mac
  else { mac.step with activeCycles := mac.activeCycles - 1 }

def contains (addr size : Nat) : Bool :=
  decide (macBase ≤ addr) && size != 0 && decide (addr - macBase < macSize) &&
    decide (size ≤ macSize - (addr - macBase))

/-- The eight-bit address input, from the 32-bit difference to the base. -/
def addrInput (addr : Nat) : UInt8 := UInt8.ofNat ((addr + 2 ^ 32 - macBase) % 2 ^ 32)

def write32 (mac : Gem5CustomMac) (addr : Nat) (value : UInt32) : Gem5CustomMac :=
  let model := mac.model.posedge (some (addrInput addr, value))
  if addr = macBase + 0x0c ∧ value &&& 1 ≠ 0 then { model, activeCycles := 3 }
  else { mac with model }

def read32 (mac : Gem5CustomMac) (addr : Nat) : UInt32 :=
  mac.model.readData (addrInput addr)

/-! ## A command runs to its end -/

structure Idle (mac : Gem5CustomMac) : Prop where
  activeCycles : mac.activeCycles = 0
  busy : mac.model.busy = false

/-- The block needs `left` more clocks to show `value`. -/
structure Computes (mac : Gem5CustomMac) (left : Nat) (value : UInt32) : Prop where
  activeCycles : mac.activeCycles = left
  countdown : left ≤ 3 ∧ mac.model.countdown = BitVec.ofNat 3 left
  busy : mac.model.busy = decide (0 < left)
  done : mac.model.done = decide (left = 0)
  value : (if left = 0 then mac.model.result
    else mac.model.operandA * mac.model.operandB + mac.model.accumulator) = value

theorem Computes.idle {mac : Gem5CustomMac} {value : UInt32} (h : mac.Computes 0 value) :
    mac.Idle :=
  ⟨h.activeCycles, h.busy⟩

theorem Idle.stepIfActive_eq {mac : Gem5CustomMac} (h : mac.Idle) : mac.stepIfActive = mac :=
  if_pos h.activeCycles

theorem Idle.iterate_eq {mac : Gem5CustomMac} (h : mac.Idle) (n : Nat) :
    stepIfActive^[n] mac = mac :=
  Function.iterate_fixed h.stepIfActive_eq n

theorem Computes.next {mac : Gem5CustomMac} {left : Nat} {value : UInt32}
    (h : mac.Computes left value) : mac.stepIfActive.Computes (left - 1) value := by
  cases left with
  | zero =>
    rw [h.idle.stepIfActive_eq]
    exact h
  | succ left =>
    obtain ⟨hLeft, hCountdown⟩ := h.countdown
    have hBusy : mac.model.busy = true := by simpa using h.busy
    have hValue := h.value
    rw [if_neg (Nat.succ_ne_zero left)] at hValue
    have hStep : mac.stepIfActive = { model := mac.model.countDown, activeCycles := left } := by
      simp [stepIfActive, step, MacRtl.posedge, h.activeCycles]
    rw [hStep, Nat.add_sub_cancel]
    rcases Nat.eq_zero_or_pos left with rfl | hPos
    · have hLast : mac.model.countDown = { mac.model with
          cycles := mac.model.cycles + 1
          result := mac.model.operandA * mac.model.operandB + mac.model.accumulator
          countdown := 0
          busy := false
          done := true } := by simp [MacRtl.countDown, hBusy, hCountdown]
      rw [hLast]
      exact ⟨rfl, ⟨by omega, rfl⟩, rfl, rfl, hValue⟩
    · have hMore : mac.model.countDown = { mac.model with
          cycles := mac.model.cycles + 1, countdown := mac.model.countdown - 1 } := by
        have hNotLast : mac.model.countdown ≠ 1 := by
          rw [hCountdown]
          bv_omega
        rw [MacRtl.countDown, if_pos hBusy, if_neg hNotLast]
      rw [hMore]
      refine ⟨rfl, ⟨by omega, ?_⟩, ?_, ?_, ?_⟩
      · rw [hCountdown]
        bv_omega
      · simp [hBusy, hPos]
      · simpa [Nat.ne_of_gt hPos] using h.done
      · rw [if_neg (Nat.ne_of_gt hPos)]
        exact hValue

theorem Computes.iterate {mac : Gem5CustomMac} {left : Nat} {value : UInt32}
    (h : mac.Computes left value) (n : Nat) : (stepIfActive^[n] mac).Computes (left - n) value := by
  induction n with
  | zero => exact h
  | succ n ih =>
    rw [Function.iterate_succ_apply', ← Nat.sub_sub]
    exact ih.next

/-- The cycle counter once the command has ended. -/
def endCycles (mac : Gem5CustomMac) : UInt32 :=
  mac.model.cycles + UInt32.ofNat mac.activeCycles

theorem Computes.endCycles_next {mac : Gem5CustomMac} {left : Nat} {value : UInt32}
    (h : mac.Computes left value) : mac.stepIfActive.endCycles = mac.endCycles := by
  cases left with
  | zero => rw [h.idle.stepIfActive_eq]
  | succ left =>
    have hBusy : mac.model.busy = true := by simpa using h.busy
    have hCycles : mac.model.countDown.cycles = mac.model.cycles + 1 := by
      rw [MacRtl.countDown, if_pos hBusy]
      split <;> rfl
    have hStep : mac.stepIfActive = { model := mac.model.countDown, activeCycles := left } := by
      simp [stepIfActive, step, MacRtl.posedge, h.activeCycles]
    rw [hStep, endCycles, hCycles, endCycles, h.activeCycles, UInt32.ofNat_add, UInt32.add_assoc,
      UInt32.add_comm 1]
    rfl

theorem Computes.endCycles_iterate {mac : Gem5CustomMac} {left : Nat} {value : UInt32}
    (h : mac.Computes left value) (n : Nat) : (stepIfActive^[n] mac).endCycles = mac.endCycles := by
  induction n with
  | zero => rfl
  | succ n ih =>
    rw [Function.iterate_succ_apply', (h.iterate n).endCycles_next]
    exact ih

theorem Idle.endCycles_eq {mac : Gem5CustomMac} (h : mac.Idle) :
    mac.endCycles = mac.model.cycles := by
  rw [endCycles, h.activeCycles]
  exact UInt32.add_zero _

theorem addrInput_base (offset : Nat) : addrInput (macBase + offset) = UInt8.ofNat offset := by
  apply UInt8.toNat_inj.1
  simp only [addrInput, UInt8.toNat_ofNat']
  omega

theorem read32_reg (mac : Gem5CustomMac) (offset : Nat) :
    mac.read32 (macBase + offset) = mac.model.readData (UInt8.ofNat offset) := by
  rw [read32, addrInput_base]

theorem Computes.status {mac : Gem5CustomMac} {left : Nat} {value : UInt32}
    (h : mac.Computes left value) :
    (mac.read32 (macBase + 0x14)).toNat % 2 = if left = 0 then 1 else 0 := by
  have hStatus : mac.model.readData (UInt8.ofNat 0x14) =
      (if mac.model.busy then 2 else 0) + (if mac.model.done then 1 else 0) := rfl
  rw [read32_reg, hStatus, h.busy, h.done]
  cases left with
  | zero => rfl
  | succ left => simp

theorem Computes.result {mac : Gem5CustomMac} {value : UInt32} (h : mac.Computes 0 value) :
    mac.read32 (macBase + 0x10) = value := by
  rw [read32_reg]
  exact h.value

theorem posedge_cycles {r : MacRtl} (h : r.busy = false) (write : Option (UInt8 × UInt32)) :
    (r.posedge write).cycles = r.cycles := by
  have hSame : r.countDown = r := by simp [MacRtl.countDown, h]
  unfold MacRtl.posedge
  split
  all_goals
    rw [hSame]
  split <;> rfl

theorem Idle.write32_cycles {mac : Gem5CustomMac} (h : mac.Idle) (addr : Nat) (value : UInt32) :
    (mac.write32 addr value).model.cycles = mac.model.cycles := by
  have hCycles := posedge_cycles h.busy (some (addrInput addr, value))
  unfold write32
  split
  · exact hCycles
  · exact hCycles

theorem computes_of_command {mac : Gem5CustomMac} (h : mac.model.busy = false) :
    (mac.write32 (macBase + 0x0c) 1).Computes 3
      (mac.model.operandA * mac.model.operandB + mac.model.accumulator) := by
  have hWrite : mac.write32 (macBase + 0x0c) 1 =
      { model := { mac.model with countdown := 3, busy := true, done := false }
        activeCycles := 3 } := by
    rw [write32, addrInput_base]
    simp [MacRtl.posedge, MacRtl.countDown, h]
  rw [hWrite]
  exact ⟨rfl, ⟨Nat.le_refl 3, rfl⟩, rfl, rfl, rfl⟩

structure Loaded (mac : Gem5CustomMac) (a b c : UInt32) : Prop where
  idle : mac.Idle
  operandA : mac.model.operandA = a
  operandB : mac.model.operandB = b
  accumulator : mac.model.accumulator = c

theorem Idle.loaded {mac : Gem5CustomMac} (h : mac.Idle) :
    mac.Loaded mac.model.operandA mac.model.operandB mac.model.accumulator :=
  ⟨h, rfl, rfl, rfl⟩

section Command

variable {mac : Gem5CustomMac} {a b c : UInt32} (h : mac.Loaded a b c) (value : UInt32)
include h

theorem Loaded.write_operandA : (mac.write32 (macBase + 0x00) value).Loaded value b c := by
  have hWrite : mac.write32 (macBase + 0x00) value =
      { mac with model := { mac.model with operandA := value } } := by
    rw [write32, addrInput_base]
    simp [MacRtl.posedge, MacRtl.countDown, h.idle.busy]
  rw [hWrite]
  exact ⟨⟨h.idle.activeCycles, h.idle.busy⟩, rfl, h.operandB, h.accumulator⟩

theorem Loaded.write_operandB : (mac.write32 (macBase + 0x04) value).Loaded a value c := by
  have hWrite : mac.write32 (macBase + 0x04) value =
      { mac with model := { mac.model with operandB := value } } := by
    rw [write32, addrInput_base]
    simp [MacRtl.posedge, MacRtl.countDown, h.idle.busy]
  rw [hWrite]
  exact ⟨⟨h.idle.activeCycles, h.idle.busy⟩, h.operandA, rfl, h.accumulator⟩

theorem Loaded.write_accumulator : (mac.write32 (macBase + 0x08) value).Loaded a b value := by
  have hWrite : mac.write32 (macBase + 0x08) value =
      { mac with model := { mac.model with accumulator := value } } := by
    rw [write32, addrInput_base]
    simp [MacRtl.posedge, MacRtl.countDown, h.idle.busy]
  rw [hWrite]
  exact ⟨⟨h.idle.activeCycles, h.idle.busy⟩, h.operandA, h.operandB, rfl⟩

omit value in
theorem Loaded.write_command : (mac.write32 (macBase + 0x0c) 1).Computes 3 (a * b + c) := by
  rw [← h.operandA, ← h.operandB, ← h.accumulator]
  exact computes_of_command h.idle.busy

end Command
end Gem5CustomMac
end OpenNpux.Bridge
