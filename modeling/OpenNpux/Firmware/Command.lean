import OpenNpux.Bridge.CustomMac
import OpenNpux.Lib.Bytes
import OpenNpux.Lib.Prog

/-!
# The command firmware

The program checks the descriptor at the start of the shared window and then adds two
tensors of words, in the core or on the custom MAC. The descriptor is volatile memory:
the element count and the opcode are read again in every iteration, while the output
tensor may lie anywhere in the window. Offsets are relative to the window; the memory
behind it is modelled too, so that an access outside is an event and not an error.
-/

namespace OpenNpux.Firmware

open Lib Bridge

/-- The size `CORAL_EXTMEM_SIZE` of the shared window. -/
def windowSize : Nat := 0x1000

def tensorMaxElements : Nat := 256

def commandMagic : Nat := 0x4e505843

def commandAbiVersion : Nat := 1

def commandSize : Nat := 64

def customMacExpectedId : Nat := 0x4e5058a1

inductive CommandOpcode
  | vectorAddU32 | vectorAddCustomU32
deriving DecidableEq

def CommandOpcode.code : CommandOpcode → Nat
  | .vectorAddU32 => 1
  | .vectorAddCustomU32 => 2

inductive CommandStatus
  | pending | running | complete | error
deriving DecidableEq

def CommandStatus.code : CommandStatus → Nat
  | .pending => 0
  | .running => 1
  | .complete => 2
  | .error => 3

inductive CommandError
  | none | abi | opcode | bounds | accelerator
deriving DecidableEq

def CommandError.code : CommandError → Nat
  | .none => 0
  | .abi => 1
  | .opcode => 2
  | .bounds => 3
  | .accelerator => 4

/-- The words of `struct opennpux_coral_command` that the firmware uses. -/
inductive CommandField
  | magic | abiVersion | structSize | opcode | elementCount | input0Offset | input1Offset
  | outputOffset | outputSize | status | errorCode | completedElements | acceleratorCycles
deriving DecidableEq

def CommandField.offset : CommandField → Nat
  | .magic => 0
  | .abiVersion => 4
  | .structSize => 8
  | .opcode => 12
  | .elementCount => 24
  | .input0Offset => 32
  | .input1Offset => 36
  | .outputOffset => 40
  | .outputSize => 44
  | .status => 48
  | .errorCode => 52
  | .completedElements => 56
  | .acceleratorCycles => 60

/-- The memory from the window's base on, the MAC with the number of accesses made to it,
and how many iterations of the loop have begun. -/
structure Core where
  memory : ByteMem
  mac : Gem5CustomMac := {}
  macAccesses : Nat := 0
  iterations : Nat := 0

/-- A four-byte access to EXTMEM at this offset of the window. -/
structure WindowAccess where
  offset : Nat

def load32 (offset : Nat) : Prog Core WindowAccess Nat := do
  Prog.emit ⟨offset⟩
  let s ← Prog.get
  pure (s.memory.load offset 4)

def store32 (offset value : Nat) : Prog Core WindowAccess Unit := do
  Prog.emit ⟨offset⟩
  Prog.modify fun s => { s with memory := s.memory.storeWord offset 4 value }

def loadField (f : CommandField) : Prog Core WindowAccess Nat := load32 f.offset

def storeField (f : CommandField) (value : Nat) : Prog Core WindowAccess Unit :=
    store32 f.offset value

section Mac

-- How often the bridge clocks the MAC before an access, from the number of accesses made
-- so far and the register that is accessed.
variable (steps : Nat → Nat → Nat)

def Core.clocked (s : Core) (offset : Nat) : Gem5CustomMac :=
  Gem5CustomMac.stepIfActive^[steps s.macAccesses offset] s.mac

def readReg (offset : Nat) : Prog Core WindowAccess Nat := do
  Prog.modify fun s => { s with mac := s.clocked steps offset, macAccesses := s.macAccesses + 1 }
  let s ← Prog.get
  pure (s.mac.read32 (Gem5CustomMac.macBase + offset)).toNat

def writeReg (offset value : Nat) : Prog Core WindowAccess Unit :=
  Prog.modify fun s =>
    { s with
      mac := (s.clocked steps offset).write32 (Gem5CustomMac.macBase + offset) (UInt32.ofNat value)
      macAccesses := s.macAccesses + 1 }

/-- The polling loop; it is rejected only when the fuel runs out. -/
def pollDone : Nat → Prog Core WindowAccess Unit
  | 0 => Prog.require false
  | fuel + 1 => do
    let status ← readReg steps 0x14
    if status % 2 = 0 then pollDone fuel else pure ()

def customAdd (fuel lhs rhs : Nat) : Prog Core WindowAccess Nat := do
  writeReg steps 0x00 lhs
  writeReg steps 0x04 1
  writeReg steps 0x08 rhs
  writeReg steps 0x0c 1
  pollDone steps fuel
  readReg steps 0x10

end Mac

def tensorInBounds (offset count : Nat) : Bool :=
  !(offset % 4 != 0 || decide (tensorMaxElements < count)) &&
    (decide (offset ≤ windowSize) && decide (count * 4 ≤ windowSize - offset))

def finishError (error : CommandError) : Prog Core WindowAccess Nat := do
  storeField .errorCode error.code
  storeField .status CommandStatus.error.code
  pure 1

/-- The operator `&&`, which runs `q` only after a true `p`. -/
def both (p q : Prog Core WindowAccess Bool) : Prog Core WindowAccess Bool := do
  let b ← p
  if b then q else pure false

def fieldIs (f : CommandField) (value : Nat) : Prog Core WindowAccess Bool := do
  let x ← loadField f
  pure (x == value)

def abiValid : Prog Core WindowAccess Bool :=
  both (fieldIs .magic commandMagic)
    (both (fieldIs .abiVersion commandAbiVersion) (fieldIs .structSize commandSize))

def opcodeValid : Prog Core WindowAccess Bool := do
  let b ← fieldIs .opcode CommandOpcode.vectorAddU32.code
  if b then pure true else fieldIs .opcode CommandOpcode.vectorAddCustomU32.code

def tensorValid (f : CommandField) : Prog Core WindowAccess Bool := do
  let offset ← loadField f
  let count ← loadField .elementCount
  pure (tensorInBounds offset count)

def sizeValid : Prog Core WindowAccess Bool := do
  let size ← loadField .outputSize
  let count ← loadField .elementCount
  pure (size == count * 4 % 2 ^ 32)

def boundsValid : Prog Core WindowAccess Bool :=
  both (tensorValid .input0Offset)
    (both (tensorValid .input1Offset) (both (tensorValid .outputOffset) sizeValid))

structure Tensors where
  input0 : Nat
  input1 : Nat
  output : Nat

/-- The offset of word `i` of a tensor, in the core's pointer arithmetic. -/
def elementOffset (tensor i : Nat) : Nat := (tensor + 4 * i) % 2 ^ 32

section Main

-- The bridge clocks before an access to the MAC, besides the one that it takes itself.
variable (wait : Nat → Nat)

def accessSteps (accesses _ : Nat) : Nat := wait accesses + 1

def isCustom : Prog Core WindowAccess Bool := fieldIs .opcode CommandOpcode.vectorAddCustomU32.code

def addValue (fuel : Nat) (custom : Bool) (lhs rhs : Nat) : Prog Core WindowAccess Nat :=
  if custom then customAdd (accessSteps wait) fuel lhs rhs else pure ((lhs + rhs) % 2 ^ 32)

def addElement (fuel : Nat) (t : Tensors) (i : Nat) : Prog Core WindowAccess Unit := do
  let custom ← isCustom
  let lhs ← load32 (elementOffset t.input0 i)
  let rhs ← load32 (elementOffset t.input1 i)
  let value ← addValue wait fuel custom lhs rhs
  store32 (elementOffset t.output i) value
  storeField .completedElements (i + 1)

/-- The loop from iteration `i` on; the budget is for the polling in each iteration. -/
def addLoop (budget : Nat) (t : Tensors) : Nat → Nat → Prog Core WindowAccess Unit
  | 0, _ => Prog.require false
  | fuel + 1, i => do
    let count ← loadField .elementCount
    if i < count then do
      Prog.modify fun s => { s with iterations := s.iterations + 1 }
      addElement wait budget t i
      addLoop budget t fuel ((i + 1) % 2 ^ 32)
    else pure ()

def cyclesBefore : Prog Core WindowAccess Nat := do
  let custom ← isCustom
  if custom then readReg (accessSteps wait) 0x18 else pure 0

def acceleratorValid : Prog Core WindowAccess Bool := do
  let custom ← isCustom
  if custom then do
    let id ← readReg (accessSteps wait) 0x1c
    pure (id == customMacExpectedId)
  else pure true

def recordCycles (before : Nat) : Prog Core WindowAccess Unit := do
  let custom ← isCustom
  if custom then do
    let cycles ← readReg (accessSteps wait) 0x18
    storeField .acceleratorCycles ((cycles + 2 ^ 32 - before) % 2 ^ 32)
  else pure ()

def finishCommand (before : Nat) : Prog Core WindowAccess Nat := do
  recordCycles wait before
  storeField .status CommandStatus.complete.code
  pure 0

def markRunning : Prog Core WindowAccess Unit := do
  storeField .status CommandStatus.running.code
  storeField .errorCode CommandError.none.code
  storeField .completedElements 0
  storeField .acceleratorCycles 0

def runTensors (fuel : Nat) (t : Tensors) (before : Nat) : Prog Core WindowAccess Nat := do
  let valid ← acceleratorValid wait
  if valid then do
    addLoop wait fuel t fuel 0
    finishCommand wait before
  else finishError .accelerator

def loadTensors : Prog Core WindowAccess Tensors := do
  let input0 ← loadField .input0Offset
  let input1 ← loadField .input1Offset
  let output ← loadField .outputOffset
  pure ⟨input0, input1, output⟩

def runCommand (fuel : Nat) : Prog Core WindowAccess Nat := do
  let t ← loadTensors
  markRunning
  let before ← cyclesBefore wait
  runTensors wait fuel t before

/-- The exit code; the run is rejected only when the fuel of a loop runs out. -/
def main (fuel : Nat) : Prog Core WindowAccess Nat := do
  let abi ← abiValid
  if abi then do
    let opcode ← opcodeValid
    if opcode then do
      let bounds ← boundsValid
      if bounds then runCommand wait fuel else finishError .bounds
    else finishError .opcode
  else finishError .abi

end Main
end OpenNpux.Firmware
