import OpenNpux.Firmware.VectorAdd

/-!
# The host runtime

The runtime fills the shared window with a command and its tensors, runs the NPU and
checks what it finds in the window; a model file is a list of such commands. What the
device, its driver and the kernel do in the calls is a parameter: a call may end the
process, a run may change the window and returns a code with the status it saw.
-/

namespace OpenNpux.Host

open Lib Firmware

def einval : Nat := 22
def eio : Nat := 5

def input0Offset : Nat := 0x100
def input1Offset : Nat := 0x500
def outputOffset : Nat := 0x900

/-- The word `sequence` of the descriptor, which the firmware does not read. -/
def sequenceOffset : Nat := 16

inductive Register
  | sharedBase | sharedSize

/-- The counters of `GET_INFO` that the runtime uses. -/
structure CoralInfo where
  dmaRequests : UInt32
  dmaCompletions : UInt32
  dmaErrors : UInt32

structure RunOutcome (D : Type) where
  code : Int
  errno : Nat
  status : Nat
  device : D
  window : ByteMem

/-- The calls on the device; without a value the process exits. A failed mapping gives its
error. -/
structure CoralDevice (D : Type) where
  readReg : Register → D → Option Nat × D
  getInfo : D → Option CoralInfo × D
  mmap : D → Option Nat
  run : (entry polls : Nat) → D → ByteMem → RunOutcome D

structure Process (D : Type) where
  device : D
  window : ByteMem
  errno : Nat := 0

inductive HostEvent
  | windowWritten | submitted
deriving DecidableEq

variable {D α : Type}

def call (f : D → Option α × D) : Prog (Process D) HostEvent α := fun h =>
  ⟨(f h.device).1, { h with device := (f h.device).2 }, []⟩

def setErrno (errno : Nat) : Prog (Process D) HostEvent Unit :=
  Prog.modify fun h => { h with errno }

/-- Whether the window is open; a window that is too small leaves `errno` alone. -/
def openSharedWindow (dev : CoralDevice D) (minSize : Nat) : Prog (Process D) HostEvent Bool := do
  let _ ← call (dev.readReg .sharedBase)
  let size ← call (dev.readReg .sharedSize)
  if size < minSize then pure false
  else do
    let h ← Prog.get
    match dev.mmap h.device with
    | some errno => do
      setErrno errno
      pure false
    | none => pure true

/-! ## One command -/

structure VectorAddResult where
  status : Nat := 0
  errorCode : Nat := 0
  completedElements : Nat := 0
  elementCount : Nat := 0
  checksum : Nat := 0
  acceleratorCycles : Nat := 0
  opcode : Nat := 0

def fillTensors (input0 input1 : Nat → UInt32) (m : ByteMem) : Nat → ByteMem
  | 0 => m
  | i + 1 =>
    (((fillTensors input0 input1 m i).storeWord (input0Offset + 4 * i) 4 (input0 i).toNat).storeWord
      (input1Offset + 4 * i) 4 (input1 i).toNat).storeWord (outputOffset + 4 * i) 4 0

/-- The words of the descriptor, in the order in which they are written. -/
def descriptor (opcode elementCount : Nat) : List (Nat × Nat) :=
  [(CommandField.magic.offset, commandMagic), (CommandField.abiVersion.offset, commandAbiVersion),
    (CommandField.structSize.offset, commandSize), (CommandField.opcode.offset, opcode),
    (sequenceOffset, 1), (CommandField.elementCount.offset, elementCount),
    (CommandField.input0Offset.offset, input0Offset),
    (CommandField.input1Offset.offset, input1Offset),
    (CommandField.outputOffset.offset, outputOffset),
    (CommandField.outputSize.offset, elementCount * 4),
    (CommandField.status.offset, CommandStatus.pending.code)]

def fillWindow (opcode : Nat) (input0 input1 : Nat → UInt32) (elementCount : Nat) (m : ByteMem) :
    ByteMem :=
  (fillTensors input0 input1 (m.store 0 commandSize fun _ => 0) elementCount).storeWords
    (descriptor opcode elementCount)

/-- The loop over the output: whether every element is the expected one, and their sum. -/
def checkOutput (input0 input1 : Nat → UInt32) (m : ByteMem) (valid : Bool) : Nat → Bool × Nat
  | 0 => (valid, 0)
  | i + 1 =>
    let (valid, checksum) := checkOutput input0 input1 m valid i
    (valid && element m outputOffset i == (input0 i + input1 i).toNat,
      (checksum + element m outputOffset i) % 2 ^ 32)

def collectResult (opcode elementCount checksum : Nat) (m : ByteMem) : VectorAddResult where
  status := field m .status
  errorCode := field m .errorCode
  completedElements := field m .completedElements
  elementCount := elementCount
  checksum := checksum
  acceleratorCycles := field m .acceleratorCycles
  opcode := opcode

def commandValid (elementCount : Nat) (m : ByteMem) : Bool :=
  field m .status == CommandStatus.complete.code && field m .errorCode == CommandError.none.code &&
    field m .completedElements == elementCount

def submissionValid (opcode elementCount : Nat) : Bool :=
  !(elementCount == 0 || decide (tensorMaxElements < elementCount) ||
    (opcode != CommandOpcode.vectorAddU32.code && opcode != CommandOpcode.vectorAddCustomU32.code))

def writeWindow (f : ByteMem → ByteMem) : Prog (Process D) HostEvent Unit := do
  Prog.emit .windowWritten
  Prog.modify fun h => { h with window := f h.window }

def coralRun (dev : CoralDevice D) (entry polls : Nat) :
    Prog (Process D) HostEvent (Int × Nat) := do
  Prog.emit .submitted
  let h ← Prog.get
  let o := dev.run entry polls h.device h.window
  Prog.modify fun _ => ⟨o.device, o.window, o.errno⟩
  pure (o.code, o.status)

/-- The code and the result; a failure sets `errno` or leaves the one that was set before. -/
def submitVectorAdd (dev : CoralDevice D) (entry opcode : Nat) (input0 input1 : Nat → UInt32)
    (elementCount expectedChecksum polls : Nat) :
    Prog (Process D) HostEvent (Int × VectorAddResult) :=
  let result : VectorAddResult := { elementCount, opcode }
  if submissionValid opcode elementCount = false then do
    setErrno einval
    pure (-1, result)
  else do
    let opened ← openSharedWindow dev (outputOffset + elementCount * 4)
    if opened = false then pure (-1, result)
    else do
      writeWindow (fillWindow opcode input0 input1 elementCount)
      let (runResult, deviceStatus) ← coralRun dev entry polls
      let h ← Prog.get
      let (valid, checksum) :=
        checkOutput input0 input1 h.window (commandValid elementCount h.window) elementCount
      let result := collectResult opcode elementCount checksum h.window
      if runResult ≠ 0 then pure (-1, result)
      else if (!(valid && checksum == expectedChecksum) || deviceStatus % 2 == 0) = true then do
        setErrno eio
        pure (-1, result)
      else pure (0, result)

/-! ## A model file -/

def modelMagic : Nat := 0x4e50584d
def modelVersion : Nat := 1
def modelMaxCommands : Nat := 64
def modelHeaderSize : Nat := 32
def modelCommandSize : Nat := 32

structure ModelHeader where
  magic : Nat
  version : Nat
  headerSize : Nat
  fileSize : Nat
  commandCount : Nat
  commandOffset : Nat

structure ModelCommand where
  opcode : Nat
  elementCount : Nat
  input0Offset : Nat
  input1Offset : Nat
  expectedChecksum : Nat

structure ModelResult where
  commandCount : Nat := 0
  completedCommands : Nat := 0
  outputChecksum : Nat := 0
  acceleratorCycles : Nat := 0
  dmaRequests : UInt32 := 0
  dmaCompletions : UInt32 := 0
  dmaErrors : UInt32 := 0

def fileBytes (file : List UInt8) : ByteMem := fun i => file.getD i 0

def modelHeader (m : ByteMem) : ModelHeader :=
  ⟨m.load 0 4, m.load 4 4, m.load 8 4, m.load 12 4, m.load 16 4, m.load 20 4⟩

def modelCommand (m : ByteMem) (base : Nat) : ModelCommand :=
  ⟨m.load base 4, m.load (base + 4) 4, m.load (base + 8) 4, m.load (base + 12) 4,
    m.load (base + 16) 4⟩

def modelCommands (file : List UInt8) : List ModelCommand :=
  let header := modelHeader (fileBytes file)
  (List.range header.commandCount).map fun index =>
    modelCommand (fileBytes file) (header.commandOffset + index * modelCommandSize)

def modelRangeValid (fileSize offset bytes : Nat) : Bool :=
  decide (offset ≤ fileSize) && decide (bytes ≤ fileSize - offset)

def headerValid (file : List UInt8) : Bool :=
  let header := modelHeader (fileBytes file)
  decide (modelHeaderSize ≤ file.length) &&
    !(header.magic != modelMagic || header.version != modelVersion ||
      header.headerSize != modelHeaderSize || header.fileSize != file.length ||
      header.commandCount == 0 || decide (modelMaxCommands < header.commandCount) ||
      header.commandOffset % 4 != 0 ||
      !modelRangeValid file.length header.commandOffset
        (header.commandCount * modelCommandSize % 2 ^ 32))

def ModelCommand.valid (fileSize : Nat) (c : ModelCommand) : Bool :=
  !(c.elementCount == 0 || decide (tensorMaxElements < c.elementCount) ||
    c.input0Offset % 4 != 0 || c.input1Offset % 4 != 0 ||
    !modelRangeValid fileSize c.input0Offset (c.elementCount * 4 % 2 ^ 32) ||
    !modelRangeValid fileSize c.input1Offset (c.elementCount * 4 % 2 ^ 32))

def fileTensor (m : ByteMem) (offset i : Nat) : UInt32 := UInt32.ofNat (element m offset i)

section Model

variable (dev : CoralDevice D) (entry polls : Nat)

def fail (errno : Nat) (result : ModelResult) : Prog (Process D) HostEvent (Int × ModelResult) := do
  setErrno errno
  pure (-1, result)

def finishModel (before : CoralInfo) (result : ModelResult) :
    Prog (Process D) HostEvent (Int × ModelResult) := do
  let after ← call dev.getInfo
  let result := { result with
    dmaRequests := after.dmaRequests - before.dmaRequests
    dmaCompletions := after.dmaCompletions - before.dmaCompletions
    dmaErrors := after.dmaErrors - before.dmaErrors }
  if result.dmaRequests = 0 ∨ result.dmaRequests ≠ result.dmaCompletions ∨ result.dmaErrors ≠ 0 then
    fail eio result
  else pure (0, result)

/-- The loop over the commands; each is checked and submitted before the next one. -/
def runCommands (file : List UInt8) (before : CoralInfo) :
    List ModelCommand → ModelResult → Prog (Process D) HostEvent (Int × ModelResult)
  | [], result => finishModel dev before result
  | c :: cs, result =>
    if c.valid file.length = false then fail einval result
    else do
      let (code, r) ← submitVectorAdd dev entry c.opcode
        (fileTensor (fileBytes file) c.input0Offset)
        (fileTensor (fileBytes file) c.input1Offset) c.elementCount c.expectedChecksum polls
      if code ≠ 0 then pure (-1, result)
      else runCommands file before cs { result with
        completedCommands := result.completedCommands + 1
        outputChecksum := (result.outputChecksum + r.checksum) % 2 ^ 32
        acceleratorCycles := (result.acceleratorCycles + r.acceleratorCycles) % 2 ^ 32 }

/-- `contents` is the file, or the error of opening or reading it. -/
def runModelFile (contents : Except Nat (List UInt8)) :
    Prog (Process D) HostEvent (Int × ModelResult) :=
  match contents with
  | .error errno => fail errno {}
  | .ok file =>
    if 2 ^ 32 ≤ file.length then fail einval {}
    else if headerValid file = false then fail einval {}
    else do
      let before ← call dev.getInfo
      let commands := modelCommands file
      runCommands dev entry polls file before commands { commandCount := commands.length }

end Model
end OpenNpux.Host
