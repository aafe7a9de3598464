import OpenNpux.Device.CoralBackend

/-!
# The stage-A backend

A transaction-level stand-in for the core: two memory windows, three control registers
and one event that ends the execution after a fixed latency. Execution starts on an edge
of the reset bit and stops when the reset bit is set.
-/

namespace OpenNpux.Device

open Lib

def resetBit : Nat := 1

def clockGateBit : Nat := 2

/-- A word with the given bit of `RESET_CONTROL` set. -/
def hasBit (word bit : Nat) : Bool := word / bit % 2 == 1

structure StageAParams where
  itcmSize : Nat
  dtcmSize : Nat
  executionLatency : Nat
  autoHalt : Bool

structure CoralStageABackend where
  resetControl : Nat := resetBit + clockGateBit
  pcStart : Nat := 0
  halted : Bool := false
  fault : Bool := false
  pendingEventTick : Nat := 0
  itcm : ByteMem := fun _ => 0
  dtcm : ByteMem := fun _ => 0

namespace CoralStageABackend

def dtcmOffset : Nat := 0x10000

def csrOffset : Nat := 0x30000

def csrSize : Nat := 0x1000

section Windows

variable (p : StageAParams)

def inItcm (offset size : Nat) : Bool :=
  decide (offset < p.itcmSize) && decide (size ≤ p.itcmSize - offset)

def inDtcm (offset size : Nat) : Bool :=
  decide (dtcmOffset ≤ offset) && decide (offset - dtcmOffset < p.dtcmSize) &&
    decide (size ≤ p.dtcmSize - (offset - dtcmOffset))

def inCsr (offset size : Nat) : Bool :=
  decide (csrOffset ≤ offset) && decide (offset - csrOffset < csrSize) &&
    decide (size ≤ csrSize - (offset - csrOffset))

def startExecution (now : Nat) (b : CoralStageABackend) : CoralStageABackend :=
  { b with
    halted := false
    fault := false
    pendingEventTick :=
      if p.autoHalt then tickAfter now p.executionLatency else b.pendingEventTick }

end Windows

def stopExecution (setHalted : Bool) (b : CoralStageABackend) : CoralStageABackend :=
  { b with pendingEventTick := 0, halted := setHalted }

def completeExecution (b : CoralStageABackend) : CoralStageABackend :=
  { b with halted := true, pendingEventTick := 0 }

def csrAccess (offset size : Nat) : Bool := size == 4 && offset % 4 == 0

def readCsr (b : CoralStageABackend) (offset size : Nat) : Option Nat :=
  if !csrAccess offset size then none
  else
    match offset - csrOffset with
    | 0 => some b.resetControl
    | 4 => some b.pcStart
    | 8 => some ((if b.halted then 1 else 0) + if b.fault then 2 else 0)
    | _ => none

/-- The write of `RESET_CONTROL`: only the two low bits are kept. -/
def writeResetControl (p : StageAParams) (now value : Nat) (b : CoralStageABackend) :
    CoralStageABackend :=
  let control := value % 4
  let written := { b with resetControl := control }
  if hasBit control resetBit then written.stopExecution false
  else if hasBit b.resetControl resetBit && !hasBit control clockGateBit then
    written.startExecution p now
  else written

def writeCsr (p : StageAParams) (now offset size value : Nat) (b : CoralStageABackend) :
    Option CoralStageABackend :=
  if !csrAccess offset size then none
  else
    match offset - csrOffset with
    | 0 => some (b.writeResetControl p now value)
    | 4 => some { b with pcStart := value }
    | _ => none

def read (p : StageAParams) (offset size : Nat) :
    Prog CoralStageABackend Fatal (Option ByteMem) := do
  let b ← Prog.get
  if inItcm p offset size then return some fun i => b.itcm (offset + i)
  else if inDtcm p offset size then return some fun i => b.dtcm (offset - dtcmOffset + i)
  else if inCsr offset size then return (b.readCsr offset size).map ByteMem.bytesOf
  else return none

def written (p : StageAParams) (now offset size : Nat) (data : ByteMem) (b : CoralStageABackend) :
    Option CoralStageABackend :=
  if inItcm p offset size then some { b with itcm := b.itcm.store offset size data }
  else if inDtcm p offset size then
    some { b with dtcm := b.dtcm.store (offset - dtcmOffset) size data }
  else if inCsr offset size then b.writeCsr p now offset size (data.load 0 4)
  else none

def write (p : StageAParams) (now offset size : Nat) (data : ByteMem) :
    Prog CoralStageABackend Fatal Bool := fun b =>
  match b.written p now offset size data with
  | some b' => ⟨some true, b', []⟩
  | none => ⟨some false, b, []⟩

end CoralStageABackend

/-- The DMA and EXTMEM functions are those of the base class, which panic. -/
def stageA (p : StageAParams) : CoralBackend CoralStageABackend where
  read := CoralStageABackend.read p
  write := CoralStageABackend.write p
  hasPendingEvent b := b.pendingEventTick != 0
  nextEventTick b := b.pendingEventTick
  processEvent _ := Prog.modify CoralStageABackend.completeExecution
  hasDmaRequest _ := false
  dmaRequest := fatal .unsupported
  completeDma _ _ _ _ := fatal .unsupported
  hasLocalExtmem _ := false
  readLocalExtmem _ _ := fatal .unsupported
  writeLocalExtmem _ _ _ := fatal .unsupported

end OpenNpux.Device
