import OpenNpux.Device.VerilatedBackend

/-!
# The NPU device shell

The shell owns the host-facing registers, the DMA window and the page cache, and drives
its backend from one scheduled event. Its state here includes what gem5 holds for it: the
current tick, the scheduled event, the drain state, the host memory behind the DMA port
and whether a timing DMA is in flight. A program's events are the host accesses it makes,
the requests it rejects, the drain signal and the fatal errors.
-/

namespace OpenNpux.Device

open Lib Bridge

structure NPUDeviceParams where
  pioAddr : Nat
  dmaExtmemBase : Nat
  dmaSharedBase : Nat
  dmaSharedSize : Nat
  fastDma : Bool
  fastDmaEventBatch : Nat
  fastDmaSyncOffset : Nat
  fastDmaSyncSize : Nat
  backendId : Nat
  firmwareEntry : Nat
  /-- gem5's `cacheBlockSize()`. -/
  cacheBlockSize : Nat

/-- The configurations that the constructor accepts, for a Verilated backend or another. -/
structure NPUDeviceParams.Accepted (p : NPUDeviceParams) (verilatedCoral : Bool) : Prop where
  sharedSize : p.dmaSharedSize ≠ 0
  eventBatch : p.fastDma = true → p.fastDmaEventBatch ≠ 0
  syncRange : verilatedCoral = true → p.fastDma = true →
    p.fastDmaSyncOffset ≤ p.dmaSharedSize ∧
      p.fastDmaSyncSize ≤ p.dmaSharedSize - p.fastDmaSyncOffset
  sharedBase : p.dmaSharedBase < 2 ^ 32
  words : p.dmaSharedSize < 2 ^ 64

inductive DrainState
  | running | draining | drained
deriving DecidableEq

inductive DeviceEvent
  | hostRead (addr size : Nat)
  | hostWrite (addr size : Nat)
  | dmaRead (addr size : Nat)
  | dmaWrite (addr size : Nat)
  | rejected (request : CoralDmaRequest)
  | drainDone
  | fatal (f : Fatal)

def fastDmaPageSize : Nat := 4096

structure NPUDevice (B : Type) where
  backend : B
  dmaActive : Bool := false
  dmaRequests : UInt32 := 0
  dmaCompletions : UInt32 := 0
  dmaErrors : UInt32 := 0
  fastDmaCache : ByteMem := fun _ => 0
  fastDmaPageValid : Nat → Bool := fun _ => false
  fastDmaPageDirty : Nat → Bool := fun _ => false
  /-- The tick the backend event is scheduled for. -/
  backendEvent : Option Nat := none
  drainState : DrainState := .running
  curTick : Nat := 0
  memory : ByteMem
  inFlight : Bool := false

namespace NPUDeviceParams

variable (p : NPUDeviceParams)

def cacheSize : Nat := if p.fastDma then p.dmaSharedSize else 0

def pageCount : Nat :=
  if p.fastDma then (p.dmaSharedSize + fastDmaPageSize - 1) % 2 ^ 64 / fastDmaPageSize else 0

def inWindow (request : CoralDmaRequest) : Bool :=
  decide (p.dmaExtmemBase ≤ request.addr) &&
    decide (request.addr - p.dmaExtmemBase < p.dmaSharedSize) &&
    decide (request.size ≤ p.dmaSharedSize - (request.addr - p.dmaExtmemBase))

def hostAddr (request : CoralDmaRequest) : Nat :=
  (p.dmaSharedBase + (request.addr - p.dmaExtmemBase)) % 2 ^ 64

end NPUDeviceParams

inductive MemCmd
  | readReq | writeReq
deriving DecidableEq

def MemCmd.event : MemCmd → Nat → Nat → DeviceEvent
  | .readReq => .hostRead
  | .writeReq => .hostWrite

namespace NPUDevice

variable {B α : Type}

def onBackend (call : Prog B Fatal α) : Prog (NPUDevice B) DeviceEvent α := fun d =>
  let o := call d.backend
  ⟨o.result, { d with backend := o.state }, o.trace.map .fatal⟩

def deviceFatalIf (c : Bool) (f : Fatal) : Prog (NPUDevice B) DeviceEvent Unit :=
    onBackend (fatalIf c f)

/-! ## Functional accesses -/

/-- One packet between the host memory and the bytes of a buffer from `start` on. -/
def functionalMemoryAccess (command : MemCmd) (addr size start : Nat) (buffer : ByteMem) :
    Prog (NPUDevice B) DeviceEvent ByteMem :=
  match command with
  | .readReq => do
    Prog.emit (MemCmd.readReq.event addr size)
    let memory := (← Prog.get).memory
    return buffer.store start size fun i => memory (addr + i)
  | .writeReq => do
    Prog.emit (MemCmd.writeReq.event addr size)
    Prog.modify fun d => { d with memory := d.memory.store addr size fun i => buffer (start + i) }
    return buffer

section Shell

variable (p : NPUDeviceParams)

/-- The loop over the packets of a range, each up to the next block boundary. -/
def functionalMemoryLoop (command : MemCmd) (addr size start : Nat) :
    Nat → Nat → ByteMem → Prog (NPUDevice B) DeviceEvent ByteMem
  | 0, _, buffer => pure buffer
  | fuel + 1, completed, buffer =>
    if completed < size then do
      let current := (addr + completed) % 2 ^ 64
      let chunk := min (p.cacheBlockSize - current % p.cacheBlockSize) (size - completed)
      let buffer ← functionalMemoryAccess command current chunk (start + completed) buffer
      functionalMemoryLoop command addr size start fuel (completed + chunk) buffer
    else pure buffer

/-- Every packet holds at least one byte, so `size` iterations are enough. -/
def functionalMemoryRange (command : MemCmd) (addr size start : Nat) (buffer : ByteMem) :
    Prog (NPUDevice B) DeviceEvent ByteMem := do
  deviceFatalIf (p.cacheBlockSize == 0) .zeroBlockSize
  functionalMemoryLoop p command addr size start size 0 buffer

/-! ## The page cache -/

def pageOffset (page : Nat) : Nat := page * fastDmaPageSize

def pageSize (page : Nat) : Nat := min fastDmaPageSize (p.cacheSize - pageOffset page)

def fillPage (page : Nat) : Prog (NPUDevice B) DeviceEvent Unit := do
  let d ← Prog.get
  if !d.fastDmaPageValid page then
    let cache ← functionalMemoryRange p .readReq ((p.dmaSharedBase + pageOffset page) % 2 ^ 64)
      (pageSize p page) (pageOffset page) d.fastDmaCache
    Prog.modify fun d =>
      { d with
        fastDmaCache := cache
        fastDmaPageValid := fun i => if i = page then true else d.fastDmaPageValid i }

/-- The data returned is the buffer of a read, and what was written otherwise. -/
def fastDmaAccess (request : CoralDmaRequest) (hostAddr : Nat) (data : ByteMem) :
    Prog (NPUDevice B) DeviceEvent ByteMem := do
  let offset := (hostAddr + 2 ^ 64 - p.dmaSharedBase) % 2 ^ 64
  let page := offset / fastDmaPageSize
  let inPage := offset % fastDmaPageSize
  deviceFatalIf (decide (page ≥ p.pageCount) || decide (request.size > fastDmaPageSize - inPage))
    .crossesPage
  fillPage p page
  match request.type with
  | .read =>
    let cache := (← Prog.get).fastDmaCache
    return data.store 0 request.size fun i => cache (offset + i)
  | .write =>
    Prog.modify fun d =>
      { d with
        fastDmaCache := d.fastDmaCache.store offset request.size data
        fastDmaPageDirty := fun i => if i = page then true else d.fastDmaPageDirty i }
    return data

def flushPage (page : Nat) : Prog (NPUDevice B) DeviceEvent Unit := do
  let d ← Prog.get
  if d.fastDmaPageDirty page then
    let _ ← functionalMemoryRange p .writeReq ((p.dmaSharedBase + pageOffset page) % 2 ^ 64)
      (pageSize p page) (pageOffset page) d.fastDmaCache
    Prog.modify fun d =>
      { d with fastDmaPageDirty := fun i => if i = page then false else d.fastDmaPageDirty i }

def flushFastDmaCache : Prog (NPUDevice B) DeviceEvent Unit :=
  Prog.loop p.pageCount () fun page _ => flushPage p page

def invalidateFastDmaCache : Prog (NPUDevice B) DeviceEvent Unit :=
  Prog.modify fun d =>
    { d with fastDmaPageValid := fun _ => false, fastDmaPageDirty := fun _ => false }

end Shell

/-! ## The backend event and the drain -/

section Backend

variable (be : CoralBackend B)

def dmaQuiesced (d : NPUDevice B) : Bool :=
  !d.dmaActive && !be.hasDmaRequest d.backend && !be.hasPendingEvent d.backend

def checkDrainDone : Prog (NPUDevice B) DeviceEvent Unit := do
  let d ← Prog.get
  if d.drainState = .draining ∧ d.dmaQuiesced be = true then
    Prog.emit .drainDone
    Prog.modify fun d => { d with drainState := .drained }

/-- gem5 keeps the returned state as the drain state of the device. -/
def drain : Prog (NPUDevice B) DeviceEvent Unit :=
  Prog.modify fun d =>
    { d with drainState := if d.dmaQuiesced be then .drained else .draining }

/-- Rescheduling an event that is due at another tick leaves it due at the new one only. -/
def syncBackendEvent : Prog (NPUDevice B) DeviceEvent Unit :=
  Prog.modify fun d =>
    { d with
      backendEvent :=
        if be.hasPendingEvent d.backend then some (be.nextEventTick d.backend) else none }

def countSync : Prog (NPUDevice B) DeviceEvent Unit :=
  Prog.modify fun d =>
    { d with dmaRequests := d.dmaRequests + 1, dmaCompletions := d.dmaCompletions + 1 }

/-- What a checkpoint holds of the device; a field may be missing in an older one. -/
structure Checkpoint where
  dmaRequests : Option UInt32
  dmaCompletions : Option UInt32
  dmaErrors : Option UInt32

def serialize : Prog (NPUDevice B) DeviceEvent Checkpoint := do
  let d ← Prog.get
  deviceFatalIf (!d.dmaQuiesced be) .serializeInFlight
  return ⟨some d.dmaRequests, some d.dmaCompletions, some d.dmaErrors⟩

def unserialize (cp : Checkpoint) : Prog (NPUDevice B) DeviceEvent Unit :=
  Prog.modify fun d =>
    { d with
      dmaRequests := cp.dmaRequests.getD d.dmaRequests
      dmaCompletions := cp.dmaCompletions.getD d.dmaCompletions
      dmaErrors := cp.dmaErrors.getD d.dmaErrors }

variable (p : NPUDeviceParams)

def syncAddr : Nat := (p.dmaSharedBase + p.fastDmaSyncOffset) % 2 ^ 64

def syncExtmemAddr : Nat := (p.dmaExtmemBase + p.fastDmaSyncOffset) % 2 ^ 64

def syncHostToLocalExtmem : Prog (NPUDevice B) DeviceEvent Unit := do
  if be.hasLocalExtmem (← Prog.get).backend then
    let data ← functionalMemoryRange p .readReq (syncAddr p) p.fastDmaSyncSize 0 fun _ => 0
    onBackend (be.writeLocalExtmem (syncExtmemAddr p) p.fastDmaSyncSize data)
    countSync

def syncLocalExtmemToHost : Prog (NPUDevice B) DeviceEvent Unit := do
  let data ← onBackend (be.readLocalExtmem (syncExtmemAddr p) p.fastDmaSyncSize)
  let _ ← functionalMemoryRange p .writeReq (syncAddr p) p.fastDmaSyncSize 0 data
  countSync

/-! ## DMA requests -/

def completeBackendDma (data : ByteMem) : Prog (NPUDevice B) DeviceEvent Unit := do
  deviceFatalIf (!(← Prog.get).dmaActive) .completionWithoutActive
  let request ← onBackend be.dmaRequest
  Prog.modify fun d => { d with dmaActive := false }
  onBackend (be.completeDma (← Prog.get).curTick (some data) request.size false)
  Prog.modify fun d => { d with dmaCompletions := d.dmaCompletions + 1 }
  deviceFatalIf (be.hasDmaRequest (← Prog.get).backend) .retainedAfterCompletion
  syncBackendEvent be
  checkDrainDone be

def completeBackendDmaError : Prog (NPUDevice B) DeviceEvent Unit := do
  deviceFatalIf (← Prog.get).dmaActive .errorWhileActive
  deviceFatalIf (!be.hasDmaRequest (← Prog.get).backend) .errorWithoutRequest
  onBackend (be.completeDma (← Prog.get).curTick none 0 true)
  Prog.modify fun d => { d with dmaErrors := d.dmaErrors + 1 }
  deviceFatalIf (be.hasDmaRequest (← Prog.get).backend) .retainedAfterError
  syncBackendEvent be
  checkDrainDone be

/-- The submission of a request in timing mode; its callback comes later. -/
def issueTimingDma (request : CoralDmaRequest) : Prog (NPUDevice B) DeviceEvent Unit := do
  Prog.emit (match request.type with
    | .read => .dmaRead (p.hostAddr request) request.size
    | .write => .dmaWrite (p.hostAddr request) request.size)
  Prog.modify fun d => { d with inFlight := true }

/-- A request inside the window: counted, then served at once or submitted. -/
def submitDma (request : CoralDmaRequest) : Prog (NPUDevice B) DeviceEvent Unit := do
  Prog.modify fun d => { d with dmaActive := true, dmaRequests := d.dmaRequests + 1 }
  if p.fastDma then
    let data ← fastDmaAccess p request (p.hostAddr request) request.data
    completeBackendDma be data
  else issueTimingDma p request

def startBackendDma : Prog (NPUDevice B) DeviceEvent Unit := do
  let d ← Prog.get
  if d.dmaActive = false ∧ be.hasDmaRequest d.backend = true then
    let request ← onBackend be.dmaRequest
    if p.inWindow request then submitDma be p request
    else
      Prog.emit (.rejected request)
      completeBackendDmaError be

/-! ## Entry points -/

/-- The batches of one event; a batch that does not leave a pending event ends them. -/
def processBatches : Nat → Prog (NPUDevice B) DeviceEvent Unit
  | 0 => pure ()
  | budget + 1 => do
    onBackend (be.processEvent (← Prog.get).curTick)
    startBackendDma be p
    let d ← Prog.get
    if p.fastDma && !d.dmaActive && be.hasPendingEvent d.backend then
      Prog.modify fun d => { d with backendEvent := none }
      processBatches budget

def batchBudget : Nat := if p.fastDma then p.fastDmaEventBatch else 1

/-- What a fast-mode event publishes once the backend has stopped. -/
def publish : Prog (NPUDevice B) DeviceEvent Unit := do
  let d ← Prog.get
  if p.fastDma && !be.hasPendingEvent d.backend && !be.hasDmaRequest d.backend then
    if be.hasLocalExtmem d.backend then syncLocalExtmemToHost be p
    else flushFastDmaCache p

def processBackendEvent : Prog (NPUDevice B) DeviceEvent Unit := do
  processBatches be p (batchBudget p)
  publish be p
  syncBackendEvent be
  checkDrainDone be

def dmaStateWord (d : NPUDevice B) : Nat :=
  (if be.hasDmaRequest d.backend then 1 else 0) + if d.dmaActive then 2 else 0

/-- The registers that the shell answers itself. -/
def shellRegister (d : NPUDevice B) (offset : Nat) : Option Nat :=
  if offset = 0x30fe4 then some d.dmaRequests.toNat
  else if offset = 0x30fe8 then some d.dmaCompletions.toNat
  else if offset = 0x30fec then some (d.dmaStateWord be)
  else if offset = 0x30fe0 then some d.dmaErrors.toNat
  else if offset = 0x30ff0 then some (p.dmaSharedBase % 2 ^ 32)
  else if offset = 0x30ff4 then some (p.dmaSharedSize % 2 ^ 32)
  else if offset = 0x30ff8 then some p.firmwareEntry
  else if offset = 0x30ffc then some p.backendId
  else none

def pioOffset (addr : Nat) : Nat := (addr + 2 ^ 64 - p.pioAddr) % 2 ^ 64

/-- The packet's data, or `none` for a bad address. -/
def answerRead (addr size : Nat) : Prog (NPUDevice B) DeviceEvent (Option ByteMem) := do
  let d ← Prog.get
  match if size = 4 then d.shellRegister be p (pioOffset p addr) else none with
  | some value => return some (ByteMem.bytesOf value)
  | none => onBackend (be.read (pioOffset p addr) size)

def read (addr size : Nat) : Prog (NPUDevice B) DeviceEvent (Option ByteMem) := do
  let response ← answerRead be p addr size
  syncBackendEvent be
  return response

/-- Whether the packet writes the 32-bit register `RESET_CONTROL`. -/
def isResetControl (addr size : Nat) : Bool :=
  pioOffset p addr == resetControlOffset && size == 4

def write (addr size : Nat) (data : ByteMem) : Prog (NPUDevice B) DeviceEvent Bool := do
  let value := data.load 0 4
  Prog.when (p.fastDma && isResetControl p addr size && value % 4 == 0) (syncHostToLocalExtmem be p)
  let accepted ← onBackend (be.write (← Prog.get).curTick (pioOffset p addr) size data)
  Prog.when (p.fastDma && isResetControl p addr size && hasBit value resetBit)
    invalidateFastDmaCache
  syncBackendEvent be
  return accepted

end Backend
end NPUDevice
end OpenNpux.Device
