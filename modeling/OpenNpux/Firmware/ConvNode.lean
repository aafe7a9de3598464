import OpenNpux.Bridge.Handle
import OpenNpux.Hybrid.ConvFrame

/-!
# The convolution nodes of the model firmware

A convolution is staged in EXTMEM and handed to the host operator, or it runs on the
core. Staging that fails leaves what it has written and falls back to the core. Either
way the firmware adds what the node moved to an execution descriptor, whose figures it
publishes in the mailbox at the end. The kernels of the core are a parameter.
-/

namespace OpenNpux.Firmware

open Lib Bridge Hybrid

/-! ## Tensors and nodes -/

inductive TfLiteType
  | int8 | int32 | other
deriving DecidableEq

structure EvalTensor where
  type : TfLiteType
  dims : List Int
  data : Nat → UInt8

/-- The fields of `OpDataConvCustom` that the firmware uses. -/
structure OpDataConv where
  inputZeroPoint : Int
  filterZeroPoint : Int
  outputZeroPoint : Int
  perChannelOutputMultiplier : Nat → Int
  perChannelOutputShift : Nat → Int
  outputActivationMin : Int
  outputActivationMax : Int
  paddingHeight : Int
  paddingWidth : Int

structure ConvParams where
  strideHeight : Int
  strideWidth : Int
  dilationHeightFactor : Int
  dilationWidthFactor : Int

structure ConvNode where
  depthwise : Bool
  numInputs : Nat
  userData : Option OpDataConv
  builtinData : Option ConvParams
  input : Option EvalTensor
  filter : Option EvalTensor
  bias : Option EvalTensor
  output : Option EvalTensor

inductive InvokeResult
  | error
  | ok (output : Nat → UInt8)

/-- A program of the core; its EXTMEM is the local one of the bridge. -/
abbrev OnCore (α : Type) := Prog Handle Empty α

def tensorBytesFrom : List Int → Nat → Nat
  | [], bytes => bytes
  | dim :: dims, bytes =>
    if dim ≤ 0 ∨ (2 ^ 32 - 1) / dim.toNat < bytes then 0
    else tensorBytesFrom dims (bytes * dim.toNat)

def tensorBytes (t : EvalTensor) (elementSize : Nat) : Nat :=
  if t.dims.length = 0 ∨ operatorMaxDims < t.dims.length then 0
  else tensorBytesFrom t.dims elementSize

def tensorDimension (t : EvalTensor) (i : Nat) : Nat := u32 (t.dims.getD i 0)

/-! ## Staging -/

def executionDescriptorOffset : Nat := 0x00400100
def operatorDescriptorOffset : Nat := 0x00400300
def operatorStagingOffset : Nat := 0x00500000
def operatorStagingSize : Nat := 0x00300000

/-- The address, or zero, and the new cursor. -/
def allocateStaging (cursor size alignment : Nat) : Nat × Nat :=
  let aligned := (cursor + alignment - 1) % 2 ^ 32 / alignment * alignment
  if size = 0 ∨ alignment = 0 ∨ alignment &&& (alignment - 1) ≠ 0 then (0, cursor)
  else if aligned < cursor ∨ operatorStagingSize < size ∨
      operatorStagingSize - size < aligned then (0, cursor)
  else (extmemBase + operatorStagingOffset + aligned, aligned + size)

def writeExtmem (f : ByteMem → ByteMem) : OnCore Unit :=
  Prog.modify fun h => { h with localExtmem := f h.localExtmem }

def stageBytes (address size : Nat) (data : Nat → UInt8) : OnCore Unit :=
  writeExtmem fun m => m.store (address - extmemBase) size data

def descriptorWords (dp : Nat) (words : List (Nat × Nat)) : OnCore Unit :=
  writeExtmem fun m => m.storeWords (words.map fun word => (dp + word.1, word.2))

def initializeOperatorDescriptor (dp opcode executionMode : Nat) : OnCore Unit := do
  writeExtmem fun m => m.store dp descriptorBytes fun _ => 0
  descriptorWords dp [(0, operatorAbiMagic), (4, operatorAbiVersion), (8, descriptorBytes),
    (12, opcode), (28, executionMode)]

def tensorWords (index address size : Nat) (t : EvalTensor) (elementType : ElementType)
    (zeroPoint : Int) : List (Nat × Nat) :=
  let p := 36 + 36 * index
  [(p, address), (p + 4, size), (p + 8, t.dims.length), (p + 12, tensorDimension t 0),
    (p + 16, tensorDimension t 1), (p + 20, tensorDimension t 2), (p + 24, tensorDimension t 3),
    (p + 28, elementType.code), (p + 32, u32 zeroPoint)]

def setOperatorTensor (dp index address size : Nat) (t : EvalTensor) (elementType : ElementType)
    (zeroPoint : Int) : OnCore Unit := do
  Prog.require (decide (index < operatorMaxTensors) && address != 0 && size != 0 &&
    t.dims.length != 0 && decide (t.dims.length ≤ operatorMaxDims))
  descriptorWords dp (tensorWords index address size t elementType zeroPoint)
  writeExtmem fun m =>
    if m.load (dp + 32) 4 ≤ index then m.storeWord (dp + 32) 4 (index + 1) else m

/-- Stages a tensor and gives the new cursor; a rejected run is the result `false`. -/
def stageTensor (dp cursor index : Nat) (t : EvalTensor) (elementSize : Nat)
    (elementType : ElementType) (zeroPoint : Int) : OnCore Nat := do
  let bytes := tensorBytes t elementSize
  let (address, cursor) :=
    allocateStaging cursor bytes (if elementSize < 16 then 16 else elementSize)
  Prog.require (address != 0)
  setOperatorTensor dp index address bytes t elementType zeroPoint
  stageBytes address bytes t.data
  pure cursor

def wordBytes (words : Nat → Int) : Nat → UInt8 := fun i =>
  ByteMem.bytesOf (u32 (words (i / 4))) (i % 4)

/-! ## The host operator -/

section Hybrid

variable {F : Type} (cfg : BridgeConfig F)

def operatorUsesHybrid (h : Handle) (opcode : Nat) : Bool :=
  let supported := decide (opcode < 32) && (Handle.capabilities cfg).testBit opcode
  if h.operatorMode = OperatorMode.hybrid.code then supported
  else if h.operatorMode = OperatorMode.sampled.code then
    supported && !cfg.sampledRtlMask.testBit opcode
  else false

/-- A write of the doorbell register; the bridge answers any other one with an error. -/
def ringDoorbell (dp : Nat) : OnCore Unit :=
  Prog.modify fun h =>
    if h.isOperatorDoorbell { addr := UInt32.ofNat operatorDoorbellReg } (extmemBase + dp) then
      h.runOperator cfg dp
    else h

/-- What the status register and the descriptor show after the doorbell. -/
def submitHybridOperator (dp : Nat) : OnCore Bool := do
  descriptorWords dp [(16, OperatorState.submitted.code)]
  ringDoorbell cfg dp
  let h ← Prog.get
  pure (h.hybridStatus == OperatorState.complete.code &&
    h.localExtmem.load (dp + 16) 4 == OperatorState.complete.code &&
    h.localExtmem.load (dp + 20) 4 == OperatorError.none.code)

def addTo (ep offset value : Nat) : OnCore Unit :=
  writeExtmem fun m => m.storeWord (ep + offset) 8 (u64 (m.load (ep + offset) 8 + value))

/-- The multipliers and the shifts of the output channels. -/
def stageQuantization (dp cursor channels : Nat) (data : OpDataConv) : OnCore Unit := do
  let bytes := channels * 4 % 2 ^ 32
  let (multiplier, cursor) := allocateStaging cursor bytes 4
  let (shift, _) := allocateStaging cursor bytes 4
  descriptorWords dp [(196, multiplier), (200, shift)]
  Prog.require (multiplier != 0 && shift != 0)
  stageBytes multiplier bytes (wordBytes data.perChannelOutputMultiplier)
  stageBytes shift bytes (wordBytes data.perChannelOutputShift)

def stageNode (dp : Nat) (data : OpDataConv) (input filter bias output : EvalTensor) :
    OnCore Unit := do
  let cursor ← stageTensor dp 0 0 input 1 .int8 data.inputZeroPoint
  let cursor ← stageTensor dp cursor 1 filter 1 .int8 data.filterZeroPoint
  let cursor ← stageTensor dp cursor 2 bias 4 .int32 0
  let cursor ← stageTensor dp cursor 3 output 1 .int8 data.outputZeroPoint
  stageQuantization dp cursor (tensorDimension output 3) data

def describeWords (channels : Nat) (data : OpDataConv) (params : ConvParams) : List (Nat × Nat) :=
  [(180, u32 params.strideHeight), (184, u32 params.strideWidth),
    (188, u32 data.paddingHeight), (192, u32 data.paddingWidth), (204, u32 data.outputZeroPoint),
    (208, u32 data.outputActivationMin), (212, u32 data.outputActivationMax), (216, channels)]

/-- The fields that `TryHybridConvInvoke` sets; there is none for the dilation factors. -/
def describeNode (dp channels : Nat) (data : OpDataConv) (params : ConvParams) : OnCore Unit :=
  descriptorWords dp (describeWords channels data params)

/-- The output is copied out of EXTMEM, and the figures are added to the execution's. -/
def collectNode (dp ep : Nat) : OnCore InvokeResult := do
  let h ← Prog.get
  let d := OperatorDescriptor.read h.localExtmem dp
  addTo ep 224 d.operationCount
  addTo ep 232 d.hostElapsedNs
  addTo ep 240 d.modeledCycles
  addTo ep 248 d.bytesRead
  addTo ep 256 d.bytesWritten
  pure (.ok fun i => h.localExtmem ((d.tensors 3).address - extmemBase + i))

/-- What `TryHybridConvInvoke` does before it submits; a rejected run is its result `false`. -/
def prepareNode (node : ConvNode) : OnCore Unit := do
  let opcode := (convOpcode node.depthwise).code
  let h ← Prog.get
  Prog.require (operatorUsesHybrid cfg h opcode && node.numInputs == 3)
  match node.userData, node.builtinData, node.input, node.filter, node.bias, node.output with
  | some data, some params, some input, some filter, some bias, some output => do
    Prog.require (input.type == .int8 && filter.type == .int8 && bias.type == .int32 &&
      output.type == .int8)
    initializeOperatorDescriptor operatorDescriptorOffset opcode OperatorMode.hybrid.code
    stageNode operatorDescriptorOffset data input filter bias output
    describeNode operatorDescriptorOffset (tensorDimension output 3) data params
  | _, _, _, _, _, _ => Prog.require false

def tryHybridConvInvoke (node : ConvNode) : OnCore InvokeResult := do
  prepareNode cfg node
  let submitted ← submitHybridOperator cfg operatorDescriptorOffset
  if submitted then collectNode operatorDescriptorOffset executionDescriptorOffset
  else pure .error

end Hybrid

/-! ## The core -/

structure ConvStats where
  operationCount : Nat
  bytesRead : Nat
  bytesWritten : Nat

/-- What a node that ran on the core has moved; nothing is counted without a value. -/
def rtlConvStats (node : ConvNode) : Option ConvStats :=
  match node.userData, node.input, node.filter, node.bias, node.output with
  | some _, some input, some filter, some bias, some output =>
    let inputBytes := tensorBytes input 1
    let filterBytes := tensorBytes filter 1
    let biasBytes := tensorBytes bias 4
    let outputBytes := tensorBytes output 1
    let taps := tensorDimension output 0 * tensorDimension output 1 * tensorDimension output 2 *
      tensorDimension output 3 * tensorDimension filter 1 * tensorDimension filter 2
    if node.numInputs ≠ 3 ∨ input.dims.length ≠ 4 ∨ filter.dims.length ≠ 4 ∨
        output.dims.length ≠ 4 then none
    else if inputBytes = 0 ∨ filterBytes = 0 ∨ biasBytes = 0 ∨ outputBytes = 0 then none
    else if taps = 0 ∨ tensorDimension input 3 = 0 then none
    else some
      { operationCount := u64 (if node.depthwise then taps else taps * tensorDimension input 3)
        bytesRead := u64 (u32 (inputBytes + filterBytes + biasBytes) +
          2 * tensorDimension output 3 * 4)
        bytesWritten := outputBytes }
  | _, _, _, _, _ => none

def accumulateRtlConvStats (node : ConvNode) : OnCore Unit :=
  match rtlConvStats node with
  | none => pure ()
  | some stats => do
    addTo executionDescriptorOffset 224 stats.operationCount
    addTo executionDescriptorOffset 248 stats.bytesRead
    addTo executionDescriptorOffset 256 stats.bytesWritten

def markProgress (value : Nat) : OnCore Unit :=
  Prog.modify fun h => { h with firmwareProgress := value }

/-- The kernels of the core, with what they leave in EXTMEM. -/
abbrev CoreKernel := ConvNode → ByteMem → InvokeResult × ByteMem

def coreInvoke (core : CoreKernel) (node : ConvNode) : OnCore InvokeResult := do
  let h ← Prog.get
  let (result, extmem) := core node h.localExtmem
  writeExtmem fun _ => extmem
  match result with
  | .ok _ => accumulateRtlConvStats node
  | .error => pure ()
  pure result

section Traced

variable {F : Type} (cfg : BridgeConfig F) (core : CoreKernel)

/-- `TracedConvInvoke` and `TracedDepthwiseInvoke`. -/
def tracedInvoke (node : ConvNode) : OnCore InvokeResult := do
  markProgress (if node.depthwise then 0x4d4e0700 else 0x4d4e0600)
  let result ← Prog.orElse (tryHybridConvInvoke cfg node) (coreInvoke core node)
  markProgress (if node.depthwise then 0x4d4e0701 else 0x4d4e0601)
  pure result

end Traced

/-! ## The run of a model -/

/-- The configuration and the mode register that a node finds. -/
structure Placement (F : Type) where
  config : BridgeConfig F
  mode : Nat

/-- The nodes in order; the interpreter stops at the first one that fails. -/
def invokeNodes {F : Type} (core : CoreKernel) : List (Placement F × ConvNode) → OnCore Bool
  | [] => pure true
  | (place, node) :: nodes => do
    Prog.modify fun h => { h with operatorMode := place.mode }
    let result ← tracedInvoke place.config core node
    match result with
    | .ok _ => invokeNodes core nodes
    | .error => pure false

/-! ## The program -/

def mailboxOffset : Nat := 0x00400000
def mobilenetOutputCount : Nat := 5

inductive MobilenetState
  | started | tensorsReady | complete | error
deriving DecidableEq

def MobilenetState.code : MobilenetState → Nat
  | .started => 1
  | .tensorsReady => 2
  | .complete => 3
  | .error => 0x80000000

inductive MobilenetError
  | none | allocate | input | invoke | output
deriving DecidableEq

def MobilenetError.code : MobilenetError → Nat
  | .none => 0
  | .allocate => 1
  | .input => 2
  | .invoke => 3
  | .output => 4

/-- What the interpreter answers besides the convolutions. -/
structure Interpreter where
  registered : Bool
  allocated : Bool
  inputReady : Bool
  elapsedCycles : Nat
  /-- The size and the bytes of the output tensor. -/
  output : Option (Nat × (Nat → UInt8))

def fnv1a32 (data : Nat → UInt8) : Nat → Nat
  | 0 => 2166136261
  | size + 1 => (fnv1a32 data size ^^^ (data size).toNat) * 16777619 % 2 ^ 32

def mailboxWords (words : List (Nat × Nat)) : OnCore Unit := descriptorWords mailboxOffset words

def fail (error : MobilenetError) : OnCore Int := do
  mailboxWords [(12, error.code), (8, MobilenetState.error.code)]
  pure (-1)

def failExecution (error : MobilenetError) : OnCore Int := do
  descriptorWords executionDescriptorOffset
    [(16, OperatorState.error.code), (20, OperatorError.execution.code)]
  fail error

/-- The output and the figures of the execution descriptor, in the mailbox. -/
def publish (bytes : Nat) (data : Nat → UInt8) : OnCore Unit := do
  mailboxWords ((List.range mobilenetOutputCount).map fun i =>
    (28 + 4 * i, u32 (data i).toInt8.toInt))
  mailboxWords [(48, fnv1a32 data (u32 bytes)), (52, u32 bytes)]
  writeExtmem fun m =>
    let d := OperatorDescriptor.read m executionDescriptorOffset
    ((m.storeWord (mailboxOffset + 56) 8 d.operationCount).storeWord
      (mailboxOffset + 64) 8 d.bytesRead).storeWord (mailboxOffset + 72) 8 d.bytesWritten
  let h ← Prog.get
  let cycles := (OperatorDescriptor.read h.localExtmem executionDescriptorOffset).modeledCycles
  mailboxWords [(16, u32 cycles), (20, u32 (cycles / 2 ^ 32 : Nat)),
    (24, mobilenetOutputCount), (8, MobilenetState.complete.code)]

def recordModeledCycles (tflm : Interpreter) (executionMode sampledRtlMask : Nat) : OnCore Unit :=
  if executionMode = OperatorMode.rtl.code ∨
      executionMode = OperatorMode.sampled.code ∧ sampledRtlMask ≠ 0 then
    writeExtmem fun m => m.storeWord (executionDescriptorOffset + 240) 8 tflm.elapsedCycles
  else pure ()

/-- Only the descriptor is overwritten here: the mailbox has its figure already. -/
def recordOutputCount (executionMode : Nat) : OnCore Unit :=
  if executionMode = OperatorMode.rtl.code then
    writeExtmem fun m => m.storeWord (executionDescriptorOffset + 256) 8 mobilenetOutputCount
  else pure ()

def conclude (tflm : Interpreter) (executionMode sampledRtlMask : Nat) : OnCore Int := do
  recordModeledCycles tflm executionMode sampledRtlMask
  match tflm.output with
  | none => failExecution .output
  | some (bytes, data) =>
    if bytes < mobilenetOutputCount then failExecution .output
    else do
      publish bytes data
      recordOutputCount executionMode
      descriptorWords executionDescriptorOffset
        [(16, OperatorState.complete.code), (20, OperatorError.none.code)]
      pure 0

/-- `main` from the allocated tensors on; the mode and the mask are read before the nodes run. -/
def invokeModel {F : Type} (core : CoreKernel) (tflm : Interpreter) (cfg : BridgeConfig F)
    (nodes : List (Placement F × ConvNode)) : OnCore Int := do
  markProgress 0x4d4e0400
  mailboxWords [(8, MobilenetState.tensorsReady.code)]
  markProgress 0x4d4e0500
  let h ← Prog.get
  initializeOperatorDescriptor executionDescriptorOffset OperatorOpcode.partialMobilenet.code
    h.operatorMode
  descriptorWords executionDescriptorOffset [(24, 1), (16, OperatorState.running.code)]
  let invoked ← invokeNodes core nodes
  if invoked then do
    markProgress 0x4d4e0501
    conclude tflm h.operatorMode cfg.sampledRtlMask
  else failExecution .invoke

def mobilenetMain {F : Type} (core : CoreKernel) (tflm : Interpreter) (cfg : BridgeConfig F)
    (nodes : List (Placement F × ConvNode)) : OnCore Int := do
  markProgress 0x4d4e0200
  mailboxWords [(0, 0x4e504d42), (4, 1), (8, MobilenetState.started.code),
    (12, MobilenetError.none.code), (24, 0)]
  markProgress 0x4d4e0201
  if !tflm.registered then fail .allocate
  else do
    markProgress 0x4d4e0300
    if !tflm.allocated then fail .allocate
    else do
      markProgress 0x4d4e0301
      if !tflm.inputReady then fail .input else invokeModel core tflm cfg nodes

end OpenNpux.Firmware
