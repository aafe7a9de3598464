import OpenNpux.Bridge.CustomMac
import OpenNpux.Bridge.MasterDrivers
import OpenNpux.Bridge.RequestBuilder
import OpenNpux.Hybrid.Dispatch

/-!
# The bridge handle

The state behind the C interface: the two master drivers of the wrapped core, the single
request slot, the local EXTMEM, the operator registers and the custom MAC. The callbacks
answer a request at once from a register window or the local EXTMEM, reject it, or leave
it in the slot for the host. Counters that are only printed are left out.
-/

namespace OpenNpux.Bridge

open Lib Hybrid

def extmemBase : Nat := 0x20000000

def extmemSize : Nat := 8 * 1024 * 1024

def operatorMmioBase : Nat := 0x30000100

def operatorModeReg : Nat := operatorMmioBase

def operatorDoorbellReg : Nat := operatorMmioBase + 0x04

def operatorStatusReg : Nat := operatorMmioBase + 0x08

def operatorCapabilitiesReg : Nat := operatorMmioBase + 0x0c

def operatorSampledRtlMaskReg : Nat := operatorMmioBase + 0x10

def firmwareProgressAddr : Nat := 0x30000020

def axiSlvErr : UInt8 := 2

/-- What is fixed when the bridge is built and created. -/
structure BridgeConfig (F : Type) where
  /-- Whether `CORAL_GEM5_RVV_HIGHMEM` is defined. -/
  rvvHighmem : Bool
  sampledRtlMask : Nat
  hybridOpsPerCycle : Nat
  hybridBytesPerCycle : Nat
  hybridFixedCycles : Nat
  floatOps : FloatOps F
  /-- The host time of each dispatch, in the order of the dispatches. -/
  hostElapsedNs : Nat → Nat

/-- A build without the hybrid operators, which computes with no floats. -/
def plainConfig : BridgeConfig Unit where
  rvvHighmem := false
  sampledRtlMask := 0
  hybridOpsPerCycle := 1
  hybridBytesPerCycle := 16
  hybridFixedCycles := 0
  floatOps :=
    { ofBits := fun _ => (), toBits := fun _ => 0, ofInt := fun _ => (), add := fun _ _ => ()
      sub := fun _ _ => (), mul := fun _ _ => (), div := fun _ _ => (), sqrt := fun _ => ()
      exp := fun _ => (), lround := fun _ => 0, lt := fun _ _ => false, eq := fun _ _ => true
      isFinite := fun _ => true }
  hostElapsedNs := fun _ => 0

structure Handle where
  masterRead : ReadDriver := {}
  masterWrite : WriteDriver := {}
  customMac : Gem5CustomMac := {}
  firmwareProgress : Nat := 0
  operatorMode : Nat := 0
  hybridStatus : Nat := 0
  hybridDispatches : Nat := 0
  localExtmemEnabled : Bool := false
  localExtmem : ByteMem := fun _ => 0
  rtlCycles : Nat := 0
  pendingDma : DmaRequest := {}
  dmaPending : Bool := false
  dmaBeatSize : Nat := 0
  dmaBeatCount : Nat := 0
  halted : Bool := false
  wfi : Bool := false
  faultSeen : Bool := false

def isCustomWordAccess (a : AxiAddr) : Bool :=
  a.len == 0 && a.size == 2 && a.burst == 1 && a.addr.toNat % 4 == 0

def isHybridWordAccess (a : AxiAddr) : Bool :=
  isCustomWordAccess a && decide (operatorMmioBase ≤ a.addr.toNat) &&
    decide (a.addr.toNat < operatorMmioBase + 0x100)

/-- A data word that is zero but for `bytes` lanes copied from `source`. -/
def laneCopy (lane bytes : Nat) (source : Nat → UInt8) : AxiWord := fun l =>
  if lane ≤ l ∧ l < lane + bytes then source (l - lane) else 0

def wordLanes (a : AxiAddr) (value : Nat) : AxiWord :=
  laneCopy (a.addr.toNat % 16) 4 (ByteMem.bytesOf value)

def laneWord (a : AxiAddr) (word : AxiWord) : Nat :=
  ByteMem.load word.byte (a.addr.toNat % 16) 4

/-- The beats of a burst whose bytes are `source`, with `last` on the final one. -/
def dataBeats (request : DmaRequest) (beatSize beatCount : Nat) (source : Nat → UInt8) :
    List AxiRData :=
  (List.range beatCount).map fun beat =>
    { data := laneCopy ((request.addr.toNat + beat * beatSize) % 2 ^ 32 % axiDataBytes) beatSize
        fun i => source (beat * beatSize + i)
      id := request.id
      last := beat + 1 == beatCount }

/-- The answer to a read of `n` beats: that many beats, with its id, and `last` on the
final one only. -/
structure ExactBurst (id : UInt8) (n : Nat) (beats : List AxiRData) : Prop where
  length : beats.length = n
  id : ∀ beat ∈ beats, beat.id = id
  last : ∀ i (hi : i < beats.length), (beats.get ⟨i, hi⟩).last = true ↔ i + 1 = beats.length

theorem ExactBurst.single {id : UInt8} {beat : AxiRData} (hId : beat.id = id)
    (hLast : beat.last = true) : ExactBurst id 1 [beat] := by
  refine ⟨rfl, by simp [hId], fun i hi => ?_⟩
  obtain rfl : i = 0 := by simpa using hi
  simp [hLast]

theorem dataBeats_exact (request : DmaRequest) (beatSize beatCount : Nat) (source : Nat → UInt8) :
    ExactBurst request.id beatCount (dataBeats request beatSize beatCount source) := by
  refine ⟨by simp [dataBeats], ?_, fun i hi => by simp [dataBeats]⟩
  intro beat hBeat
  obtain ⟨i, _, rfl⟩ := List.mem_map.mp hBeat
  rfl

def inLocalExtmem (request : DmaRequest) : Bool :=
  decide (extmemBase ≤ request.addr.toNat) &&
    decide (request.addr.toNat - extmemBase ≤ extmemSize - request.size)

namespace Handle

def queueRead (h : Handle) (beats : List AxiRData) : Handle :=
  { h with masterRead := { h.masterRead with responses := h.masterRead.responses ++ beats } }

def queueWrite (h : Handle) (response : AxiWResp) : Handle :=
  { h with masterWrite := h.masterWrite.queueResponse response }

section Callbacks

variable {F : Type} (cfg : BridgeConfig F)

def capabilities : Nat :=
  if cfg.rvvHighmem then 2 ^ 2 + 2 ^ 3 + 2 ^ 4 + 2 ^ 5 + 2 ^ 6 + 2 ^ 7 + 2 ^ 8 else 0

def operatorRegister (h : Handle) (addr : Nat) : Nat :=
  if addr = operatorModeReg then h.operatorMode
  else if addr = operatorStatusReg then h.hybridStatus
  else if addr = operatorSampledRtlMaskReg then cfg.sampledRtlMask
  else if addr = operatorCapabilitiesReg then capabilities cfg
  else 0

def macRegister (h : Handle) (addr : Nat) : Nat :=
  if addr = firmwareProgressAddr then h.firmwareProgress else (h.customMac.read32 addr).toNat

def readCallback (h : Handle) (a : AxiAddr) : Handle :=
  if isHybridWordAccess a then
    h.queueRead [{
      data := wordLanes a (h.operatorRegister cfg a.addr.toNat), id := a.id, last := true }]
  else if Gem5CustomMac.contains a.addr.toNat 4 then
    if isCustomWordAccess a then
      h.queueRead [{ data := wordLanes a (h.macRegister a.addr.toNat), id := a.id, last := true }]
    else h.queueRead [{ id := a.id, resp := axiSlvErr, last := true }]
  else
    match buildGem5DmaReadRequest a with
    | none => h.queueRead [{ id := a.id, resp := axiSlvErr, last := true }]
    | some (request, beatSize, beatCount) =>
      let h := { h with pendingDma := request, dmaBeatSize := beatSize, dmaBeatCount := beatCount }
      if h.localExtmemEnabled && inLocalExtmem request then
        { h.queueRead (dataBeats request beatSize beatCount
            fun i => h.localExtmem (request.addr.toNat - extmemBase + i)) with pendingDma := {} }
      else { h with dmaPending := true }

def divCeil (value divisor : Nat) : Nat := if value = 0 then 0 else 1 + (value - 1) / divisor

/-- The host operator on the descriptor at offset `dp` of the local EXTMEM. -/
def runOperator (h : Handle) (dp : Nat) : Handle :=
  let reject (error : OperatorError) : ByteMem :=
    (h.localExtmem.storeWord (dp + 16) 4 OperatorState.error.code).storeWord (dp + 20) 4 error.code
  if !cfg.rvvHighmem then
    { h with localExtmem := reject .unsupported, hybridStatus := OperatorState.error.code }
  else if !h.localExtmemEnabled then
    { h with localExtmem := reject .address, hybridStatus := OperatorState.error.code }
  else
    let outcome := dispatchGem5HybridOperator cfg.floatOps dp extmemBase extmemSize
      (cfg.hostElapsedNs h.hybridDispatches) h.localExtmem
    let d := OperatorDescriptor.read outcome.state dp
    let modeled := u64 (cfg.hybridFixedCycles + divCeil d.operationCount cfg.hybridOpsPerCycle +
      divCeil (u64 (d.bytesRead + d.bytesWritten)) cfg.hybridBytesPerCycle)
    { h with
      hybridDispatches := h.hybridDispatches + 1
      hybridStatus := d.state
      localExtmem := if outcome.result = some true then outcome.state.storeWord (dp + 240) 8 modeled
        else outcome.state }

/-- A single last beat whose four lanes of the addressed word are all strobed. -/
def isWordWrite (a : AxiAddr) (data : List AxiWData) : Bool :=
  match data with
  | [beat] => beat.last && (List.range 4).all fun i => beat.strobe (a.addr.toNat % 16 + i)
  | _ => false

def isOperatorDoorbell (h : Handle) (a : AxiAddr) (command : Nat) : Bool :=
  a.addr.toNat == operatorDoorbellReg &&
    (h.operatorMode == OperatorMode.hybrid.code || h.operatorMode == OperatorMode.sampled.code) &&
    decide (extmemBase ≤ command) && decide (command - extmemBase ≤ extmemSize - descriptorBytes)

def hybridWrite (h : Handle) (a : AxiAddr) (data : List AxiWData) : Handle :=
  let command := laneWord a (data.headD {}).data
  if isWordWrite a data && h.isOperatorDoorbell a command then
    (h.runOperator cfg (command - extmemBase)).queueWrite { id := a.id }
  else h.queueWrite { id := a.id, resp := axiSlvErr }

def macWrite (h : Handle) (a : AxiAddr) (data : List AxiWData) : Handle :=
  let value := laneWord a (data.headD {}).data
  if isCustomWordAccess a && isWordWrite a data then
    if a.addr.toNat = firmwareProgressAddr then
      { h with firmwareProgress := value }.queueWrite { id := a.id }
    else
      { h with customMac := h.customMac.write32 a.addr.toNat (UInt32.ofNat value) }.queueWrite
        { id := a.id }
  else h.queueWrite { id := a.id, resp := axiSlvErr }

def writeCallback (h : Handle) (a : AxiAddr) (data : List AxiWData) : Handle :=
  if isHybridWordAccess a then h.hybridWrite cfg a data
  else if Gem5CustomMac.contains a.addr.toNat 4 then h.macWrite a data
  else
    let outcome := buildGem5DmaWriteRequest a data h.pendingDma
    let h := { h with pendingDma := outcome.state }
    if outcome.result.isNone then h.queueWrite { id := a.id, resp := axiSlvErr }
    else if h.localExtmemEnabled && inLocalExtmem h.pendingDma then
      { h with
        localExtmem := h.localExtmem.store (h.pendingDma.addr.toNat - extmemBase) h.pendingDma.size
          h.pendingDma.data
        pendingDma := {} }.queueWrite { id := h.pendingDma.id }
    else { h with dmaPending := true }

end Callbacks
end Handle

/-- What the core shows during one clock of the wrapper. -/
structure CoreClock where
  readPins : ReadPins
  writePins : WritePins
  halted : Bool := false
  wfi : Bool := false
  fault : Bool := false

namespace Handle

section Interface

variable {F : Type} (cfg : BridgeConfig F)

def readEdge (h : Handle) (pins : ReadPins) : Handle :=
  let edge := h.masterRead.onFallingEdge pins
  let h := { h with masterRead := edge.1 }
  match edge.2 with
  | none => h
  | some a => h.readCallback cfg a

def writeEdge (h : Handle) (pins : WritePins) : Handle :=
  let edge := h.masterWrite.onFallingEdge pins
  let h := { h with masterWrite := edge.1 }
  match edge.2 with
  | none => h
  | some (a, data) => h.writeCallback cfg a data

/-- The wrapper's `Step`: the read driver observes the clock before the write driver. -/
def wrapperStep (h : Handle) (c : CoreClock) : Handle :=
  let h := (h.readEdge cfg c.readPins).writeEdge cfg c.writePins
  { h with halted := c.halted, wfi := c.wfi, faultSeen := h.faultSeen || c.fault }

/-- The clocks of a slave transaction, which also runs the master ports. -/
def mmioAccess (h : Handle) (clocks : List CoreClock) : Handle :=
  clocks.foldl (wrapperStep cfg) h

def stepClock (h : Handle) (c : CoreClock) : Handle :=
  let h := wrapperStep cfg { h with rtlCycles := h.rtlCycles + 1 } c
  { h with customMac := h.customMac.stepIfActive }

/-- The loop of `coral_gem5_step`, one clock for each remaining cycle. -/
def stepLoop (h : Handle) : List CoreClock → Handle × Int
  | [] => (h, if h.wfi then 3 else 0)
  | c :: clocks =>
    if h.faultSeen then (h, 4)
    else if h.halted then (h, 1)
    else
      let h := h.stepClock cfg c
      if h.dmaPending then (h, 2)
      else if h.faultSeen then (h, 4)
      else if h.halted then (h, 1)
      else stepLoop h clocks

/-- The number of clocks is the argument `cycles`. -/
def step (h : Handle) (clocks : List CoreClock) : Handle × Int :=
  if clocks = [] then (h, -1)
  else if h.dmaPending then (h, 2)
  else h.stepLoop cfg clocks

def dmaRequestGet (h : Handle) : Option DmaRequest :=
  if h.dmaPending then some h.pendingDma else none

def clearSlot (h : Handle) : Handle := { h with dmaPending := false, pendingDma := {} }

/-- The payload is the buffer and its size, absent for a null pointer. -/
def dmaComplete (h : Handle) (payload : Option (ByteMem × Nat)) (error : Bool) : Handle × Int :=
  if !h.dmaPending then (h, -1)
  else
    match h.pendingDma.type, error, payload with
    | .read, true, _ =>
      ((h.queueRead [{ id := h.pendingDma.id, resp := 2, last := true }]).clearSlot, 0)
    | .read, false, none => (h, -1)
    | .read, false, some (data, size) =>
      if size = h.pendingDma.size then
        ((h.queueRead (dataBeats h.pendingDma h.dmaBeatSize h.dmaBeatCount data)).clearSlot, 0)
      else (h, -1)
    | .write, _, _ =>
      ((h.queueWrite { id := h.pendingDma.id, resp := if error then 2 else 0 }).clearSlot, 0)

def extmemEnable (h : Handle) (enable : Bool) : Handle × Int :=
  if h.dmaPending then (h, -1)
  else
    ({ h with
       localExtmemEnabled := enable
       localExtmem := if enable then fun _ => 0 else h.localExtmem }, 0)

/-- The range that the host reads and writes of the local EXTMEM. -/
def inExtmem (h : Handle) (addr size : Nat) : Bool :=
  h.localExtmemEnabled && decide (size ≤ extmemSize) && decide (extmemBase ≤ addr) &&
    decide (addr - extmemBase ≤ extmemSize - size)

def extmemRead (h : Handle) (addr size : Nat) : Option ByteMem :=
  if h.inExtmem addr size then some fun i => h.localExtmem (addr - extmemBase + i) else none

def extmemWrite (h : Handle) (addr size : Nat) (data : ByteMem) : Option Handle :=
  if h.inExtmem addr size then
    some { h with localExtmem := h.localExtmem.store (addr - extmemBase) size data }
  else none

end Interface
end Handle

/-- A call that is refused, or a response on the channel of the request with the slot freed. -/
inductive Completed (h : Handle) : Handle × Int → Prop
  | refused : Completed h (h, -1)
  | read (n : Nat) (beats : List AxiRData) (hPending : h.dmaPending = true)
      (hType : h.pendingDma.type = .read) (hCount : n = 1 ∨ n = h.dmaBeatCount)
      (hBeats : ExactBurst h.pendingDma.id n beats) : Completed h ((h.queueRead beats).clearSlot, 0)
  | write (response : AxiWResp) (hPending : h.dmaPending = true)
      (hType : h.pendingDma.type = .write) (hId : response.id = h.pendingDma.id) :
      Completed h ((h.queueWrite response).clearSlot, 0)

theorem Handle.dmaComplete_completed (h : Handle) (payload : Option (ByteMem × Nat))
    (error : Bool) :
    Completed h (h.dmaComplete payload error) := by
  unfold dmaComplete
  split
  · exact .refused
  rename_i hPending
  have hPending : h.dmaPending = true := by simpa using hPending
  split
  · rename_i hType
    exact .read 1 _ hPending hType (.inl rfl) (.single rfl rfl)
  · exact .refused
  · rename_i hType
    split
    · exact .read _ _ hPending hType (.inr rfl) (dataBeats_exact _ _ _ _)
    · exact .refused
  · rename_i hType
    exact .write _ hPending hType rfl

/-! ## The four ways a read is taken -/

/-- A request that the bridge answers without its data builders. -/
def inRegisterWindow (a : AxiAddr) : Bool :=
  isHybridWordAccess a || Gem5CustomMac.contains a.addr.toNat 4

theorem not_register_of_below {a : AxiAddr} (h : a.addr.toNat < 0x30000000) :
    inRegisterWindow a = false := by
  have hHybrid : ¬ operatorMmioBase ≤ a.addr.toNat := by
    unfold operatorMmioBase
    omega
  have hMac : ¬ Gem5CustomMac.macBase ≤ a.addr.toNat := by
    unfold Gem5CustomMac.macBase
    omega
  rw [inRegisterWindow, isHybridWordAccess, Gem5CustomMac.contains, decide_eq_false hHybrid,
    decide_eq_false hMac]
  simp

def servedLocally (h : Handle) (a : AxiAddr) : Bool :=
  h.localExtmemEnabled && inLocalExtmem (readRequest a)

/-- The burst answered from the local EXTMEM, with the slot cleared again. -/
def Handle.serveRead (h : Handle) (a : AxiAddr) : Handle :=
  { h.queueRead (dataBeats (readRequest a) a.bytesPerBeat a.beats
      fun i => h.localExtmem (a.addr.toNat - extmemBase + i)) with
    pendingDma := {}
    dmaBeatSize := a.bytesPerBeat
    dmaBeatCount := a.beats }

/-- The burst left in the slot for the host. -/
def Handle.deferRead (h : Handle) (a : AxiAddr) : Handle :=
  { h with
    pendingDma := readRequest a
    dmaPending := true
    dmaBeatSize := a.bytesPerBeat
    dmaBeatCount := a.beats }

/-- A register beat, an error beat, the beats of the local EXTMEM, or the request left in
the slot. -/
inductive ReadTaken (h : Handle) (a : AxiAddr) : Handle → Prop
  | register (beat : AxiRData) (hId : beat.id = a.id) (hLast : beat.last = true)
      (hWindow : inRegisterWindow a = true) : ReadTaken h a (h.queueRead [beat])
  | rejected (hWindow : inRegisterWindow a = false) (hRejected : ¬ a.Accepted) :
      ReadTaken h a (h.queueRead [{ id := a.id, resp := axiSlvErr, last := true }])
  | served (hWindow : inRegisterWindow a = false) (hAccepted : a.Accepted)
      (hLocal : servedLocally h a = true) :
      ReadTaken h a (h.serveRead a)
  | deferred (hWindow : inRegisterWindow a = false) (hAccepted : a.Accepted)
      (hLocal : servedLocally h a = false) :
      ReadTaken h a (h.deferRead a)

theorem Handle.readCallback_taken {F : Type} (cfg : BridgeConfig F) (h : Handle) (a : AxiAddr) :
    ReadTaken h a (h.readCallback cfg a) := by
  unfold readCallback
  split
  · rename_i hHybrid
    exact .register _ rfl rfl (by rw [inRegisterWindow, hHybrid, Bool.true_or])
  rename_i hHybrid
  split
  · rename_i hMac
    have hWindow : inRegisterWindow a = true := by rw [inRegisterWindow, hMac, Bool.or_true]
    split
    · exact .register _ rfl rfl hWindow
    · exact .register _ rfl rfl hWindow
  rename_i hMac
  have hWindow : inRegisterWindow a = false := by
    rw [inRegisterWindow, Bool.or_eq_false_iff]
    exact ⟨by simpa using hHybrid, by simpa using hMac⟩
  by_cases hAccepted : a.Accepted
  · rw [buildGem5DmaReadRequest_of_accepted hAccepted]
    cases hLocal : servedLocally h a with
    | true =>
      have hIf : (h.localExtmemEnabled && inLocalExtmem (readRequest a)) = true := hLocal
      simp only [readRequest] at hIf
      simp only [hIf, if_true]
      exact .served hWindow hAccepted hLocal
    | false =>
      have hIf : (h.localExtmemEnabled && inLocalExtmem (readRequest a)) = false := hLocal
      simp only [readRequest] at hIf
      simp only [hIf]
      exact .deferred hWindow hAccepted hLocal
  · rw [buildGem5DmaReadRequest_of_not_accepted hAccepted]
    exact .rejected hWindow hAccepted

namespace Handle

variable {F : Type} (cfg : BridgeConfig F) (h : Handle) {a : AxiAddr}

theorem readCallback_rejected (hWindow : inRegisterWindow a = false) (hRejected : ¬ a.Accepted) :
    h.readCallback cfg a = h.queueRead [{ id := a.id, resp := axiSlvErr, last := true }] := by
  have hTaken := h.readCallback_taken cfg a
  generalize h.readCallback cfg a = taken at hTaken
  cases hTaken with
  | register _ _ _ hIn => exact absurd (hIn.symm.trans hWindow) (by decide)
  | rejected => rfl
  | served _ hAccepted => exact absurd hAccepted hRejected
  | deferred _ hAccepted => exact absurd hAccepted hRejected

theorem readCallback_served (hWindow : inRegisterWindow a = false) (hAccepted : a.Accepted)
    (hLocal : servedLocally h a = true) : h.readCallback cfg a = h.serveRead a := by
  have hTaken := h.readCallback_taken cfg a
  generalize h.readCallback cfg a = taken at hTaken
  cases hTaken with
  | register _ _ _ hIn => exact absurd (hIn.symm.trans hWindow) (by decide)
  | rejected _ hRejected => exact absurd hAccepted hRejected
  | served => rfl
  | deferred _ _ hRemote => exact absurd (hRemote.symm.trans hLocal) (by decide)

theorem readCallback_deferred (hWindow : inRegisterWindow a = false) (hAccepted : a.Accepted)
    (hLocal : servedLocally h a = false) : h.readCallback cfg a = h.deferRead a := by
  have hTaken := h.readCallback_taken cfg a
  generalize h.readCallback cfg a = taken at hTaken
  cases hTaken with
  | register _ _ _ hIn => exact absurd (hIn.symm.trans hWindow) (by decide)
  | rejected _ hRejected => exact absurd hAccepted hRejected
  | served _ _ hServed => exact absurd (hServed.symm.trans hLocal) (by decide)
  | deferred => rfl

end Handle

/-! ## The four ways a write is taken -/

/-- What a register access leaves alone, and the response it queues. -/
structure RegisterWrite (h : Handle) (a : AxiAddr) (h' : Handle) : Prop where
  pendingDma : h'.pendingDma = h.pendingDma
  dmaPending : h'.dmaPending = h.dmaPending
  dmaBeatSize : h'.dmaBeatSize = h.dmaBeatSize
  dmaBeatCount : h'.dmaBeatCount = h.dmaBeatCount
  masterRead : h'.masterRead = h.masterRead
  masterWrite : ∃ response, response.id = a.id ∧
    h'.masterWrite = h.masterWrite.queueResponse response

/-- The burst stored to the local EXTMEM, with the slot cleared again. -/
def Handle.serveWrite (h : Handle) (a : AxiAddr) (data : List AxiWData) : Handle :=
  { h with
    localExtmem := h.localExtmem.store (a.addr.toNat - extmemBase) a.burstBytes (burstByte a data)
    pendingDma := {} }.queueWrite { id := a.id }

theorem Handle.serveWrite_localExtmem (h : Handle) (a : AxiAddr) (data : List AxiWData) :
    (h.serveWrite a data).localExtmem =
      h.localExtmem.store (a.addr.toNat - extmemBase) a.burstBytes (burstByte a data) := by
  simp only [serveWrite, queueWrite]

/-- The burst left in the slot for the host. -/
def Handle.deferWrite (h : Handle) (a : AxiAddr) (data : List AxiWData) : Handle :=
  { h with pendingDma := writeRequest a data, dmaPending := true }

/-- A register access, a rejected burst with what it left in the slot, a burst stored to the
local EXTMEM, or a request left in the slot. -/
inductive WriteTaken (h : Handle) (a : AxiAddr) (data : List AxiWData) : Handle → Prop
  | register (h' : Handle) (hWindow : inRegisterWindow a = true) (hFrame : RegisterWrite h a h') :
      WriteTaken h a data h'
  | rejected (hWindow : inRegisterWindow a = false)
      (hBuilt : ¬(a.Accepted ∧ CompleteBeats a data)) :
      WriteTaken h a data
        ({ h with pendingDma := (buildGem5DmaWriteRequest a data h.pendingDma).state }.queueWrite
          { id := a.id, resp := axiSlvErr })
  | served (hWindow : inRegisterWindow a = false) (hBuilt : a.Accepted ∧ CompleteBeats a data)
      (hLocal : servedLocally h a = true) : WriteTaken h a data (h.serveWrite a data)
  | deferred (hWindow : inRegisterWindow a = false) (hBuilt : a.Accepted ∧ CompleteBeats a data)
      (hLocal : servedLocally h a = false) : WriteTaken h a data (h.deferWrite a data)

theorem Handle.hybridWrite_register {F : Type} (cfg : BridgeConfig F) (h : Handle) (a : AxiAddr)
    (data : List AxiWData) : RegisterWrite h a (h.hybridWrite cfg a data) := by
  simp only [hybridWrite]
  split
  · have hOperator : ∀ dp, RegisterWrite h a
        ((h.runOperator cfg dp).queueWrite { id := a.id }) := by
      intro dp
      unfold runOperator
      split
      · exact ⟨rfl, rfl, rfl, rfl, rfl, _, rfl, rfl⟩
      split
      · exact ⟨rfl, rfl, rfl, rfl, rfl, _, rfl, rfl⟩
      · exact ⟨rfl, rfl, rfl, rfl, rfl, _, rfl, rfl⟩
    exact hOperator _
  · exact ⟨rfl, rfl, rfl, rfl, rfl, _, rfl, rfl⟩

theorem Handle.macWrite_register (h : Handle) (a : AxiAddr) (data : List AxiWData) :
    RegisterWrite h a (h.macWrite a data) := by
  unfold macWrite
  split
  · split
    · exact ⟨rfl, rfl, rfl, rfl, rfl, _, rfl, rfl⟩
    · exact ⟨rfl, rfl, rfl, rfl, rfl, _, rfl, rfl⟩
  · exact ⟨rfl, rfl, rfl, rfl, rfl, _, rfl, rfl⟩

theorem writeRequest_inLocalExtmem (a : AxiAddr) (data : List AxiWData) :
    inLocalExtmem (writeRequest a data) = inLocalExtmem (readRequest a) := rfl

theorem store_writeRequest (m : ByteMem) (offset : Nat) (a : AxiAddr) (data : List AxiWData) :
    m.store offset a.burstBytes (writeRequest a data).data =
      m.store offset a.burstBytes (burstByte a data) :=
  m.store_congr fun _ hi => if_pos hi

theorem Handle.writeCallback_taken {F : Type} (cfg : BridgeConfig F) (h : Handle) (a : AxiAddr)
    (data : List AxiWData) : WriteTaken h a data (h.writeCallback cfg a data) := by
  unfold writeCallback
  split
  · rename_i hHybrid
    exact .register _ (by rw [inRegisterWindow, hHybrid, Bool.true_or])
      (h.hybridWrite_register cfg a data)
  rename_i hHybrid
  split
  · rename_i hMac
    exact .register _ (by rw [inRegisterWindow, hMac, Bool.or_true]) (h.macWrite_register a data)
  rename_i hMac
  have hWindow : inRegisterWindow a = false := by
    rw [inRegisterWindow, Bool.or_eq_false_iff]
    exact ⟨by simpa using hHybrid, by simpa using hMac⟩
  cases hResult : (buildGem5DmaWriteRequest a data h.pendingDma).result with
  | none =>
    have hBuilt : ¬(a.Accepted ∧ CompleteBeats a data) := by
      rw [← buildGem5DmaWriteRequest_accepts_iff h.pendingDma, hResult]
      simp
    simpa only [hResult, Option.isNone_none, if_true] using WriteTaken.rejected hWindow hBuilt
  | some u =>
    have hBuilt := (buildGem5DmaWriteRequest_accepts_iff h.pendingDma).mp
      (Option.isSome_iff_exists.mpr ⟨u, hResult⟩)
    have hRequest := (buildGem5DmaWriteRequest_gathers h.pendingDma trivial).2 u hResult
    simp only [hResult, Option.isNone_some, Bool.false_eq_true, if_false, hRequest,
      writeRequest_inLocalExtmem]
    cases hLocal : servedLocally h a with
    | true =>
      have hIf : (h.localExtmemEnabled && inLocalExtmem (readRequest a)) = true := hLocal
      rw [if_pos hIf]
      have hServed := WriteTaken.served (h := h) hWindow hBuilt hLocal
      rw [Handle.serveWrite, ← store_writeRequest] at hServed
      exact hServed
    | false =>
      have hIf : ¬(h.localExtmemEnabled && inLocalExtmem (readRequest a)) = true := by
        simpa [servedLocally] using hLocal
      rw [if_neg hIf]
      exact .deferred hWindow hBuilt hLocal

namespace Handle

variable {F : Type} (cfg : BridgeConfig F) (h : Handle) {a : AxiAddr} {data : List AxiWData}

theorem writeCallback_rejected (hWindow : inRegisterWindow a = false)
    (hRejected : ¬(a.Accepted ∧ CompleteBeats a data)) :
    h.writeCallback cfg a data =
      { h with pendingDma := (buildGem5DmaWriteRequest a data h.pendingDma).state }.queueWrite
        { id := a.id, resp := axiSlvErr } := by
  have hTaken := h.writeCallback_taken cfg a data
  generalize h.writeCallback cfg a data = taken at hTaken
  cases hTaken with
  | register _ hIn => exact absurd (hIn.symm.trans hWindow) (by decide)
  | rejected => rfl
  | served _ hBuilt => exact absurd hBuilt hRejected
  | deferred _ hBuilt => exact absurd hBuilt hRejected

theorem writeCallback_served (hWindow : inRegisterWindow a = false)
    (hBuilt : a.Accepted ∧ CompleteBeats a data) (hLocal : servedLocally h a = true) :
    h.writeCallback cfg a data = h.serveWrite a data := by
  have hTaken := h.writeCallback_taken cfg a data
  generalize h.writeCallback cfg a data = taken at hTaken
  cases hTaken with
  | register _ hIn => exact absurd (hIn.symm.trans hWindow) (by decide)
  | rejected _ hRejected => exact absurd hBuilt hRejected
  | served => rfl
  | deferred _ _ hRemote => exact absurd (hRemote.symm.trans hLocal) (by decide)

theorem writeCallback_deferred (hWindow : inRegisterWindow a = false)
    (hBuilt : a.Accepted ∧ CompleteBeats a data) (hLocal : servedLocally h a = false) :
    h.writeCallback cfg a data = h.deferWrite a data := by
  have hTaken := h.writeCallback_taken cfg a data
  generalize h.writeCallback cfg a data = taken at hTaken
  cases hTaken with
  | register _ hIn => exact absurd (hIn.symm.trans hWindow) (by decide)
  | rejected _ hRejected => exact absurd hBuilt hRejected
  | served _ _ hServed => exact absurd (hServed.symm.trans hLocal) (by decide)
  | deferred => rfl

end Handle
end OpenNpux.Bridge
