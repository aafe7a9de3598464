import OpenNpux.Device.StageABackend

/-!
# The Verilated backend

The backend drives the RTL bridge through its C interface, here a record of functions on
a model state `M`, so that every bridge is covered. It keeps what it is running, when its
next event is due and the DMA request it reported. The guard of the batch delay is
against the largest tick; the sum of that delay and the current tick has none, and wraps.
Counters that are only printed are left out.
-/

namespace OpenNpux.Device

open Lib Bridge

/-- The C interface of the bridge; a nonzero return code of a transfer is `none` or `false`. -/
structure CoralBridge (M : Type) where
  mmioRead : Nat → Nat → M → M × Option ByteMem
  mmioWrite : Nat → Nat → ByteMem → M → M × Bool
  step : Nat → M → M × Int
  cycleCount : M → Nat
  dmaRequestGet : M → Option DmaRequest
  dmaComplete : Option (ByteMem × Nat) → Bool → M → M × Int
  extmemRead : Nat → Nat → M → Option ByteMem
  extmemWrite : Nat → Nat → ByteMem → M → Option M

structure VerilatedParams where
  rtlTickPeriod : Nat
  rtlCyclesPerEvent : Nat
  localExtmemEnabled : Bool

/-- The configurations that the constructor accepts. -/
structure VerilatedParams.Accepted (v : VerilatedParams) : Prop where
  tickPeriod : v.rtlTickPeriod ≠ 0
  cyclesPerEvent : v.rtlCyclesPerEvent ≠ 0

structure CoralVerilatedBackend (M : Type) where
  model : M
  running : Bool := false
  pendingEventTick : Nat := 0
  resetControl : Nat := resetBit + clockGateBit
  dmaRequestPending : Bool := false
  pendingDmaRequest : CoralDmaRequest := {}

def maxTick : Nat := 2 ^ 64 - 1

def resetControlOffset : Nat := 0x30000

namespace CoralVerilatedBackend

variable {M : Type} (br : CoralBridge M) (v : VerilatedParams)

def read (offset size : Nat) : Prog (CoralVerilatedBackend M) Fatal (Option ByteMem) := fun b =>
  if offset ≥ 2 ^ 32 then ⟨some none, b, []⟩
  else
    let access := br.mmioRead offset size b.model
    ⟨some access.2, { b with model := access.1 }, []⟩

/-- The write of `RESET_CONTROL`: the backend runs while neither bit is set. -/
def writeResetControl (now value : Nat) (b : CoralVerilatedBackend M) : CoralVerilatedBackend M :=
  let control := value % 4
  let running := !(hasBit control resetBit || hasBit control clockGateBit)
  { b with
    resetControl := control
    running
    pendingEventTick := if running then tickAfter now v.rtlTickPeriod else 0 }

def write (now offset size : Nat) (data : ByteMem) : Prog (CoralVerilatedBackend M) Fatal Bool :=
  fun b =>
    if offset ≥ 2 ^ 32 then ⟨some false, b, []⟩
    else
      let access := br.mmioWrite offset size data b.model
      let b := { b with model := access.1 }
      if !access.2 then ⟨some false, b, []⟩
      else if offset = resetControlOffset ∧ size = 4 then
        ⟨some true, b.writeResetControl v now (data.load 0 4), []⟩
      else ⟨some true, b, []⟩

theorem write_resetControl (now : Nat) {data : ByteMem} {b : CoralVerilatedBackend M}
    (hAccepted : (br.mmioWrite resetControlOffset 4 data b.model).2 = true) :
    write br v now resetControlOffset 4 data b =
      ⟨some true, { b with
        model := (br.mmioWrite resetControlOffset 4 data b.model).1
        }.writeResetControl v now (data.load 0 4), []⟩ := by
  have hOffset : ¬ resetControlOffset ≥ 2 ^ 32 := by decide
  simp only [write, if_neg hOffset, hAccepted, Bool.not_true, Bool.false_eq_true, if_false,
    and_self, if_true]

/-- The request that a step with result 2 left in the bridge. -/
def reportedRequest (model : M) : Prog (CoralVerilatedBackend M) Fatal CoralDmaRequest :=
  match br.dmaRequestGet model with
  | none => fatal .waitWithoutRequest
  | some request => do
    fatalIf (request.size == 0 || decide (request.size > dmaDataBytes)) .dmaSize
    return { type := request.type, addr := request.addr.toNat, size := request.size
             data := request.data }

/-- What a step result does to the backend once its delay is known. -/
def finishEvent (now stepDelay : Nat) (result : Int) :
    Prog (CoralVerilatedBackend M) Fatal Unit := do
  fatalIf (decide (result < 0)) .stepFailed
  fatalIf (result == 4) .coreFault
  if result = 3 ∨ result = 0 then
    Prog.modify fun b => { b with pendingEventTick := tickAfter now stepDelay }
  else if result = 2 then
    let request ← reportedRequest br (← Prog.get).model
    Prog.modify fun b =>
      { b with pendingDmaRequest := request, dmaRequestPending := true, pendingEventTick := 0 }
  else
    Prog.modify fun b => { b with running := false, pendingEventTick := 0 }

def executedDelay (executedCycles : Nat) : Nat :=
  if executedCycles = 0 then v.rtlTickPeriod else executedCycles * v.rtlTickPeriod

def stepBatch (now : Nat) : Prog (CoralVerilatedBackend M) Fatal Unit := do
  let before := br.cycleCount (← Prog.get).model
  let stepped := br.step v.rtlCyclesPerEvent (← Prog.get).model
  Prog.modify fun b => { b with model := stepped.1 }
  let after := br.cycleCount stepped.1
  fatalIf (decide (after < before)) .cycleCounterBackwards
  let executedCycles := after - before
  fatalIf (executedCycles != 0 && decide (v.rtlTickPeriod > maxTick / executedCycles))
    .delayOverflow
  finishEvent br now (executedDelay v executedCycles) stepped.2

def processEvent (now : Nat) : Prog (CoralVerilatedBackend M) Fatal Unit := do
  if !(← Prog.get).running then
    Prog.modify fun b => { b with pendingEventTick := 0 }
  else stepBatch br v now

def dmaRequest : Prog (CoralVerilatedBackend M) Fatal CoralDmaRequest := do
  let b ← Prog.get
  fatalIf (!b.dmaRequestPending) .noDmaRequest
  return b.pendingDmaRequest

/-- The state once the bridge has taken the completion. -/
def completed (now : Nat) (model : M) (b : CoralVerilatedBackend M) : CoralVerilatedBackend M :=
  { b with
    model
    dmaRequestPending := false
    pendingDmaRequest := {}
    pendingEventTick := if b.running then tickAfter now v.rtlTickPeriod else 0 }

def completeDma (now : Nat) (data : Option ByteMem) (size : Nat) (error : Bool) :
    Prog (CoralVerilatedBackend M) Fatal Unit := do
  let b ← Prog.get
  fatalIf (!b.dmaRequestPending) .completionWithoutRequest
  let payload := if b.pendingDmaRequest.type =
    .read then data.map fun bytes => (bytes, size) else none
  let answer := br.dmaComplete payload error b.model
  fatalIf (answer.2 != 0) .completionRejected
  Prog.modify (completed v now answer.1)

def readLocalExtmem (addr size : Nat) : Prog (CoralVerilatedBackend M) Fatal ByteMem := do
  let b ← Prog.get
  match if v.localExtmemEnabled ∧ addr < 2 ^ 32 then br.extmemRead addr size b.model else none with
  | none => fatal .localExtmem
  | some data => return data

def writeLocalExtmem (addr size : Nat) (data : ByteMem) :
    Prog (CoralVerilatedBackend M) Fatal Unit := do
  let b ← Prog.get
  match if v.localExtmemEnabled ∧ addr <
    2 ^ 32 then br.extmemWrite addr size data b.model else none with
  | none => fatal .localExtmem
  | some model => Prog.modify fun b => { b with model }

/-! ## What an event does -/

/-- The outcome of the batch that an event runs. -/
def batch (b : CoralVerilatedBackend M) : M × Int := br.step v.rtlCyclesPerEvent b.model

def batchCycles (b : CoralVerilatedBackend M) : Nat :=
  br.cycleCount (batch br v b).1 - br.cycleCount b.model

/-- The states in which an event leaves the backend. -/
inductive Processed (now : Nat) (b : CoralVerilatedBackend M) : CoralVerilatedBackend M → Prop
  | idle (hIdle : b.running = false) : Processed now b { b with pendingEventTick := 0 }
  | proceeds (hRunning : b.running = true)
      (hResult : (batch br v b).2 = 3 ∨ (batch br v b).2 = 0) :
      Processed now b { b with
        model := (batch br v b).1
        pendingEventTick := tickAfter now (executedDelay v (batchCycles br v b)) }
  | waits (hRunning : b.running = true) (hResult : (batch br v b).2 = 2) (request : DmaRequest)
      (hRequest : br.dmaRequestGet (batch br v b).1 = some request)
      (hSize : request.size ≠ 0 ∧ request.size ≤ dmaDataBytes) :
      Processed now b { b with
        model := (batch br v b).1
        pendingDmaRequest :=
          { type := request.type, addr := request.addr.toNat, size := request.size
            data := request.data }
        dmaRequestPending := true
        pendingEventTick := 0 }
  | halts (hRunning : b.running = true) (hResult : 0 < (batch br v b).2)
      (hOther : (batch br v b).2 ≠ 2 ∧ (batch br v b).2 ≠ 3 ∧ (batch br v b).2 ≠ 4) :
      Processed now b { b with
        model := (batch br v b).1, running := false, pendingEventTick := 0 }

theorem finishEvent_ensures {ok : Fatal → Prop} {now stepDelay : Nat} {result : Int}
    {b : CoralVerilatedBackend M} {post : Unit → CoralVerilatedBackend M → Prop}
    (hFatal : ∀ f, f.isDmaProtocol = false → ok f)
    (hProceeds : result = 3 ∨ result = 0 →
      post () { b with pendingEventTick := tickAfter now stepDelay })
    (hWaits : ∀ request, result = 2 → br.dmaRequestGet b.model = some request → request.size ≠ 0 →
      request.size ≤ dmaDataBytes → post () { b with
        pendingDmaRequest :=
          { type := request.type, addr := request.addr.toNat, size := request.size
            data := request.data }
        dmaRequestPending := true
        pendingEventTick := 0 })
    (hHalts : 0 < result → result ≠ 2 → result ≠ 3 → result ≠ 4 →
      post () { b with running := false, pendingEventTick := 0 }) :
    Prog.Ensures ok (finishEvent br now stepDelay result) b post := by
  apply fatalIf_bind_ensures (fun _ => hFatal _ rfl)
  intro hNonneg
  apply fatalIf_bind_ensures (fun _ => hFatal _ rfl)
  intro hFault
  simp only [decide_eq_false_iff_not, beq_eq_false_iff_ne] at hNonneg hFault
  apply Prog.Ensures.ite
  · intro hResult
    exact .modify (hProceeds hResult)
  · intro hOther
    apply Prog.Ensures.ite
    · intro hResult
      apply Prog.Ensures.get_bind
      apply Prog.Ensures.bind (Q := fun request b' => b' = b ∧
        ∃ r, br.dmaRequestGet b.model = some r ∧ r.size ≠ 0 ∧ r.size ≤ dmaDataBytes ∧
        request = { type := r.type, addr := r.addr.toNat, size := r.size, data := r.data })
      · unfold reportedRequest
        cases hRequest : br.dmaRequestGet b.model with
        | none => exact ensures_fatal (hFatal _ rfl)
        | some r =>
          apply fatalIf_bind_ensures (fun _ => hFatal _ rfl)
          intro hSize
          simp only [Bool.or_eq_false_iff, beq_eq_false_iff_ne, decide_eq_false_iff_not, not_lt]
            at hSize
          exact .pure ⟨rfl, r, rfl, hSize.1, hSize.2, rfl⟩
      · rintro _ _ ⟨rfl, r, hRequest, hNonempty, hFits, rfl⟩
        exact .modify (hWaits r hResult hRequest hNonempty hFits)
    · intro hResult
      exact .modify (hHalts (by omega) (by omega) (by omega) (by omega))

theorem processEvent_ensures (now : Nat) (b : CoralVerilatedBackend M) :
    Prog.Ensures (fun f => f.isDmaProtocol = false) (processEvent br v now) b
      fun _ => Processed br v now b := by
  apply Prog.Ensures.get_bind
  apply Prog.Ensures.ite
  · intro hIdle
    exact .modify (.idle (by simpa using hIdle))
  · intro hRunning
    have hRunning : b.running = true := by simpa using hRunning
    apply Prog.Ensures.get_bind
    apply Prog.Ensures.get_bind
    apply Prog.Ensures.modify_bind
    apply fatalIf_bind_ensures
    · exact fun _ => rfl
    intro _
    apply fatalIf_bind_ensures
    · exact fun _ => rfl
    intro _
    apply finishEvent_ensures br (fun _ h => h)
    · exact fun hResult => .proceeds hRunning hResult
    · exact fun request hResult hRequest hNonempty hFits =>
        .waits hRunning hResult request hRequest ⟨hNonempty, hFits⟩
    · exact fun hPositive h2 h3 h4 => .halts hRunning hPositive ⟨h2, h3, h4⟩

theorem completeDma_ensures (now : Nat) (data : Option ByteMem) (size : Nat) (error : Bool)
    {b : CoralVerilatedBackend M} (hPending : b.dmaRequestPending = true) :
    Prog.Ensures (fun f => f = .completionRejected) (completeDma br v now data size error) b
      fun _ b' => ∃ model, b' = completed v now model b := by
  apply Prog.Ensures.get_bind
  apply fatalIf_bind_ensures
  · intro hNone
    rw [hPending] at hNone
    cases hNone
  · intro _
    apply fatalIf_bind_ensures
    · exact fun _ => rfl
    · exact fun _ => .modify ⟨_, rfl⟩

theorem dmaRequest_pending {b : CoralVerilatedBackend M} (hPending : b.dmaRequestPending = true) :
    dmaRequest b = ⟨some b.pendingDmaRequest, b, []⟩ := by
  simp [dmaRequest, hPending, Prog.bind_apply, fatalIf]

end CoralVerilatedBackend

def verilated {M : Type} (br : CoralBridge M) (v : VerilatedParams) :
    CoralBackend (CoralVerilatedBackend M) where
  read := CoralVerilatedBackend.read br
  write := CoralVerilatedBackend.write br v
  hasPendingEvent b := b.pendingEventTick != 0
  nextEventTick b := b.pendingEventTick
  processEvent := CoralVerilatedBackend.processEvent br v
  hasDmaRequest b := b.dmaRequestPending
  dmaRequest := CoralVerilatedBackend.dmaRequest
  completeDma := CoralVerilatedBackend.completeDma br v
  hasLocalExtmem _ := v.localExtmemEnabled
  readLocalExtmem := CoralVerilatedBackend.readLocalExtmem br v
  writeLocalExtmem := CoralVerilatedBackend.writeLocalExtmem br v

section Frame

variable {M : Type} (br : CoralBridge M) (v : VerilatedParams)

/-! ## Calls that leave the schedule alone -/

theorem verilated_read (offset size : Nat) (b : CoralVerilatedBackend M) :
    ∃ response model, (verilated br v).read offset size b =
      ⟨some response, { b with model }, []⟩ := by
  simp only [verilated, CoralVerilatedBackend.read]
  split
  · exact ⟨none, b.model, rfl⟩
  · exact ⟨_, _, rfl⟩

theorem verilated_write (now offset size : Nat) (data : ByteMem) (b : CoralVerilatedBackend M) :
    ∃ model, (∃ accepted, (verilated br v).write now offset size data b =
      ⟨some accepted, { b with model }, []⟩) ∨
      (offset = resetControlOffset ∧ size = 4) ∧ (verilated br v).write now offset size data b =
        ⟨some true, { b with model }.writeResetControl v now (data.load 0 4), []⟩ := by
  simp only [verilated, CoralVerilatedBackend.write]
  split
  · exact ⟨b.model, .inl ⟨false, rfl⟩⟩
  · refine ⟨(br.mmioWrite offset size data b.model).1, ?_⟩
    split
    · exact .inl ⟨false, rfl⟩
    · split
      · exact .inr ⟨‹_›, rfl⟩
      · exact .inl ⟨true, rfl⟩

theorem verilated_readLocalExtmem (addr size : Nat) (b : CoralVerilatedBackend M) :
    ∃ result trace, (verilated br v).readLocalExtmem addr size b = ⟨result, b, trace⟩ ∧
      ∀ f ∈ trace, f = .localExtmem := by
  simp only [verilated, CoralVerilatedBackend.readLocalExtmem, Prog.get_bind]
  cases if v.localExtmemEnabled = true ∧
    addr < 2 ^ 32 then br.extmemRead addr size b.model else none with
  | none => exact ⟨none, [.localExtmem], rfl, by simp⟩
  | some data => exact ⟨some data, [], rfl, by simp⟩

theorem verilated_writeLocalExtmem (addr size : Nat) (data : ByteMem)
    (b : CoralVerilatedBackend M) :
    ∃ result model trace, (verilated br v).writeLocalExtmem addr size data b =
      ⟨result, { b with model }, trace⟩ ∧ ∀ f ∈ trace, f = .localExtmem := by
  simp only [verilated, CoralVerilatedBackend.writeLocalExtmem, Prog.get_bind]
  cases if v.localExtmemEnabled = true ∧ addr < 2 ^ 32 then br.extmemWrite addr size data b.model
    else none with
  | none => exact ⟨none, b.model, [.localExtmem], rfl, by simp⟩
  | some model => exact ⟨some (), model, [], rfl, by simp⟩

end Frame

/-- A bridge that accepts every transfer and never does anything. -/
def idleBridge : CoralBridge Unit where
  mmioRead _ _ m := (m, some fun _ => 0)
  mmioWrite _ _ _ m := (m, true)
  step _ m := (m, 0)
  cycleCount _ := 0
  dmaRequestGet _ := none
  dmaComplete _ _ m := (m, 0)
  extmemRead _ _ _ := some fun _ => 0
  extmemWrite _ _ _ m := some m

end OpenNpux.Device
