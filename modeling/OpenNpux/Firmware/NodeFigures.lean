import OpenNpux.Firmware.StagedNode

/-!
# The figures of an offloaded node

The host computes the figures of a convolution from the staged descriptor. They are
determined by the node's tensors, and a node whose descriptor is found complete adds them
once to the execution descriptor. A node that falls back to the core has added nothing.
-/

namespace OpenNpux.Firmware

open Lib Bridge Hybrid

/-! ## The host operator -/

section Dispatch

variable {F : Type} (ops : FloatOps F) {dp base capacity elapsed : Nat} {m : ByteMem}

theorem concludeRun_failed (dp : Nat) (m : ByteMem) :
    (concludeRun dp false m).state.load (dp + 16) 4 = OperatorState.error.code := by
  have hState : ∃ m' : ByteMem, (concludeRun dp false m).state =
      m'.storeWord (dp + 16) 4 OperatorState.error.code := by
    unfold concludeRun
    rw [descriptorAt_bind]
    split
    · exact ⟨_, rfl⟩
    · exact ⟨_, rfl⟩
  obtain ⟨m', hState⟩ := hState
  rw [hState, ByteMem.load_storeWord]
  rfl

theorem dispatch_rejected
    (hInvalid : validateGem5HybridDescriptor (.read m dp) base capacity ≠ .none) :
    (dispatchGem5HybridOperator ops dp base capacity elapsed m).state.load (dp + 16) 4 =
      OperatorState.error.code := by
  have hState : ∃ error : OperatorError,
      (dispatchGem5HybridOperator ops dp base capacity elapsed m).state =
        (m.storeWord (dp + 16) 4 OperatorState.error.code).storeWord (dp + 20) 4 error.code := by
    rw [dispatchGem5HybridOperator, descriptorAt_bind]
    cases hError : validateGem5HybridDescriptor (.read m dp) base capacity with
    | none => exact absurd hError hInvalid
    | badDescriptor | unsupported | execution | address => exact ⟨_, rfl⟩
  obtain ⟨error, hState⟩ := hState
  rw [hState, ByteMem.storeWord, ByteMem.load_store_disjoint _ _ (by omega), ByteMem.load_storeWord]
  rfl

theorem dispatch_complete
    (hComplete : (dispatchGem5HybridOperator ops dp base capacity elapsed
      m).state.load (dp + 16) 4 =
      OperatorState.complete.code) :
    (dispatchGem5HybridOperator ops dp base capacity elapsed m).result = some true := by
  by_cases hValid : validateGem5HybridDescriptor (.read m dp) base capacity = .none
  · obtain ⟨success, hSuccess⟩ := Option.isSome_iff_exists.mp
      (runKernel_total ops dp base elapsed (OperatorOpcode.ofCode
        (OperatorDescriptor.read (started dp m) dp).opcode) (started dp m))
    obtain ⟨hResult, hState⟩ := dispatch_valid ops elapsed hValid rfl hSuccess
    cases success with
    | true => exact hResult
    | false =>
      rw [hState, concludeRun_failed] at hComplete
      cases hComplete
  · rw [dispatch_rejected ops hValid] at hComplete
    cases hComplete

end Dispatch

section Operator

variable {F : Type} {cfg : BridgeConfig F}

theorem runOperator_complete {h : Handle} {dp : Nat}
    (hStatus : (h.runOperator cfg dp).hybridStatus = OperatorState.complete.code) :
    ∃ elapsed modeled, (dispatchGem5HybridOperator cfg.floatOps dp extmemBase extmemSize elapsed
        h.localExtmem).result = some true ∧
      (h.runOperator cfg dp).localExtmem = (dispatchGem5HybridOperator cfg.floatOps dp extmemBase
        extmemSize elapsed h.localExtmem).state.storeWord (dp + 240) 8 modeled := by
  unfold Handle.runOperator at hStatus ⊢
  split at hStatus
  · cases hStatus
  · rename_i hBuild
    split at hStatus
    · cases hStatus
    · rename_i hEnabled
      rw [if_neg hBuild, if_neg hEnabled]
      have hTrue := dispatch_complete cfg.floatOps hStatus
      dsimp only
      rw [if_pos hTrue]
      exact ⟨_, _, hTrue, rfl⟩

/-- An operator is submitted once its descriptor is marked, and found complete only if the
doorbell has run it. -/
theorem submitHybridOperator_complete (dp : Nat) (s : Handle) :
    (submitHybridOperator cfg dp).Ensures (fun _ => True) s fun submitted s' =>
      submitted = true → ∃ s₁ : Handle,
        AgreeOn (fun i => ¬Within (dp + 16) 4 i) s.localExtmem s₁.localExtmem ∧
        (s₁.runOperator cfg dp).hybridStatus = OperatorState.complete.code ∧
        s' = s₁.runOperator cfg dp := by
  refine writeExtmem_bind fun s₁ hMemory => .modify_bind (.get_bind (.pure ?_))
  have hState : s₁.localExtmem.load (dp + 16) 4 = OperatorState.submitted.code := by
    rw [hMemory]
    exact ByteMem.load_storeWord _ _ _ _
  intro hComplete
  simp only [Bool.and_eq_true, beq_iff_eq] at hComplete
  obtain ⟨⟨hStatus, hDone⟩, _⟩ := hComplete
  split at hStatus
  · rename_i hDoorbell
    refine ⟨s₁, ?_, hStatus, if_pos hDoorbell⟩
    rw [hMemory]
    exact agreeOn_store _ _ fun i hi => hi
  · -- Nothing has run, so that the descriptor is not complete.
    rename_i hIgnored
    rw [if_neg hIgnored, hState] at hDone
    cases hDone

variable {c : Convolution}

theorem runOperator_figures {h : Handle} (hReady : c.Ready h.localExtmem)
    (hStatus : (h.runOperator cfg operatorDescriptorOffset).hybridStatus =
      OperatorState.complete.code) :
    ConvFigures extmemBase operatorDescriptorOffset c.depthwise
      (.read (Hybrid.started operatorDescriptorOffset h.localExtmem) operatorDescriptorOffset)
      h.localExtmem (h.runOperator cfg operatorDescriptorOffset).localExtmem := by
  obtain ⟨elapsed, modeled, hTrue, hMemory⟩ := runOperator_complete hStatus
  rw [hMemory]
  exact (dispatch_figures cfg.floatOps _ hReady.started.opcode
    hReady.started.outputApart hTrue).store
    _ (by omega)

end Operator

/-! ## The figures of a node -/

/-- The figures of the execution descriptor. -/
def figures (m : ByteMem) : ConvStats where
  operationCount := m.load (executionDescriptorOffset + 224) 8
  bytesRead := m.load (executionDescriptorOffset + 248) 8
  bytesWritten := m.load (executionDescriptorOffset + 256) 8

def ConvStats.plus (a b : ConvStats) : ConvStats where
  operationCount := u64 (a.operationCount + b.operationCount)
  bytesRead := u64 (a.bytesRead + b.bytesRead)
  bytesWritten := u64 (a.bytesWritten + b.bytesWritten)

def Executing (i : Nat) : Prop := Within executionDescriptorOffset descriptorBytes i

theorem figures_agree {m m' : ByteMem} (h : AgreeOn Executing m m') : figures m' = figures m := by
  have hLoad {a : Nat} (hPlace : a + 8 ≤ descriptorBytes) :
      m'.load (executionDescriptorOffset + a) 8 = m.load (executionDescriptorOffset + a) 8 :=
    h.load fun i hi => ⟨by omega, by omega⟩
  unfold figures
  rw [hLoad (by decide), hLoad (by decide), hLoad (by decide)]

theorem besideOperator_of_executing {i : Nat} (h : Executing i) : besideOperator i := by
  unfold Executing at h
  unfold besideOperator
  unfold Within executionDescriptorOffset operatorDescriptorOffset operatorStagingOffset
    descriptorBytes at *
  omega

/-- What a node with these tensors moves, wherever it runs. -/
def tensorTraffic (depthwise : Bool) (input filter bias output : EvalTensor) : ConvStats where
  operationCount :=
    let taps := tensorDimension output 0 * tensorDimension output 1 * tensorDimension output 2 *
      tensorDimension output 3 * tensorDimension filter 1 * tensorDimension filter 2
    u64 (if depthwise then taps else taps * tensorDimension input 3)
  bytesRead := u64 (u32 (tensorBytes input 1 + tensorBytes filter 1 + tensorBytes bias 4) +
    2 * tensorDimension output 3 * 4)
  bytesWritten := tensorBytes output 1

def Convolution.traffic (c : Convolution) : ConvStats :=
  tensorTraffic c.depthwise c.input c.filter c.bias c.output

section Hybrid

variable {F : Type} {cfg : BridgeConfig F} {c : Convolution} {m : ByteMem}

theorem Convolution.Ready.operations_eq (h : c.Ready m)
    (hShape : ConvShape (.read m operatorDescriptorOffset) c.depthwise) :
    convOperations c.depthwise (.read m operatorDescriptorOffset) = c.traffic.operationCount := by
  have hInput := h.input.dimensions 3 (by decide)
  have hFilter := h.filter.dimensions
  have hOutput := h.output.dimensions
  have hBatches := hShape.batches
  unfold Convolution.traffic tensorTraffic
  -- The host counts the batches of the input, the core those of the output.
  generalize OperatorDescriptor.read m operatorDescriptorOffset = d at *
  cases c.depthwise with
  | true =>
    rw [convOperations, ← hBatches, hOutput 0 (by decide), hOutput 1 (by decide),
      hOutput 2 (by decide), hOutput 3 (by decide), hFilter 1 (by decide), hFilter 2 (by decide)]
    push_cast
    rfl
  | false =>
    rw [convOperations, ← hBatches, hOutput 0 (by decide), hOutput 1 (by decide),
      hOutput 2 (by decide), hOutput 3 (by decide), hFilter 1 (by decide),
        hFilter 2 (by decide), hInput]
    push_cast
    rfl

theorem Convolution.Ready.bytesRead_eq (h : c.Ready m) :
    convBytesRead (.read m operatorDescriptorOffset) = c.traffic.bytesRead := by
  rw [convBytesRead, h.input.size, h.filter.size, h.bias.size, h.channels]
  rfl

/-- What is known of memory when the firmware has found the operator complete. -/
structure NodeRun (c : Convolution) (m m' : ByteMem) : Prop where
  executing : AgreeOn Executing m m'
  operationCount : m'.load (operatorDescriptorOffset + 224) 8 = c.traffic.operationCount
  bytesRead : m'.load (operatorDescriptorOffset + 248) 8 = c.traffic.bytesRead
  bytesWritten : m'.load (operatorDescriptorOffset + 256) 8 = c.traffic.bytesWritten

theorem runOperator_nodeRun {h : Handle} (hReady : c.Ready h.localExtmem)
    (hStatus : (h.runOperator cfg operatorDescriptorOffset).hybridStatus =
      OperatorState.complete.code) :
    NodeRun c h.localExtmem (h.runOperator cfg operatorDescriptorOffset).localExtmem := by
  have hFigures := runOperator_figures hReady hStatus
  have hOutput := hReady.started.outputData
  constructor
  · intro i hi
    apply hFigures.beside
    have hPlace := besideOperator_of_executing hi
    unfold Executing Within executionDescriptorOffset descriptorBytes at hi
    unfold operatorStagingOffset at hOutput
    unfold besideResults Hybrid.besideTensor operatorDescriptorOffset at *
    omega
  · rw [hFigures.operationCount]
    exact hReady.started.operations_eq hFigures.shape
  · rw [hFigures.bytesRead]
    exact hReady.started.bytesRead_eq
  · rw [hFigures.bytesWritten]
    exact hReady.started.output.size

theorem Convolution.Ready.submitted {s s₁ : Handle} (h : c.Ready s.localExtmem)
    (hSame : AgreeOn (fun i => ¬Within (operatorDescriptorOffset + 16) 4 i) s.localExtmem
      s₁.localExtmem) : c.Ready s₁.localExtmem := by
  apply h.agree
  intro i hi
  apply hSame
  unfold Within at hi ⊢
  omega

theorem submitHybridOperator_nodeRun {s : Handle} (hReady : c.Ready s.localExtmem) :
    (submitHybridOperator cfg operatorDescriptorOffset).Ensures (fun _ => True) s
      fun submitted s' => submitted = true → NodeRun c s.localExtmem s'.localExtmem := by
  refine (submitHybridOperator_complete operatorDescriptorOffset s).mono
    fun submitted s' hRun hSubmitted => ?_
  obtain ⟨s₁, hSame, hStatus, rfl⟩ := hRun hSubmitted
  have hRun := runOperator_nodeRun (hReady.submitted hSame) hStatus
  refine ⟨fun i hi => ?_, hRun.operationCount, hRun.bytesRead, hRun.bytesWritten⟩
  rw [hRun.executing i hi]
  apply hSame
  have hPlace := (besideOperator_of_executing hi).2
  unfold Within descriptorBytes at hPlace
  unfold Within
  omega

end Hybrid

/-! ## Adding to the figures -/

section Counters

variable (m : ByteMem) (ep : Nat)

theorem load_counter_same (a : Nat) (z : Int) :
    (m.storeWord (ep + a) 8 (u64 z)).load (ep + a) 8 = u64 z := by
  rw [ByteMem.load_storeWord]
  exact Nat.mod_eq_of_lt (u64_lt z)

theorem load_counter_other {a b : Nat} (value : Nat) (h : a + 8 ≤ b ∨ b + 8 ≤ a) :
    (m.storeWord (ep + a) 8 value).load (ep + b) 8 = m.load (ep + b) 8 :=
  ByteMem.load_store_disjoint m _ (by omega)

end Counters

theorem collectNode_ensures (dp : Nat) (s : Handle) :
    (collectNode dp executionDescriptorOffset).Ensures (fun _ => True) s fun _ s' =>
      figures s'.localExtmem = (figures s.localExtmem).plus
        ⟨s.localExtmem.load (dp + 224) 8, s.localExtmem.load (dp + 248) 8,
          s.localExtmem.load (dp + 256) 8⟩ := by
  refine .get_bind (writeExtmem_bind fun s₁ h₁ => writeExtmem_bind fun s₂ h₂ =>
    writeExtmem_bind fun s₃ h₃ => writeExtmem_bind fun s₄ h₄ => writeExtmem_bind
      fun s₅ h₅ => .pure ?_)
  -- Each counter is stored once, and the other four stores are beside it.
  have hOperations : s₅.localExtmem.load (executionDescriptorOffset + 224) 8 =
      u64 (s.localExtmem.load (executionDescriptorOffset + 224) 8 +
        s.localExtmem.load (dp + 224) 8) := by
    rw [h₅, load_counter_other _ _ _ (by omega), h₄, load_counter_other _ _ _ (by omega), h₃,
      load_counter_other _ _ _ (by omega), h₂, load_counter_other _ _ _ (by omega), h₁]
    exact load_counter_same _ _ _ _
  have hRead : s₅.localExtmem.load (executionDescriptorOffset + 248) 8 =
      u64 (s.localExtmem.load (executionDescriptorOffset + 248) 8 +
        s.localExtmem.load (dp + 248) 8) := by
    rw [h₅, load_counter_other _ _ _ (by omega), h₄, load_counter_same, h₃,
      load_counter_other _ _ _ (by omega), h₂, load_counter_other _ _ _ (by omega), h₁,
      load_counter_other _ _ _ (by omega)]
    rfl
  have hWritten : s₅.localExtmem.load (executionDescriptorOffset + 256) 8 =
      u64 (s.localExtmem.load (executionDescriptorOffset + 256) 8 +
        s.localExtmem.load (dp + 256) 8) := by
    rw [h₅, load_counter_same, h₄, load_counter_other _ _ _ (by omega), h₃,
      load_counter_other _ _ _ (by omega), h₂, load_counter_other _ _ _ (by omega), h₁,
      load_counter_other _ _ _ (by omega)]
    rfl
  unfold figures ConvStats.plus
  rw [hOperations, hRead, hWritten]

section Invoke

variable {F : Type} (cfg : BridgeConfig F) (node : ConvNode)

/-- A node that the host has taken: it has failed, or its figures are added once. -/
theorem tryHybridConvInvoke_ensures (s : Handle) :
    (tryHybridConvInvoke cfg node).Ensures (fun _ => True) s fun result s' =>
      result = .error ∨ ∃ c : Convolution, node = c.node ∧
        figures s'.localExtmem = (figures s.localExtmem).plus c.traffic := by
  have hPrepared := (prepareNode_ready cfg node s).and ((spares_prepareNode cfg node).ensures s)
  refine .bind hPrepared ?_
  rintro _ s₁ ⟨⟨c, hNode, hReady⟩, hSame⟩
  have hFigures₁ : figures s₁.localExtmem = figures s.localExtmem :=
    figures_agree fun i hi => hSame i (besideOperator_of_executing hi)
  refine .bind (submitHybridOperator_nodeRun hReady) fun submitted s₂ hRun => ?_
  refine .ite (fun hSubmitted => ?_) fun _ => .pure (.inl rfl)
  have hRun := hRun hSubmitted
  refine (collectNode_ensures operatorDescriptorOffset s₂).mono fun _ s₃ hAdded =>
    .inr ⟨c, hNode, ?_⟩
  rw [hAdded, figures_agree hRun.executing, hFigures₁, hRun.operationCount, hRun.bytesRead,
    hRun.bytesWritten]

theorem tryHybridConvInvoke_rejected {s : Handle}
    (h : (tryHybridConvInvoke cfg node s).result = none) :
    figures (tryHybridConvInvoke cfg node s).state.localExtmem = figures s.localExtmem := by
  have hTotal : Prog.Total (do
      let submitted ← submitHybridOperator cfg operatorDescriptorOffset
      if submitted then collectNode operatorDescriptorOffset executionDescriptorOffset
      else pure .error : OnCore InvokeResult) :=
    .bind (fun _ => rfl) fun _ => .ite (fun _ => rfl) (fun _ => rfl)
  unfold tryHybridConvInvoke at h ⊢
  cases hPrepare : (prepareNode cfg node s).result with
  | none =>
    rw [Prog.bind_rejected hPrepare]
    exact figures_agree fun i hi => spares_prepareNode cfg node s i (besideOperator_of_executing hi)
  | some _ =>
    rw [Prog.bind_returned hPrepare] at h
    have hReturned := hTotal (prepareNode cfg node s).state
    rw [h] at hReturned
    cases hReturned

end Invoke

end OpenNpux.Firmware
