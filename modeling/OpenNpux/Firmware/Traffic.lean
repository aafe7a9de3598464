import OpenNpux.Firmware.NodeFigures

/-!
# What a model run publishes

The core counts a node from its tensors, with the same figures as the host. So the
mailbox shows the sum over the nodes, whatever the mode and the mask are, and also when
staging gives up half way and the core takes the node over.
-/

namespace OpenNpux.Firmware

open Lib Bridge Hybrid

/-! ## Accepted nodes -/

/-- A tensor of one to four positive dimensions whose bytes fit in a word. -/
structure EvalTensor.Fits (t : EvalTensor) (elementSize : Nat) : Prop where
  rank : t.dims.length ≠ 0 ∧ t.dims.length ≤ operatorMaxDims
  positive : ∀ dim ∈ t.dims, 0 < dim
  bytes : elementSize * (t.dims.map Int.toNat).prod < 2 ^ 32

theorem prod_toNat_pos {dims : List Int} (h : ∀ dim ∈ dims, 0 < dim) :
    0 < (dims.map Int.toNat).prod := by
  apply List.prod_pos
  intro n hn
  obtain ⟨dim, hDim, rfl⟩ := List.mem_map.mp hn
  have hPositive := h dim hDim
  omega

theorem tensorBytesFrom_eq {dims : List Int} {bytes : Nat} (hPositive : ∀ dim ∈ dims, 0 < dim)
    (hFits : bytes * (dims.map Int.toNat).prod < 2 ^ 32) :
    tensorBytesFrom dims bytes = bytes * (dims.map Int.toNat).prod := by
  induction dims generalizing bytes with
  | nil => simp [tensorBytesFrom]
  | cons dim dims ih =>
    obtain ⟨hDim, hRest⟩ := List.forall_mem_cons.mp hPositive
    have hProduct := prod_toNat_pos hRest
    rw [List.map_cons, List.prod_cons, ← Nat.mul_assoc] at hFits ⊢
    have hNext : bytes * dim.toNat ≤ 2 ^ 32 - 1 := by
      have := Nat.le_mul_of_pos_right (bytes * dim.toNat) hProduct
      omega
    have hGuard : ¬(dim ≤ 0 ∨ (2 ^ 32 - 1) / dim.toNat < bytes) := by
      have := (Nat.le_div_iff_mul_le (by omega : 0 < dim.toNat)).mpr hNext
      omega
    rw [tensorBytesFrom, if_neg hGuard, ih hRest hFits]

theorem EvalTensor.Fits.tensorBytes_pos {t : EvalTensor} {elementSize : Nat}
    (h : t.Fits elementSize) (hElement : 0 < elementSize) : tensorBytes t elementSize ≠ 0 := by
  have hProduct := prod_toNat_pos h.positive
  have hGuard : ¬(t.dims.length = 0 ∨ operatorMaxDims < t.dims.length) := by
    have := h.rank
    omega
  rw [tensorBytes, if_neg hGuard, tensorBytesFrom_eq h.positive h.bytes]
  exact (Nat.mul_pos hElement hProduct).ne'

theorem EvalTensor.Fits.dimension_pos {t : EvalTensor} (h : t.Fits 1) {i : Nat}
    (hi : i < t.dims.length) : tensorDimension t i ≠ 0 := by
  have hMem : t.dims[i] ∈ t.dims := List.getElem_mem hi
  have hPositive := h.positive _ hMem
  have hDivides : t.dims[i].toNat ∣ (t.dims.map Int.toNat).prod :=
    List.dvd_prod (List.mem_map_of_mem hMem)
  have hProduct := prod_toNat_pos h.positive
  have hSmall := Nat.le_of_dvd hProduct hDivides
  have hBytes := h.bytes
  unfold tensorDimension u32
  rw [List.getD_eq_getElem?_getD, List.getElem?_eq_getElem hi, Option.getD_some]
  omega

/-- A node with its tensors, of shapes that are within the limits of both kernels. -/
structure AcceptedNode where
  node : ConvNode
  input : EvalTensor
  filter : EvalTensor
  bias : EvalTensor
  output : EvalTensor
  numInputs : node.numInputs = 3
  userData : node.userData.isSome = true
  inputTensor : node.input = some input
  filterTensor : node.filter = some filter
  biasTensor : node.bias = some bias
  outputTensor : node.output = some output
  ranks : input.dims.length = 4 ∧ filter.dims.length = 4 ∧ output.dims.length = 4
  inputFits : input.Fits 1
  filterFits : filter.Fits 1
  biasFits : bias.Fits 4
  outputFits : output.Fits 1

def AcceptedNode.traffic (n : AcceptedNode) : ConvStats :=
  tensorTraffic n.node.depthwise n.input n.filter n.bias n.output

theorem AcceptedNode.traffic_of_node (n : AcceptedNode) {c : Convolution} (h : n.node = c.node) :
    c.traffic = n.traffic := by
  have hInput := n.inputTensor
  have hFilter := n.filterTensor
  have hBias := n.biasTensor
  have hOutput := n.outputTensor
  rw [h] at hInput hFilter hBias hOutput
  unfold AcceptedNode.traffic Convolution.traffic
  rw [← Option.some.inj hInput, ← Option.some.inj hFilter, ← Option.some.inj hBias,
    ← Option.some.inj hOutput, h]
  rfl

/-- All that the figures of a node depend on. -/
def AcceptedNode.shape (n : AcceptedNode) : Bool × List Int × List Int × List Int × List Int :=
  (n.node.depthwise, n.input.dims, n.filter.dims, n.bias.dims, n.output.dims)

theorem AcceptedNode.traffic_congr {n n' : AcceptedNode} (h : n.shape = n'.shape) :
    n.traffic = n'.traffic := by
  simp only [shape, Prod.mk.injEq] at h
  obtain ⟨hDepthwise, hInput, hFilter, hBias, hOutput⟩ := h
  simp only [traffic, tensorTraffic, tensorDimension, tensorBytes, hDepthwise, hInput, hFilter,
    hBias, hOutput]

theorem AcceptedNode.rtlConvStats_eq (n : AcceptedNode) : rtlConvStats n.node = some n.traffic := by
  obtain ⟨data, hData⟩ := Option.isSome_iff_exists.mp n.userData
  obtain ⟨hInput, hFilter, hOutput⟩ := n.ranks
  have hRanks : ¬(n.node.numInputs ≠ 3 ∨ n.input.dims.length ≠ 4 ∨ n.filter.dims.length ≠ 4 ∨
      n.output.dims.length ≠ 4) := by
    have := n.numInputs
    omega
  have hBytes : ¬(tensorBytes n.input 1 = 0 ∨ tensorBytes n.filter 1 = 0 ∨
      tensorBytes n.bias 4 = 0 ∨ tensorBytes n.output 1 = 0) := by
    have hInputBytes := n.inputFits.tensorBytes_pos (by decide)
    have hFilterBytes := n.filterFits.tensorBytes_pos (by decide)
    have hBiasBytes := n.biasFits.tensorBytes_pos (by decide)
    have hOutputBytes := n.outputFits.tensorBytes_pos (by decide)
    omega
  have hTaps : ¬(tensorDimension n.output 0 * tensorDimension n.output 1 *
      tensorDimension n.output 2 * tensorDimension n.output 3 * tensorDimension n.filter 1 *
      tensorDimension n.filter 2 = 0 ∨ tensorDimension n.input 3 = 0) := by
    simp only [Nat.mul_eq_zero]
    have hOutputs (i : Nat) (hi : i < 4) := n.outputFits.dimension_pos (i := i) (by omega)
    have hFilters (i : Nat) (hi : i < 4) := n.filterFits.dimension_pos (i := i) (by omega)
    have hInputs := n.inputFits.dimension_pos (i := 3) (by omega)
    have h₀ := hOutputs 0 (by decide)
    have h₁ := hOutputs 1 (by decide)
    have h₂ := hOutputs 2 (by decide)
    have h₃ := hOutputs 3 (by decide)
    have h₄ := hFilters 1 (by decide)
    have h₅ := hFilters 2 (by decide)
    tauto
  unfold rtlConvStats
  rw [hData, n.inputTensor, n.filterTensor, n.biasTensor, n.outputTensor]
  dsimp only
  rw [if_neg hRanks, if_neg hBytes, if_neg hTaps]
  rfl

/-! ## The nodes of a run -/

/-- The kernels of the core are compiled code that does not know the execution descriptor. -/
def CoreKernel.SparesExecution (core : CoreKernel) : Prop :=
  ∀ node m, AgreeOn Executing m (core node m).2

/-- Nodes with the registers that they find. -/
abbrev PlacedNodes (F : Type) := List (Placement F × AcceptedNode)

def PlacedNodes.nodes {F : Type} (run : PlacedNodes F) : List (Placement F × ConvNode) :=
  run.map fun placed => (placed.1, placed.2.node)

def PlacedNodes.shapes {F : Type} (run : PlacedNodes F) :
    List (Bool × List Int × List Int × List Int × List Int) :=
  run.map fun placed => placed.2.shape

/-- The figures after a run in which each node is counted once. -/
def PlacedNodes.traffic {F : Type} (run : PlacedNodes F) (start : ConvStats) : ConvStats :=
  run.foldl (fun total placed => total.plus placed.2.traffic) start

theorem PlacedNodes.traffic_cons {F : Type} (place : Placement F) (n : AcceptedNode)
    (run : PlacedNodes F) (start : ConvStats) :
    PlacedNodes.traffic ((place, n) :: run) start = run.traffic (start.plus n.traffic) :=
  List.foldl_cons ..

theorem PlacedNodes.traffic_congr {F : Type} {run run' : PlacedNodes F}
    (h : run.shapes = run'.shapes) (start : ConvStats) :
    run.traffic start = run'.traffic start := by
  induction run generalizing run' start with
  | nil =>
    cases run' with
    | nil => rfl
    | cons placed' run' => cases h
  | cons placed run ih =>
    cases run' with
    | nil => cases h
    | cons placed' run' =>
      obtain ⟨hShape, hRest⟩ := List.cons.inj h
      rw [traffic_cons, traffic_cons, ← AcceptedNode.traffic_congr hShape]
      exact ih hRest _

section Run

variable {F : Type} {core : CoreKernel} (hCore : core.SparesExecution)

theorem accumulateRtlConvStats_ensures (n : AcceptedNode) (s : Handle) :
    (accumulateRtlConvStats n.node).Ensures (fun _ => True) s fun _ s' =>
      figures s'.localExtmem = (figures s.localExtmem).plus n.traffic := by
  unfold accumulateRtlConvStats
  rw [n.rtlConvStats_eq]
  refine writeExtmem_bind fun s₁ h₁ => writeExtmem_bind fun s₂ h₂ => .modify ?_
  unfold figures ConvStats.plus
  dsimp only
  rw [load_counter_other _ _ _ (by omega), load_counter_other _ _ _ (by omega), load_counter_same,
    h₂, load_counter_other _ _ _ (by omega), load_counter_same,
    load_counter_other _ _ _ (by omega), h₁, load_counter_same,
    load_counter_other _ _ _ (by omega), load_counter_other _ _ _ (by omega)]

include hCore

theorem coreInvoke_ensures (n : AcceptedNode) (s : Handle) :
    (coreInvoke core n.node).Ensures (fun _ => True) s fun result s' =>
      result = .error ∨ figures s'.localExtmem = (figures s.localExtmem).plus n.traffic := by
  refine .get_bind (writeExtmem_bind fun s₁ h₁ => ?_)
  have hFigures : figures s₁.localExtmem = figures s.localExtmem := by
    rw [h₁]
    exact figures_agree (hCore n.node s.localExtmem)
  cases hResult : (core n.node s.localExtmem).1 with
  | error => exact .pure (.inl rfl)
  | ok output =>
    refine .bind (accumulateRtlConvStats_ensures n s₁) fun _ s₂ hAdded => .pure (.inr ?_)
    rw [hAdded, hFigures]

theorem tracedInvoke_ensures (cfg : BridgeConfig F) (n : AcceptedNode) (s : Handle) :
    (tracedInvoke cfg core n.node).Ensures (fun _ => True) s fun result s' =>
      result = .error ∨ figures s'.localExtmem = (figures s.localExtmem).plus n.traffic := by
  refine .modify_bind ?_
  generalize hMarked : ({ s with firmwareProgress := _ } : Handle) = s₁
  have hMemory : s₁.localExtmem = s.localExtmem := by rw [← hMarked]
  rw [← hMemory]
  refine .bind (.orElse ?_ fun hRejected => ?_) fun _ s₂ hCounted => .modify_bind (.pure hCounted)
  · refine (tryHybridConvInvoke_ensures cfg n.node s₁).mono ?_
    rintro result s₂ (hError | ⟨c, hNode, hAdded⟩)
    · exact .inl hError
    · exact .inr (n.traffic_of_node hNode ▸ hAdded)
  · rw [← tryHybridConvInvoke_rejected cfg n.node hRejected]
    exact coreInvoke_ensures hCore n _

theorem invokeNodes_ensures (run : PlacedNodes F) (s : Handle) :
    (invokeNodes core run.nodes).Ensures (fun _ => True) s fun invoked s' =>
      invoked = true → figures s'.localExtmem = run.traffic (figures s.localExtmem) := by
  induction run generalizing s with
  | nil => exact .pure fun _ => rfl
  | cons placed run ih =>
    obtain ⟨place, n⟩ := placed
    refine .modify_bind ?_
    generalize hMode : ({ s with operatorMode := place.mode } : Handle) = s₁
    have hMemory : s₁.localExtmem = s.localExtmem := by rw [← hMode]
    rw [← hMemory]
    refine .bind (tracedInvoke_ensures hCore place.config n s₁) fun result s₂ hCounted => ?_
    cases result with
    | error => exact .pure fun hNever => by cases hNever
    | ok output =>
      rcases hCounted with hNever | hAdded
      · cases hNever
      · refine (ih s₂).mono fun invoked s₃ hRest hInvoked => ?_
        rw [hRest hInvoked, hAdded, PlacedNodes.traffic_cons]

end Run

/-! ## The mailbox -/

def published (m : ByteMem) : ConvStats where
  operationCount := m.load (mailboxOffset + 56) 8
  bytesRead := m.load (mailboxOffset + 64) 8
  bytesWritten := m.load (mailboxOffset + 72) 8

def Posting (i : Nat) : Prop := Within (mailboxOffset + 56) 24 i

theorem published_agree {m m' : ByteMem} (h : AgreeOn Posting m m') :
    published m' = published m := by
  have hLoad {a : Nat} (hPlace : 56 ≤ a ∧ a + 8 ≤ 80) :
      m'.load (mailboxOffset + a) 8 = m.load (mailboxOffset + a) 8 :=
    h.load fun i hi => ⟨by omega, by omega⟩
  unfold published
  rw [hLoad (by omega), hLoad (by omega), hLoad (by omega)]

theorem spares_mailboxWords {S : Nat → Prop} {words : List (Nat × Nat)}
    (hWords : ∀ word ∈ words, word.1 + 4 ≤ 56)
    (hS : ∀ i, S i → mailboxOffset + 56 ≤ i) : Spares S (mailboxWords words) := by
  apply spares_descriptorWords
  intro word hWord i hi
  have hPlace := hWords word hWord
  have hAbove := hS i hi
  unfold Within
  omega

theorem mailbox_below_executing {i : Nat} (h : Executing i) : mailboxOffset + 56 ≤ i := by
  unfold Executing Within executionDescriptorOffset at h
  unfold mailboxOffset
  omega

theorem mailbox_below_posting {i : Nat} (h : Posting i) : mailboxOffset + 56 ≤ i := h.1

theorem figures_lt (m : ByteMem) : (figures m).operationCount < 256 ^ 8 ∧
    (figures m).bytesRead < 256 ^ 8 ∧ (figures m).bytesWritten < 256 ^ 8 :=
  ⟨ByteMem.load_lt _ _ _, ByteMem.load_lt _ _ _, ByteMem.load_lt _ _ _⟩

theorem published_storeFigures (m : ByteMem) :
    published (((m.storeWord (mailboxOffset + 56) 8 (figures m).operationCount).storeWord
      (mailboxOffset + 64) 8 (figures m).bytesRead).storeWord (mailboxOffset + 72) 8
        (figures m).bytesWritten) = figures m := by
  obtain ⟨hOperations, hRead, hWritten⟩ := figures_lt m
  generalize figures m = total at hOperations hRead hWritten ⊢
  obtain ⟨operations, read, written⟩ := total
  dsimp only at hOperations hRead hWritten ⊢
  unfold published
  rw [ConvStats.mk.injEq]
  refine ⟨?_, ?_, ?_⟩
  · rw [load_counter_other _ _ _ (by omega), load_counter_other _ _ _ (by omega),
      ByteMem.load_storeWord, Nat.mod_eq_of_lt hOperations]
  · rw [load_counter_other _ _ _ (by omega), ByteMem.load_storeWord, Nat.mod_eq_of_lt hRead]
  · rw [ByteMem.load_storeWord, Nat.mod_eq_of_lt hWritten]

theorem publish_ensures (bytes : Nat) (data : Nat → UInt8) (s : Handle) :
    (publish bytes data).Ensures (fun _ => True) s fun _ s' =>
      published s'.localExtmem = figures s.localExtmem := by
  have hOutputs : ∀ word ∈ (List.range mobilenetOutputCount).map fun i =>
      (28 + 4 * i, u32 (data i).toInt8.toInt), word.1 + 4 ≤ 56 := by
    intro word hWord
    obtain ⟨i, hi, rfl⟩ := List.mem_map.mp hWord
    have hCount := List.mem_range.mp hi
    unfold mobilenetOutputCount at hCount
    dsimp only
    omega
  refine .bind ((spares_mailboxWords hOutputs fun _ => mailbox_below_executing).ensures s)
    fun _ s₁ h₁ => ?_
  have hChecksum : ∀ word ∈ [(48, fnv1a32 data (u32 bytes)), (52, u32 bytes)],
      word.1 + 4 ≤ 56 := by
    intro word hWord
    simp only [List.mem_cons, List.not_mem_nil, or_false] at hWord
    rcases hWord with rfl | rfl <;> dsimp only <;> omega
  refine .bind ((spares_mailboxWords hChecksum fun _ => mailbox_below_executing).ensures s₁)
    fun _ s₂ h₂ => ?_
  refine writeExtmem_bind fun s₃ h₃ => .get_bind ?_
  refine ((spares_mailboxWords ?_ fun _ => mailbox_below_posting).ensures s₃).mono
    fun _ s₄ h₄ => ?_
  · intro word hWord
    simp only [List.mem_cons, List.not_mem_nil, or_false] at hWord
    rcases hWord with rfl | rfl | rfl | rfl <;> dsimp only <;> omega
  rw [published_agree h₄, h₃, ← figures_agree h₁, ← figures_agree h₂]
  exact published_storeFigures s₂.localExtmem

theorem failExecution_ensures (error : MobilenetError) (s : Handle) :
    (failExecution error).Ensures (fun _ => True) s fun code _ => code = -1 :=
  .modify_bind (.modify_bind (.pure rfl))

theorem posting_below_executing {i : Nat} (h : Posting i) : i < executionDescriptorOffset := by
  unfold Posting Within mailboxOffset at h
  unfold executionDescriptorOffset
  omega

theorem spares_recordOutputCount (executionMode : Nat) :
    Spares Posting (recordOutputCount executionMode) := by
  refine .ite (spares_writeExtmem fun m => agreeOn_store m _ fun i hi => ?_) (.pure _)
  have hBelow := posting_below_executing hi
  unfold Within
  omega

theorem spares_executionWords (words : List (Nat × Nat)) :
    Spares Posting (descriptorWords executionDescriptorOffset words) := by
  apply spares_descriptorWords
  intro word _ i hi
  have hBelow := posting_below_executing hi
  unfold Within
  omega

theorem recordModeledCycles_ensures (tflm : Interpreter) (executionMode sampledRtlMask : Nat)
    (s : Handle) :
    (recordModeledCycles tflm executionMode sampledRtlMask).Ensures (fun _ => True) s
      fun _ s' => figures s'.localExtmem = figures s.localExtmem := by
  refine .ite (fun _ => writeExtmem_ensures fun s₁ h₁ => ?_) fun _ => .pure rfl
  unfold figures
  rw [h₁, load_counter_other _ _ _ (by omega), load_counter_other _ _ _ (by omega),
    load_counter_other _ _ _ (by omega)]

/-- The mailbox is written before the descriptor gets its last figure. -/
theorem conclude_ensures (tflm : Interpreter) (executionMode sampledRtlMask : Nat) (s : Handle) :
    (conclude tflm executionMode sampledRtlMask).Ensures (fun _ => True) s fun code s' =>
      code = 0 → published s'.localExtmem = figures s.localExtmem := by
  refine .bind (recordModeledCycles_ensures tflm _ _ s) fun _ s₁ h₁ => ?_
  rw [← h₁]
  split
  · exact (failExecution_ensures _ s₁).mono fun code _ hCode hZero => by omega
  · refine .ite (fun _ => ?_) fun _ => ?_
    · exact (failExecution_ensures _ s₁).mono fun code _ hCode hZero => by omega
    · refine .bind (publish_ensures _ _ s₁) fun _ s₂ h₂ => ?_
      refine .bind ((spares_recordOutputCount _).ensures s₂) fun _ s₃ h₃ => ?_
      refine .bind ((spares_executionWords _).ensures s₃) fun _ s₄ h₄ => .pure fun _ => ?_
      rw [published_agree h₄, published_agree h₃, h₂]

section Main

variable {F : Type} {core : CoreKernel} (hCore : core.SparesExecution)

def noTraffic : ConvStats := ⟨0, 0, 0⟩

theorem load_zeros (m : ByteMem) {a n b k : Nat} (h : a ≤ b ∧ b + k ≤ a + n) :
    (m.store a n fun _ => 0).load b k = 0 := by
  induction k generalizing b with
  | zero => rfl
  | succ k ih =>
    rw [ByteMem.load, ByteMem.store_inside m _ (by omega), ih (by omega)]
    rfl

theorem initializeOperatorDescriptor_figures (opcode executionMode : Nat) (s : Handle) :
    (initializeOperatorDescriptor executionDescriptorOffset opcode executionMode).Ensures
      (fun _ => True) s fun _ s' => figures s'.localExtmem = noTraffic := by
  refine writeExtmem_bind fun s₁ h₁ => writeExtmem_ensures fun s₂ h₂ => ?_
  have hWords {a : Nat} (hPlace : 32 ≤ a ∧ a + 8 ≤ descriptorBytes) :
      s₂.localExtmem.load (executionDescriptorOffset + a) 8 = 0 := by
    rw [h₂, ByteMem.load_storeWords_disjoint, h₁]
    · exact load_zeros _ (by omega)
    · intro word hWord
      simp only [List.map_cons, List.map_nil, List.mem_cons, List.not_mem_nil, or_false] at hWord
      rcases hWord with rfl | rfl | rfl | rfl | rfl <;> dsimp only <;> omega
  unfold figures noTraffic
  rw [hWords (by decide), hWords (by decide), hWords (by decide)]

include hCore

theorem invokeModel_ensures (tflm : Interpreter) (cfg : BridgeConfig F) (run : PlacedNodes F)
    (s : Handle) :
    (invokeModel core tflm cfg run.nodes).Ensures (fun _ => True) s fun code s' =>
      code = 0 → published s'.localExtmem = run.traffic noTraffic := by
  refine .modify_bind (.modify_bind (.modify_bind (.get_bind ?_)))
  refine .bind (initializeOperatorDescriptor_figures _ _ _) fun _ s₁ h₁ => ?_
  have hFlags : Spares (fun i => executionDescriptorOffset + 28 ≤ i)
      (descriptorWords executionDescriptorOffset [(24, 1), (16, OperatorState.running.code)]) := by
    apply spares_descriptorWords
    intro word hWord i hi
    simp only [List.mem_cons, List.not_mem_nil, or_false] at hWord
    unfold Within
    rcases hWord with rfl | rfl <;> dsimp only <;> omega
  refine .bind (hFlags.ensures s₁) fun _ s₂ h₂ => ?_
  have hFigures : figures s₂.localExtmem = noTraffic := by
    have hLoad {a : Nat} (hPlace : 28 ≤ a) :
        s₂.localExtmem.load (executionDescriptorOffset + a) 8 =
          s₁.localExtmem.load (executionDescriptorOffset + a) 8 :=
      AgreeOn.load h₂ fun i _ => by omega
    rw [← h₁]
    unfold figures
    rw [hLoad (by decide), hLoad (by decide), hLoad (by decide)]
  refine .bind (invokeNodes_ensures hCore run s₂) fun invoked s₃ h₃ => ?_
  refine .ite (fun hInvoked => .modify_bind ?_) fun _ => ?_
  · refine (conclude_ensures tflm _ _ _).mono fun code s₄ h₄ hZero => ?_
    rw [h₄ hZero, ← hFigures]
    exact h₃ hInvoked
  · exact (failExecution_ensures _ s₃).mono fun code _ hCode hZero => by omega

theorem mobilenetMain_ensures (tflm : Interpreter) (cfg : BridgeConfig F) (run : PlacedNodes F)
    (s : Handle) :
    (mobilenetMain core tflm cfg run.nodes).Ensures (fun _ => True) s fun code s' =>
      code = 0 → published s'.localExtmem = run.traffic noTraffic := by
  have hFail (error : MobilenetError) (s : Handle) : (fail error).Ensures (fun _ => True) s
      fun code s' => code = 0 → published s'.localExtmem = run.traffic noTraffic :=
    .modify_bind (.pure fun hZero => by omega)
  refine .modify_bind (.modify_bind (.modify_bind ?_))
  refine .ite (fun _ => hFail _ _) fun _ => .modify_bind ?_
  refine .ite (fun _ => hFail _ _) fun _ => .modify_bind ?_
  exact .ite (fun _ => hFail _ _) fun _ => invokeModel_ensures hCore tflm cfg run _

end Main

/-- Two completed runs of nodes of the same shapes publish the same figures, wherever each
node has run: every node is counted once. -/
theorem published_independent_of_placement {F : Type} {core core' : CoreKernel}
    (hCore : core.SparesExecution) (hCore' : core'.SparesExecution) (tflm tflm' : Interpreter)
    (cfg cfg' : BridgeConfig F) (run run' : PlacedNodes F) (hShapes : run.shapes = run'.shapes)
    (s s' : Handle) (hRun : (mobilenetMain core tflm cfg run.nodes s).result = some 0)
    (hRun' : (mobilenetMain core' tflm' cfg' run'.nodes s').result = some 0) :
    published (mobilenetMain core tflm cfg run.nodes s).state.localExtmem =
        published (mobilenetMain core' tflm' cfg' run'.nodes s').state.localExtmem ∧
      published (mobilenetMain core tflm cfg run.nodes s).state.localExtmem =
        run.traffic noTraffic := by
  have hFirst := (mobilenetMain_ensures hCore tflm cfg run s).2 0 hRun rfl
  have hSecond := (mobilenetMain_ensures hCore' tflm' cfg' run' s').2 0 hRun' rfl
  constructor
  · rw [hFirst, hSecond]
    exact PlacedNodes.traffic_congr hShapes noTraffic
  · exact hFirst

/-! ## One pointwise node, on the core and on the host -/

def onesTensor (type : TfLiteType) (dims : List Int) : EvalTensor := ⟨type, dims, fun _ => 1⟩

theorem onesTensor_fits (type : TfLiteType) :
    (onesTensor type [1, 1, 1, 1]).Fits 1 ∧ (onesTensor type [1]).Fits 4 := by
  constructor
  · constructor <;> simp [onesTensor, operatorMaxDims]
  · constructor <;> simp [onesTensor, operatorMaxDims]

def pointwiseNode : AcceptedNode where
  node :=
    { depthwise := false
      numInputs := 3
      userData := some ⟨0, 0, 0, fun _ => 0x40000000, fun _ => 1, -128, 127, 0, 0⟩
      builtinData := some ⟨1, 1, 1, 1⟩
      input := some (onesTensor .int8 [1, 1, 1, 1])
      filter := some (onesTensor .int8 [1, 1, 1, 1])
      bias := some (onesTensor .int32 [1])
      output := some (onesTensor .int8 [1, 1, 1, 1]) }
  input := onesTensor .int8 [1, 1, 1, 1]
  filter := onesTensor .int8 [1, 1, 1, 1]
  bias := onesTensor .int32 [1]
  output := onesTensor .int8 [1, 1, 1, 1]
  numInputs := rfl
  userData := rfl
  inputTensor := rfl
  filterTensor := rfl
  biasTensor := rfl
  outputTensor := rfl
  ranks := ⟨rfl, rfl, rfl⟩
  inputFits := (onesTensor_fits _).1
  filterFits := (onesTensor_fits _).1
  biasFits := (onesTensor_fits _).2
  outputFits := (onesTensor_fits _).1

def hostConfig : BridgeConfig Unit := { plainConfig with rvvHighmem := true }

def succeedingCore : CoreKernel := fun _ m => (.ok fun _ => 0, m)

/-- With this core a node can only succeed on the host. -/
def failingCore : CoreKernel := fun _ m => (.error, m)

def smallGraph : Interpreter where
  registered := true
  allocated := true
  inputReady := true
  elapsedCycles := 7
  output := some (5, fun _ => 0)

def placedOn (mode : OperatorMode) : PlacedNodes Unit := [(⟨hostConfig, mode.code⟩, pointwiseNode)]

theorem published_independent_of_placement_pointwise :
    published (mobilenetMain succeedingCore smallGraph hostConfig (placedOn .rtl).nodes
        {}).state.localExtmem =
      published (mobilenetMain failingCore smallGraph hostConfig (placedOn .hybrid).nodes
        { localExtmemEnabled := true }).state.localExtmem ∧
    published (mobilenetMain succeedingCore smallGraph hostConfig (placedOn .rtl).nodes
        {}).state.localExtmem = (placedOn .rtl).traffic noTraffic :=
  published_independent_of_placement (fun _ _ _ _ => rfl) (fun _ _ _ _ => rfl) smallGraph smallGraph
    hostConfig hostConfig (placedOn .rtl) (placedOn .hybrid) rfl {} { localExtmemEnabled := true }
    (by decide +kernel) (by decide +kernel)

end OpenNpux.Firmware
