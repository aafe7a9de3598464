import OpenNpux.Firmware.CommandWindow

/-!
# The sums of the command firmware

A command whose output tensor lies apart from its inputs and from the descriptor runs for
the count that was checked. Each element of the output is then the sum of the inputs as
they were at the start, and the recorded clocks are three for each element on the MAC.
-/

namespace OpenNpux.Firmware

open Lib Bridge

def element (m : ByteMem) (tensor i : Nat) : Nat := m.load (tensor + 4 * i) 4

/-- The output is apart from the inputs, and the tensors are behind the descriptor. -/
structure Apart (t : Tensors) (n : Nat) : Prop where
  descriptor : commandSize ≤ t.input0 ∧ commandSize ≤ t.input1 ∧ commandSize ≤ t.output
  range : t.input0 + 4 * n < 2 ^ 32 ∧ t.input1 + 4 * n < 2 ^ 32 ∧ t.output + 4 * n < 2 ^ 32
  input0 : t.input0 + 4 * n ≤ t.output ∨ t.output + 4 * n ≤ t.input0
  input1 : t.input1 + 4 * n ≤ t.output ∨ t.output + 4 * n ≤ t.input1

theorem elementOffset_of_range {tensor n i : Nat} (h : tensor + 4 * n < 2 ^ 32) (hi : i < n) :
    elementOffset tensor i = tensor + 4 * i :=
  Nat.mod_eq_of_lt (by omega)

section Elements

variable {t : Tensors} {n : Nat} (h : Apart t n) (m : ByteMem)

include h

theorem Apart.load_untouched {i a : Nat} (hi : i ≤ n)
    (hOutput : a + 4 ≤ t.output ∨ t.output + 4 * n ≤ a)
    (hCompleted : a + 4 ≤ 56 ∨ 60 ≤ a) : (afterElements t m i).load a 4 = m.load a 4 := by
  induction i with
  | zero => rfl
  | succ i ih =>
    have hOffset := elementOffset_of_range h.range.2.2 (i := i) (by omega)
    rw [afterElements, addStep, ByteMem.storeWord, ByteMem.load_store_disjoint, ByteMem.storeWord,
      ByteMem.load_store_disjoint]
    · exact ih (by omega)
    · rw [hOffset]
      omega
    · simp only [CommandField.offset]
      omega

theorem Apart.field_untouched {i : Nat} (hi : i ≤ n) {f : CommandField}
    (hf : f ≠ .completedElements) :
    field (afterElements t m i) f = field m f := by
  have hOutput : 64 ≤ t.output := h.descriptor.2.2
  apply h.load_untouched m hi
  · cases f <;> simp only [CommandField.offset] <;> omega
  · cases f <;> first | exact absurd rfl hf | simp [CommandField.offset]

theorem Apart.elementSum_eq {i j : Nat} (hi : i ≤ n) (hj : j < n) :
    elementSum t (afterElements t m i) j =
      (element m t.input0 j + element m t.input1 j) % 2 ^ 32 := by
  obtain ⟨hInput0, hInput1, -⟩ := h.descriptor
  have h0 := h.input0
  have h1 := h.input1
  simp only [commandSize] at hInput0 hInput1
  rw [elementSum, elementOffset_of_range h.range.1 hj, elementOffset_of_range h.range.2.1 hj,
    h.load_untouched m hi (by omega) (by omega), h.load_untouched m hi (by omega) (by omega)]
  rfl

theorem Apart.output_eq {i j : Nat} (hi : i ≤ n) (hj : j < i) :
    element (afterElements t m i) t.output j =
      (element m t.input0 j + element m t.input1 j) % 2 ^ 32 := by
  have hOutput : 64 ≤ t.output := h.descriptor.2.2
  induction i with
  | zero => omega
  | succ i ih =>
    have hOffset := elementOffset_of_range h.range.2.2 (i := i) (by omega)
    rw [element, afterElements, addStep, ByteMem.storeWord, ByteMem.load_store_disjoint, hOffset]
    · rcases Nat.lt_succ_iff_lt_or_eq.mp hj with hEarlier | rfl
      · rw [ByteMem.storeWord, ByteMem.load_store_disjoint]
        · exact ih (by omega) hEarlier
        · omega
      · rw [ByteMem.load_storeWord, h.elementSum_eq m (by omega) (by omega)]
        exact Nat.mod_mod _ _
    · simp only [CommandField.offset]
      omega

theorem Apart.macCycles_eq {i : Nat} (hi : i ≤ n) :
    macCycles t m i = if customOpcode m then UInt32.ofNat (3 * i) else 0 := by
  induction i with
  | zero => simp [macCycles]
  | succ i ih =>
    have hOpcode : customOpcode (afterElements t m i) = customOpcode m := by
      rw [customOpcode, h.field_untouched m (by omega) (by decide)]
      rfl
    rw [macCycles, ih (by omega), hOpcode]
    split
    · rw [Nat.mul_succ, UInt32.ofNat_add]
      rfl
    · rfl

end Elements

theorem field_startedMemory {f : CommandField} (m : ByteMem)
    (h : f.offset + 4 ≤ CommandField.status.offset) : field (startedMemory m) f = field m f := by
  simp only [CommandField.offset] at h
  rw [startedMemory, field_store_of_ne, field_store_of_ne, field_store_of_ne, field_store_of_ne]
  all_goals
    simp only [CommandField.offset]
    omega

theorem element_startedMemory {tensor : Nat} (m : ByteMem) (h : commandSize ≤ tensor) (i : Nat) :
    element (startedMemory m) tensor i = element m tensor i := by
  simp only [commandSize] at h
  unfold element startedMemory ByteMem.storeWord
  rw [ByteMem.load_store_disjoint, ByteMem.load_store_disjoint, ByteMem.load_store_disjoint,
    ByteMem.load_store_disjoint]
  all_goals
    simp only [CommandField.offset]
    omega

theorem completedElements_eq {t : Tensors} (m : ByteMem) {i : Nat} (hi : i < 2 ^ 32) :
    field (afterElements t (startedMemory m) i) .completedElements = i := by
  cases i with
  | zero =>
    rw [afterElements, startedMemory, field_store_of_ne (by decide)]
    exact field_store_self _ _ hi
  | succ i =>
    rw [afterElements, addStep]
    exact field_store_self _ _ hi

/-- The cycles that the MAC is busy with an addition of so many elements. -/
def busyCycles (opcode n : Nat) : Nat :=
  if opcode == CommandOpcode.vectorAddCustomU32.code then 3 * n else 0

/-- What a command leaves in the window `m'` that it found in `m`. -/
structure Completed (m m' : ByteMem) : Prop where
  status : field m' .status = CommandStatus.complete.code
  errorCode : field m' .errorCode = CommandError.none.code
  completedElements : field m' .completedElements = field m .elementCount
  acceleratorCycles : field m' .acceleratorCycles =
    busyCycles (field m .opcode) (field m .elementCount)
  output : ∀ i < field m .elementCount, element m' (tensors m).output i =
    (element m (tensors m).input0 i + element m (tensors m).input1 i) % 2 ^ 32
  input0 : ∀ i < field m .elementCount,
    element m' (tensors m).input0 i = element m (tensors m).input0 i
  input1 : ∀ i < field m .elementCount,
    element m' (tensors m).input1 i = element m (tensors m).input1 i

/-- The memory at the end of a command that the loop's count leaves alone. -/
def completedMemory (m : ByteMem) (cycles : UInt32) : ByteMem :=
  let looped := afterElements (tensors m) (startedMemory m) (field m .elementCount)
  let before := if customOpcode (startedMemory m) then cycles.toNat else 0
  (recordedMemory looped
    (cycles + macCycles (tensors m) (startedMemory m) (field m .elementCount)) before).storeWord
      CommandField.status.offset 4 CommandStatus.complete.code

section Completion

variable {m : ByteMem} (hApart : Apart (tensors m) (field m .elementCount))

include hApart

theorem Apart.count_kept {i : Nat} (hi : i ≤ field m .elementCount) :
    field (afterElements (tensors m) (startedMemory m) i) .elementCount =
      field m .elementCount := by
  rw [hApart.field_untouched _ hi (by decide), startedMemory_count]

theorem main_completes (wait : Nat → Nat) {fuel : Nat} (hFuel : tensorMaxElements < fuel)
    {mac : Gem5CustomMac} (hIdle : mac.Idle) (hAccepted : commandAccepted m = true) :
    (main wait fuel).Runs WindowAccess.Inside { memory := m, mac } fun code s' =>
      code = 0 ∧ s'.memory = completedMemory m mac.model.cycles := by
  have hFits := fits_of_accepted hAccepted
  have hMax : field m .elementCount ≤ 256 := hFits.count
  have hMore : 256 < fuel := hFuel
  obtain ⟨before, s₁, ⟨hAt₁, hCycles₁, rfl⟩, hMain⟩ :=
    main_accepts (s := { memory := m, mac }) wait fuel hIdle rfl hAccepted
  obtain ⟨s₂, ⟨hAt₂, hCycles₂⟩, hLoop⟩ := @addLoop_leadsTo _ wait _ _ _ fuel hFits.allows
    (by omega) (by omega) _ hAt₁
    (fun i hi => Nat.lt_of_lt_of_eq hi (hApart.count_kept (Nat.le_of_lt hi)).symm)
    (fuel - field m .elementCount - 1 + 1)
  rw [show fuel - field m .elementCount - 1 + 1 + field m .elementCount = fuel by omega] at hLoop
  refine (hMain.trans (hLoop.bind _)).runs ?_
  refine (addLoop_exit wait hAt₂ (Nat.le_of_eq (hApart.count_kept (Nat.le_refl _)))).bind ?_
  rintro _ _ rfl
  refine (finishCommand_runs wait hAt₂.idle _).mono ?_
  rintro code s₃ ⟨rfl, -, hMemory⟩
  refine ⟨rfl, ?_⟩
  rw [hMemory, hAt₂.memory, hCycles₂, hCycles₁]
  rfl

theorem Apart.customOpcode_kept {i : Nat} (hi : i ≤ field m .elementCount) :
    customOpcode (afterElements (tensors m) (startedMemory m) i) = customOpcode m := by
  rw [customOpcode, hApart.field_untouched _ hi (by decide),
    field_startedMemory m (by decide)]
  rfl

omit hApart in
theorem element_completedMemory {tensor : Nat} (hTensor : commandSize ≤ tensor)
    (cycles : UInt32) (i : Nat) :
    element (completedMemory m cycles) tensor i =
      element (afterElements (tensors m) (startedMemory m) (field m .elementCount)) tensor i := by
  simp only [commandSize] at hTensor
  unfold element completedMemory recordedMemory ByteMem.storeWord
  rw [ByteMem.load_store_disjoint]
  · split
    · rw [ByteMem.load_store_disjoint]
      simp only [CommandField.offset]
      omega
    · rfl
  · simp only [CommandField.offset]
    omega

omit hApart in
theorem field_completedMemory {f : CommandField} (hStatus : f ≠ .status)
    (hCycles : f ≠ .acceleratorCycles) (cycles : UInt32) :
    field (completedMemory m cycles) f =
      field (afterElements (tensors m) (startedMemory m) (field m .elementCount)) f := by
  have hApartFrom : ∀ g : CommandField, f ≠ g → f.offset + 4 ≤ g.offset ∨
      g.offset + 4 ≤ f.offset := by
    intro g hNe
    cases f <;> cases g <;> first | exact absurd rfl hNe | simp [CommandField.offset]
  unfold completedMemory recordedMemory
  rw [field_store_of_ne (hApartFrom _ hStatus)]
  split
  · rw [field_store_of_ne (hApartFrom _ hCycles)]
  · rfl

theorem Apart.acceleratorCycles_eq (hCount : field m .elementCount ≤ tensorMaxElements)
    (cycles : UInt32) : field (completedMemory m cycles) .acceleratorCycles =
      busyCycles (field m .opcode) (field m .elementCount) := by
  have hMax : field m .elementCount ≤ 256 := hCount
  change _ = if customOpcode m then 3 * field m .elementCount else 0
  unfold completedMemory recordedMemory
  rw [field_store_of_ne (by decide), hApart.customOpcode_kept (Nat.le_refl _),
    hApart.macCycles_eq _ (Nat.le_refl _)]
  have hStarted : customOpcode (startedMemory m) = customOpcode m :=
    hApart.customOpcode_kept (Nat.zero_le _)
  rw [hStarted]
  split
  · rw [field_store_self _ _ (Nat.mod_lt _ (by decide)), UInt32.toNat_add,
      UInt32.toNat_ofNat_of_lt' (by simp only [UInt32.size]; omega)]
    have hCycles := cycles.toNat_lt
    omega
  · rw [hApart.field_untouched _ (Nat.le_refl _) (by decide), startedMemory]
    exact field_store_self _ _ (by decide)

theorem Apart.completed (hCount : field m .elementCount ≤ tensorMaxElements) (cycles : UInt32) :
    Completed m (completedMemory m cycles) := by
  have hMax : field m .elementCount ≤ 256 := hCount
  obtain ⟨hInput0, hInput1, hOutput⟩ := hApart.descriptor
  have hUntouched : ∀ tensor i, commandSize ≤ tensor → i < field m .elementCount →
      (tensor + 4 * field m .elementCount ≤ (tensors m).output ∨
        (tensors m).output + 4 * field m .elementCount ≤ tensor) →
      element (completedMemory m cycles) tensor i = element m tensor i := by
    intro tensor i hTensor hi hAway
    have hAfter : 64 ≤ tensor := hTensor
    rw [element_completedMemory hTensor, ← element_startedMemory m hTensor]
    exact hApart.load_untouched _ (Nat.le_refl _) (by omega) (by omega)
  constructor
  · exact field_store_self _ _ (by decide)
  · rw [field_completedMemory (by decide) (by decide),
      hApart.field_untouched _ (Nat.le_refl _) (by decide),
      startedMemory, field_store_of_ne (by decide), field_store_of_ne (by decide)]
    exact field_store_self _ _ (by decide)
  · rw [field_completedMemory (by decide) (by decide)]
    exact completedElements_eq m (by omega)
  · exact hApart.acceleratorCycles_eq hCount cycles
  · intro i hi
    rw [element_completedMemory hOutput, hApart.output_eq _ (Nat.le_refl _) hi,
      element_startedMemory m hInput0, element_startedMemory m hInput1]
  · exact fun i hi => hUntouched _ i hInput0 hi hApart.input0
  · exact fun i hi => hUntouched _ i hInput1 hi hApart.input1

end Completion

end OpenNpux.Firmware
