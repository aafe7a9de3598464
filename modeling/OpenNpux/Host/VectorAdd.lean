import OpenNpux.Host.Runtime

/-!
# Vector addition from the host to the MAC

The window that the host fills is a command that the firmware accepts, with the output
apart from the inputs. So the firmware leaves the sums in the output, on the core and on
the MAC alike, and the host's checks of them succeed: what decides is the checksum that
the caller expects.
-/

namespace OpenNpux.Host

open Lib Firmware Bridge

section Window

variable (opcode : Nat) (a b : Nat → UInt32) (m : ByteMem) {n : Nat} (hn : n ≤ tensorMaxElements)

theorem descriptor_sorted (opcode elementCount : Nat) :
    (descriptor opcode elementCount).Pairwise fun word word' => word.1 + 4 ≤ word'.1 := by
  simp [descriptor, CommandField.offset, sequenceOffset]

theorem field_fillWindow {f : CommandField} {value : Nat}
    (hMem : (f.offset, value) ∈ descriptor opcode n) (hValue : value < 2 ^ 32) :
    field (fillWindow opcode a b n m) f = value := by
  rw [field, fillWindow, ByteMem.load_storeWords_of_mem _ (descriptor_sorted opcode n) hMem]
  exact Nat.mod_eq_of_lt hValue

theorem element_fillWindow {tensor : Nat} (hTensor : commandSize ≤ tensor) (i : Nat) :
    element (fillWindow opcode a b n m) tensor i =
      element (fillTensors a b (m.store 0 commandSize fun _ => 0) n) tensor i := by
  apply ByteMem.load_storeWords_disjoint
  have hDescriptor : ∀ word ∈ descriptor opcode n, word.1 + 4 ≤ commandSize := by
    simp [descriptor, CommandField.offset, sequenceOffset, commandSize]
  intro word hWord
  have hEnd := hDescriptor word hWord
  omega

include hn

theorem fillTensors_inputs {i : Nat} (hi : i < n) :
    element (fillTensors a b m n) input0Offset i = (a i).toNat ∧
      element (fillTensors a b m n) input1Offset i = (b i).toNat := by
  have hA : (a i).toNat < 256 ^ 4 := (a i).toNat_lt
  have hB : (b i).toNat < 256 ^ 4 := (b i).toNat_lt
  simp only [tensorMaxElements] at hn
  unfold element
  induction n with
  | zero => omega
  | succ n ih =>
    unfold fillTensors
    rcases Nat.lt_succ_iff_lt_or_eq.mp hi with hEarlier | rfl
    · obtain ⟨h0, h1⟩ := ih (by omega) hEarlier
      simp only [input0Offset, input1Offset, outputOffset] at h0 h1 ⊢
      simp (disch := omega) only [ByteMem.storeWord, ByteMem.load_store_disjoint]
      exact ⟨h0, h1⟩
    · simp only [input0Offset, input1Offset, outputOffset]
      simp (disch := omega) only [ByteMem.storeWord, ByteMem.load_store_disjoint]
      constructor
      · exact (ByteMem.load_storeWord _ _ _ _).trans (Nat.mod_eq_of_lt hA)
      · exact (ByteMem.load_storeWord _ _ _ _).trans (Nat.mod_eq_of_lt hB)

theorem fillWindow_inputs {i : Nat} (hi : i < n) :
    element (fillWindow opcode a b n m) input0Offset i = (a i).toNat ∧
      element (fillWindow opcode a b n m) input1Offset i = (b i).toNat := by
  rw [element_fillWindow opcode a b m (by decide), element_fillWindow opcode a b m (by decide)]
  exact fillTensors_inputs a b _ hn hi

theorem fillWindow_elementCount : field (fillWindow opcode a b n m) .elementCount = n := by
  simp only [tensorMaxElements] at hn
  exact field_fillWindow opcode a b m (by simp [descriptor]) (by omega)

end Window

theorem fillWindow_opcode (opcode : CommandOpcode) (a b : Nat → UInt32) (m : ByteMem) (n : Nat) :
    field (fillWindow opcode.code a b n m) .opcode = opcode.code :=
  field_fillWindow _ a b m (by simp [descriptor]) (by cases opcode <;> decide)

theorem fillWindow_tensors (opcode : Nat) (a b : Nat → UInt32) (m : ByteMem) (n : Nat) :
    tensors (fillWindow opcode a b n m) = ⟨input0Offset, input1Offset, outputOffset⟩ := by
  have hInput0 : field (fillWindow opcode a b n m) .input0Offset = input0Offset :=
    field_fillWindow opcode a b m (by simp [descriptor]) (by decide)
  have hInput1 : field (fillWindow opcode a b n m) .input1Offset = input1Offset :=
    field_fillWindow opcode a b m (by simp [descriptor]) (by decide)
  have hOutput : field (fillWindow opcode a b n m) .outputOffset = outputOffset :=
    field_fillWindow opcode a b m (by simp [descriptor]) (by decide)
  rw [tensors, hInput0, hInput1, hOutput]

section Command

variable (opcode : CommandOpcode) (a b : Nat → UInt32) (m : ByteMem) {n : Nat}
  (hn : n ≤ tensorMaxElements)

include hn

theorem fillWindow_apart : Apart (tensors (fillWindow opcode.code a b n m))
    (field (fillWindow opcode.code a b n m) .elementCount) := by
  rw [fillWindow_tensors, fillWindow_elementCount _ a b m hn]
  simp only [tensorMaxElements] at hn
  constructor <;> simp only [commandSize, input0Offset, input1Offset, outputOffset] <;> omega

omit hn in
theorem fillWindow_abiAccepted : abiAccepted (fillWindow opcode.code a b n m) = true := by
  have hMagic : field (fillWindow opcode.code a b n m) .magic = commandMagic :=
    field_fillWindow _ a b m (by simp [descriptor]) (by decide)
  have hVersion : field (fillWindow opcode.code a b n m) .abiVersion = commandAbiVersion :=
    field_fillWindow _ a b m (by simp [descriptor]) (by decide)
  have hSize : field (fillWindow opcode.code a b n m) .structSize = commandSize :=
    field_fillWindow _ a b m (by simp [descriptor]) (by decide)
  rw [abiAccepted, hMagic, hVersion, hSize]
  decide

theorem fillWindow_boundsAccepted : boundsAccepted (fillWindow opcode.code a b n m) = true := by
  have hCount := fillWindow_elementCount opcode.code a b m hn
  have hMax : n ≤ 256 := hn
  have hSize : field (fillWindow opcode.code a b n m) .outputSize = n * 4 :=
    field_fillWindow _ a b m (by simp [descriptor]) (by omega)
  have hBounds : ∀ tensor, tensor % 4 = 0 → tensor ≤ outputOffset →
      tensorInBounds tensor n = true := by
    intro tensor hAligned hTensor
    have hEnd : tensor ≤ 0x900 := hTensor
    have hFits : tensor ≤ windowSize ∧ n * 4 ≤ windowSize - tensor := by
      unfold windowSize
      omega
    simp [tensorInBounds, hAligned, hn, hFits]
  have hTensors := fillWindow_tensors opcode.code a b m n
  simp only [tensors, Tensors.mk.injEq] at hTensors
  obtain ⟨hInput0, hInput1, hOutput⟩ := hTensors
  rw [boundsAccepted, hCount, hInput0, hInput1, hOutput, hSize, hBounds _ (by decide) (by decide),
    hBounds _ (by decide) (by decide), hBounds _ (by decide) (by decide)]
  simp only [Bool.true_and, beq_iff_eq]
  omega

theorem fillWindow_accepted : commandAccepted (fillWindow opcode.code a b n m) = true := by
  have hOpcode : opcodeAccepted (fillWindow opcode.code a b n m) = true := by
    rw [opcodeAccepted, fillWindow_opcode]
    cases opcode <;> rfl
  rw [commandAccepted, fillWindow_abiAccepted, hOpcode, fillWindow_boundsAccepted opcode a b m hn]
  rfl

end Command

/-! ## The host's checks -/

/-- The sum of all elements of both vectors. -/
def sumChecksum (a b : Nat → UInt32) (n : Nat) : Nat :=
  ((List.range n).map fun i => (a i).toNat + (b i).toNat).sum % 2 ^ 32

theorem sumChecksum_succ (a b : Nat → UInt32) (n : Nat) :
    sumChecksum a b (n + 1) = (sumChecksum a b n + (a n + b n).toNat) % 2 ^ 32 := by
  rw [sumChecksum, List.range_succ, List.map_append, List.sum_append, sumChecksum, UInt32.toNat_add,
    List.map_singleton, List.sum_singleton, Nat.add_mod]

theorem checkOutput_eq {a b : Nat → UInt32} {m : ByteMem} {n : Nat}
    (h : ∀ i < n, element m outputOffset i = (a i + b i).toNat) (valid : Bool) :
    checkOutput a b m valid n = (valid, sumChecksum a b n) := by
  induction n with
  | zero => rfl
  | succ n ih =>
    rw [checkOutput, ih fun i hi => h i (by omega), sumChecksum_succ, h n (by omega)]
    simp

structure VectorSum (opcode : CommandOpcode) (a b : Nat → UInt32) (n : Nat)
    (m : ByteMem) : Prop where
  status : field m .status = CommandStatus.complete.code
  errorCode : field m .errorCode = CommandError.none.code
  completedElements : field m .completedElements = n
  acceleratorCycles : field m .acceleratorCycles = busyCycles opcode.code n
  output : ∀ i < n, element m outputOffset i = ((a i).toNat + (b i).toNat) % 2 ^ 32
  input0 : ∀ i < n, element m input0Offset i = (a i).toNat
  input1 : ∀ i < n, element m input1Offset i = (b i).toNat

theorem vectorSum_of_completed {opcode : CommandOpcode} {a b : Nat → UInt32} {n : Nat}
    (hn : n ≤ tensorMaxElements) {m m' : ByteMem}
    (h : Completed (fillWindow opcode.code a b n m) m') : VectorSum opcode a b n m' := by
  obtain ⟨hStatus, hError, hCompleted, hCycles, hOutput, hInput0, hInput1⟩ := h
  rw [fillWindow_elementCount _ a b m hn] at hCompleted hCycles hOutput hInput0 hInput1
  rw [fillWindow_tensors] at hOutput hInput0 hInput1
  refine ⟨hStatus, hError, hCompleted, ?_, ?_, ?_, ?_⟩
  · rw [hCycles, fillWindow_opcode]
  · intro i hi
    obtain ⟨hA, hB⟩ := fillWindow_inputs opcode.code a b m hn hi
    rw [hOutput i hi, hA, hB]
  · exact fun i hi => (hInput0 i hi).trans (fillWindow_inputs opcode.code a b m hn hi).1
  · exact fun i hi => (hInput1 i hi).trans (fillWindow_inputs opcode.code a b m hn hi).2

/-- The run executes the firmware on the window and sees the NPU halted. -/
structure RunsFirmware {D : Type} (dev : CoralDevice D) (entry polls : Nat) (wait : Nat → Nat)
    (fuel : Nat) (mac : Gem5CustomMac) (d : D) (m : ByteMem) : Prop where
  code : (dev.run entry polls d m).code = 0
  halted : (dev.run entry polls d m).status % 2 = 1
  window : (dev.run entry polls d m).window = (main wait fuel { memory := m, mac }).state.memory

section Submit

variable {D : Type} {dev : CoralDevice D}

theorem call_apply {α : Type} (f : D → Option α × D) (h : Process D) :
    call f h = ⟨(f h.device).1, { h with device := (f h.device).2 }, []⟩ := rfl

theorem openSharedWindow_opened {minSize : Nat} {h : Process D}
    (hOpened : (openSharedWindow dev minSize h).result = some true) :
    openSharedWindow dev minSize h =
      ⟨some true, { h with device := (openSharedWindow dev minSize h).state.device }, []⟩ := by
  revert hOpened
  unfold openSharedWindow
  rw [Prog.bind_apply, call_apply]
  cases (dev.readReg .sharedBase h.device).1 with
  | none => exact nofun
  | some base =>
    dsimp only
    rw [Prog.bind_apply, call_apply]
    cases (dev.readReg .sharedSize (dev.readReg .sharedBase h.device).2).1 with
    | none => exact nofun
    | some size =>
      dsimp only
      split
      · exact nofun
      · rw [Prog.get_bind]
        dsimp only
        cases dev.mmap (dev.readReg .sharedSize (dev.readReg .sharedBase h.device).2).2 with
        | none => exact fun _ => rfl
        | some errno => exact nofun

theorem submissionValid_of_count (opcode : CommandOpcode) {n : Nat} (hPos : 1 ≤ n)
    (hn : n ≤ tensorMaxElements) : submissionValid opcode.code n = true := by
  have hNonzero : n ≠ 0 := by omega
  cases opcode <;> simp [submissionValid, hNonzero, hn, CommandOpcode.code]

theorem writeWindow_apply (f : ByteMem → ByteMem) (h : Process D) :
    writeWindow f h = ⟨some (), { h with window := f h.window }, [.windowWritten]⟩ := rfl

theorem coralRun_apply (entry polls : Nat) (h : Process D) :
    coralRun dev entry polls h =
      let o := dev.run entry polls h.device h.window
      ⟨some (o.code, o.status), ⟨o.device, o.window, o.errno⟩, [.submitted]⟩ := rfl

theorem VectorSum.checked {opcode : CommandOpcode} {a b : Nat → UInt32} {n : Nat} {m : ByteMem}
    (hSum : VectorSum opcode a b n m) :
    checkOutput a b m (commandValid n m) n = (true, sumChecksum a b n) := by
  have hValid : commandValid n m = true := by
    simp [commandValid, hSum.status, hSum.errorCode, hSum.completedElements]
  rw [hValid]
  apply checkOutput_eq
  intro i hi
  rw [hSum.output i hi, UInt32.toNat_add]

variable {entry polls : Nat} {opcode : CommandOpcode} {a b : Nat → UInt32} {n : Nat}

theorem RunsFirmware.vectorSum (hn : n ≤ tensorMaxElements) {wait : Nat → Nat} {fuel : Nat}
    (hFuel : tensorMaxElements < fuel) {mac : Gem5CustomMac} (hIdle : mac.Idle)
    {d : D} {m : ByteMem}
    (hRun : RunsFirmware dev entry polls wait fuel mac d (fillWindow opcode.code a b n m)) :
    (main wait fuel { memory := fillWindow opcode.code a b n m, mac }).result = some 0 ∧
      VectorSum opcode a b n (dev.run entry polls d (fillWindow opcode.code a b n m)).window := by
  obtain ⟨-, exit, hExit, rfl, hMemory⟩ :=
    main_completes (fillWindow_apart opcode a b m hn) wait hFuel
    hIdle (fillWindow_accepted opcode a b m hn)
  have hCount : field (fillWindow opcode.code a b n m) .elementCount ≤ tensorMaxElements := by
    rwa [fillWindow_elementCount _ a b m hn]
  refine ⟨hExit, ?_⟩
  rw [hRun.window, hMemory]
  exact vectorSum_of_completed hn ((fillWindow_apart opcode a b m hn).completed hCount _)

theorem submitVectorAdd_apply (expected : Nat) (hPos : 1 ≤ n) (hn : n ≤ tensorMaxElements)
    {h : Process D} {d : D} (hOpened : openSharedWindow dev (outputOffset + n * 4) h =
      ⟨some true, { h with device := d }, []⟩) {o : RunOutcome D}
    (hRun : dev.run entry polls d (fillWindow opcode.code a b n h.window) = o) (hCode : o.code = 0)
    (hHalted : o.status % 2 = 1) (hSum : VectorSum opcode a b n o.window) :
    submitVectorAdd dev entry opcode.code a b n expected polls h =
      ⟨some (if expected = sumChecksum a b n then 0 else -1,
          collectResult opcode.code n (sumChecksum a b n) o.window),
        ⟨o.device, o.window, if expected = sumChecksum a b n then o.errno else eio⟩,
        [.windowWritten, .submitted]⟩ := by
  have hRan : coralRun dev entry polls ⟨d, fillWindow opcode.code a b n h.window, h.errno⟩ =
      ⟨some (o.code, o.status), ⟨o.device, o.window, o.errno⟩, [.submitted]⟩ := by
    rw [coralRun_apply]
    dsimp only
    rw [hRun]
  unfold submitVectorAdd
  rw [submissionValid_of_count opcode hPos hn, if_neg (by decide), Prog.bind_silent hOpened,
    if_neg (by decide), Prog.bind_of_apply (writeWindow_apply _ _), Prog.bind_of_apply hRan]
  dsimp only
  rw [Prog.get_bind]
  dsimp only
  rw [hSum.checked]
  dsimp only
  rw [if_neg (by simpa using hCode)]
  by_cases hExpected : expected = sumChecksum a b n
  · rw [if_neg (by simp [hExpected, hHalted]), if_pos hExpected, if_pos hExpected]
    rfl
  · have hWrong : sumChecksum a b n ≠ expected := fun hSame => hExpected hSame.symm
    rw [if_pos (by simp [hWrong]), if_neg hExpected, if_neg hExpected]
    rfl

end Submit

/-- With the firmware on the window, the sums are in it, and what the host returns depends
on the expected checksum alone. -/
theorem submitVectorAdd_sums {D : Type} (dev : CoralDevice D) (entry polls expected : Nat)
    (opcode : CommandOpcode) (a b : Nat → UInt32) {n : Nat} (hPos : 1 ≤ n)
    (hn : n ≤ tensorMaxElements) (h : Process D)
    (hOpened : (openSharedWindow dev (outputOffset + n * 4) h).result = some true)
    (wait : Nat → Nat) {fuel : Nat} (hFuel : tensorMaxElements < fuel) {mac : Gem5CustomMac}
    (hIdle : mac.Idle)
    (hRun : RunsFirmware dev entry polls wait fuel mac
      (openSharedWindow dev (outputOffset + n * 4) h).state.device
      (fillWindow opcode.code a b n h.window)) :
    let o := submitVectorAdd dev entry opcode.code a b n expected polls h
    (main wait fuel { memory := fillWindow opcode.code a b n h.window, mac }).result = some 0 ∧
      VectorSum opcode a b n o.state.window ∧
      ∃ code, o.result = some (code, collectResult opcode.code n
        (sumChecksum a b n) o.state.window) ∧ (code = 0 ↔ expected = sumChecksum a b n) := by
  obtain ⟨hExit, hSum⟩ := hRun.vectorSum hn hFuel hIdle
  have hSubmit := submitVectorAdd_apply expected hPos hn
    (openSharedWindow_opened hOpened) rfl hRun.code hRun.halted hSum
  intro o
  have hOutcome : o = _ := hSubmit
  rw [hOutcome]
  exact ⟨hExit, hSum, _, rfl, by simp⟩

/-- A device that runs the firmware on its window. -/
def firmwareDevice : CoralDevice Unit where
  readReg _ _ := (some windowSize, ())
  getInfo _ := (some ⟨0, 0, 0⟩, ())
  mmap _ := none
  run _ _ _ m := ⟨0, 0, 1, (), (main (fun _ => 0) 257 { memory := m }).state.memory⟩

theorem firmwareDevice_runs (m : ByteMem) :
    RunsFirmware firmwareDevice 0 1 (fun _ => 0) 257 {} () m :=
  ⟨rfl, rfl, rfl⟩

theorem submitVectorAdd_sums_wrapping :
    let o := submitVectorAdd firmwareDevice 0 CommandOpcode.vectorAddCustomU32.code
      (fun _ => 0xffffffff) UInt32.ofNat 256 0 1 ⟨(), fun _ => 0, 0⟩
    VectorSum .vectorAddCustomU32 (fun _ => 0xffffffff) UInt32.ofNat 256 o.state.window :=
  (submitVectorAdd_sums firmwareDevice 0 1 0 .vectorAddCustomU32 (fun _ => 0xffffffff) UInt32.ofNat
    (by decide) (by decide) ⟨(), fun _ => 0, 0⟩ rfl (fun _ => 0) (by decide) ⟨rfl, rfl⟩
    (firmwareDevice_runs _)).2.1

end OpenNpux.Host
