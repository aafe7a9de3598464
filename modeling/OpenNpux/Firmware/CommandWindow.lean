import OpenNpux.Firmware.Command
import OpenNpux.Lib.Lockstep

/-!
# The command firmware and its window

The bounds are checked once, but the loop runs on what the count word holds in each
iteration. Only the output tensor can change that word, in at most one iteration. So
the firmware stays inside the window exactly when the sum stored there, if any, does
not exceed the count that was checked.
-/

namespace OpenNpux.Firmware

open Lib Bridge

theorem load32_apply (offset : Nat) (s : Core) :
    load32 offset s = ⟨some (s.memory.load offset 4), s, [⟨offset⟩]⟩ := rfl

theorem store32_apply (offset value : Nat) (s : Core) :
    store32 offset value s =
      ⟨some (), { s with memory := s.memory.storeWord offset 4 value }, [⟨offset⟩]⟩ := rfl

/-! ## The MAC adds -/

section Mac

variable {ok : WindowAccess → Prop} (steps : Nat → Nat → Nat)

theorem readReg_apply (offset : Nat) (s : Core) :
    readReg steps offset s =
      ⟨some ((s.clocked steps offset).read32 (Gem5CustomMac.macBase + offset)).toNat,
        { s with mac := s.clocked steps offset, macAccesses := s.macAccesses + 1 }, []⟩ := rfl

theorem writeReg_apply (offset value : Nat) (s : Core) :
    writeReg steps offset value s =
      ⟨some (),
        { s with
          mac := (s.clocked steps offset).write32 (Gem5CustomMac.macBase + offset)
            (UInt32.ofNat value)
          macAccesses := s.macAccesses + 1 }, []⟩ := rfl

/-- What an access to the MAC leaves alone. -/
structure SameWindow (s s' : Core) : Prop where
  memory : s'.memory = s.memory
  iterations : s'.iterations = s.iterations

theorem SameWindow.trans {s s' s'' : Core} (h : SameWindow s s') (h' : SameWindow s' s'') :
    SameWindow s s'' :=
  ⟨h'.memory.trans h.memory, h'.iterations.trans h.iterations⟩

theorem Core.clocked_idle {s : Core} (h : s.mac.Idle) (offset : Nat) :
    s.clocked steps offset = s.mac :=
  h.iterate_eq _

theorem readReg_runs {s : Core} (h : s.mac.Idle) (offset : Nat) :
    (readReg steps offset).Runs ok s fun value s' => SameWindow s s' ∧ s'.mac = s.mac ∧
      value = (s.mac.read32 (Gem5CustomMac.macBase + offset)).toNat := by
  rw [Prog.Runs, readReg_apply, Core.clocked_idle steps h]
  exact ⟨by simp, _, rfl, ⟨rfl, rfl⟩, rfl, rfl⟩

theorem writeReg_runs {s : Core} (h : s.mac.Idle) (offset value : Nat) :
    (writeReg steps offset value).Runs ok s fun _ s' => SameWindow s s' ∧
      s'.mac = s.mac.write32 (Gem5CustomMac.macBase + offset) (UInt32.ofNat value) := by
  rw [Prog.Runs, writeReg_apply, Core.clocked_idle steps h]
  exact ⟨by simp, _, rfl, ⟨rfl, rfl⟩, rfl⟩

/-- The first poll may come right after the command; before each later one the MAC is
clocked. -/
theorem pollDone_runs {fuel left : Nat} {value : UInt32} {s : Core} (hFuel : left < fuel)
    (hFirst : 0 < steps s.macAccesses 0x14 ∨ left + 1 < fuel)
    (hSteps : ∀ n, s.macAccesses < n → 0 < steps n 0x14) (h : s.mac.Computes left value) :
    (pollDone steps fuel).Runs ok s fun _ s' => SameWindow s s' ∧ s'.mac.Computes 0 value ∧
      s'.mac.endCycles = s.mac.endCycles := by
  induction fuel generalizing left s with
  | zero => omega
  | succ fuel ih =>
    have hNext : (s.clocked steps 0x14).Computes (left - steps s.macAccesses 0x14) value :=
      h.iterate _
    refine Prog.Runs.step (readReg_apply steps _ s) (by simp) ?_
    rw [hNext.status]
    by_cases hDone : left - steps s.macAccesses 0x14 = 0
    · rw [if_pos hDone, if_neg Nat.one_ne_zero]
      rw [hDone] at hNext
      exact .pure ⟨⟨rfl, rfl⟩, hNext, h.endCycles_iterate _⟩
    · rw [if_neg hDone, if_pos rfl]
      refine (ih (by omega) (.inl (hSteps _ (Nat.lt_succ_self _)))
        (fun n hn => hSteps n (Nat.lt_of_succ_lt hn)) hNext).mono ?_
      rintro _ s' ⟨hSame, hEnd, hCycles⟩
      exact ⟨⟨hSame.memory, hSame.iterations⟩, hEnd, hCycles.trans (h.endCycles_iterate _)⟩

theorem customAdd_runs {fuel : Nat} (hFuel : 3 < fuel) (hSteps : ∀ n, 0 < steps n 0x14) {s : Core}
    (h : s.mac.Idle) (lhs rhs : Nat) :
    (customAdd steps fuel lhs rhs).Runs ok s fun value s' =>
      SameWindow s s' ∧ s'.mac.Idle ∧ s'.mac.model.cycles = s.mac.model.cycles + 3 ∧
        value = (lhs + rhs) % 2 ^ 32 := by
  refine (writeReg_runs steps h _ lhs).bind ?_
  rintro _ s₁ ⟨hSame₁, hMac₁⟩
  have hLoaded₁ := hMac₁ ▸ h.loaded.write_operandA (UInt32.ofNat lhs)
  refine (writeReg_runs steps hLoaded₁.idle _ 1).bind ?_
  rintro _ s₂ ⟨hSame₂, hMac₂⟩
  have hLoaded₂ := hMac₂ ▸ hLoaded₁.write_operandB (UInt32.ofNat 1)
  refine (writeReg_runs steps hLoaded₂.idle _ rhs).bind ?_
  rintro _ s₃ ⟨hSame₃, hMac₃⟩
  have hLoaded₃ := hMac₃ ▸ hLoaded₂.write_accumulator (UInt32.ofNat rhs)
  refine (writeReg_runs steps hLoaded₃.idle _ 1).bind ?_
  rintro _ s₄ ⟨hSame₄, hMac₄⟩
  have hCommand := hMac₄ ▸ hLoaded₃.write_command
  have hCycles : s₄.mac.endCycles = s.mac.model.cycles + 3 := by
    rw [Gem5CustomMac.endCycles, hCommand.activeCycles, hMac₄, hLoaded₃.idle.write32_cycles, hMac₃,
      hLoaded₂.idle.write32_cycles, hMac₂, hLoaded₁.idle.write32_cycles, hMac₁, h.write32_cycles]
    rfl
  refine (pollDone_runs steps hFuel (.inl (hSteps _)) (fun n _ => hSteps n) hCommand).bind ?_
  rintro _ s₅ ⟨hSame₅, hDone, hEnd⟩
  refine (readReg_runs steps hDone.idle _).mono ?_
  rintro value s₆ ⟨hSame₆, hMac₆, rfl⟩
  refine ⟨((((hSame₁.trans hSame₂).trans hSame₃).trans hSame₄).trans hSame₅).trans
    hSame₆, ?_, ?_, ?_⟩
  · rw [hMac₆]
    exact hDone.idle
  · rw [hMac₆, ← hDone.idle.endCycles_eq, hEnd, hCycles]
  · rw [hDone.result]
    simp [UInt32.toNat_add]

end Mac

/-! ## The checks -/

/-- Every byte of the access is inside the window. -/
def WindowAccess.Inside (access : WindowAccess) : Prop := access.offset + 4 ≤ windowSize

theorem inside_field (f : CommandField) : WindowAccess.Inside ⟨f.offset⟩ := by
  cases f <;> simp [WindowAccess.Inside, CommandField.offset, windowSize]

def field (m : ByteMem) (f : CommandField) : Nat := m.load f.offset 4

/-- The program only reads fields, and computes `value` from the memory. -/
def Reads (p : Prog Core WindowAccess Bool) (value : ByteMem → Bool) : Prop :=
  ∀ s, p.Runs WindowAccess.Inside s fun b s' => s' = s ∧ b = value s.memory

theorem loadField_step {ok : WindowAccess → Prop} (hFields : ∀ f : CommandField, ok ⟨f.offset⟩)
    {α : Type} {f : CommandField} {p : Nat → Prog Core WindowAccess α} {s : Core}
    {post : α → Core → Prop}
    (h : (p (field s.memory f)).Runs ok s post) : (loadField f >>= p).Runs ok s post :=
  Prog.Runs.step (load32_apply f.offset s) (by simpa using hFields f) h

theorem storeField_step {ok : WindowAccess → Prop} (hFields : ∀ f : CommandField, ok ⟨f.offset⟩)
    {α : Type} {f : CommandField} {value : Nat} {p : Unit → Prog Core WindowAccess α} {s : Core}
    {post : α → Core → Prop}
    (h : (p ()).Runs ok { s with memory := s.memory.storeWord f.offset 4 value } post) :
    (storeField f value >>= p).Runs ok s post :=
  Prog.Runs.step (store32_apply f.offset value s) (by simpa using hFields f) h

theorem storeField_runs {ok : WindowAccess → Prop} (hFields : ∀ f : CommandField, ok ⟨f.offset⟩)
    {f : CommandField} {value : Nat} {s : Core} {post : Unit → Core → Prop}
    (h : post () { s with memory := s.memory.storeWord f.offset 4 value }) :
    (storeField f value).Runs ok s post :=
  ⟨by simpa [storeField, store32_apply] using hFields f, (), rfl, h⟩

def customOpcode (m : ByteMem) : Bool := field m .opcode == CommandOpcode.vectorAddCustomU32.code

theorem isCustom_apply (s : Core) :
    isCustom s = ⟨some (customOpcode s.memory), s, [⟨CommandField.opcode.offset⟩]⟩ := rfl

theorem reads_fieldIs (f : CommandField) (value : Nat) :
    Reads (fieldIs f value) fun m => field m f == value :=
  fun _ => loadField_step inside_field (.pure ⟨rfl, rfl⟩)

theorem Reads.both {p q : Prog Core WindowAccess Bool} {v w : ByteMem → Bool} (hp : Reads p v)
    (hq : Reads q w) :
    Reads (both p q) fun m => v m && w m := by
  intro s
  refine (hp s).bind ?_
  rintro b s' ⟨rfl, hb⟩
  cases b with
  | true => simpa [← hb] using hq s'
  | false => exact .pure ⟨rfl, by simp [← hb]⟩

def abiAccepted (m : ByteMem) : Bool :=
  field m .magic == commandMagic &&
    (field m .abiVersion == commandAbiVersion && field m .structSize == commandSize)

def opcodeAccepted (m : ByteMem) : Bool :=
  field m .opcode == CommandOpcode.vectorAddU32.code ||
    field m .opcode == CommandOpcode.vectorAddCustomU32.code

def boundsAccepted (m : ByteMem) : Bool :=
  tensorInBounds (field m .input0Offset) (field m .elementCount) &&
    (tensorInBounds (field m .input1Offset) (field m .elementCount) &&
      (tensorInBounds (field m .outputOffset) (field m .elementCount) &&
        field m .outputSize == field m .elementCount * 4 % 2 ^ 32))

def commandAccepted (m : ByteMem) : Bool := abiAccepted m && opcodeAccepted m && boundsAccepted m

theorem reads_abiValid : Reads abiValid abiAccepted :=
  (reads_fieldIs _ _).both ((reads_fieldIs _ _).both (reads_fieldIs _ _))

theorem reads_opcodeValid : Reads opcodeValid opcodeAccepted := by
  intro s
  refine (reads_fieldIs _ _ s).bind ?_
  rintro b s' ⟨rfl, hb⟩
  cases b with
  | true => exact .pure ⟨rfl, by simp [opcodeAccepted, ← hb]⟩
  | false => simpa [opcodeAccepted, ← hb] using reads_fieldIs _ _ s'

theorem reads_tensorValid (f : CommandField) :
    Reads (tensorValid f) fun m => tensorInBounds (field m f) (field m .elementCount) :=
  fun _ => loadField_step inside_field (loadField_step inside_field (.pure ⟨rfl, rfl⟩))

theorem reads_boundsValid : Reads boundsValid boundsAccepted :=
  (reads_tensorValid _).both ((reads_tensorValid _).both ((reads_tensorValid _).both fun _ =>
    loadField_step inside_field (loadField_step inside_field (.pure ⟨rfl, rfl⟩))))

/-! ## The loop -/

def elementSum (t : Tensors) (m : ByteMem) (i : Nat) : Nat :=
  (m.load (elementOffset t.input0 i) 4 + m.load (elementOffset t.input1 i) 4) % 2 ^ 32

def addStep (t : Tensors) (m : ByteMem) (i : Nat) : ByteMem :=
  (m.storeWord (elementOffset t.output i) 4 (elementSum t m i)).storeWord
    CommandField.completedElements.offset 4 (i + 1)

/-- The memory after the first iterations, in the core or on the MAC. -/
def afterElements (t : Tensors) (m : ByteMem) : Nat → ByteMem
  | 0 => m
  | i + 1 => addStep t (afterElements t m i) i

/-- The clocks that the MAC is busy in the first iterations. -/
def macCycles (t : Tensors) (m : ByteMem) : Nat → UInt32
  | 0 => 0
  | i + 1 => macCycles t m i + if customOpcode (afterElements t m i) then 3 else 0

/-- The accesses of the first `n` iterations are allowed. -/
structure Allows (ok : WindowAccess → Prop) (t : Tensors) (n : Nat) : Prop where
  fields : ∀ f : CommandField, ok ⟨f.offset⟩
  input0 : ∀ i < n, ok ⟨elementOffset t.input0 i⟩
  input1 : ∀ i < n, ok ⟨elementOffset t.input1 i⟩
  output : ∀ i < n, ok ⟨elementOffset t.output i⟩

/-- The core at the head of the loop, before iteration `i`. -/
structure AtElement (t : Tensors) (m : ByteMem) (i : Nat) (s : Core) : Prop where
  memory : s.memory = afterElements t m i
  idle : s.mac.Idle
  iterations : s.iterations = i

section Loop

variable {ok : WindowAccess → Prop} (wait : Nat → Nat) {t : Tensors} {m : ByteMem} {n budget : Nat}

theorem addValue_runs (hBudget : 3 < budget) {s : Core} (hIdle : s.mac.Idle) (custom : Bool)
    (lhs rhs : Nat) :
    (addValue wait budget custom lhs rhs).Runs ok s fun value s' =>
      SameWindow s s' ∧ s'.mac.Idle ∧
        s'.mac.model.cycles = s.mac.model.cycles + (if custom then 3 else 0) ∧
        value = (lhs + rhs) % 2 ^ 32 := by
  cases custom with
  | true => exact customAdd_runs (accessSteps wait) hBudget (fun _ => Nat.succ_pos _) hIdle lhs rhs
  | false => exact .pure ⟨⟨rfl, rfl⟩, hIdle, (UInt32.add_zero _).symm, rfl⟩

theorem addElement_runs (hAllows : Allows ok t n) (hBudget : 3 < budget) {i : Nat} (hi : i < n)
    {s : Core} (hIdle : s.mac.Idle) :
    (addElement wait budget t i).Runs ok s fun _ s' =>
      s'.memory = addStep t s.memory i ∧ s'.mac.Idle ∧ s'.iterations = s.iterations ∧
        s'.mac.model.cycles = s.mac.model.cycles + (if customOpcode s.memory then 3 else 0) := by
  refine Prog.Runs.step (isCustom_apply s) (by simpa using hAllows.fields .opcode) ?_
  refine Prog.Runs.step (load32_apply _ s) (by simpa using hAllows.input0 i hi) ?_
  refine Prog.Runs.step (load32_apply _ s) (by simpa using hAllows.input1 i hi) ?_
  refine (addValue_runs wait hBudget hIdle _ _ _).bind ?_
  rintro value s' ⟨hSame, hIdle', hCycles, rfl⟩
  refine Prog.Runs.step (store32_apply _ _ s') (by simpa using hAllows.output i hi) ?_
  refine storeField_runs hAllows.fields ⟨?_, hIdle', hSame.iterations, hCycles⟩
  simp only [hSame.memory]
  rfl

theorem addLoop_leadsTo_next (hAllows : Allows ok t n) (hBudget : 3 < budget) {i : Nat} (hi : i < n)
    (hRange : i + 1 < 2 ^ 32) {s : Core} (hAt : AtElement t m i s)
    (hCount : i < field (afterElements t m i) .elementCount) (fuel : Nat) :
    ∃ s', (AtElement t m (i + 1) s' ∧ s'.mac.model.cycles = s.mac.model.cycles +
        (if customOpcode (afterElements t m i) then 3 else 0)) ∧
      Prog.LeadsTo ok (addLoop wait budget t (fuel + 1) i) s
        (addLoop wait budget t fuel (i + 1)) s' := by
  have hBegin : (addLoop wait budget t (fuel + 1) i).LeadsTo ok s
      (addElement wait budget t i >>= fun _ => addLoop wait budget t fuel (i + 1))
      { s with iterations := s.iterations + 1 } := by
    refine Prog.LeadsTo.trans (.step (load32_apply _ s) (by simpa using hAllows.fields _)) ?_
    have hBelow : i < s.memory.load CommandField.elementCount.offset 4 := hAt.memory ▸ hCount
    rw [if_pos hBelow, Nat.mod_eq_of_lt hRange]
    exact .step (Prog.modify_apply _ s) (by simp)
  obtain ⟨_, s', ⟨hMemory, hIdle, hIterations, hCycles⟩, hNext⟩ :=
    (addElement_runs wait hAllows hBudget hi (s := { s with iterations := s.iterations + 1 })
      hAt.idle).leadsTo fun _ => addLoop wait budget t fuel (i + 1)
  refine ⟨s', ⟨⟨?_, hIdle, ?_⟩, ?_⟩, hBegin.trans hNext⟩
  · rw [hMemory, afterElements, hAt.memory]
  · rw [hIterations, hAt.iterations]
  · rw [hCycles, hAt.memory]

theorem addLoop_leadsTo (hAllows : Allows ok t n) (hBudget : 3 < budget) (hRange : n < 2 ^ 32)
    {s : Core} (hAt : AtElement t m 0 s)
    (hCount : ∀ i < n, i < field (afterElements t m i) .elementCount) (fuel : Nat) :
    ∃ s', (AtElement t m n s' ∧ s'.mac.model.cycles = s.mac.model.cycles + macCycles t m n) ∧
      Prog.LeadsTo ok (addLoop wait budget t (fuel + n) 0) s (addLoop wait budget t fuel n) s' := by
  suffices h : ∀ k ≤ n, ∃ s', (AtElement t m k s' ∧
      s'.mac.model.cycles = s.mac.model.cycles + macCycles t m k) ∧
      Prog.LeadsTo ok (addLoop wait budget t (fuel + n) 0) s
        (addLoop wait budget t (fuel + (n - k)) k) s' by
    simpa using h n (Nat.le_refl n)
  intro k
  induction k with
  | zero => exact fun _ => ⟨s, ⟨hAt, (UInt32.add_zero _).symm⟩, .refl _ _⟩
  | succ k ih =>
    intro hk
    obtain ⟨s₁, ⟨hAt₁, hCycles₁⟩, hLeads⟩ := ih (by omega)
    obtain ⟨s₂, ⟨hAt₂, hCycles₂⟩, hNext⟩ :=
      addLoop_leadsTo_next wait hAllows hBudget (by omega) (by omega) hAt₁
      (hCount k (by omega)) (fuel + (n - (k + 1)))
    refine ⟨s₂, ⟨hAt₂, by rw [hCycles₂, hCycles₁, macCycles, UInt32.add_assoc]⟩, hLeads.trans ?_⟩
    rwa [show fuel + (n - k) = fuel + (n - (k + 1)) + 1 by omega]

end Loop

/-! ## The count word -/

theorem elementOffset_aligned {tensor : Nat} (h : tensor % 4 = 0) (i : Nat) :
    elementOffset tensor i % 4 = 0 := by
  unfold elementOffset
  omega

theorem addStep_count_of_ne {t : Tensors} (hAligned : t.output % 4 = 0) {i : Nat}
    (hNe : elementOffset t.output i ≠ CommandField.elementCount.offset) (m : ByteMem) :
    field (addStep t m i) .elementCount = field m .elementCount := by
  have hOutput := elementOffset_aligned hAligned i
  rw [field, addStep, ByteMem.storeWord, ByteMem.load_store_disjoint, ByteMem.storeWord,
    ByteMem.load_store_disjoint, field]
  · simp only [CommandField.offset] at hNe ⊢
    omega
  · simp [CommandField.offset]

theorem addStep_count_of_eq {t : Tensors} {i : Nat}
    (hEq : elementOffset t.output i = CommandField.elementCount.offset) (m : ByteMem) :
    field (addStep t m i) .elementCount = elementSum t m i := by
  rw [field, addStep, ByteMem.storeWord, ByteMem.load_store_disjoint, hEq, ByteMem.load_storeWord]
  · exact Nat.mod_eq_of_lt (Nat.mod_lt _ (by decide))
  · simp [CommandField.offset]

section Count

variable {t : Tensors} (hAligned : t.output % 4 = 0) (m : ByteMem) {n : Nat}
  (hRange : t.output + 4 * n < 2 ^ 32)

include hAligned hRange

theorem count_untouched {j : Nat} (hj : j ≤ n)
    (hNe : ∀ k < j, t.output + 4 * k ≠ CommandField.elementCount.offset) :
    field (afterElements t m j) .elementCount = field m .elementCount := by
  induction j with
  | zero => rfl
  | succ j ih =>
    have hOffset : elementOffset t.output j = t.output + 4 * j := Nat.mod_eq_of_lt (by omega)
    have hOther := hNe j (by omega)
    rw [afterElements, addStep_count_of_ne hAligned (by rwa [hOffset])]
    exact ih (by omega) fun k hk => hNe k (by omega)

theorem count_replaced {k j : Nat} (hj : j ≤ n) (hk : k < j)
    (hEq : t.output + 4 * k = CommandField.elementCount.offset) :
    field (afterElements t m j) .elementCount = elementSum t (afterElements t m k) k := by
  induction j with
  | zero => omega
  | succ j ih =>
    have hOffset : elementOffset t.output j = t.output + 4 * j := Nat.mod_eq_of_lt (by omega)
    rw [afterElements]
    rcases Nat.lt_succ_iff_lt_or_eq.mp hk with hEarlier | rfl
    · rw [addStep_count_of_ne hAligned (by omega)]
      exact ih (by omega) hEarlier
    · exact addStep_count_of_eq (hOffset.trans hEq) _

end Count

/-! ## Confinement -/

def tensors (m : ByteMem) : Tensors :=
  ⟨field m .input0Offset, field m .input1Offset, field m .outputOffset⟩

def startedMemory (m : ByteMem) : ByteMem :=
  (((m.storeWord CommandField.status.offset 4 CommandStatus.running.code).storeWord
    CommandField.errorCode.offset 4 CommandError.none.code).storeWord
      CommandField.completedElements.offset 4 0).storeWord
        CommandField.acceleratorCycles.offset 4 0

def fieldAccesses (fields : List CommandField) : List WindowAccess := fields.map fun f => ⟨f.offset⟩

theorem fieldAccesses_inside (fields : List CommandField) :
    ∀ access ∈ fieldAccesses fields, access.Inside := by
  intro access h
  obtain ⟨f, -, rfl⟩ := List.mem_map.mp h
  exact inside_field f

theorem loadTensors_apply (s : Core) :
    loadTensors s = ⟨some (tensors s.memory), s,
      fieldAccesses [.input0Offset, .input1Offset, .outputOffset]⟩ := rfl

theorem markRunning_apply (s : Core) :
    markRunning s = ⟨some (), { s with memory := startedMemory s.memory },
      fieldAccesses [.status, .errorCode, .completedElements, .acceleratorCycles]⟩ := rfl

/-- If an element of the output is the count word, the sum stored there is at most the
count that was checked. -/
def CountKept (m : ByteMem) : Prop :=
  ∀ k < field m .elementCount,
    field m .outputOffset + 4 * k = CommandField.elementCount.offset →
      elementSum (tensors m) (afterElements (tensors m) (startedMemory m) k) k ≤
        field m .elementCount

structure Confined (wait : Nat → Nat) (fuel : Nat) (s : Core) : Prop where
  inside : ∀ access ∈ (main wait fuel s).trace, access.Inside
  iterations : (main wait fuel s).state.iterations ≤ field s.memory .elementCount ∧
    (main wait fuel s).state.iterations ≤ tensorMaxElements
  returns : (main wait fuel s).result.isSome = true
  outcome : field (main wait fuel s).state.memory .status = CommandStatus.complete.code ∨
    field (main wait fuel s).state.memory .status = CommandStatus.error.code ∧
      field (main wait fuel s).state.memory .errorCode ≠ CommandError.none.code

theorem confined_of_runs {wait : Nat → Nat} {fuel : Nat} {s : Core}
    (h : (main wait fuel).Runs WindowAccess.Inside s fun _ s' =>
      (s'.iterations ≤ field s.memory .elementCount ∧ s'.iterations ≤ tensorMaxElements) ∧
        (field s'.memory .status = CommandStatus.complete.code ∨
          field s'.memory .status = CommandStatus.error.code ∧
            field s'.memory .errorCode ≠ CommandError.none.code)) : Confined wait fuel s := by
  obtain ⟨hInside, code, hResult, hIterations, hOutcome⟩ := h
  exact ⟨hInside, hIterations, by rw [hResult]; rfl, hOutcome⟩

theorem field_store_of_ne {f g : CommandField}
    (h : f.offset + 4 ≤ g.offset ∨ g.offset + 4 ≤ f.offset) (m : ByteMem) (value : Nat) :
    field (m.storeWord g.offset 4 value) f = field m f :=
  ByteMem.load_store_disjoint m _ h

theorem field_store_self (f : CommandField) (m : ByteMem) {value : Nat} (h : value < 2 ^ 32) :
    field (m.storeWord f.offset 4 value) f = value := by
  rw [field, ByteMem.load_storeWord]
  exact Nat.mod_eq_of_lt h

theorem finishError_runs {error : CommandError} (hError : error ≠ .none) (s : Core) :
    (finishError error).Runs WindowAccess.Inside s fun _ s' => s'.iterations = s.iterations ∧
      field s'.memory .status = CommandStatus.error.code ∧
      field s'.memory .errorCode ≠ CommandError.none.code := by
  refine storeField_step inside_field (storeField_step inside_field (.pure ⟨rfl, ?_, ?_⟩))
  · exact field_store_self _ _ (by decide)
  · rw [field_store_of_ne (by decide), field_store_self _ _ (by cases error <;> decide)]
    cases error <;> first | exact absurd rfl hError | decide

/-- The memory after the clocks of the MAC have been recorded. -/
def recordedMemory (m : ByteMem) (cycles : UInt32) (before : Nat) : ByteMem :=
  if customOpcode m then
    m.storeWord CommandField.acceleratorCycles.offset 4 ((cycles.toNat + 2 ^ 32 - before) % 2 ^ 32)
  else m

section Phases

variable (wait : Nat → Nat) {s : Core} (hIdle : s.mac.Idle)

include hIdle

theorem cyclesBefore_runs : (cyclesBefore wait).Runs WindowAccess.Inside s fun before s' =>
    SameWindow s s' ∧ s'.mac = s.mac ∧
      before = if customOpcode s.memory then s.mac.model.cycles.toNat else 0 := by
  refine Prog.Runs.step (isCustom_apply s) (by simpa using inside_field _) ?_
  split
  · exact readReg_runs (accessSteps wait) hIdle _
  · exact .pure ⟨⟨rfl, rfl⟩, rfl, rfl⟩

theorem acceleratorValid_runs : (acceleratorValid wait).Runs WindowAccess.Inside s fun valid s' =>
    SameWindow s s' ∧ s'.mac = s.mac ∧ valid = true := by
  refine Prog.Runs.step (isCustom_apply s) (by simpa using inside_field _) ?_
  split
  · refine (readReg_runs (accessSteps wait) hIdle _).bind ?_
    rintro id s' ⟨hSame, hMac, rfl⟩
    rw [Gem5CustomMac.read32_reg]
    exact .pure ⟨hSame, hMac, rfl⟩
  · exact .pure ⟨⟨rfl, rfl⟩, rfl, rfl⟩

theorem recordCycles_runs (before : Nat) :
    (recordCycles wait before).Runs WindowAccess.Inside s fun _ s' => s'.iterations = s.iterations ∧
      s'.memory = recordedMemory s.memory s.mac.model.cycles before := by
  refine Prog.Runs.step (isCustom_apply s) (by simpa using inside_field _) ?_
  unfold recordedMemory
  split
  · refine (readReg_runs (accessSteps wait) hIdle _).bind ?_
    rintro cycles s' ⟨hSame, -, rfl⟩
    refine storeField_runs inside_field ⟨hSame.iterations, ?_⟩
    rw [hSame.memory]
    rfl
  · exact .pure ⟨rfl, rfl⟩

theorem finishCommand_runs (before : Nat) :
    (finishCommand wait before).Runs WindowAccess.Inside s fun code s' => code = 0 ∧
      s'.iterations = s.iterations ∧
        s'.memory = (recordedMemory s.memory s.mac.model.cycles before).storeWord
          CommandField.status.offset 4 CommandStatus.complete.code := by
  refine (recordCycles_runs wait hIdle before).bind ?_
  rintro _ s' ⟨hIterations, hMemory⟩
  exact storeField_step inside_field (.pure ⟨rfl, hIterations, by rw [hMemory]⟩)

theorem runCommand_leadsTo (hZero : s.iterations = 0) (fuel : Nat) :
    ∃ before s', (AtElement (tensors s.memory) (startedMemory s.memory) 0 s' ∧
      s'.mac.model.cycles = s.mac.model.cycles ∧
      before = if customOpcode (startedMemory s.memory) then s.mac.model.cycles.toNat else 0) ∧
      (runCommand wait fuel).LeadsTo WindowAccess.Inside s
        (addLoop wait fuel (tensors s.memory) fuel 0 >>= fun _ => finishCommand wait before)
          s' := by
  have hLoads := Prog.LeadsTo.step (f := fun t => do
    markRunning
    let before ← cyclesBefore wait
    runTensors wait fuel t before) (loadTensors_apply s) (fieldAccesses_inside _)
  have hMark := Prog.LeadsTo.step (f := fun _ => do
    let before ← cyclesBefore wait
    runTensors wait fuel (tensors s.memory) before) (markRunning_apply s) (fieldAccesses_inside _)
  obtain ⟨before, s₁, ⟨hSame₁, hMac₁, hBefore⟩, hCycles⟩ :=
    (cyclesBefore_runs wait (s := { s with memory := startedMemory s.memory }) hIdle).leadsTo
      fun before => runTensors wait fuel (tensors s.memory) before
  have hIdle₁ : s₁.mac.Idle := by rwa [hMac₁]
  obtain ⟨valid, s₂, ⟨hSame₂, hMac₂, rfl⟩, hValid⟩ := (acceleratorValid_runs wait hIdle₁).leadsTo
    fun valid => if valid then do
        addLoop wait fuel (tensors s.memory) fuel 0
        finishCommand wait before
      else finishError .accelerator
  have hSame := hSame₁.trans hSame₂
  have hStarted := hMark.trans hCycles
  have hChecked := hStarted.trans hValid
  have hRun := hLoads.trans hChecked
  rw [if_pos rfl] at hRun
  have hMac : s₂.mac = s.mac := hMac₂.trans hMac₁
  refine ⟨before, s₂, ⟨⟨hSame.memory, by rwa [hMac], hSame.iterations.trans hZero⟩, by rw [hMac],
    hBefore⟩, ?_⟩
  rw [runCommand]
  exact hRun

end Phases

theorem Reads.leadsTo {p : Prog Core WindowAccess Bool} {v : ByteMem → Bool} (h : Reads p v)
    {α : Type} (f : Bool → Prog Core WindowAccess α) (s : Core) :
    (p >>= f).LeadsTo WindowAccess.Inside s (f (v s.memory)) s := by
  obtain ⟨b, s', ⟨rfl, rfl⟩, hLeads⟩ := (h s).leadsTo f
  exact hLeads

theorem main_leadsTo (wait : Nat → Nat) (fuel : Nat) (s : Core) :
    (main wait fuel).LeadsTo WindowAccess.Inside s
      (if abiAccepted s.memory then
        if opcodeAccepted s.memory then
          if boundsAccepted s.memory then runCommand wait fuel else finishError .bounds
        else finishError .opcode
      else finishError .abi) s := by
  refine (reads_abiValid.leadsTo _ s).trans ?_
  split
  · refine (reads_opcodeValid.leadsTo _ s).trans ?_
    split
    · exact reads_boundsValid.leadsTo _ s
    · exact .refl _ _
  · exact .refl _ _

theorem main_rejects (wait : Nat → Nat) (fuel : Nat) {s : Core}
    (hRejected : commandAccepted s.memory = false) :
    (main wait fuel).Runs WindowAccess.Inside s fun _ s' => s'.iterations = s.iterations ∧
      field s'.memory .status = CommandStatus.error.code ∧
      field s'.memory .errorCode ≠ CommandError.none.code := by
  refine (main_leadsTo wait fuel s).runs ?_
  split_ifs with hAbi hOpcode hBounds
  · simp [commandAccepted, hAbi, hOpcode, hBounds] at hRejected
  · exact finishError_runs (by decide) s
  · exact finishError_runs (by decide) s
  · exact finishError_runs (by decide) s

theorem main_accepts (wait : Nat → Nat) (fuel : Nat) {s : Core} (hIdle : s.mac.Idle)
    (hZero : s.iterations = 0) (hAccepted : commandAccepted s.memory = true) :
    ∃ before s', (AtElement (tensors s.memory) (startedMemory s.memory) 0 s' ∧
      s'.mac.model.cycles = s.mac.model.cycles ∧
      before = if customOpcode (startedMemory s.memory) then s.mac.model.cycles.toNat else 0) ∧
      (main wait fuel).LeadsTo WindowAccess.Inside s
        (addLoop wait fuel (tensors s.memory) fuel 0 >>= fun _ => finishCommand wait before)
          s' := by
  obtain ⟨before, s', hAt, hRun⟩ := runCommand_leadsTo wait hIdle hZero fuel
  refine ⟨before, s', hAt, (main_leadsTo wait fuel s).trans ?_⟩
  simp only [commandAccepted, Bool.and_eq_true] at hAccepted
  rwa [if_pos hAccepted.1.1, if_pos hAccepted.1.2, if_pos hAccepted.2]

/-! ## Which commands stay inside -/

/-- The bounds that an accepted command meets. -/
structure Fits (m : ByteMem) : Prop where
  count : field m .elementCount ≤ tensorMaxElements
  aligned : field m .outputOffset % 4 = 0
  input0 : field m .input0Offset + 4 * field m .elementCount ≤ windowSize
  input1 : field m .input1Offset + 4 * field m .elementCount ≤ windowSize
  output : field m .outputOffset + 4 * field m .elementCount ≤ windowSize

theorem fits_of_accepted {m : ByteMem} (h : commandAccepted m = true) : Fits m := by
  simp only [commandAccepted, boundsAccepted, tensorInBounds, Bool.and_eq_true, Bool.not_eq_true',
    Bool.or_eq_false_iff, bne_eq_false_iff_eq, decide_eq_true_eq, decide_eq_false_iff_not] at h
  obtain ⟨-, ⟨⟨-, hCount⟩, hLe0, hEnd0⟩, ⟨⟨-, -⟩, hLe1, hEnd1⟩, ⟨⟨hAligned, -⟩, hLe, hEnd⟩, -⟩ := h
  exact ⟨by omega, hAligned, by omega, by omega, by omega⟩

theorem Fits.allows {m : ByteMem} (h : Fits m) :
    Allows WindowAccess.Inside (tensors m) (field m .elementCount) := by
  have hInside : ∀ tensor, tensor + 4 * field m .elementCount ≤ windowSize →
      ∀ i < field m .elementCount, WindowAccess.Inside ⟨elementOffset tensor i⟩ := by
    intro tensor hTensor i hi
    have hOffset : elementOffset tensor i ≤ tensor + 4 * i := Nat.mod_le _ _
    simp only [WindowAccess.Inside]
    omega
  exact ⟨inside_field, hInside _ h.input0, hInside _ h.input1, hInside _ h.output⟩

theorem startedMemory_count (m : ByteMem) :
    field (startedMemory m) .elementCount = field m .elementCount := by
  rw [startedMemory, field_store_of_ne (by decide), field_store_of_ne (by decide),
    field_store_of_ne (by decide), field_store_of_ne (by decide)]

theorem Allows.mono {ok : WindowAccess → Prop} {t : Tensors} {n n' : Nat} (h : Allows ok t n)
    (hLe : n' ≤ n) : Allows ok t n' :=
  ⟨h.fields, fun i hi => h.input0 i (by omega), fun i hi => h.input1 i (by omega),
    fun i hi => h.output i (by omega)⟩

/-- Where the loop stops when the count word is kept small. -/
theorem Fits.exists_iterations {m : ByteMem} (h : Fits m) (hKept : CountKept m) :
    ∃ n ≤ field m .elementCount,
      (∀ i < n, i < field (afterElements (tensors m) (startedMemory m) i) .elementCount) ∧
        field (afterElements (tensors m) (startedMemory m) n) .elementCount ≤ n := by
  have hRange : (tensors m).output + 4 * field m .elementCount < 2 ^ 32 :=
    Nat.lt_of_le_of_lt h.output (by decide)
  have hCount := startedMemory_count m
  by_cases hHit : ∃ k < field m .elementCount,
      (tensors m).output + 4 * k = CommandField.elementCount.offset
  · obtain ⟨k, hk, hEq⟩ := hHit
    have hSum := hKept k hk hEq
    have hBefore : ∀ i ≤ k,
        field (afterElements (tensors m) (startedMemory m) i) .elementCount =
          field m .elementCount := by
      intro i hi
      rw [count_untouched h.aligned _ hRange (by omega) (by omega), hCount]
    have hAfter : ∀ i, k < i → i ≤ field m .elementCount →
        field (afterElements (tensors m) (startedMemory m) i) .elementCount =
          elementSum (tensors m) (afterElements (tensors m) (startedMemory m) k) k :=
      fun i hi hLe => count_replaced h.aligned _ hRange hLe hi hEq
    refine ⟨max (k + 1)
      (elementSum (tensors m) (afterElements (tensors m) (startedMemory m) k) k), by omega, ?_, ?_⟩
    · intro i hi
      rcases Nat.lt_or_ge k i with hLate | hEarly
      · rw [hAfter i hLate (by omega)]
        omega
      · rw [hBefore i hEarly]
        omega
    · rw [hAfter _ (by omega) (by omega)]
      omega
  · have hNever : ∀ i ≤ field m .elementCount,
        field (afterElements (tensors m) (startedMemory m) i) .elementCount =
          field m .elementCount := by
      intro i hi
      rw [count_untouched h.aligned _ hRange hi, hCount]
      exact fun k hk hEq => hHit ⟨k, by omega, hEq⟩
    refine ⟨field m .elementCount, Nat.le_refl _, ?_, ?_⟩
    · intro i hi
      rwa [hNever i (by omega)]
    · rw [hNever _ (Nat.le_refl _)]

theorem addLoop_exit (wait : Nat → Nat) {budget n fuel : Nat} {t : Tensors} {m : ByteMem} {s : Core}
    (hAt : AtElement t m n s) (hStop : field (afterElements t m n) .elementCount ≤ n) :
    (addLoop wait budget t (fuel + 1) n).Runs WindowAccess.Inside s fun _ s' => s' = s := by
  refine loadField_step inside_field ?_
  rw [hAt.memory, if_neg (by omega)]
  exact .pure rfl

theorem confined_of_kept (wait : Nat → Nat) {fuel : Nat}
    (hFuel : tensorMaxElements < fuel) {s : Core}
    (hIdle : s.mac.Idle) (hZero : s.iterations = 0) (hAccepted : commandAccepted s.memory = true)
    (hKept : CountKept s.memory) : Confined wait fuel s := by
  have hFits := fits_of_accepted hAccepted
  have hMax : field s.memory .elementCount ≤ tensorMaxElements := hFits.count
  obtain ⟨n, hn, hRunning, hStop⟩ := hFits.exists_iterations hKept
  obtain ⟨before, s₁, ⟨hAt₁, -, -⟩, hMain⟩ := main_accepts wait fuel hIdle hZero hAccepted
  have hBudget : 3 < fuel := by
    simp only [tensorMaxElements] at hFuel
    omega
  obtain ⟨s₂, ⟨hAt₂, -⟩, hLoop⟩ := addLoop_leadsTo wait (hFits.allows.mono hn) hBudget
    (by simp only [tensorMaxElements] at hMax; omega) hAt₁ hRunning (fuel - n - 1 + 1)
  rw [show fuel - n - 1 + 1 + n = fuel by omega] at hLoop
  refine confined_of_runs ((hMain.trans (hLoop.bind _)).runs ?_)
  refine (addLoop_exit wait hAt₂ hStop).bind ?_
  rintro _ _ rfl
  refine (finishCommand_runs wait hAt₂.idle before).mono ?_
  rintro _ s₃ ⟨-, hIterations, hMemory⟩
  rw [hIterations, hAt₂.iterations, hMemory]
  exact ⟨⟨hn, by omega⟩, .inl (field_store_self _ _ (by decide))⟩

/-- The states of the core in the order of the iterations made. -/
def FurtherOn (s s' : Core) : Prop := s.iterations ≤ s'.iterations

instance : IsPreorder Core FurtherOn where
  refl s := Nat.le_refl s.iterations
  trans _ _ _ := Nat.le_trans

/-- No part of the firmware takes an iteration back. -/
abbrev Advances {α : Type} (p : Prog Core WindowAccess α) : Prop := p.Grows FurtherOn

theorem load32_advances (offset : Nat) : Advances (load32 offset) :=
    fun s => Nat.le_refl s.iterations

theorem store32_advances (offset value : Nat) : Advances (store32 offset value) :=
  fun s => Nat.le_refl s.iterations

theorem readReg_advances (steps : Nat → Nat → Nat) (offset : Nat) :
    Advances (readReg steps offset) :=
  fun s => Nat.le_refl s.iterations

theorem writeReg_advances (steps : Nat → Nat → Nat) (offset value : Nat) :
    Advances (writeReg steps offset value) := fun s => Nat.le_refl s.iterations

theorem pollDone_advances (steps : Nat → Nat → Nat) (fuel : Nat) :
    Advances (pollDone steps fuel) := by
  induction fuel with
  | zero => exact .require false
  | succ fuel ih => exact .bind (readReg_advances steps _) fun _ => .ite ih (.pure ())

theorem isCustom_advances : Advances isCustom := .bind (load32_advances _) fun _ => .pure _

theorem customAdd_advances (steps : Nat → Nat → Nat) (fuel lhs rhs : Nat) :
    Advances (customAdd steps fuel lhs rhs) :=
  .bind (writeReg_advances steps _ _) fun _ => .bind (writeReg_advances steps _ _) fun _ =>
    .bind (writeReg_advances steps _ _) fun _ => .bind (writeReg_advances steps _ _) fun _ =>
      .bind (pollDone_advances steps fuel) fun _ => readReg_advances steps _

theorem addElement_advances (wait : Nat → Nat) (fuel : Nat) (t : Tensors) (i : Nat) :
    Advances (addElement wait fuel t i) :=
  .bind isCustom_advances fun _ => .bind (load32_advances _) fun _ => .bind (load32_advances _)
    fun _ => .bind (.ite (customAdd_advances _ fuel _ _) (.pure _)) fun _ =>
      .bind (store32_advances _ _) fun _ => store32_advances _ _

theorem addLoop_advances (wait : Nat → Nat) (budget : Nat) (t : Tensors) (fuel i : Nat) :
    Advances (addLoop wait budget t fuel i) := by
  induction fuel generalizing i with
  | zero => exact .require false
  | succ fuel ih =>
    refine .bind (load32_advances _) fun _ => .ite ?_ (.pure ())
    exact .bind (.modify fun s => Nat.le_succ s.iterations) fun _ =>
      .bind (addElement_advances wait budget t i) fun _ => ih _

theorem finishCommand_advances (wait : Nat → Nat) (before : Nat) :
    Advances (finishCommand wait before) := by
  refine .bind ?_ fun _ => .bind (store32_advances _ _) fun _ => .pure 0
  exact .bind isCustom_advances fun _ =>
    .ite (.bind (readReg_advances _ _) fun _ => store32_advances _ _) (.pure ())

/-- With a larger sum in the count word the loop does not stop at the checked count. -/
theorem Fits.runs_on {m : ByteMem} (h : Fits m) {k : Nat} (hk : k < field m .elementCount)
    (hEq : (tensors m).output + 4 * k = CommandField.elementCount.offset)
    (hSum : field m .elementCount <
      elementSum (tensors m) (afterElements (tensors m) (startedMemory m) k) k) :
    ∀ i < field m .elementCount + 1,
      i < field (afterElements (tensors m) (startedMemory m) i) .elementCount := by
  have hOutput : (tensors m).output + 4 * field m .elementCount ≤ windowSize := h.output
  have hRange : (tensors m).output + 4 * (field m .elementCount + 1) < 2 ^ 32 := by
    simp only [windowSize] at hOutput
    omega
  intro i hi
  rcases Nat.lt_or_ge k i with hLate | hEarly
  · rw [count_replaced h.aligned _ hRange (by omega) hLate hEq]
    omega
  · rw [count_untouched h.aligned _ hRange (by omega) (by omega), startedMemory_count]
    omega

theorem kept_of_confined {wait : Nat → Nat} {fuel : Nat} (hFuel : tensorMaxElements < fuel)
    {s : Core} (hIdle : s.mac.Idle) (hZero : s.iterations = 0)
    (hAccepted : commandAccepted s.memory = true) (hConfined : Confined wait fuel s) :
    CountKept s.memory := by
  have hFits := fits_of_accepted hAccepted
  have hMax : field s.memory .elementCount ≤ tensorMaxElements := hFits.count
  simp only [tensorMaxElements] at hFuel hMax
  intro k hk hEq
  by_contra hSum
  have hRunning := hFits.runs_on hk hEq (by omega)
  obtain ⟨before, s₁, ⟨hAt₁, -, -⟩, hMain⟩ := main_accepts wait fuel hIdle hZero hAccepted
  -- The accesses of the last iteration may lie outside, so every access is allowed here.
  have hAllows : Allows (fun _ => True) (tensors s.memory) (field s.memory .elementCount + 1) :=
    ⟨fun _ => trivial, fun _ _ => trivial, fun _ _ => trivial, fun _ _ => trivial⟩
  have hBudget : 3 < fuel := by omega
  obtain ⟨s₂, ⟨hAt₂, -⟩, hLoop⟩ := addLoop_leadsTo wait hAllows hBudget (by omega) hAt₁ hRunning
    (fuel - (field s.memory .elementCount + 1))
  rw [Nat.sub_add_cancel (by omega)] at hLoop
  obtain ⟨t, -, hTotal⟩ := (hMain.mono fun _ _ => trivial).trans (hLoop.bind _)
  obtain ⟨code, hCode⟩ := Option.isSome_iff_exists.mp hConfined.returns
  have hAdvances : Advances (addLoop wait fuel (tensors s.memory)
      (fuel - (field s.memory .elementCount + 1)) (field s.memory .elementCount + 1) >>=
        fun _ => finishCommand wait before) :=
    .bind (addLoop_advances wait _ _ _ _) fun _ => finishCommand_advances wait before
  have hMore : s₂.iterations ≤ _ := hAdvances s₂
  have hFew := hConfined.iterations.1
  rw [hTotal] at hFew
  rw [hAt₂.iterations] at hMore
  exact absurd (Nat.le_trans hMore hFew) (by omega)

theorem main_confined_iff (wait : Nat → Nat) {fuel : Nat} (hFuel : tensorMaxElements < fuel)
    (m : ByteMem) {mac : Gem5CustomMac} (hIdle : mac.Idle) :
    Confined wait fuel { memory := m, mac } ↔ (commandAccepted m = true → CountKept m) := by
  constructor
  · intro hConfined hAccepted
    exact kept_of_confined (s := { memory := m, mac }) hFuel hIdle rfl hAccepted hConfined
  · intro hKept
    cases hAccepted : commandAccepted m with
    | true =>
      exact confined_of_kept (s := { memory := m, mac }) wait hFuel hIdle rfl hAccepted
        (hKept hAccepted)
    | false =>
      refine confined_of_runs
        ((main_rejects (s := { memory := m, mac }) wait fuel hAccepted).mono ?_)
      rintro _ s' ⟨hIterations, hStatus, hError⟩
      rw [hIterations]
      exact ⟨⟨Nat.zero_le _, Nat.zero_le _⟩, .inr ⟨hStatus, hError⟩⟩

/-- A command for one element that writes its own count word, with these inputs. -/
def overlappingCommand (lhs rhs : Nat) : ByteMem :=
  .ofWords 0 [commandMagic, commandAbiVersion, commandSize, CommandOpcode.vectorAddU32.code, 0, 0,
    1, 0, 64, 68, 24, 4, 0, 0, 0, 0, lhs, rhs]

instance (m : ByteMem) : Decidable (CountKept m) := inferInstanceAs (Decidable (∀ _ < _, _ → _))

theorem main_confined_small_sum :
    Confined (fun _ => 0) 257 { memory := overlappingCommand 1 0 } :=
  (main_confined_iff _ (by decide) _ ⟨rfl, rfl⟩).mpr (by decide +kernel)

theorem main_leaves_window :
    commandAccepted (overlappingCommand 0x1000 0) = true ∧
      ¬ Confined (fun _ => 0) 257 { memory := overlappingCommand 0x1000 0 } := by
  have hAccepted : commandAccepted (overlappingCommand 0x1000 0) = true := by decide +kernel
  refine ⟨hAccepted, fun hConfined => ?_⟩
  have hKept := kept_of_confined (s := { memory := overlappingCommand 0x1000 0 }) (by decide)
    ⟨rfl, rfl⟩ rfl hAccepted hConfined
  exact absurd hKept (by decide +kernel)

end OpenNpux.Firmware
