import OpenNpux.Device.StageABackend
import OpenNpux.Lib.WriteLog

/-!
# The windows of the stage-A backend

Packets carry 64-bit addresses. The offset of one is decoded against three windows, and
the routines of the memory windows subtract the bases and check the bounds once more. With
windows of the sizes that the address map leaves them, each byte holds what was written
there last, and no access reaches the state behind another window.
-/

namespace OpenNpux.Device

open Lib

namespace CoralStageABackend

/-! ## Packets -/

def packetOffset (pioAddr addr : Nat) : Nat := (addr + (2 ^ 64 - pioAddr % 2 ^ 64)) % 2 ^ 64

/-- The place in the window, unless the access runs over its end. -/
def windowPlace (windowSize pioAddr windowBase addr size : Nat) : Option Nat :=
  let offset := (packetOffset pioAddr addr + (2 ^ 64 - windowBase)) % 2 ^ 64
  if windowSize < (offset + size) % 2 ^ 64 then none else some offset

def readMemoryWindow (window : ByteMem) (windowSize pioAddr windowBase addr size : Nat) :
    Option ByteMem :=
  (windowPlace windowSize pioAddr windowBase addr size).map fun place i => window (place + i)

def writeMemoryWindow (window : ByteMem) (windowSize pioAddr windowBase addr size : Nat)
    (data : ByteMem) : Option ByteMem :=
  (windowPlace windowSize pioAddr windowBase addr size).map fun place =>
    window.store place size data

variable (p : StageAParams) (pioAddr : Nat)

def packetData (addr size : Nat) (b : CoralStageABackend) : Option ByteMem :=
  let offset := packetOffset pioAddr addr
  if inItcm p offset size then readMemoryWindow b.itcm p.itcmSize pioAddr 0 addr size
  else if inDtcm p offset size then
    readMemoryWindow b.dtcm p.dtcmSize pioAddr dtcmOffset addr size
  else if inCsr offset size then (b.readCsr offset size).map ByteMem.bytesOf
  else none

def readPacket (addr size : Nat) : Prog CoralStageABackend Fatal (Option ByteMem) := do
  return (← Prog.get).packetData p pioAddr addr size

def writtenPacket (now addr size : Nat) (data : ByteMem) (b : CoralStageABackend) :
    Option CoralStageABackend :=
  let offset := packetOffset pioAddr addr
  if inItcm p offset size then
    (writeMemoryWindow b.itcm p.itcmSize pioAddr 0 addr size data).map fun window =>
      { b with itcm := window }
  else if inDtcm p offset size then
    (writeMemoryWindow b.dtcm p.dtcmSize pioAddr dtcmOffset addr size data).map fun window =>
      { b with dtcm := window }
  else if inCsr offset size then b.writeCsr p now offset size (data.load 0 4)
  else none

def writePacket (now addr size : Nat) (data : ByteMem) : Prog CoralStageABackend Fatal Bool :=
  fun b =>
    match b.writtenPacket p pioAddr now addr size data with
    | some b' => ⟨some true, b', []⟩
    | none => ⟨some false, b, []⟩

inductive Step
  | read (addr size : Nat)
  | write (now addr size : Nat) (data : ByteMem)
  | event

def next (b : CoralStageABackend) : Step → CoralStageABackend
  | .read addr size => (readPacket p pioAddr addr size b).state
  | .write now addr size data => (writePacket p pioAddr now addr size data b).state
  | .event => b.completeExecution

/-! ## The address map -/

/-- All of the access lies in the window of this length. -/
def Contained (base length offset size : Nat) : Prop :=
  base ≤ offset ∧ offset < base + length ∧ offset + size ≤ base + length

def InMemory (offset size : Nat) : Prop :=
  Contained 0 p.itcmSize offset size ∨ Contained dtcmOffset p.dtcmSize offset size

/-- A word access to a register that can be read: `RESET_CONTROL`, `PC_START`, `STATUS`. -/
def ReadableRegister (offset size : Nat) : Prop :=
  size = 4 ∧ (offset = csrOffset ∨ offset = csrOffset + 4 ∨ offset = csrOffset + 8)

def WritableRegister (offset size : Nat) : Prop :=
  size = 4 ∧ (offset = csrOffset ∨ offset = csrOffset + 4)

instance (base length offset size : Nat) : Decidable (Contained base length offset size) :=
  inferInstanceAs (Decidable (_ ∧ _ ∧ _))

instance (offset size : Nat) : Decidable (InMemory p offset size) :=
  inferInstanceAs (Decidable (_ ∨ _))

/-- The bytes that a step writes to the memory windows, each with its offset. -/
def Step.writes : Step → List (Nat × UInt8)
  | .read _ _ => []
  | .write _ addr size data =>
    if InMemory p (packetOffset pioAddr addr) size then
      (List.range size).map fun i => (packetOffset pioAddr addr + i, data i)
    else []
  | .event => []

/-- The registers and the state of the execution are the same. -/
structure SameControl (b b' : CoralStageABackend) : Prop where
  resetControl : b'.resetControl = b.resetControl
  pcStart : b'.pcStart = b.pcStart
  halted : b'.halted = b.halted
  fault : b'.fault = b.fault
  pendingEventTick : b'.pendingEventTick = b.pendingEventTick

structure SameMemory (b b' : CoralStageABackend) : Prop where
  itcm : b'.itcm = b.itcm
  dtcm : b'.dtcm = b.dtcm

/-- What every packet does to a backend after these writes. -/
structure Separate (log : List (Nat × UInt8)) (b : CoralStageABackend) : Prop where
  reads : ∀ addr size, InMemory p (packetOffset pioAddr addr) size →
    ∃ data, (readPacket p pioAddr addr size b).result = some (some data) ∧
      ∀ i < size, data i = lastWritten log 0 (packetOffset pioAddr addr + i)
  readState : ∀ addr size, (readPacket p pioAddr addr size b).state = b
  readRefused : ∀ addr size, ¬InMemory p (packetOffset pioAddr addr) size →
    ¬ReadableRegister (packetOffset pioAddr addr) size →
      (readPacket p pioAddr addr size b).result = some none
  writeRefused : ∀ now addr size data, ¬InMemory p (packetOffset pioAddr addr) size →
    ¬WritableRegister (packetOffset pioAddr addr) size →
      (writePacket p pioAddr now addr size data b).result = some false ∧
        (writePacket p pioAddr now addr size data b).state = b
  memoryWrites : ∀ now addr size data, InMemory p (packetOffset pioAddr addr) size →
    (writePacket p pioAddr now addr size data b).result = some true ∧
      SameControl b (writePacket p pioAddr now addr size data b).state
  registerWrites : ∀ now addr size data,
    Contained csrOffset csrSize (packetOffset pioAddr addr) size →
      SameMemory b (writePacket p pioAddr now addr size data b).state

variable {p pioAddr}

/-! ## Decoding -/

theorem inItcm_iff {offset size : Nat} :
    inItcm p offset size = true ↔ Contained 0 p.itcmSize offset size := by
  simp only [inItcm, Contained, Bool.and_eq_true, decide_eq_true_eq]
  omega

theorem inDtcm_iff {offset size : Nat} :
    inDtcm p offset size = true ↔ Contained dtcmOffset p.dtcmSize offset size := by
  simp only [inDtcm, Contained, Bool.and_eq_true, decide_eq_true_eq]
  omega

theorem inCsr_iff {offset size : Nat} :
    inCsr offset size = true ↔ Contained csrOffset csrSize offset size := by
  simp only [inCsr, Contained, Bool.and_eq_true, decide_eq_true_eq]
  omega

theorem not_inMemory (hItcm : p.itcmSize ≤ 0x10000) (hDtcm : p.dtcmSize ≤ 0x20000)
    {offset size : Nat} (h : Contained csrOffset csrSize offset size) :
    ¬InMemory p offset size := by
  have hBase : dtcmOffset = 0x10000 := rfl
  have hCsr : csrOffset = 0x30000 := rfl
  unfold InMemory Contained at *
  omega

theorem windowPlace_eq {base length addr size : Nat}
    (h : Contained base length (packetOffset pioAddr addr) size) (hEnd : base + length < 2 ^ 64) :
    windowPlace length pioAddr base addr size = some (packetOffset pioAddr addr - base) := by
  obtain ⟨hStart, hFirst, hLast⟩ := h
  have hPlace : (packetOffset pioAddr addr + (2 ^ 64 - base)) % 2 ^ 64 =
      packetOffset pioAddr addr - base := by omega
  rw [windowPlace, hPlace, if_neg (by omega)]

theorem readCsr_none {b : CoralStageABackend} {offset size : Nat} (hBase : csrOffset ≤ offset)
    (h : ¬ReadableRegister offset size) : b.readCsr offset size = none := by
  unfold readCsr
  split
  · rfl
  · rename_i hWord
    simp only [csrAccess, Bool.not_eq_true', Bool.not_eq_false, Bool.and_eq_true,
      beq_iff_eq] at hWord
    split
    · exact absurd ⟨hWord.1, .inl (by omega)⟩ h
    · exact absurd ⟨hWord.1, .inr (.inl (by omega))⟩ h
    · exact absurd ⟨hWord.1, .inr (.inr (by omega))⟩ h
    · rfl

theorem writeCsr_none {b : CoralStageABackend} {now offset size value : Nat}
    (hBase : csrOffset ≤ offset) (h : ¬WritableRegister offset size) :
    b.writeCsr p now offset size value = none := by
  unfold writeCsr
  split
  · rfl
  · rename_i hWord
    simp only [csrAccess, Bool.not_eq_true', Bool.not_eq_false, Bool.and_eq_true,
      beq_iff_eq] at hWord
    split
    · exact absurd ⟨hWord.1, .inl (by omega)⟩ h
    · exact absurd ⟨hWord.1, .inr (by omega)⟩ h
    · rfl

theorem writeResetControl_memory (now value : Nat) (b : CoralStageABackend) :
    SameMemory b (b.writeResetControl p now value) := by
  unfold writeResetControl
  dsimp only
  split
  · exact ⟨rfl, rfl⟩
  · split
    · exact ⟨rfl, rfl⟩
    · exact ⟨rfl, rfl⟩

theorem writeCsr_memory {b b' : CoralStageABackend} {now offset size value : Nat}
    (h : b.writeCsr p now offset size value = some b') : SameMemory b b' := by
  unfold writeCsr at h
  split at h
  · cases h
  · split at h
    · cases h
      exact writeResetControl_memory now value b
    · cases h
      exact ⟨rfl, rfl⟩
    · cases h

theorem readPacket_eq (addr size : Nat) (b : CoralStageABackend) :
    readPacket p pioAddr addr size b = ⟨some (b.packetData p pioAddr addr size), b, []⟩ := rfl

section Packets

variable {addr size : Nat} {b : CoralStageABackend}

theorem packetData_itcm (h : Contained 0 p.itcmSize (packetOffset pioAddr addr) size)
    (hItcm : p.itcmSize ≤ 0x10000) :
    b.packetData p pioAddr addr size = some fun i => b.itcm (packetOffset pioAddr addr + i) := by
  rw [packetData, if_pos (inItcm_iff.mpr h), readMemoryWindow, windowPlace_eq h (by omega)]
  rfl

theorem packetData_dtcm (h : Contained dtcmOffset p.dtcmSize (packetOffset pioAddr addr) size)
    (hItcm : p.itcmSize ≤ 0x10000) (hDtcm : p.dtcmSize ≤ 0x20000) :
    b.packetData p pioAddr addr size =
      some fun i => b.dtcm (packetOffset pioAddr addr - dtcmOffset + i) := by
  have hBase : dtcmOffset = 0x10000 := rfl
  have hOther : ¬inItcm p (packetOffset pioAddr addr) size = true := by
    rw [inItcm_iff]
    unfold Contained at h ⊢
    omega
  rw [packetData, if_neg hOther, if_pos (inDtcm_iff.mpr h), readMemoryWindow,
    windowPlace_eq h (by omega)]
  rfl

theorem packetData_none (hMemory : ¬InMemory p (packetOffset pioAddr addr) size)
    (hRegister : ¬ReadableRegister (packetOffset pioAddr addr) size) :
    b.packetData p pioAddr addr size = none := by
  rw [InMemory, not_or, ← inItcm_iff, ← inDtcm_iff] at hMemory
  rw [packetData, if_neg hMemory.1, if_neg hMemory.2]
  split
  · rename_i hCsr
    rw [readCsr_none (inCsr_iff.mp hCsr).1 hRegister]
    rfl
  · rfl

variable {now : Nat} {data : ByteMem}

theorem writtenPacket_itcm (h : Contained 0 p.itcmSize (packetOffset pioAddr addr) size)
    (hItcm : p.itcmSize ≤ 0x10000) :
    b.writtenPacket p pioAddr now addr size data =
      some { b with itcm := b.itcm.store (packetOffset pioAddr addr) size data } := by
  rw [writtenPacket, if_pos (inItcm_iff.mpr h), writeMemoryWindow, windowPlace_eq h (by omega)]
  rfl

theorem writtenPacket_dtcm (h : Contained dtcmOffset p.dtcmSize (packetOffset pioAddr addr) size)
    (hItcm : p.itcmSize ≤ 0x10000) (hDtcm : p.dtcmSize ≤ 0x20000) :
    b.writtenPacket p pioAddr now addr size data = some
      { b with dtcm := b.dtcm.store (packetOffset pioAddr addr - dtcmOffset) size data } := by
  have hBase : dtcmOffset = 0x10000 := rfl
  have hOther : ¬inItcm p (packetOffset pioAddr addr) size = true := by
    rw [inItcm_iff]
    unfold Contained at h ⊢
    omega
  rw [writtenPacket, if_neg hOther, if_pos (inDtcm_iff.mpr h), writeMemoryWindow,
    windowPlace_eq h (by omega)]
  rfl

theorem writtenPacket_inside (h : InMemory p (packetOffset pioAddr addr) size)
    (hItcm : p.itcmSize ≤ 0x10000) (hDtcm : p.dtcmSize ≤ 0x20000) :
    ∃ itcm dtcm, b.writtenPacket p pioAddr now addr size data = some { b with itcm, dtcm } := by
  rcases h with hIn | hIn
  · exact ⟨_, b.dtcm, writtenPacket_itcm hIn hItcm⟩
  · exact ⟨b.itcm, _, writtenPacket_dtcm hIn hItcm hDtcm⟩

theorem writtenPacket_none (hMemory : ¬InMemory p (packetOffset pioAddr addr) size)
    (hRegister : ¬WritableRegister (packetOffset pioAddr addr) size) :
    b.writtenPacket p pioAddr now addr size data = none := by
  rw [InMemory, not_or, ← inItcm_iff, ← inDtcm_iff] at hMemory
  rw [writtenPacket, if_neg hMemory.1, if_neg hMemory.2]
  split
  · rename_i hCsr
    exact writeCsr_none (inCsr_iff.mp hCsr).1 hRegister
  · rfl

theorem writtenPacket_outside (hMemory : ¬InMemory p (packetOffset pioAddr addr) size)
    {b' : CoralStageABackend} (h : b.writtenPacket p pioAddr now addr size data = some b') :
    SameMemory b b' := by
  rw [InMemory, not_or, ← inItcm_iff, ← inDtcm_iff] at hMemory
  rw [writtenPacket, if_neg hMemory.1, if_neg hMemory.2] at h
  split at h
  · exact writeCsr_memory h
  · cases h

theorem writePacket_of_some {b' : CoralStageABackend}
    (h : b.writtenPacket p pioAddr now addr size data = some b') :
    writePacket p pioAddr now addr size data b = ⟨some true, b', []⟩ := by
  rw [writePacket, h]

theorem writePacket_of_none (h : b.writtenPacket p pioAddr now addr size data = none) :
    writePacket p pioAddr now addr size data b = ⟨some false, b, []⟩ := by
  rw [writePacket, h]

theorem writePacket_outside (hMemory : ¬InMemory p (packetOffset pioAddr addr) size) :
    SameMemory b (writePacket p pioAddr now addr size data b).state := by
  cases hWritten : b.writtenPacket p pioAddr now addr size data with
  | none =>
    rw [writePacket_of_none hWritten]
    exact ⟨rfl, rfl⟩
  | some b' =>
    rw [writePacket_of_some hWritten]
    exact writtenPacket_outside hMemory hWritten

end Packets

theorem packets_decoded (hItcm : p.itcmSize < 2 ^ 64) (hDtcm : dtcmOffset + p.dtcmSize < 2 ^ 64)
    (now addr size : Nat) (data : ByteMem) :
    readPacket p pioAddr addr size = read p (packetOffset pioAddr addr) size ∧
      writePacket p pioAddr now addr size data =
        write p now (packetOffset pioAddr addr) size data := by
  constructor
  · funext b
    rw [readPacket_eq, packetData, read, Prog.get_bind]
    split
    · rename_i hIn
      rw [readMemoryWindow, windowPlace_eq (inItcm_iff.mp hIn) (by omega)]
      rfl
    · split
      · rename_i hIn
        rw [readMemoryWindow, windowPlace_eq (inDtcm_iff.mp hIn) hDtcm]
        rfl
      · split <;> rfl
  · funext b
    have hSame : b.writtenPacket p pioAddr now addr size data =
        b.written p now (packetOffset pioAddr addr) size data := by
      rw [writtenPacket, written]
      split
      · rename_i hIn
        rw [writeMemoryWindow, windowPlace_eq (inItcm_iff.mp hIn) (by omega)]
        rfl
      · split
        · rename_i hIn
          rw [writeMemoryWindow, windowPlace_eq (inDtcm_iff.mp hIn) hDtcm]
          rfl
        · rfl
    cases hWritten : b.written p now (packetOffset pioAddr addr) size data with
    | none => simp only [writePacket, write, hSame, hWritten]
    | some b' => simp only [writePacket, write, hSame, hWritten]

/-! ## Whole runs -/

variable (p) in
/-- Each byte of the windows is the last one of the log. -/
structure Mirrors (log : List (Nat × UInt8)) (b : CoralStageABackend) : Prop where
  itcm : ∀ i < p.itcmSize, b.itcm i = lastWritten log 0 i
  dtcm : ∀ i < p.dtcmSize, b.dtcm i = lastWritten log 0 (dtcmOffset + i)

theorem Mirrors.same {log : List (Nat × UInt8)} {b b' : CoralStageABackend} (h : Mirrors p log b)
    (hSame : SameMemory b b') : Mirrors p log b' := by
  constructor
  · rw [hSame.itcm]
    exact h.itcm
  · rw [hSame.dtcm]
    exact h.dtcm

def block (offset size : Nat) (data : ByteMem) : List (Nat × UInt8) :=
  (List.range size).map fun i => (offset + i, data i)

theorem lastWritten_append_block (log : List (Nat × UInt8)) (offset size place : Nat)
    (data : ByteMem) :
    lastWritten (log ++ block offset size data) 0 place =
      if offset ≤ place ∧ place < offset + size then data (place - offset)
      else lastWritten log 0 place := by
  rw [lastWritten_append, block, lastWritten_block]

theorem Mirrors.storeItcm (hItcm : p.itcmSize ≤ 0x10000) {log : List (Nat × UInt8)}
    {b : CoralStageABackend} (h : Mirrors p log b) {offset size : Nat} (data : ByteMem)
    (hIn : Contained 0 p.itcmSize offset size) :
    Mirrors p (log ++ block offset size data) { b with itcm := b.itcm.store offset size data } := by
  obtain ⟨-, -, hEnd⟩ := hIn
  constructor
  · intro i hi
    rw [lastWritten_append_block, ← h.itcm i hi]
    rfl
  · intro i hi
    have hBase : dtcmOffset = 0x10000 := rfl
    rw [lastWritten_append_block, if_neg (by omega)]
    exact h.dtcm i hi

theorem Mirrors.storeDtcm (hItcm : p.itcmSize ≤ 0x10000) {log : List (Nat × UInt8)}
    {b : CoralStageABackend} (h : Mirrors p log b) {offset size : Nat} (data : ByteMem)
    (hIn : Contained dtcmOffset p.dtcmSize offset size) :
    Mirrors p (log ++ block offset size data)
      { b with dtcm := b.dtcm.store (offset - dtcmOffset) size data } := by
  obtain ⟨hStart, -, -⟩ := hIn
  generalize hPlace : offset - dtcmOffset = place
  constructor
  · intro i hi
    have hBase : dtcmOffset = 0x10000 := rfl
    rw [lastWritten_append_block, if_neg (by omega)]
    exact h.itcm i hi
  · intro i hi
    rw [lastWritten_append_block, ← h.dtcm i hi]
    split
    · exact (ByteMem.store_inside _ _ (by omega)).trans (congrArg data (by omega))
    · exact ByteMem.store_outside _ _ (by omega)

theorem Mirrors.next (hItcm : p.itcmSize ≤ 0x10000) (hDtcm : p.dtcmSize ≤ 0x20000)
    {log : List (Nat × UInt8)} {b : CoralStageABackend} (h : Mirrors p log b) (step : Step) :
    Mirrors p (log ++ step.writes p pioAddr) (b.next p pioAddr step) := by
  cases step with
  | read addr size =>
    rw [Step.writes, List.append_nil]
    exact h
  | event =>
    rw [Step.writes, List.append_nil]
    exact h.same ⟨rfl, rfl⟩
  | write now addr size data =>
    rw [CoralStageABackend.next]
    by_cases hMemory : InMemory p (packetOffset pioAddr addr) size
    · rw [Step.writes, if_pos hMemory]
      rcases hMemory with hIn | hIn
      · rw [writePacket_of_some (writtenPacket_itcm hIn hItcm)]
        exact h.storeItcm hItcm data hIn
      · rw [writePacket_of_some (writtenPacket_dtcm hIn hItcm hDtcm)]
        exact h.storeDtcm hItcm data hIn
    · rw [Step.writes, if_neg hMemory, List.append_nil]
      exact h.same (writePacket_outside hMemory)

theorem mirrors_run (hItcm : p.itcmSize ≤ 0x10000) (hDtcm : p.dtcmSize ≤ 0x20000)
    (steps : List Step) {log : List (Nat × UInt8)} {b : CoralStageABackend} (h : Mirrors p log b) :
    Mirrors p (log ++ steps.flatMap (Step.writes p pioAddr)) (steps.foldl (next p pioAddr) b) := by
  induction steps generalizing log b with
  | nil => simpa using h
  | cons step steps ih =>
    rw [List.flatMap_cons, ← List.append_assoc]
    exact ih (h.next hItcm hDtcm step)

theorem Mirrors.separate (hItcm : p.itcmSize ≤ 0x10000) (hDtcm : p.dtcmSize ≤ 0x20000)
    {log : List (Nat × UInt8)} {b : CoralStageABackend} (h : Mirrors p log b) :
    Separate p pioAddr log b := by
  have hBase : dtcmOffset = 0x10000 := rfl
  constructor
  · rintro addr size (hIn | hIn)
    · rw [readPacket_eq, packetData_itcm hIn hItcm]
      refine ⟨_, rfl, fun i hi => ?_⟩
      obtain ⟨-, -, hEnd⟩ := hIn
      exact h.itcm _ (by omega)
    · rw [readPacket_eq, packetData_dtcm hIn hItcm hDtcm]
      obtain ⟨hStart, -, hEnd⟩ := hIn
      generalize hPlace : packetOffset pioAddr addr - dtcmOffset = place
      refine ⟨_, rfl, fun i hi => ?_⟩
      have hSame : dtcmOffset + (place + i) = packetOffset pioAddr addr + i := by omega
      rw [h.dtcm _ (by omega), hSame]
  · intro addr size
    rw [readPacket_eq]
  · intro addr size hMemory hRegister
    rw [readPacket_eq, packetData_none hMemory hRegister]
  · intro now addr size data hMemory hRegister
    rw [writePacket_of_none (writtenPacket_none hMemory hRegister)]
    exact ⟨rfl, rfl⟩
  · intro now addr size data hIn
    obtain ⟨itcm, dtcm, hWritten⟩ := writtenPacket_inside hIn hItcm hDtcm
    rw [writePacket_of_some hWritten]
    exact ⟨rfl, rfl, rfl, rfl, rfl, rfl⟩
  · exact fun now addr size data hIn => writePacket_outside (not_inMemory hItcm hDtcm hIn)

theorem windows_separate (p : StageAParams) (hItcm : p.itcmSize ≤ 0x10000)
    (hDtcm : p.dtcmSize ≤ 0x20000) (pioAddr : Nat) (steps : List Step) :
    Separate p pioAddr (steps.flatMap (Step.writes p pioAddr))
      (steps.foldl (next p pioAddr) {}) := by
  have hInitial : Mirrors p [] {} := ⟨fun _ _ => rfl, fun _ _ => rfl⟩
  exact (mirrors_run hItcm hDtcm steps hInitial).separate hItcm hDtcm

def fullWindows : StageAParams := ⟨0x10000, 0x20000, 100, true⟩

theorem windows_separate_fullWindows :
    Separate fullWindows 0x1000
      ([Step.write 0 0x10ffe 2 (fun _ => 7), .event, .write 5 0x31000 4 fun _ => 0].flatMap
        (Step.writes fullWindows 0x1000))
      ([Step.write 0 0x10ffe 2 (fun _ => 7), .event, .write 5 0x31000 4 fun _ => 0].foldl
        (next fullWindows 0x1000) {}) :=
  windows_separate fullWindows (by decide) (by decide) 0x1000 _

end CoralStageABackend
end OpenNpux.Device
