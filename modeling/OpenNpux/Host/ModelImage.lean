import Mathlib.Data.List.GetD
import OpenNpux.Host.ModelRun

/-!
# The layout of a model file

A file of the layout that the script for sample models writes: the header, one record for
each command, and behind them the words of the tensors, to which the offsets of the
commands point. The parser of the host accepts its header and reads back the commands and
the tensors, whatever they are.
-/

namespace OpenNpux.Host

open Lib Firmware

/-- The words of a record; the last three are not read. -/
def ModelCommand.record (c : ModelCommand) : List Nat :=
  [c.opcode, c.elementCount, c.input0Offset, c.input1Offset, c.expectedChecksum, 0, 0, 0]

def tensorBase (count : Nat) : Nat := modelHeaderSize + count * modelCommandSize

def imageHeader (count words : Nat) : List Nat :=
  [modelMagic, modelVersion, modelHeaderSize, tensorBase count + words * 4, count,
    modelHeaderSize, 0, 0]

def imageWords (cs : List ModelCommand) (tensors : List Nat) : List Nat :=
  imageHeader cs.length tensors.length ++ (cs.flatMap ModelCommand.record ++ tensors)

def modelImage (cs : List ModelCommand) (tensors : List Nat) : List UInt8 :=
  packWords (imageWords cs tensors)

structure ModelCommand.Words (c : ModelCommand) : Prop where
  opcode : c.opcode < 2 ^ 32
  elementCount : c.elementCount < 2 ^ 32
  input0Offset : c.input0Offset < 2 ^ 32
  input1Offset : c.input1Offset < 2 ^ 32
  expectedChecksum : c.expectedChecksum < 2 ^ 32

/-! ## Packed words -/

theorem packWords_cons (word : Nat) (words : List Nat) :
    packWords (word :: words) = (List.range 4).map (ByteMem.bytesOf word) ++ packWords words := rfl

theorem length_packWords (words : List Nat) : (packWords words).length = 4 * words.length := by
  induction words with
  | nil => rfl
  | cons word words ih =>
    rw [packWords_cons, List.length_append, ih, List.length_map, List.length_range,
      List.length_cons]
    omega

theorem fileBytes_packWords (words : List Nat) (i : Nat) {j : Nat} (hj : j < 4) :
    fileBytes (packWords words) (4 * i + j) = ByteMem.bytesOf (words.getD i 0) j := by
  unfold fileBytes
  induction words generalizing i with
  | nil => simp [packWords, ByteMem.bytesOf]
  | cons word words ih =>
    rw [packWords_cons]
    cases i with
    | zero =>
      rw [Nat.mul_zero, Nat.zero_add, List.getD_append _ _ _ _ (by simpa using hj)]
      simp [List.getD_eq_getElem?_getD, hj]
    | succ i =>
      rw [List.getD_append_right _ _ _ _ (by simp; omega), List.length_map, List.length_range,
        show 4 * (i + 1) + j - 4 = 4 * i + j by omega, ih, List.getD_cons_succ]

theorem load_packWords (words : List Nat) (i : Nat) :
    (fileBytes (packWords words)).load (4 * i) 4 = words.getD i 0 % 2 ^ 32 := by
  have hWord : (fileBytes (packWords words)).load (4 * i) 4 =
      ByteMem.load (ByteMem.bytesOf (words.getD i 0)) 0 4 := by
    apply ByteMem.load_eq
    intro j hj
    rw [fileBytes_packWords words i hj, Nat.zero_add]
  exact hWord.trans (ByteMem.load_bytesOf _ 4)

/-! ## What the parser reads -/

theorem getD_records (cs : List ModelCommand) (rest : List Nat) {k : Nat} (hk : k < cs.length)
    {j : Nat} (hj : j < 8) : (cs.flatMap ModelCommand.record ++ rest).getD (8 * k + j) 0 =
      (cs.get ⟨k, hk⟩).record.getD j 0 := by
  induction cs generalizing k with
  | nil => exact absurd hk (Nat.not_lt_zero k)
  | cons c cs ih =>
    rw [List.flatMap_cons, List.append_assoc]
    have hLength : c.record.length = 8 := rfl
    cases k with
    | zero =>
      rw [Nat.mul_zero, Nat.zero_add, List.getD_append _ _ _ _ (by omega)]
      rfl
    | succ k =>
      rw [List.getD_append_right _ _ _ _ (by omega), hLength,
        show 8 * (k + 1) + j - 8 = 8 * k + j by omega, ih (Nat.lt_of_succ_lt_succ hk)]
      rfl

section Image

variable {cs : List ModelCommand} {tensors : List Nat}

theorem length_records (cs : List ModelCommand) :
    (cs.flatMap ModelCommand.record).length = 8 * cs.length := by
  induction cs with
  | nil => rfl
  | cons c cs ih =>
    have hLength : c.record.length = 8 := rfl
    rw [List.flatMap_cons, List.length_append, ih, hLength, List.length_cons]
    omega

theorem length_modelImage (cs : List ModelCommand) (tensors : List Nat) :
    (modelImage cs tensors).length = tensorBase cs.length + tensors.length * 4 := by
  have hHeader : (imageHeader cs.length tensors.length).length = 8 := rfl
  rw [modelImage, length_packWords, imageWords, List.length_append, List.length_append,
    length_records, hHeader, tensorBase, modelHeaderSize, modelCommandSize]
  omega

theorem word_record {k : Nat} (hk : k < cs.length) {j : Nat} (hj : j < 8) :
    (fileBytes (modelImage cs tensors)).load (modelHeaderSize + k * modelCommandSize + 4 * j) 4 =
      (cs.get ⟨k, hk⟩).record.getD j 0 % 2 ^ 32 := by
  have hHeader : (imageHeader cs.length tensors.length).length = 8 := rfl
  rw [show modelHeaderSize + k * modelCommandSize + 4 * j = 4 * (8 + (8 * k + j)) by
    rw [modelHeaderSize, modelCommandSize]; omega, modelImage, load_packWords, imageWords,
    List.getD_append_right _ _ _ _ (by omega), hHeader, Nat.add_sub_cancel_left,
    getD_records cs tensors hk hj]

theorem modelCommand_image {k : Nat} (hk : k < cs.length) (hWords : (cs.get ⟨k, hk⟩).Words) :
    modelCommand (fileBytes (modelImage cs tensors)) (modelHeaderSize + k * modelCommandSize) =
      cs.get ⟨k, hk⟩ := by
  have hWord (j value : Nat) (hj : j < 8) (hValue : (cs.get ⟨k, hk⟩).record.getD j 0 = value)
      (hLt : value < 2 ^ 32) : (fileBytes (modelImage cs tensors)).load
        (modelHeaderSize + k * modelCommandSize + 4 * j) 4 = value := by
    rw [word_record hk hj, hValue, Nat.mod_eq_of_lt hLt]
  have hOpcode : (fileBytes (modelImage cs tensors)).load
      (modelHeaderSize + k * modelCommandSize) 4 =
      (cs.get ⟨k, hk⟩).opcode := hWord 0 _ (by decide) rfl hWords.opcode
  have hCount := hWord 1 _ (by decide) rfl hWords.elementCount
  have hInput0 := hWord 2 _ (by decide) rfl hWords.input0Offset
  have hInput1 := hWord 3 _ (by decide) rfl hWords.input1Offset
  have hChecksum := hWord 4 _ (by decide) rfl hWords.expectedChecksum
  rw [modelCommand, hOpcode, hCount, hInput0, hInput1, hChecksum]
  rfl

theorem modelHeader_image (hMax : cs.length ≤ modelMaxCommands)
    (hSize : (modelImage cs tensors).length < 2 ^ 32) :
    modelHeader (fileBytes (modelImage cs tensors)) = ⟨modelMagic, modelVersion, modelHeaderSize,
      (modelImage cs tensors).length, cs.length, modelHeaderSize⟩ := by
  have hWord (i value : Nat) (hValue : (imageWords cs tensors).getD i 0 = value)
      (hLt : value < 2 ^ 32) : (fileBytes (modelImage cs tensors)).load (4 * i) 4 = value := by
    rw [modelImage, load_packWords, hValue, Nat.mod_eq_of_lt hLt]
  have hCount : cs.length ≤ 64 := hMax
  rw [modelHeader, hWord 0 modelMagic rfl (by decide), hWord 1 modelVersion rfl (by decide),
    hWord 2 modelHeaderSize rfl (by decide), hWord 3 _ (length_modelImage cs tensors).symm hSize,
    hWord 4 cs.length rfl (by omega), hWord 5 modelHeaderSize rfl (by decide)]

theorem headerValid_image (hPos : 1 ≤ cs.length) (hMax : cs.length ≤ modelMaxCommands)
    (hSize : (modelImage cs tensors).length < 2 ^ 32) :
    headerValid (modelImage cs tensors) = true := by
  have hLength := length_modelImage cs tensors
  have hCount : cs.length ≤ 64 := hMax
  have hSmall : cs.length * modelCommandSize % 2 ^ 32 = cs.length * modelCommandSize := by
    apply Nat.mod_eq_of_lt
    rw [modelCommandSize]
    omega
  have hFits : modelHeaderSize ≤ (modelImage cs tensors).length ∧
      cs.length * modelCommandSize ≤ (modelImage cs tensors).length - modelHeaderSize := by
    rw [hLength, tensorBase, modelCommandSize]
    omega
  have hNonzero : cs.length ≠ 0 := by omega
  have hAligned : modelHeaderSize % 4 = 0 := rfl
  rw [headerValid, modelHeader_image hMax hSize]
  dsimp only
  rw [hSmall]
  simp [modelRangeValid, hFits.1, hFits.2, hNonzero, hMax, hAligned]

end Image

/-- The parser reads back what the layout holds. -/
theorem image_read_back (cs : List ModelCommand) (tensors : List Nat) (hPos : 1 ≤ cs.length)
    (hMax : cs.length ≤ modelMaxCommands) (hSize : (modelImage cs tensors).length < 2 ^ 32)
    (hWords : ∀ c ∈ cs, c.Words) (hTensors : ∀ word ∈ tensors, word < 2 ^ 32) :
    headerValid (modelImage cs tensors) = true ∧ modelCommands (modelImage cs tensors) = cs ∧
      ∀ i, (hi : i < tensors.length) → element (fileBytes (modelImage cs tensors))
        (tensorBase cs.length) i = tensors.get ⟨i, hi⟩ := by
  refine ⟨headerValid_image hPos hMax hSize, ?_, ?_⟩
  · rw [modelCommands, modelHeader_image hMax hSize]
    dsimp only
    apply List.ext_get
    · rw [List.length_map, List.length_range]
    · intro k _ hk
      simp only [List.get_eq_getElem, List.getElem_map, List.getElem_range]
      exact modelCommand_image hk (hWords _ (List.get_mem cs ⟨k, hk⟩))
  · intro i hi
    have hHeader : (imageHeader cs.length tensors.length).length = 8 := rfl
    have hRecords := length_records cs
    have hPlace : tensorBase cs.length + 4 * i = 4 * (8 + (8 * cs.length + i)) := by
      rw [tensorBase, modelHeaderSize, modelCommandSize]
      omega
    rw [element, hPlace, modelImage, load_packWords, imageWords,
      List.getD_append_right _ _ _ _ (by omega), hHeader, Nat.add_sub_cancel_left,
      List.getD_append_right _ _ _ _ (by omega), hRecords, Nat.add_sub_cancel_left,
      List.getD_eq_getElem _ _ hi]
    exact Nat.mod_eq_of_lt (hTensors _ (List.getElem_mem hi))

def sampleCommands : List ModelCommand :=
  [⟨1, sampleElements, 96, 160, 408⟩, ⟨2, sampleElements, 96, 160, 408⟩]

def sampleTensors : List Nat :=
  (List.range sampleElements).map (· + 1) ++ (List.range sampleElements).map fun i => (i + 1) * 2

example : sampleModel = modelImage sampleCommands sampleTensors := by decide +kernel

theorem image_read_back_sample :
    headerValid (modelImage sampleCommands sampleTensors) = true ∧
      modelCommands (modelImage sampleCommands sampleTensors) = sampleCommands ∧
      ∀ i, (hi : i < sampleTensors.length) →
        element (fileBytes (modelImage sampleCommands sampleTensors))
          (tensorBase sampleCommands.length) i = sampleTensors.get ⟨i, hi⟩ :=
  image_read_back sampleCommands sampleTensors (by decide) (by decide) (by decide +kernel)
    (List.forall_mem_cons.2 ⟨⟨by decide, by decide, by decide, by decide, by decide⟩,
      List.forall_mem_cons.2 ⟨⟨by decide, by decide, by decide, by decide, by decide⟩,
        List.forall_mem_nil _⟩⟩) (by decide +kernel)

end OpenNpux.Host
