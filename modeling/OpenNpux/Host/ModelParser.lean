import OpenNpux.Host.ModelFile
import OpenNpux.Lib.Lockstep

/-!
# The reads of the model-file parser

The parser once more, with every read of the file's buffer and every copy to a stack
array as an event. Sizes are multiplied in 32 bits before the counts are bounded; the
order of the checks makes the products exact where they are used. Without its events it
is the parser of the runtime.
-/

namespace OpenNpux.Host

open Lib Firmware

variable {D α β : Type}

/-- The arguments of a submission; the inputs are the words of the stack arrays. -/
structure Submission where
  opcode : Nat
  input0 : Nat → UInt32
  input1 : Nat → UInt32
  elementCount : Nat
  expectedChecksum : Nat

inductive ParserEvent
  | read (offset bytes : Nat)
  | copy (offset bytes : Nat)
  | submit (index : Nat) (s : Submission)

abbrev Parser (D α : Type) := Prog (Process D) ParserEvent α

def quietly (p : Prog (Process D) HostEvent α) : Parser D α := fun h =>
  ⟨(p h).result, (p h).state, []⟩

section Parser

variable (dev : CoralDevice D) (entry polls : Nat) (file : List UInt8)
  -- What the two stack arrays hold before the copies of each command.
  (stack : Nat → ByteMem × ByteMem)

def readWord (offset : Nat) : Parser D Nat := do
  Prog.emit (.read offset 4)
  pure ((fileBytes file).load offset 4)

def copyTensor (array : ByteMem) (offset bytes : Nat) : Parser D ByteMem := do
  Prog.emit (.copy offset bytes)
  pure (array.store 0 bytes fun i => fileBytes file (offset + i))

/-- Conditions on words of the file, joined by `||`. -/
def anyWord : List (Nat × (Nat → Bool)) → Parser D Bool
  | [] => pure false
  | (offset, bad) :: checks => do
    let value ← readWord file offset
    if bad value then pure true else anyWord checks

def headerChecks (commandBytes : Nat) : List (Nat × (Nat → Bool)) :=
  [(0, (· != modelMagic)), (4, (· != modelVersion)), (8, (· != modelHeaderSize)),
    (12, (· != file.length)), (16, (· == 0)), (16, fun n => decide (modelMaxCommands < n)),
    (20, (· % 4 != 0)), (20, fun offset => !modelRangeValid file.length offset commandBytes)]

def commandChecks (base tensorBytes : Nat) : List (Nat × (Nat → Bool)) :=
  [(base + 4, (· == 0)), (base + 4, fun n => decide (tensorMaxElements < n)),
    (base + 8, (· % 4 != 0)), (base + 12, (· % 4 != 0)),
    (base + 8, fun offset => !modelRangeValid file.length offset tensorBytes),
    (base + 12, fun offset => !modelRangeValid file.length offset tensorBytes)]

def submitRecord (index base tensorBytes : Nat) : Parser D (Int × VectorAddResult) := do
  let offset0 ← readWord file (base + 8)
  let input0 ← copyTensor file (stack index).1 offset0 tensorBytes
  let offset1 ← readWord file (base + 12)
  let input1 ← copyTensor file (stack index).2 offset1 tensorBytes
  let opcode ← readWord file base
  let elementCount ← readWord file (base + 4)
  let expectedChecksum ← readWord file (base + 16)
  let input0 := fileTensor input0 0
  let input1 := fileTensor input1 0
  Prog.emit (.submit index ⟨opcode, input0, input1, elementCount, expectedChecksum⟩)
  quietly (submitVectorAdd dev entry opcode input0 input1 elementCount expectedChecksum polls)

/-- The loop over the commands, with the number of them that are left; the count is read
again before each one. -/
def parseCommands (before : CoralInfo) (commands : Nat) :
    Nat → Nat → ModelResult → Parser D (Int × ModelResult)
  | 0, _, result => do
    let _ ← readWord file 16
    quietly (finishModel dev before result)
  | left + 1, index, result => do
    let _ ← readWord file 16
    let base := commands + index * modelCommandSize
    let elementCount ← readWord file (base + 4)
    let tensorBytes := elementCount * 4 % 2 ^ 32
    let invalid ← anyWord file (commandChecks file base tensorBytes)
    if invalid then quietly (fail einval result)
    else do
      let (code, r) ← submitRecord dev entry polls file stack index base tensorBytes
      if code ≠ 0 then pure (-1, result)
      else parseCommands before commands left (index + 1) { result with
        completedCommands := result.completedCommands + 1
        outputChecksum := (result.outputChecksum + r.checksum) % 2 ^ 32
        acceleratorCycles := (result.acceleratorCycles + r.acceleratorCycles) % 2 ^ 32 }

def parseModelFile : Parser D (Int × ModelResult) :=
  if 2 ^ 32 ≤ file.length then quietly (fail einval {})
  else if file.length < modelHeaderSize then quietly (fail einval {})
  else do
    let commandCount ← readWord file 16
    let invalid ← anyWord file (headerChecks file (commandCount * modelCommandSize % 2 ^ 32))
    if invalid then quietly (fail einval {})
    else do
      let commandCount ← readWord file 16
      let before ← quietly (call dev.getInfo)
      let commands ← readWord file 20
      parseCommands dev entry polls file stack before commands commandCount 0 { commandCount }

end Parser

/-! ## Programs that only read the file -/

/-- The program returns this value with allowed events and leaves the process alone. -/
def Fetches (ok : ParserEvent → Prop) (p : Parser D α) (value : α) : Prop :=
  ∀ h, ∃ t, p h = ⟨some value, h, t⟩ ∧ ∀ e ∈ t, ok e

namespace Fetches

variable {ok : ParserEvent → Prop} {p : Parser D α} {v : α} {file : List UInt8}

theorem pure (v : α) : Fetches ok (Pure.pure v : Parser D α) v :=
  fun _ => ⟨[], rfl, by simp⟩

theorem bind {f : α → Parser D β} {w : β} (hp : Fetches ok p v) (hf : Fetches ok (f v) w) :
    Fetches ok (p >>= f) w := by
  intro h
  obtain ⟨t, hRun, hEvents⟩ := hp h
  obtain ⟨t', hRun', hEvents'⟩ := hf h
  refine ⟨t ++ t', ?_, List.forall_mem_append.2 ⟨hEvents, hEvents'⟩⟩
  rw [Prog.bind_returned (by rw [hRun]), hRun, hRun']

theorem yields (hp : Fetches ok p v) : p.Yields ok (· = v) := by
  intro h _
  obtain ⟨t, hRun, hEvents⟩ := hp h
  rw [hRun]
  exact ⟨hEvents, fun a ha => (Option.some.inj ha).symm⟩

theorem yields_bind {f : α → Parser D β} {post : β → Prop} (hp : Fetches ok p v)
    (hf : (f v).Yields ok post) : (p >>= f).Yields ok post :=
  hp.yields.bind fun _ ha => ha ▸ hf

theorem readWord {offset : Nat} (hRead : ok (.read offset 4)) :
    Fetches ok (readWord file offset : Parser D Nat) ((fileBytes file).load offset 4) :=
  fun _ => ⟨[.read offset 4], rfl, by simpa using hRead⟩

theorem copyTensor {array : ByteMem} {offset bytes : Nat} (hCopy : ok (.copy offset bytes)) :
    Fetches ok (copyTensor file array offset bytes : Parser D ByteMem)
      (array.store 0 bytes fun i => fileBytes file (offset + i)) :=
  fun _ => ⟨[.copy offset bytes], rfl, by simpa using hCopy⟩

theorem anyWord {checks : List (Nat × (Nat → Bool))}
    (hRead : ∀ check ∈ checks, ok (.read check.1 4)) :
    Fetches ok (anyWord file checks : Parser D Bool)
      (checks.any fun check => check.2 ((fileBytes file).load check.1 4)) := by
  induction checks with
  | nil => exact pure false
  | cons check checks ih =>
    obtain ⟨offset, bad⟩ := check
    rw [List.forall_mem_cons] at hRead
    refine (readWord hRead.1).bind ?_
    rw [List.any_cons]
    dsimp only
    cases bad ((fileBytes file).load offset 4) with
    | true => exact pure true
    | false => exact ih hRead.2

end Fetches

/-! ## The events stay inside the file -/

def recordBase (file : List UInt8) (index : Nat) : Nat :=
  (modelHeader (fileBytes file)).commandOffset + index * modelCommandSize

/-- The submission is the one that this record describes. -/
structure Submission.Describes (s : Submission) (file : List UInt8) (c : ModelCommand) : Prop where
  opcode : s.opcode = c.opcode
  elementCount : s.elementCount = c.elementCount
  expectedChecksum : s.expectedChecksum = c.expectedChecksum
  input0 : ∀ i < c.elementCount, s.input0 i = fileTensor (fileBytes file) c.input0Offset i
  input1 : ∀ i < c.elementCount, s.input1 i = fileTensor (fileBytes file) c.input1Offset i
  inside0 : c.input0Offset + c.elementCount * 4 ≤ file.length
  inside1 : c.input1Offset + c.elementCount * 4 ≤ file.length

/-- Reads and copies end inside the file, copies fit the stack arrays, and a submission
follows its record. -/
def ParserEvent.Inside (file : List UInt8) : ParserEvent → Prop
  | .read offset bytes => offset + bytes ≤ file.length
  | .copy offset bytes => offset + bytes ≤ file.length ∧ bytes ≤ tensorMaxElements * 4
  | .submit index s =>
    index < (modelHeader (fileBytes file)).commandCount ∧
      recordBase file index + modelCommandSize ≤ file.length ∧
      s.Describes file (modelCommand (fileBytes file) (recordBase file index))

theorem modelRangeValid_iff {fileSize offset bytes : Nat} :
    modelRangeValid fileSize offset bytes = true ↔ offset + bytes ≤ fileSize := by
  simp only [modelRangeValid, Bool.and_eq_true, decide_eq_true_eq]
  omega

theorem headerChecks_fetch {file : List UInt8} (hLength : modelHeaderSize ≤ file.length) :
    Fetches (ParserEvent.Inside file)
      (anyWord file (headerChecks file
        ((modelHeader (fileBytes file)).commandCount * modelCommandSize % 2 ^ 32)) : Parser D Bool)
      (!headerValid file) := by
  have hValue : (!headerValid file) = (headerChecks file
      ((modelHeader (fileBytes file)).commandCount * modelCommandSize % 2 ^ 32)).any
        fun check => check.2 ((fileBytes file).load check.1 4) := by
    rw [headerValid, decide_eq_true hLength, Bool.true_and, Bool.not_not]
    simp only [headerChecks, modelHeader, List.any_cons, List.any_nil, Bool.or_false, Bool.or_assoc]
    rfl
  rw [hValue]
  apply Fetches.anyWord
  simp only [headerChecks, List.forall_mem_cons, List.not_mem_nil, false_implies, implies_true,
    and_true, ParserEvent.Inside]
  unfold modelHeaderSize at hLength
  omega

theorem headerLength_of_valid {file : List UInt8} (h : headerValid file = true) :
    modelHeaderSize ≤ file.length := by
  simp only [headerValid, Bool.and_eq_true, decide_eq_true_eq] at h
  exact h.1

theorem records_inside {file : List UInt8} (h : headerValid file = true) {index : Nat}
    (hIndex : index < (modelHeader (fileBytes file)).commandCount) :
    recordBase file index + modelCommandSize ≤ file.length := by
  simp only [headerValid, Bool.and_eq_true, Bool.not_eq_true', Bool.or_eq_false_iff,
    Bool.not_eq_false', decide_eq_false_iff_not, modelRangeValid_iff] at h
  obtain ⟨-, ⟨⟨-, hCount⟩, -⟩, hRange⟩ := h
  unfold modelMaxCommands at hCount
  unfold recordBase modelCommandSize at *
  omega

theorem commandChecks_fetch {file : List UInt8} {base : Nat}
    (hBase : base + modelCommandSize ≤ file.length) :
    Fetches (ParserEvent.Inside file)
      (anyWord file (commandChecks file base
        ((modelCommand (fileBytes file) base).elementCount * 4 % 2 ^ 32)) : Parser D Bool)
      (!(modelCommand (fileBytes file) base).valid file.length) := by
  have hValue : (!(modelCommand (fileBytes file) base).valid file.length) =
      (commandChecks file base ((modelCommand (fileBytes file) base).elementCount * 4 % 2 ^ 32)).any
        fun check => check.2 ((fileBytes file).load check.1 4) := by
    simp only [ModelCommand.valid, commandChecks, modelCommand, List.any_cons, List.any_nil,
      Bool.or_false, Bool.or_assoc, Bool.not_not]
    rfl
  rw [hValue]
  apply Fetches.anyWord
  simp only [commandChecks, List.forall_mem_cons, List.not_mem_nil, false_implies, implies_true,
    and_true, ParserEvent.Inside]
  unfold modelCommandSize at hBase
  omega

/-- What an accepted command says about its tensors; the size did not wrap. -/
structure ModelCommand.Sized (c : ModelCommand) (fileSize : Nat) : Prop where
  bytes : c.elementCount * 4 % 2 ^ 32 = c.elementCount * 4
  array : c.elementCount * 4 ≤ tensorMaxElements * 4
  inside0 : c.input0Offset + c.elementCount * 4 ≤ fileSize
  inside1 : c.input1Offset + c.elementCount * 4 ≤ fileSize

theorem ModelCommand.sized {c : ModelCommand} {fileSize : Nat} (h : c.valid fileSize = true) :
    c.Sized fileSize := by
  simp only [ModelCommand.valid, Bool.not_eq_true', Bool.or_eq_false_iff, Bool.not_eq_false',
    decide_eq_false_iff_not, modelRangeValid_iff] at h
  obtain ⟨⟨⟨⟨⟨-, hCount⟩, -⟩, -⟩, hRange0⟩, hRange1⟩ := h
  have hBytes : c.elementCount * 4 % 2 ^ 32 = c.elementCount * 4 := by
    unfold tensorMaxElements at hCount
    omega
  rw [hBytes] at hRange0 hRange1
  exact ⟨hBytes, by omega, hRange0, hRange1⟩

theorem fileTensor_copied (array m : ByteMem) {offset bytes i : Nat} (hi : i * 4 + 4 ≤ bytes) :
    fileTensor (array.store 0 bytes fun k => m (offset + k)) 0 i = fileTensor m offset i := by
  unfold fileTensor element
  congr 1
  apply ByteMem.load_eq
  intro k hk
  rw [ByteMem.store_inside _ _ (by omega)]
  congr 1
  omega

section Loop

variable (dev : CoralDevice D) (entry polls : Nat) {file : List UInt8}
  (stack : Nat → ByteMem × ByteMem)

theorem quietly_yields (p : Prog (Process D) HostEvent α) {ok : ParserEvent → Prop} :
    (quietly p).Yields ok fun _ => True :=
  fun _ _ => ⟨fun _ he => absurd he List.not_mem_nil, fun _ _ => trivial⟩

theorem submitRecord_yields {index : Nat}
    (hIndex : index < (modelHeader (fileBytes file)).commandCount)
    (hBase : recordBase file index + modelCommandSize ≤ file.length)
    (hValid : (modelCommand (fileBytes file) (recordBase file index)).valid file.length = true) :
    (submitRecord dev entry polls file stack index (recordBase file index)
      ((modelCommand (fileBytes file) (recordBase file index)).elementCount * 4 % 2 ^ 32)).Yields
        (ParserEvent.Inside file) fun _ => True := by
  have hSized := ModelCommand.sized hValid
  rw [hSized.bytes]
  generalize hb : recordBase file index = base at *
  unfold modelCommandSize at hBase
  have hRead : ∀ offset, offset + 4 ≤ 32 → ParserEvent.Inside file (.read (base + offset) 4) := by
    intro offset hOffset
    simp only [ParserEvent.Inside]
    omega
  refine (Fetches.readWord (hRead 8 (by decide))).yields_bind ?_
  refine (Fetches.copyTensor ⟨hSized.inside0, hSized.array⟩).yields_bind ?_
  refine (Fetches.readWord (hRead 12 (by decide))).yields_bind ?_
  refine (Fetches.copyTensor ⟨hSized.inside1, hSized.array⟩).yields_bind ?_
  refine (Fetches.readWord (hRead 0 (by decide))).yields_bind ?_
  refine (Fetches.readWord (hRead 4 (by decide))).yields_bind ?_
  refine (Fetches.readWord (hRead 16 (by decide))).yields_bind ?_
  refine (Prog.Yields.emit ⟨hIndex, ?_, ?_⟩).bind fun _ _ => quietly_yields _
  · rw [hb]
    exact hBase
  · rw [hb]
    exact ⟨rfl, rfl, rfl, fun i hi => fileTensor_copied _ _ (by omega),
      fun i hi => fileTensor_copied _ _ (by omega), hSized.inside0, hSized.inside1⟩

theorem parseCommands_yields (hHeader : headerValid file = true) (before : CoralInfo)
    {left index : Nat} (hLeft : left + index = (modelHeader (fileBytes file)).commandCount)
    (result : ModelResult) :
    (parseCommands dev entry polls file stack before
      (modelHeader (fileBytes file)).commandOffset left index result).Yields
        (ParserEvent.Inside file) fun _ => True := by
  have hLength : ParserEvent.Inside file (.read 16 4) := by
    have hSize := headerLength_of_valid hHeader
    unfold modelHeaderSize at hSize
    simp only [ParserEvent.Inside]
    omega
  -- The loop runs over the records that are left.
  induction left generalizing index result with
  | zero => exact (Fetches.readWord hLength).yields_bind (quietly_yields _)
  | succ left ih =>
    have hIndex : index < (modelHeader (fileBytes file)).commandCount := by omega
    have hBase := records_inside hHeader hIndex
    have hCount : ParserEvent.Inside file (.read (recordBase file index + 4) 4) := by
      unfold modelCommandSize at hBase
      simp only [ParserEvent.Inside]
      omega
    refine (Fetches.readWord hLength).yields_bind ?_
    refine (Fetches.readWord hCount).yields_bind ?_
    refine (commandChecks_fetch hBase).yields_bind ?_
    cases hValid : (modelCommand (fileBytes file) (recordBase file index)).valid file.length with
    | false => exact quietly_yields _
    | true =>
      refine (submitRecord_yields dev entry polls stack hIndex hBase hValid).bind fun r _ => ?_
      refine .ite (fun _ => .pure trivial) fun _ => ?_
      exact ih (by omega) _

/-- The parser reads only the file, copies only what fits the arrays, and submits the
commands that the records describe. -/
theorem parser_inside (file : List UInt8) (h : Process D) :
    ∀ e ∈ (parseModelFile dev entry polls file stack h).trace, e.Inside file := by
  suffices hYields : (parseModelFile dev entry polls file stack).Yields (ParserEvent.Inside file)
      fun _ => True from fun e he => hYields.events he
  refine .ite (fun _ => quietly_yields _) fun _ => .ite (fun _ => quietly_yields _)
    fun hLength => ?_
  have hSize : modelHeaderSize ≤ file.length := Nat.le_of_not_lt hLength
  have hRead : ∀ offset, offset + 4 ≤ 32 → ParserEvent.Inside file (.read offset 4) := by
    intro offset hOffset
    unfold modelHeaderSize at hSize
    exact Nat.le_trans hOffset hSize
  refine (Fetches.readWord (hRead 16 (by decide))).yields_bind ?_
  refine (headerChecks_fetch hSize).yields_bind ?_
  cases hHeader : headerValid file with
  | false => exact quietly_yields _
  | true =>
    refine (Fetches.readWord (hRead 16 (by decide))).yields_bind ?_
    refine (quietly_yields _).bind fun before _ => ?_
    refine (Fetches.readWord (hRead 20 (by decide))).yields_bind ?_
    exact parseCommands_yields dev entry polls stack hHeader before (Nat.add_zero _) _

end Loop

def ParserEvent.copied : ParserEvent → Option (Nat × Nat)
  | .copy offset bytes => some (offset, bytes)
  | _ => none

def ParserEvent.submitted : ParserEvent → Option Nat
  | .submit index _ => some index
  | _ => none

/-- Both commands copy the word at the end of the file twice and are submitted. -/
theorem parser_inside_twoCommands :
    let trace := (parseModelFile firmwareDevice 0 1 (twoCommands 1)
      (fun _ => (fun _ => 0, fun _ => 0)) ⟨(), fun _ => 0, 0⟩).trace
    trace.filterMap ParserEvent.copied = List.replicate 4 (96, 4) ∧
      trace.filterMap ParserEvent.submitted = [0, 1] ∧
      ∀ e ∈ trace, e.Inside (twoCommands 1) :=
  ⟨by decide +kernel, by decide +kernel, parser_inside firmwareDevice 0 1 _ _ _⟩

/-! ## The parser of the runtime -/

theorem fillTensors_congr {a b a' b' : Nat → UInt32} {n : Nat} (ha : ∀ i < n, a i = a' i)
    (hb : ∀ i < n, b i = b' i) (m : ByteMem) : fillTensors a b m n = fillTensors a' b' m n := by
  induction n with
  | zero => rfl
  | succ n ih =>
    rw [fillTensors, fillTensors, ih (fun i hi => ha i (by omega)) (fun i hi => hb i (by omega)),
      ha n (by omega), hb n (by omega)]

theorem checkOutput_congr {a b a' b' : Nat → UInt32} {n : Nat} (ha : ∀ i < n, a i = a' i)
    (hb : ∀ i < n, b i = b' i) (m : ByteMem) (valid : Bool) :
    checkOutput a b m valid n = checkOutput a' b' m valid n := by
  induction n with
  | zero => rfl
  | succ n ih =>
    rw [checkOutput, checkOutput, ih (fun i hi => ha i (by omega)) (fun i hi => hb i (by omega)),
      ha n (by omega), hb n (by omega)]

/-- A submission uses only the words that its count announces. -/
theorem submitVectorAdd_congr (dev : CoralDevice D) (entry opcode : Nat)
    {a b a' b' : Nat → UInt32} {n : Nat} (ha : ∀ i < n, a i = a' i) (hb : ∀ i < n, b i = b' i)
    (expected polls : Nat) :
    submitVectorAdd dev entry opcode a b n expected polls =
      submitVectorAdd dev entry opcode a' b' n expected polls := by
  have hWindow : fillWindow opcode a b n = fillWindow opcode a' b' n := by
    funext m
    rw [fillWindow, fillWindow, fillTensors_congr ha hb]
  unfold submitVectorAdd
  simp only [hWindow, checkOutput_congr ha hb]

theorem quietly_lockstep (p : Prog (Process D) HostEvent α) (h : Process D) :
    (quietly p).Lockstep Eq h p h :=
  ⟨rfl, rfl⟩

theorem Fetches.lockstep_bind {ok : ParserEvent → Prop} {p : Parser D α} {v : α}
    {f : α → Parser D β} {q : Prog (Process D) HostEvent β} {h : Process D} (hp : Fetches ok p v)
    (hf : (f v).Lockstep Eq h q h) : (p >>= f).Lockstep Eq h q h := by
  obtain ⟨t, hRun, _⟩ := hp h
  rw [Prog.Lockstep, Prog.bind_returned (by rw [hRun]), hRun]
  exact hf

section Agreement

variable (dev : CoralDevice D) (entry polls : Nat) {file : List UInt8}
  (stack : Nat → ByteMem × ByteMem)

theorem submitRecord_lockstep {index base : Nat} {c : ModelCommand}
    (hc : c = modelCommand (fileBytes file) base) (hSized : c.Sized file.length) (h : Process D) :
    (submitRecord dev entry polls file stack index base (c.elementCount * 4 % 2 ^ 32)).Lockstep Eq h
      (submitVectorAdd dev entry c.opcode (fileTensor (fileBytes file) c.input0Offset)
        (fileTensor (fileBytes file) c.input1Offset) c.elementCount c.expectedChecksum polls)
          h := by
  have hRead : ∀ offset, Fetches (fun _ => True) (readWord file offset : Parser D Nat) _ :=
    fun offset => Fetches.readWord trivial
  have hCopy : ∀ array offset bytes,
      Fetches (fun _ => True) (copyTensor file array offset bytes : Parser D ByteMem) _ :=
    fun array offset bytes => Fetches.copyTensor trivial
  rw [hSized.bytes]
  subst hc
  refine (hRead _).lockstep_bind ((hCopy _ _ _).lockstep_bind ((hRead _).lockstep_bind
    ((hCopy _ _ _).lockstep_bind ((hRead _).lockstep_bind ((hRead _).lockstep_bind
      ((hRead _).lockstep_bind ?_))))))
  have hWords : ∀ (array : ByteMem) offset i, i <
      (modelCommand (fileBytes file) base).elementCount →
      fileTensor (array.store 0 ((modelCommand (fileBytes file) base).elementCount * 4) fun k =>
        fileBytes file (offset + k)) 0 i = fileTensor (fileBytes file) offset i :=
    fun array offset i hi => fileTensor_copied array (fileBytes file) (by omega)
  rw [← submitVectorAdd_congr dev entry _ (hWords (stack index).1 _) (hWords (stack index).2 _)]
  exact ⟨rfl, rfl⟩

theorem parseCommands_lockstep (hHeader : headerValid file = true) (before : CoralInfo)
    {left index : Nat} (hLeft : left + index = (modelHeader (fileBytes file)).commandCount)
    (result : ModelResult) (h : Process D) :
    (parseCommands dev entry polls file stack before
      (modelHeader (fileBytes file)).commandOffset left index result).Lockstep Eq h
        (runCommands dev entry polls file before
          ((List.range' index left).map fun i => modelCommand (fileBytes file) (recordBase file i))
          result) h := by
  have hCount : Fetches (fun _ => True) (readWord file 16 : Parser D Nat) _ :=
    Fetches.readWord trivial
  induction left generalizing index result h with
  | zero => exact hCount.lockstep_bind (quietly_lockstep _ h)
  | succ left ih =>
    have hBase := @records_inside _ hHeader index (by omega)
    refine hCount.lockstep_bind ((@Fetches.readWord _ (fun _ => True) _ _ trivial).lockstep_bind
      ((commandChecks_fetch hBase).lockstep_bind ?_))
    rw [List.range'_succ, List.map_cons, runCommands]
    cases hValid : (modelCommand (fileBytes file) (recordBase file index)).valid file.length with
    | false => exact quietly_lockstep _ h
    | true =>
      refine (submitRecord_lockstep dev entry polls stack rfl (ModelCommand.sized hValid) h).bind ?_
      rintro ⟨code, r⟩ h' _ rfl
      exact .ite Iff.rfl (.pure _ rfl) (ih (by omega) _ h')

/-- Without its events the parser is the one of the runtime. -/
theorem parser_lockstep (file : List UInt8) (h : Process D) :
    (parseModelFile dev entry polls file stack).Lockstep Eq h
      (runModelFile dev entry polls (.ok file)) h := by
  unfold parseModelFile runModelFile
  dsimp only
  split
  · exact quietly_lockstep _ h
  split
  · rename_i hShort
    have hInvalid : headerValid file = false := by
      by_contra hValid
      exact absurd (headerLength_of_valid (Bool.of_not_eq_false hValid)) (Nat.not_le.2 hShort)
    rw [if_pos hInvalid]
    exact quietly_lockstep _ h
  · rename_i hLong
    refine (@Fetches.readWord _ (fun _ => True) _ _ trivial).lockstep_bind
      ((headerChecks_fetch (Nat.le_of_not_lt hLong)).lockstep_bind ?_)
    cases hHeader : headerValid file with
    | false => exact quietly_lockstep _ h
    | true =>
      refine (@Fetches.readWord _ (fun _ => True) _ _ trivial).lockstep_bind ?_
      refine (quietly_lockstep _ h).bind ?_
      rintro before h' _ rfl
      refine (@Fetches.readWord _ (fun _ => True) _ _ trivial).lockstep_bind ?_
      have hLoop := parseCommands_lockstep dev entry polls stack hHeader before (Nat.add_zero _)
        { commandCount := (modelHeader (fileBytes file)).commandCount } h'
      rw [← List.range_eq_range'] at hLoop
      have hCommands : (modelCommands file).length =
          (modelHeader (fileBytes file)).commandCount := by
        simp [modelCommands]
      rw [hCommands]
      exact hLoop

end Agreement

end OpenNpux.Host
