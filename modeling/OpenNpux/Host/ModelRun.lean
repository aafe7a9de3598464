import Mathlib.Data.List.TakeWhile
import OpenNpux.Host.ModelFile

/-!
# What a model file computes

The host submits the commands of a model file one after another, and the firmware adds.
On a device that executes the firmware, a run completes the commands before the first one
that the host refuses or whose checksum is not the sum of its tensors; the result counts
these commands, adds their sums and the cycles of the MAC, and the device has been
started once for each of them, and once more for a wrong checksum. If all commands pass,
what the run returns depends on how the transfer counters of the device have moved.
-/

namespace OpenNpux.Host

open Lib Firmware Bridge

/-- The sum of the two tensors of a command. -/
def ModelCommand.sum (file : List UInt8) (c : ModelCommand) : Nat :=
  sumChecksum (fileTensor (fileBytes file) c.input0Offset)
    (fileTensor (fileBytes file) c.input1Offset) c.elementCount

def ModelCommand.cycles (c : ModelCommand) : Nat := busyCycles c.opcode c.elementCount

def ModelCommand.accepted (file : List UInt8) (c : ModelCommand) : Bool :=
  c.valid file.length && submissionValid c.opcode c.elementCount

def ModelCommand.passes (file : List UInt8) (c : ModelCommand) : Bool :=
  c.accepted file && c.expectedChecksum == c.sum file

def ModelResult.add (file : List UInt8) (result : ModelResult) (c : ModelCommand) : ModelResult :=
  { result with
    completedCommands := result.completedCommands + 1
    outputChecksum := (result.outputChecksum + c.sum file) % 2 ^ 32
    acceleratorCycles := (result.acceleratorCycles + c.cycles) % 2 ^ 32 }

def submissions (count : Nat) : List HostEvent :=
  (List.replicate count [.windowWritten, .submitted]).flatten

/-- The device answers every call, its window can be opened, `GET_INFO` reads its counters,
and a run executes the firmware on a window that the host has filled. -/
structure Serves {D : Type} (dev : CoralDevice D) (entry polls : Nat) (counters : D → CoralInfo)
    (I : D → Prop) : Prop where
  register : ∀ r d, I d → ∃ value, (dev.readReg r d).1 = some value ∧
    (r = .sharedSize → windowSize ≤ value) ∧ I (dev.readReg r d).2
  mmap : ∀ d, I d → dev.mmap d = none
  info : ∀ d, I d → (dev.getInfo d).1 = some (counters d)
  info_keeps : ∀ d, I d → I (dev.getInfo d).2 ∧ counters (dev.getInfo d).2 = counters d
  run : ∀ d (opcode : CommandOpcode) a b n m, I d → 1 ≤ n → n ≤ tensorMaxElements →
    I (dev.run entry polls d (fillWindow opcode.code a b n m)).device ∧ ∃ wait fuel mac,
      tensorMaxElements < fuel ∧ mac.Idle ∧
        RunsFirmware dev entry polls wait fuel mac d (fillWindow opcode.code a b n m)

section Submit

variable {D : Type} {dev : CoralDevice D} {entry polls : Nat} {counters : D → CoralInfo}
  {I : D → Prop}

theorem Serves.registerCall (hServes : Serves dev entry polls counters I) (r : Register)
    {h : Process D}
    (hDevice : I h.device) : ∃ value d, I d ∧ (r = .sharedSize → windowSize ≤ value) ∧
      call (dev.readReg r) h = ⟨some value, { h with device := d }, []⟩ := by
  obtain ⟨value, hValue, hWindow, hAfter⟩ := hServes.register r h.device hDevice
  refine ⟨value, _, hAfter, hWindow, ?_⟩
  rw [call_apply, hValue]

theorem Serves.infoCall (hServes : Serves dev entry polls counters I) {h : Process D}
    (hDevice : I h.device) : ∃ d, I d ∧ counters d = counters h.device ∧
      call dev.getInfo h = ⟨some (counters h.device), { h with device := d }, []⟩ := by
  obtain ⟨hAfter, hCounters⟩ := hServes.info_keeps h.device hDevice
  refine ⟨_, hAfter, hCounters, ?_⟩
  rw [call_apply, hServes.info h.device hDevice]

theorem Serves.opens (hServes : Serves dev entry polls counters I) {n : Nat}
    (hn : n ≤ tensorMaxElements) {h : Process D} (hDevice : I h.device) : ∃ d, I d ∧
      openSharedWindow dev (outputOffset + n * 4) h = ⟨some true, { h with device := d }, []⟩ := by
  obtain ⟨base, d, hBase, -, hReadBase⟩ := hServes.registerCall .sharedBase hDevice
  obtain ⟨size, d', hSize, hWindow, hReadSize⟩ :=
    hServes.registerCall .sharedSize (h := { h with device := d }) hBase
  have hFits : ¬size < outputOffset + n * 4 := by
    have hMax : n ≤ 256 := hn
    have hEnd : 4096 ≤ size := hWindow rfl
    simp only [outputOffset]
    omega
  refine ⟨d', hSize, ?_⟩
  unfold openSharedWindow
  rw [Prog.bind_silent hReadBase, Prog.bind_silent hReadSize, if_neg hFits, Prog.get_bind]
  dsimp only
  rw [hServes.mmap d' hSize]
  rfl

theorem Serves.submits (hServes : Serves dev entry polls counters I) (opcode : CommandOpcode)
    (a b : Nat → UInt32) {n : Nat} (hPos : 1 ≤ n) (hn : n ≤ tensorMaxElements) (expected : Nat)
    {h : Process D} (hDevice : I h.device) : ∃ result h', I h'.device ∧
      submitVectorAdd dev entry opcode.code a b n expected polls h =
        ⟨some (if expected = sumChecksum a b n then 0 else -1, result), h', submissions 1⟩ ∧
      result.checksum = sumChecksum a b n ∧
      result.acceleratorCycles = busyCycles opcode.code n ∧
      (expected ≠ sumChecksum a b n → h'.errno = eio) := by
  obtain ⟨d, hOpen, hOpened⟩ := hServes.opens hn hDevice
  obtain ⟨hKept, wait, fuel, mac, hFuel, hIdle, hRun⟩ :=
    hServes.run d opcode a b n h.window hOpen hPos hn
  obtain ⟨-, hSum⟩ := hRun.vectorSum hn hFuel hIdle
  refine ⟨_, _, ?_, submitVectorAdd_apply expected hPos hn hOpened rfl hRun.code hRun.halted hSum,
    rfl, hSum.acceleratorCycles, fun hWrong => if_neg hWrong⟩
  exact hKept

end Submit

/-! ## The loop over the commands -/

theorem exists_opcode {opcode n : Nat} (h : submissionValid opcode n = true) :
    ∃ op : CommandOpcode, opcode = op.code ∧ 1 ≤ n ∧ n ≤ tensorMaxElements := by
  simp only [submissionValid, Bool.not_eq_true', Bool.or_eq_false_iff, beq_eq_false_iff_ne,
    decide_eq_false_iff_not, Bool.and_eq_false_iff, bne_eq_false_iff_eq] at h
  obtain ⟨⟨hPos, hMax⟩, hOpcode⟩ := h
  refine ⟨if opcode = CommandOpcode.vectorAddU32.code then .vectorAddU32 else .vectorAddCustomU32,
    ?_, Nat.pos_of_ne_zero hPos, Nat.not_lt.1 hMax⟩
  split
  · assumption
  · rcases hOpcode with hOpcode | hOpcode
    · exact absurd hOpcode ‹_›
    · exact hOpcode

/-- The counters moved as the host expects: at least one transfer, all of them completed. -/
def Transferred (before after : CoralInfo) : Prop :=
  after.dmaRequests ≠ before.dmaRequests ∧
    after.dmaRequests - before.dmaRequests = after.dmaCompletions - before.dmaCompletions ∧
    after.dmaErrors = before.dmaErrors

structure ModelResult.Counts (file : List UInt8) (done : List ModelCommand)
    (start result : ModelResult) : Prop where
  commandCount : result.commandCount = start.commandCount
  completedCommands : result.completedCommands = start.completedCommands + done.length
  outputChecksum : result.outputChecksum % 2 ^ 32 =
    (start.outputChecksum + (done.map (ModelCommand.sum file)).sum) % 2 ^ 32
  acceleratorCycles : result.acceleratorCycles % 2 ^ 32 =
    (start.acceleratorCycles + (done.map ModelCommand.cycles).sum) % 2 ^ 32

theorem ModelResult.counts_nil {file : List UInt8} {start result : ModelResult}
    (hCommands : result.commandCount = start.commandCount)
    (hCompleted : result.completedCommands = start.completedCommands)
    (hChecksum : result.outputChecksum = start.outputChecksum)
    (hCycles : result.acceleratorCycles = start.acceleratorCycles) : Counts file [] start result :=
  ⟨hCommands, hCompleted, by simp [hChecksum], by simp [hCycles]⟩

theorem ModelResult.Counts.cons {file : List UInt8} {done : List ModelCommand}
    {start result : ModelResult} {c : ModelCommand}
    (h : Counts file done (start.add file c) result) :
    Counts file (c :: done) start result := by
  obtain ⟨hCommands, hCompleted, hChecksum, hCycles⟩ := h
  refine ⟨hCommands, ?_, ?_, ?_⟩
  · rw [hCompleted, ModelResult.add, List.length_cons]
    dsimp only
    omega
  · rw [hChecksum, ModelResult.add, List.map_cons, List.sum_cons]
    dsimp only
    omega
  · rw [hCycles, ModelResult.add, List.map_cons, List.sum_cons]
    dsimp only
    omega

/-- How the loop ends on a device whose counters were `before` at the start of the run and are
`after` at its end: behind the last command, or at one that the host refuses or whose checksum
is wrong. -/
structure LoopEnds (file : List UInt8) (cs : List ModelCommand) (start : ModelResult)
    (before after : CoralInfo) (code : Int) (result : ModelResult) (errno : Nat) : Prop where
  counts : ModelResult.Counts file (cs.takeWhile (ModelCommand.passes file)) start result
  behind : cs.dropWhile (ModelCommand.passes file) = [] →
    result.dmaRequests = after.dmaRequests - before.dmaRequests ∧
      result.dmaCompletions = after.dmaCompletions - before.dmaCompletions ∧
      result.dmaErrors = after.dmaErrors - before.dmaErrors ∧
      (Transferred before after ∧ code = 0 ∨ ¬Transferred before after ∧ code = -1 ∧ errno = eio)
  at_failing : ∀ c, (cs.dropWhile (ModelCommand.passes file)).head? = some c →
    code = -1 ∧ errno = if c.accepted file then eio else einval

def startedRuns (file : List UInt8) (cs : List ModelCommand) : Nat :=
  (cs.takeWhile (ModelCommand.passes file)).length +
    ((cs.dropWhile (ModelCommand.passes file)).take 1).countP (ModelCommand.accepted file)

section Loop

variable {D : Type} {dev : CoralDevice D} {entry polls : Nat} {counters : D → CoralInfo}
  {I : D → Prop} {file : List UInt8} {c : ModelCommand} {cs : List ModelCommand}
  {start result : ModelResult} {before after : CoralInfo} {code : Int} {errno : Nat}

theorem startedRuns_passing (h : c.passes file = true) :
    startedRuns file (c :: cs) = 1 + startedRuns file cs := by
  rw [startedRuns, startedRuns, List.takeWhile_cons_of_pos h, List.dropWhile_cons_of_pos h,
    List.length_cons]
  omega

theorem startedRuns_failing (h : c.passes file = false) :
    startedRuns file (c :: cs) = if c.accepted file then 1 else 0 := by
  have hNot : ¬c.passes file = true := by simp [h]
  rw [startedRuns, List.takeWhile_cons_of_neg hNot, List.dropWhile_cons_of_neg hNot,
    List.take_succ_cons, List.take_zero, List.countP_singleton, List.length_nil, Nat.zero_add]

theorem LoopEnds.cons (hPasses : c.passes file = true)
    (h : LoopEnds file cs (start.add file c) before after code result errno) :
    LoopEnds file (c :: cs) start before after code result errno := by
  constructor
  · rw [List.takeWhile_cons_of_pos hPasses]
    exact h.counts.cons
  · rw [List.dropWhile_cons_of_pos hPasses]
    exact h.behind
  · rw [List.dropWhile_cons_of_pos hPasses]
    exact h.at_failing

theorem loopEnds_failing (hFails : c.passes file = false)
    (hErrno : errno = if c.accepted file then eio else einval) :
    LoopEnds file (c :: cs) start before after (-1) start errno := by
  have hNot : ¬c.passes file = true := by simp [hFails]
  constructor
  · rw [List.takeWhile_cons_of_neg hNot]
    exact ModelResult.counts_nil rfl rfl rfl rfl
  · rw [List.dropWhile_cons_of_neg hNot]
    intro hNone
    cases hNone
  · rw [List.dropWhile_cons_of_neg hNot]
    intro c' hFirst
    cases hFirst
    exact ⟨rfl, hErrno⟩

theorem transferred_iff (before after : CoralInfo) :
    Transferred before after ↔ ¬(after.dmaRequests - before.dmaRequests = 0 ∨
      after.dmaRequests - before.dmaRequests ≠ after.dmaCompletions - before.dmaCompletions ∨
        after.dmaErrors - before.dmaErrors ≠ 0) := by
  simp only [Transferred, not_or, not_not, ne_eq, UInt32.sub_eq_iff_eq_add,
    UInt32.zero_add]

theorem Serves.finishes (hServes : Serves dev entry polls counters I) (before : CoralInfo)
    (start : ModelResult) {h : Process D} (hDevice : I h.device) : ∃ code result h',
      finishModel dev before start h = ⟨some (code, result), h', submissions 0⟩ ∧
        LoopEnds file [] start before (counters h'.device) code result h'.errno := by
  obtain ⟨d, -, hCounters, hInfo⟩ := hServes.infoCall hDevice
  unfold finishModel
  rw [Prog.bind_silent hInfo, ← hCounters]
  dsimp only
  split
  case isTrue hFailed =>
    refine ⟨_, _, _, rfl, ModelResult.counts_nil rfl rfl rfl rfl, fun _ => ⟨rfl, rfl, rfl, .inr ?_⟩,
      fun c hFirst => by cases hFirst⟩
    exact ⟨fun hMoved => (transferred_iff _ _).1 hMoved hFailed, rfl, rfl⟩
  case isFalse hPassed =>
    exact ⟨_, _, _, rfl, ModelResult.counts_nil rfl rfl rfl rfl, fun _ => ⟨rfl, rfl, rfl,
      .inl ⟨(transferred_iff _ _).2 hPassed, rfl⟩⟩, fun c hFirst => by cases hFirst⟩

/-- By induction on the commands: one that passes is followed by the rest of the loop. -/
theorem Serves.runs_commands (hServes : Serves dev entry polls counters I) (before : CoralInfo)
    (start : ModelResult) {h : Process D} (hDevice : I h.device) : ∃ code result h',
      runCommands dev entry polls file before cs start h =
        ⟨some (code, result), h', submissions (startedRuns file cs)⟩ ∧
      LoopEnds file cs start before (counters h'.device) code result h'.errno := by
  induction cs generalizing start h with
  | nil => exact hServes.finishes before start hDevice
  | cons c cs ih =>
    rw [runCommands]
    cases hAccepted : c.accepted file with
    | false =>
      have hFails : c.passes file = false := by rw [ModelCommand.passes, hAccepted]; rfl
      rw [startedRuns_failing hFails, hAccepted]
      cases hValid : c.valid file.length with
      | false =>
        rw [if_pos rfl]
        exact ⟨_, _, _, rfl, loopEnds_failing hFails (by rw [hAccepted]; rfl)⟩
      | true =>
        have hUnknown : submissionValid c.opcode c.elementCount = false := by
          rw [ModelCommand.accepted, hValid] at hAccepted
          exact hAccepted
        rw [if_neg (by decide)]
        unfold submitVectorAdd
        rw [if_pos hUnknown]
        exact ⟨_, _, _, rfl, loopEnds_failing hFails (by rw [hAccepted]; rfl)⟩
    | true =>
      obtain ⟨hValid, hSubmission⟩ := Bool.and_eq_true_iff.1 hAccepted
      obtain ⟨op, hOpcode, hPos, hMax⟩ := exists_opcode hSubmission
      obtain ⟨r, h', hDevice', hSubmit, hChecksum, hCycles, hErrno⟩ := hServes.submits op
        (fileTensor (fileBytes file) c.input0Offset)
          (fileTensor (fileBytes file) c.input1Offset) hPos
        hMax c.expectedChecksum hDevice
      have hSum : sumChecksum (fileTensor (fileBytes file) c.input0Offset)
          (fileTensor (fileBytes file) c.input1Offset) c.elementCount = c.sum file := rfl
      rw [hSum] at hSubmit hChecksum hErrno
      rw [if_neg (by simp [hValid]), hOpcode, Prog.bind_of_apply hSubmit]
      dsimp only
      by_cases hExpected : c.expectedChecksum = c.sum file
      · have hPasses : c.passes file = true := by simp [ModelCommand.passes, hAccepted, hExpected]
        have hAdded : { start with
            completedCommands := start.completedCommands + 1
            outputChecksum := (start.outputChecksum + r.checksum) % 2 ^ 32
            acceleratorCycles := (start.acceleratorCycles + r.acceleratorCycles) % 2 ^ 32 } =
            start.add file c := by
          rw [ModelResult.add, ModelCommand.cycles, hOpcode, hChecksum, hCycles]
        obtain ⟨code, result, h'', hRest, hEnds⟩ := ih (start.add file c) hDevice'
        refine ⟨code, result, h'', ?_, hEnds.cons hPasses⟩
        rw [if_neg (by simpa using hExpected), hAdded, hRest, startedRuns_passing hPasses,
          submissions, submissions, submissions, List.replicate_add, List.flatten_append]
      · have hFails : c.passes file = false := by simp [ModelCommand.passes, hExpected]
        rw [if_pos (by rw [if_neg hExpected]; decide), startedRuns_failing hFails, hAccepted]
        exact ⟨_, _, _, rfl, loopEnds_failing hFails (by rw [hAccepted]; exact hErrno hExpected)⟩

end Loop

/-- The run of a model file on a device that executes the firmware: the commands before the
first one that does not pass are completed, and the result and the starts of the device are
theirs. -/
theorem model_file_computes {D : Type} {dev : CoralDevice D} {entry polls : Nat}
    {counters : D → CoralInfo} {I : D → Prop} (hServes : Serves dev entry polls counters I)
    (file : List UInt8) (hLength : file.length < 2 ^ 32) (hHeader : headerValid file = true)
    (h : Process D) (hDevice : I h.device) :
    ∃ code result h',
      runModelFile dev entry polls (.ok file) h =
        ⟨some (code, result), h', submissions (startedRuns file (modelCommands file))⟩ ∧
      LoopEnds file (modelCommands file) { commandCount := (modelCommands file).length }
        (counters h.device) (counters h'.device) code result h'.errno := by
  obtain ⟨d, hReady, -, hInfo⟩ := hServes.infoCall hDevice
  obtain ⟨code, result, h', hRun, hEnds⟩ := hServes.runs_commands (counters h.device)
    { commandCount := (modelCommands file).length } (h := { h with device := d }) hReady
  refine ⟨code, result, h', ?_, hEnds⟩
  unfold runModelFile
  dsimp only
  rw [if_neg (Nat.not_le.2 hLength), if_neg (by simp [hHeader]), Prog.bind_silent hInfo]
  exact hRun

/-! ## The sample file -/

/-- Words as `struct.pack` writes them, the lowest byte first. -/
def packWords (words : List Nat) : List UInt8 :=
  words.flatMap fun word => (List.range 4).map (ByteMem.bytesOf word)

def sampleElements : Nat := 16

/-- The file that the script for sample models writes: both commands add the same tensors. -/
def sampleModel : List UInt8 :=
  let input0 := (List.range sampleElements).map (· + 1)
  let input1 := input0.map (· * 2)
  let expectedChecksum := (List.zipWith (· + ·) input0 input1).sum
  let commandCount := 2
  let tensorOffset := modelHeaderSize + commandCount * modelCommandSize
  let input1Offset := tensorOffset + sampleElements * 4
  let fileSize := input1Offset + sampleElements * 4
  packWords <|
    [modelMagic, modelVersion, modelHeaderSize, fileSize, commandCount, modelHeaderSize, 0, 0] ++
    [CommandOpcode.vectorAddU32, .vectorAddCustomU32].flatMap (fun opcode =>
      [opcode.code, sampleElements, tensorOffset, input1Offset, expectedChecksum, 0, 0, 0]) ++
    input0 ++ input1

/-- A device that executes the firmware and counts its runs as transfers. -/
def countingDevice : CoralDevice UInt32 where
  readReg _ d := (some windowSize, d)
  getInfo d := (some ⟨d, d, 0⟩, d)
  mmap _ := none
  run _ _ d m := ⟨0, 0, 1, d + 1, (main (fun _ => 0) 257 { memory := m }).state.memory⟩

theorem countingDevice_runs (d : UInt32) (m : ByteMem) :
    RunsFirmware countingDevice 0 1 (fun _ => 0) 257 {} d m :=
  ⟨rfl, rfl, rfl⟩

theorem countingDevice_serves :
    Serves countingDevice 0 1 (fun d => ⟨d, d, 0⟩) fun _ => True where
  register _ _ _ := ⟨windowSize, rfl, fun _ => le_rfl, trivial⟩
  mmap _ _ := rfl
  info _ _ := rfl
  info_keeps _ _ := ⟨trivial, rfl⟩
  run d _ _ _ _ _ _ _ _ :=
    ⟨trivial, fun _ => 0, 257, {}, by decide, ⟨rfl, rfl⟩, countingDevice_runs d _⟩

theorem model_file_computes_sampleModel : ∃ result h',
    runModelFile countingDevice 0 1 (.ok sampleModel) ⟨0, fun _ => 0, 0⟩ =
        ⟨some (0, result), h', submissions 2⟩ ∧
      result.completedCommands = 2 ∧ result.outputChecksum % 2 ^ 32 = 816 ∧
      result.acceleratorCycles % 2 ^ 32 = 48 ∧ result.dmaRequests = 2 := by
  have hPasses : ∀ c ∈ modelCommands sampleModel, c.passes sampleModel = true := by
    refine List.all_eq_true.1 ?_
    decide +kernel
  have hSums : ((modelCommands sampleModel).map (ModelCommand.sum sampleModel)).sum = 816 := by
    decide +kernel
  have hCycles : ((modelCommands sampleModel).map ModelCommand.cycles).sum = 48 := by decide +kernel
  have hDevice : (runModelFile countingDevice 0 1 (.ok sampleModel)
      ⟨0, fun _ => 0, 0⟩).state.device = 2 := by decide +kernel
  obtain ⟨code, result, h', hRun, hEnds⟩ := model_file_computes countingDevice_serves sampleModel
    (by decide +kernel) (by decide +kernel) ⟨0, fun _ => 0, 0⟩ trivial
  have hAll := List.takeWhile_eq_self_iff.2 hPasses
  have hNone := List.dropWhile_eq_nil_iff.2 hPasses
  have hCounts := hEnds.counts
  obtain ⟨hRequests, -, -, hCode⟩ := hEnds.behind hNone
  rw [hRun] at hDevice
  dsimp only at hDevice hRequests hCode
  rw [hDevice] at hRequests hCode
  rw [hAll] at hCounts
  obtain rfl : code = 0 := by
    rcases hCode with ⟨-, hZero⟩ | ⟨hNot, -⟩
    · exact hZero
    · exact absurd ⟨by decide, rfl, rfl⟩ hNot
  refine ⟨result, h', ?_, hCounts.completedCommands.trans (by decide +kernel), ?_, ?_, hRequests⟩
  · rw [hRun, startedRuns, hAll, hNone]
    rfl
  · rw [hCounts.outputChecksum, hSums]
    rfl
  · rw [hCounts.acceleratorCycles, hCycles]
    rfl

end OpenNpux.Host
