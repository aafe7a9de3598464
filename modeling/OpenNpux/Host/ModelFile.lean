import OpenNpux.Host.VectorAdd

/-!
# What a model file dispatches

The header of a model file is checked before anything else, but each command is checked
only when its turn comes. So a file whose first command is well formed is dispatched up
to its first malformed command: the checks of all commands come before the first
submission exactly if no file of that kind is given.
-/

namespace OpenNpux.Host

open Lib Firmware

/-- Every command of the file passes the checks of the loop. -/
def allValid (file : List UInt8) : Bool := (modelCommands file).all (·.valid file.length)

/-- The window is not written and no command is submitted, and what returns fails with
`EINVAL`. -/
structure Refused {D : Type} (p : Prog (Process D) HostEvent (Int × ModelResult)) (h : Process D) :
    Prop where
  trace : (p h).trace = []
  window : (p h).state.window = h.window
  code : ∀ r, (p h).result = some r → r.1 = -1 ∧ (p h).state.errno = einval

/-- A submission only for a file whose commands are all valid; any other is refused. -/
structure ValidatedFirst {D : Type} (dev : CoralDevice D) (entry polls : Nat) (file : List UInt8)
    (h : Process D) : Prop where
  submits : .submitted ∈ (runModelFile dev entry polls (.ok file) h).trace → allValid file = true
  refuses : allValid file = false → Refused (runModelFile dev entry polls (.ok file)) h

/-- The first command is dispatched although a later one is malformed. -/
def dispatchedEarly (file : List UInt8) : Bool :=
  decide (file.length < 2 ^ 32) && headerValid file &&
    match modelCommands file with
    | [] => false
    | c :: cs => c.valid file.length && submissionValid c.opcode c.elementCount &&
        !cs.all (·.valid file.length)

section Refusals

variable {D : Type} {h : Process D}

theorem refused_fail (result : ModelResult) : Refused (fail einval result) h :=
  ⟨rfl, rfl, fun r hr => by cases hr; exact ⟨rfl, rfl⟩⟩

theorem Refused.validated {dev : CoralDevice D} {entry polls : Nat} {file : List UInt8}
    (hRefused : Refused (runModelFile dev entry polls (.ok file)) h) :
    ValidatedFirst dev entry polls file h := by
  constructor
  · intro hSubmitted
    rw [hRefused.trace] at hSubmitted
    cases hSubmitted
  · exact fun _ => hRefused

theorem validated_of_allValid {dev : CoralDevice D} {entry polls : Nat} {file : List UInt8}
    (hValid : allValid file = true) : ValidatedFirst dev entry polls file h := by
  refine ⟨fun _ => hValid, fun hInvalid => ?_⟩
  rw [hValid] at hInvalid
  cases hInvalid

variable (dev : CoralDevice D) (entry polls : Nat) {file : List UInt8} (before : CoralInfo)
  {c : ModelCommand} (cs : List ModelCommand) (result : ModelResult)

theorem refused_invalid (hInvalid : c.valid file.length = false) :
    Refused (runCommands dev entry polls file before (c :: cs) result) h := by
  rw [runCommands, if_pos hInvalid]
  exact refused_fail result

theorem refused_unsupported (hValid : c.valid file.length = true)
    (hOpcode : submissionValid c.opcode c.elementCount = false) :
    Refused (runCommands dev entry polls file before (c :: cs) result) h := by
  rw [runCommands, if_neg (by simp [hValid])]
  unfold submitVectorAdd
  rw [if_pos hOpcode]
  exact ⟨rfl, rfl, fun r hr => by cases hr; exact ⟨rfl, rfl⟩⟩

theorem refused_afterInfo {p : CoralInfo → Prog (Process D) HostEvent (Int × ModelResult)}
    (hp : ∀ info h', Refused (p info) h') : Refused (call dev.getInfo >>= p) h := by
  cases hInfo : (dev.getInfo h.device).1 with
  | none =>
    have hExit : (call dev.getInfo h).result = none := hInfo
    constructor <;> rw [Prog.bind_rejected hExit]
    · rfl
    · rfl
    · exact nofun
  | some info =>
    have hReturned : (call dev.getInfo h).result = some info := hInfo
    obtain ⟨hTrace, hWindow, hCode⟩ := hp info (call dev.getInfo h).state
    constructor <;> rw [Prog.bind_returned hReturned]
    · rw [hTrace]
      rfl
    · exact hWindow
    · exact hCode

end Refusals

theorem validated_of_not_dispatchedEarly {file : List UInt8} (hEarly : dispatchedEarly file = false)
    {D : Type} (dev : CoralDevice D) (entry polls : Nat) (h : Process D) :
    ValidatedFirst dev entry polls file h := by
  cases hValid : allValid file with
  | true => exact validated_of_allValid hValid
  | false =>
    apply Refused.validated
    unfold runModelFile
    dsimp only
    split
    · exact refused_fail {}
    split
    · exact refused_fail {}
    apply refused_afterInfo
    intro info h'
    have hLength : file.length < 2 ^ 32 := by omega
    have hHeader : headerValid file = true := by simpa using ‹¬headerValid file = false›
    rw [dispatchedEarly, hHeader, decide_eq_true hLength] at hEarly
    rw [allValid] at hValid
    cases hCommands : modelCommands file with
    | nil =>
      rw [hCommands] at hValid
      cases hValid
    | cons c cs =>
      rw [hCommands] at hEarly hValid
      cases hFirst : c.valid file.length with
      | false => exact refused_invalid dev entry polls info cs _ hFirst
      | true =>
        have hRest : cs.all (·.valid file.length) = false := by simpa [hFirst] using hValid
        have hOpcode : submissionValid c.opcode c.elementCount = false := by
          simpa [hFirst, hRest] using hEarly
        exact refused_unsupported dev entry polls info cs _ hFirst hOpcode

/-- A device whose window can be opened and whose runs fail. -/
def idleDevice : CoralDevice Unit where
  readReg _ _ := (some windowSize, ())
  getInfo _ := (some ⟨0, 0, 0⟩, ())
  mmap _ := none
  run _ _ _ m := ⟨-1, eio, 0, (), m⟩

theorem idleDevice_opens {size : Nat} (h : size ≤ windowSize) (s : Process Unit) :
    (openSharedWindow idleDevice size s).result = some true := by
  show ((if windowSize < size then pure false else pure true : Prog (Process Unit) HostEvent Bool)
    s).result = some true
  rw [if_neg (Nat.not_lt.mpr h)]
  rfl

theorem idleDevice_submits {opcode elementCount : Nat}
    (hValid : submissionValid opcode elementCount = true) (input0 input1 : Nat → UInt32)
    (expected : Nat) :
    Prog.Reaches .submitted
      (submitVectorAdd idleDevice 0 opcode input0 input1 elementCount expected 1) := by
  have hCount : elementCount ≤ tensorMaxElements := by
    simp only [submissionValid, Bool.not_eq_true', Bool.or_eq_false_iff,
      decide_eq_false_iff_not] at hValid
    exact Nat.not_lt.mp hValid.1.2
  have hFits : outputOffset + elementCount * 4 ≤ windowSize := by
    have hMax : elementCount ≤ 256 := hCount
    simp only [windowSize, outputOffset]
    omega
  intro s
  unfold submitVectorAdd
  rw [if_neg (by simp [hValid]), Prog.bind_trace (idleDevice_opens hFits s), if_neg (by decide)]
  apply List.mem_append_right
  have hRun : Prog.Reaches .submitted (coralRun idleDevice 0 1) := (Prog.Reaches.emit _).bind_left _
  have hWrite : Prog.Total (writeWindow (D := Unit)
      (fillWindow opcode input0 input1 elementCount)) :=
    fun _ => rfl
  exact Prog.Reaches.bind_right hWrite (fun _ => hRun.bind_left _) _

theorem idleDevice_submits_early {file : List UInt8} (hEarly : dispatchedEarly file = true)
    (s : Process Unit) : .submitted ∈ (runModelFile idleDevice 0 1 (.ok file) s).trace ∧
      allValid file = false := by
  simp only [dispatchedEarly, Bool.and_eq_true, decide_eq_true_eq] at hEarly
  obtain ⟨⟨hLength, hHeader⟩, hEarly⟩ := hEarly
  unfold runModelFile allValid
  dsimp only
  rw [if_neg (by omega), if_neg (by simp [hHeader])]
  cases hCommands : modelCommands file with
  | nil =>
    rw [hCommands] at hEarly
    cases hEarly
  | cons c cs =>
    rw [hCommands] at hEarly
    simp only [Bool.and_eq_true, Bool.not_eq_true'] at hEarly
    obtain ⟨⟨hFirst, hOpcode⟩, hRest⟩ := hEarly
    refine ⟨?_, by simp [hFirst, hRest]⟩
    have hLoop : Prog.Reaches .submitted (runCommands idleDevice 0 1 file ⟨0, 0, 0⟩ (c :: cs)
        { commandCount := (c :: cs).length }) := by
      rw [runCommands, if_neg (by simp [hFirst])]
      exact (idleDevice_submits hOpcode _ _ _).bind_left _
    exact hLoop s

/-- Every device finds a file's commands validated before the first of them is submitted,
exactly if no well-formed first command comes before a malformed one. -/
theorem validatedFirst_iff (file : List UInt8) :
    (∀ (D : Type) (dev : CoralDevice D) (entry polls : Nat) (h : Process D),
      ValidatedFirst dev entry polls file h) ↔ dispatchedEarly file = false := by
  constructor
  · intro hValidated
    by_contra hEarly
    obtain ⟨hSubmitted, hInvalid⟩ :=
      idleDevice_submits_early (by simpa using hEarly) ⟨(), fun _ => 0, 0⟩
    rw [(hValidated Unit idleDevice 0 1 ⟨(), fun _ => 0, 0⟩).submits hSubmitted] at hInvalid
    cases hInvalid
  · exact fun hEarly D dev entry polls h =>
      validated_of_not_dispatchedEarly hEarly dev entry polls h

/-- A file of two commands for the one element at its end; the second has this count. -/
def twoCommands (count : Nat) : List UInt8 :=
  (List.range 100).map <| ByteMem.ofWords 0
    [modelMagic, modelVersion, modelHeaderSize, 100, 2, 32, 0,
    0, 1, 1, 96, 96, 14, 0, 0, 0, 1, count, 96, 96, 14, 0, 0, 0, 7]

theorem malformed_command_after_dispatch :
    allValid (twoCommands 0) = false ∧
      .submitted ∈ (runModelFile idleDevice 0 1 (.ok (twoCommands 0))
        ⟨(), fun _ => 0, 0⟩).trace := by
  have hEarly : dispatchedEarly (twoCommands 0) = true := by decide +kernel
  obtain ⟨hSubmitted, hInvalid⟩ := idleDevice_submits_early hEarly ⟨(), fun _ => 0, 0⟩
  exact ⟨hInvalid, hSubmitted⟩

end OpenNpux.Host
