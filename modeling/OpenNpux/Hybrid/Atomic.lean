import OpenNpux.Hybrid.ConvFrame

/-!
# Dispatch is atomic

Each int8 kernel checks everything before its first store: a rejected one leaves memory as
it was, and one that returns has stored only to its output tensor and to the statistics of
the descriptor. So with the descriptor apart from the tensors a dispatch ends with a
complete or a failed descriptor, and a failed one has changed nothing else.
-/

namespace OpenNpux.Hybrid

open Lib

/-! ## What the kernels leave alone -/

/-- Everything but one tensor and the statistics of the descriptor. -/
def besideRun (base dp : Nat) (t : OperatorTensor) (i : Nat) : Prop :=
  besideTensor base t i ∧ (i < dp + 224 ∨ dp + 264 ≤ i)

theorem AgreeOn.mono {S S' : Nat → Prop} {m m' : ByteMem} (h : AgreeOn S m m')
    (hLess : ∀ i, S' i → S i) : AgreeOn S' m m' :=
  fun i hi => h i (hLess i hi)

theorem Leaves.mono {S S' : Nat → Prop} {α : Type} {p : Kernel α} (h : Leaves S p)
    (hLess : ∀ i, S' i → S i) : Leaves S' p :=
  fun m => (h m).mono hLess

section Leaves

variable {S : Nat → Prop}

theorem leaves_requireBytes (d : OperatorDescriptor) (i elementSize : Nat) :
    Leaves S (requireBytes d i elementSize) :=
  .bind (.bind (leaves_elementCount _) fun _ => .bind (leaves_divide _ _) fun _ => .pure _)
    fun _ => .require _

theorem leaves_dotProduct (dp base : Nat) (d : OperatorDescriptor) (depth row : Nat)
    (rhs : Nat → Nat) (initial : Int) : Leaves S (dotProduct dp base d depth row rhs initial) :=
  .loop fun _ _ _ => .bind (leaves_centeredProduct dp _ _) fun _ => .pure _

theorem leaves_matMulChecks (d : OperatorDescriptor) : Leaves S (matMulChecks d) :=
  .bind (.require _) fun _ => .bind (leaves_requireBytes _ _ _) fun _ =>
    .bind (leaves_requireBytes _ _ _) fun _ => .bind (leaves_requireBytes _ _ _) fun _ => .require _

theorem leaves_fullyConnectedChecks (d : OperatorDescriptor) : Leaves S (fullyConnectedChecks d) :=
  .bind (.require _) fun _ => .bind (leaves_requireBytes _ _ _) fun _ =>
    .bind (leaves_requireBytes _ _ _) fun _ => .bind (leaves_requireBytes _ _ _) fun _ =>
    .bind (.ite (.bind (.require _) fun _ => leaves_requireBytes _ _ _) (.pure _))
      fun _ => .require _

theorem leaves_addChecks (d : OperatorDescriptor) : Leaves S (addChecks d) :=
  .bind (.require _) fun _ => .bind (leaves_requireBytes _ _ _) fun _ =>
    .bind (leaves_requireBytes _ _ _) fun _ => .bind (leaves_requireBytes _ _ _) fun _ => .require _

theorem leaves_storeActivated {dp base : Nat} {d : OperatorDescriptor} {output index : Nat}
    (accumulator : Int) (hIndex : index < (d.tensors output).size) :
    Leaves (besideTensor base (d.tensors output))
      (storeActivated dp base d output index accumulator) := by
  refine .bind (leaves_descriptorAt dp) fun _ => leaves_storeI8 _ ?_
  unfold besideTensor
  omega

theorem leaves_finishRun (dp operations elapsed output : Nat) (bytesRead : OperatorDescriptor → Nat)
    (hBeside : ∀ i, S i → i < dp + 224 ∨ dp + 264 ≤ i) :
    Leaves S (finishRun dp operations elapsed output bytesRead) := by
  have hField : ∀ offset value, 224 ≤ offset → offset ≤ 256 →
      Leaves S (setField dp offset 8 value) := by
    intro offset value hLow hHigh
    refine leaves_setField fun i hi => ?_
    have := hBeside i hi
    omega
  exact .bind (hField _ _ (by decide) (by decide)) fun _ => .bind (leaves_descriptorAt dp) fun _ =>
    .bind (hField _ _ (by decide) (by decide)) fun _ =>
    .bind (hField _ _ (by decide) (by decide)) fun _ => hField _ _ (by decide) (by decide)

end Leaves

/-! ## What never rejects -/

theorem total_setField (dp offset bytes value : Nat) : (setField dp offset bytes value).Total :=
  Prog.Total.modify _

theorem total_finishRun (dp operations elapsed output : Nat)
    (bytesRead : OperatorDescriptor → Nat) :
    (finishRun dp operations elapsed output bytesRead).Total :=
  (total_setField _ _ _ _).bind fun _ => (total_descriptorAt dp).bind fun _ =>
    (total_setField _ _ _ _).bind fun _ => (total_setField _ _ _ _).bind fun _ =>
      total_setField _ _ _ _

theorem total_dotProduct (dp base : Nat) (d : OperatorDescriptor) (depth row : Nat)
    (rhs : Nat → Nat) (initial : Int) : (dotProduct dp base d depth row rhs initial).Total :=
  .loop fun _ _ _ => (centeredProduct_total dp _ _).bind fun _ => .pure _

theorem total_storeActivated (dp base : Nat) (d : OperatorDescriptor) (output index : Nat)
    (accumulator : Int) : (storeActivated dp base d output index accumulator).Total :=
  (total_descriptorAt dp).bind fun _ => total_storeI8 _ _ _

theorem total_initialAccumulator (base : Nat) (d : OperatorDescriptor) (out : Nat) :
    (initialAccumulator base d out).Total :=
  .ite (total_loadI32 _ _) (.pure _)

theorem total_forEachOutput {d : OperatorDescriptor} {body : Nat → Nat → Nat → Nat → Kernel Unit}
    (h : ∀ batch outY outX outC, (body batch outY outX outC).Total) :
    (forEachOutput d body).Total :=
  .loop fun _ _ _ => .loop fun _ _ _ => .loop fun _ _ _ => .loop fun _ _ _ => h _ _ _ _

theorem total_conv2DLoops (dp base : Nat) (d : OperatorDescriptor) :
    (conv2DLoops dp base d).Total :=
  total_forEachOutput fun _ _ _ _ => convPixel_total dp base d
    (fun _ _ _ _ _ => .loop fun _ _ _ => (centeredProduct_total dp _ _).bind fun _ =>
      .pure _) _ _ _ _

theorem total_depthwiseLoops (dp base : Nat) (d : OperatorDescriptor) (depthMultiplier : Nat) :
    (depthwiseLoops dp base d depthMultiplier).Total :=
  total_forEachOutput fun _ _ _ _ => (total_divide _ _).bind fun _ => convPixel_total dp base d
    (fun _ _ _ _ _ => (centeredProduct_total dp _ _).bind fun _ => .pure _) _ _ _ _

/-! ## Checks before stores -/

/-- The program is rejected with the memory as it was, or it returns, leaves `S` alone and
has established `Q`. -/
def Settles (S : Nat → Prop) (Q : Prop) (p : Kernel Unit) (m : ByteMem) : Prop :=
  (p m).result = none ∧ (p m).state = m ∨ (p m).result = some () ∧ AgreeOn S m (p m).state ∧ Q

section Settles

variable {S : Nat → Prop} {Q : Prop}

theorem Settles.of_total {p : Kernel Unit} (hTotal : p.Total) (h : Leaves S p) (hQ : Q)
    (m : ByteMem) : Settles S Q p m := by
  obtain ⟨⟨⟩, hResult⟩ := Option.isSome_iff_exists.1 (hTotal m)
  exact .inr ⟨hResult, h m, hQ⟩

theorem Settles.checked {α : Type} {checks : Kernel α} {rest : α → Kernel Unit}
    {ok : Access → Prop} {post : α → Prop} (hReads : Leaves (fun _ => True) checks)
    (hPost : checks.Yields ok post) (hRest : ∀ a, post a → ∀ m, Settles S Q (rest a) m)
    (m : ByteMem) : Settles S Q (checks >>= rest) m := by
  have hState : (checks m).state = m := funext fun i => hReads m i trivial
  cases hResult : (checks m).result with
  | none =>
    rw [Settles, Prog.bind_rejected hResult]
    exact .inl ⟨rfl, hState⟩
  | some a =>
    rw [Settles, Prog.bind_returned hResult, hState]
    exact hRest a (hPost.returned hResult) m

/-- The loops of a kernel and its statistics. -/
theorem Settles.loops {base dp operations elapsed output : Nat} {t : OperatorTensor}
    {bytesRead : OperatorDescriptor → Nat} {loops : Kernel Unit} (hTotal : loops.Total)
    (h : Leaves (besideTensor base t) loops) (hQ : Q) (m : ByteMem) :
    Settles (besideRun base dp t) Q
      (loops >>= fun _ => finishRun dp operations elapsed output bytesRead) m :=
  .of_total (hTotal.bind fun _ => total_finishRun _ _ _ _ _)
    (.bind (h.mono fun _ hi => hi.1) fun _ => leaves_finishRun _ _ _ _ _ fun _ hi => hi.2) hQ m

end Settles

section Kernels

variable {d : OperatorDescriptor} {base capacity : Nat} (hInside : DeclaredInside d base capacity)
  (dp elapsed : Nat)
include hInside

theorem settles_conv2D (m : ByteMem) :
    Settles (besideRun base dp (d.tensors 3)) (3 < d.tensorCount)
      (conv2DFrom dp base elapsed d) m := by
  refine Settles.checked (.bind (leaves_commonConvValid _ _) fun _ => leaves_checkShifts _ _)
    (conv2DChecks_yields hInside) (fun _ hShape m => ?_) m
  exact .loops (total_conv2DLoops dp base d) (leaves_conv2DLoops dp (hInside.words 3) hShape)
    (by rw [hShape.tensorCount]; decide) m

theorem settles_depthwise (m : ByteMem) :
    Settles (besideRun base dp (d.tensors 3)) (3 < d.tensorCount)
      (depthwiseFrom dp base elapsed d) m := by
  refine Settles.checked (.bind (leaves_commonConvValid _ _) fun _ => .bind (leaves_divide _ _)
    fun _ => .bind (leaves_checkShifts _ _) fun _ => .pure _) (depthwiseChecks_yields hInside)
    (fun depthMultiplier h m => ?_) m
  exact .loops (total_depthwiseLoops dp base d depthMultiplier)
    (leaves_depthwiseLoops dp (hInside.words 3) h.1 depthMultiplier)
    (by rw [h.1.tensorCount]; decide) m

theorem settles_matMul (m : ByteMem) :
    Settles (besideRun base dp (d.tensors 2)) (2 < d.tensorCount)
      (matMulFrom dp base elapsed d) m := by
  refine Settles.checked (leaves_matMulChecks d) (@matMulChecks_yields d base capacity)
    (fun _ h m => ?_) m
  obtain ⟨hCount, -, -, hOutput, -⟩ := h
  refine .loops (.loop fun _ _ _ => .loop fun _ _ _ => (total_dotProduct _ _ _ _ _ _ _).bind
    fun _ => total_storeActivated _ _ _ _ _ _) ?_ (by rw [hCount]; decide) m
  refine .loop fun row hRow _ => .loop fun col hCol _ =>
    .bind (leaves_dotProduct _ _ _ _ _ _ _) fun accumulator => ?_
  exact leaves_storeActivated accumulator (u32_index_lt (hInside.words 2) hOutput hRow hCol)

theorem settles_fullyConnected (m : ByteMem) :
    Settles (besideRun base dp (d.tensors (d.tensorCount - 1)))
      (d.tensorCount - 1 < d.tensorCount) (fullyConnectedFrom dp base elapsed d) m := by
  refine Settles.checked (leaves_fullyConnectedChecks d)
    (@fullyConnectedChecks_yields d base capacity) (fun _ h m => ?_) m
  obtain ⟨hCount, -, -, hOutput, -⟩ := h
  refine .loops (.loop fun _ _ _ => .loop fun _ _ _ => (total_initialAccumulator _ _ _).bind
    fun _ => (total_dotProduct _ _ _ _ _ _ _).bind fun _ => total_storeActivated _ _ _ _ _ _) ?_
    (by omega) m
  refine .loop fun batch hBatch _ => .loop fun out hOut _ =>
    .bind (.ite (leaves_loadI32 _ _) (.pure _)) fun bias =>
    .bind (leaves_dotProduct _ _ _ _ _ _ _) fun accumulator => ?_
  exact leaves_storeActivated accumulator (u32_index_lt (hInside.words _) hOutput hBatch hOut)

omit hInside in
theorem settles_add (m : ByteMem) :
    Settles (besideRun base dp (d.tensors 2)) (2 < d.tensorCount)
      (addFrom dp base elapsed d) m := by
  refine Settles.checked (leaves_addChecks d) (@addChecks_yields d base 0)
    (fun _ h m => ?_) m
  obtain ⟨hCount, hSizes⟩ := h
  refine Settles.checked (leaves_elementCount _) (@elementCount_yields (fun _ => True)
    (fun _ _ => trivial) _) (fun count hCounted m => ?_) m
  refine .loops (.loop fun _ _ _ => (total_loadI8 _ _).bind fun _ => (total_loadI8 _ _).bind
    fun _ => (total_descriptorAt dp).bind fun _ => total_storeActivated _ _ _ _ _ _) ?_
    (by rw [hCount]; decide) m
  refine .loop fun i hi _ => .bind (leaves_loadI8 _ _) fun _ => .bind (leaves_loadI8 _ _) fun _ =>
    .bind (leaves_descriptorAt dp) fun _ => leaves_storeActivated _ ?_
  rwa [hSizes 2 (by omega) count (by omega) (hCounted (by omega))]

end Kernels

/-! ## Dispatch -/

/-- The tensor to which an int8 kernel stores. -/
def outputTensor (d : OperatorDescriptor) : OperatorOpcode → Nat
  | .matMulInt8 | .addInt8 => 2
  | .fullyConnectedInt8 => d.tensorCount - 1
  | .conv2DInt8 | .depthwiseConv2DInt8 | .partialMobilenet | .softmax | .layerNorm => 3

/-- The opcodes without a floating-point kernel, the unknown ones included. -/
def integerOpcode (opcode : Option OperatorOpcode) : Prop :=
  opcode ≠ some .softmax ∧ opcode ≠ some .layerNorm

instance (opcode : Option OperatorOpcode) : Decidable (integerOpcode opcode) :=
  inferInstanceAs (Decidable (_ ∧ _))

section Dispatch

variable {F : Type} (ops : FloatOps F) {m : ByteMem} {dp base capacity : Nat} (elapsed : Nat)

/-- What a kernel returns, and what it has changed. -/
inductive KernelEnds (base dp : Nat) (opcode : Option OperatorOpcode) (m : ByteMem) :
    Option Bool → ByteMem → Prop
  | rejected : KernelEnds base dp opcode m (some false) m
  | unsupported : KernelEnds base dp opcode m (some false)
      (m.storeWord (dp + 20) 4 OperatorError.unsupported.code)
  | finished {o : OperatorOpcode} {m' : ByteMem} (hOpcode : opcode = some o)
      (hDeclared : outputTensor (.read m dp) o < (OperatorDescriptor.read m dp).tensorCount)
      (hBeside : AgreeOn (besideRun base dp ((OperatorDescriptor.read m dp).tensors
        (outputTensor (.read m dp) o))) m m') :
      KernelEnds base dp opcode m (some true) m'

theorem Settles.fromDescriptor {S : Nat → Prop} {Q : Prop} {f : OperatorDescriptor → Kernel Unit}
    (h : Settles S Q (f (.read m dp)) m) :
    Settles S Q (do f (← descriptorAt dp)) m := by
  rw [Settles, descriptorAt_bind]
  exact h

theorem Settles.ends {o : OperatorOpcode} {p : Kernel Unit} {t : Nat}
    (ht : t = outputTensor (.read m dp) o)
    (h : Settles (besideRun base dp ((OperatorDescriptor.read m dp).tensors t))
      (t < (OperatorDescriptor.read m dp).tensorCount) p m) :
    KernelEnds base dp (some o) m (p.attempt m).result (p.attempt m).state := by
  subst ht
  rcases h with ⟨hResult, hState⟩ | ⟨hResult, hBeside, hDeclared⟩
  · rw [Prog.attempt, hResult, hState]
    exact .rejected
  · rw [Prog.attempt, hResult]
    exact .finished rfl hDeclared hBeside

theorem runKernel_ends (hInside : DeclaredInside (.read m dp) base capacity)
    {opcode : Option OperatorOpcode} (hOpcode : integerOpcode opcode) :
    KernelEnds base dp opcode m (runKernel ops dp base elapsed opcode m).result
      (runKernel ops dp base elapsed opcode m).state := by
  rcases opcode with _ | opcode
  · exact .unsupported
  · cases opcode with
    | partialMobilenet => exact .unsupported
    | conv2DInt8 => exact (Settles.fromDescriptor (settles_conv2D hInside dp elapsed m)).ends rfl
    | depthwiseConv2DInt8 =>
      exact (Settles.fromDescriptor (settles_depthwise hInside dp elapsed m)).ends rfl
    | matMulInt8 => exact (Settles.fromDescriptor (settles_matMul hInside dp elapsed m)).ends rfl
    | fullyConnectedInt8 =>
      exact (Settles.fromDescriptor (settles_fullyConnected hInside dp elapsed m)).ends rfl
    | addInt8 => exact (Settles.fromDescriptor (settles_add dp elapsed m)).ends rfl
    | softmax => exact absurd rfl hOpcode.1
    | layerNorm => exact absurd rfl hOpcode.2

/-- A word stored somewhere else, or in this place. -/
theorem load_field_store (m : ByteMem) {a b n value : Nat} (h : a + 4 ≤ b ∨ b + n ≤ a) :
    (m.storeWord b n value).load a 4 = m.load a 4 := by
  rw [ByteMem.storeWord, ByteMem.load_store_disjoint _ _ (by omega)]

theorem agree_storeWord {S : Nat → Prop} (m : ByteMem) {a n : Nat} (value : Nat)
    (h : ∀ i, S i → i < a ∨ a + n ≤ i) : AgreeOn S m (m.storeWord a n value) := by
  intro i hi
  have := h i hi
  exact ByteMem.store_outside _ _ (by omega)

/-- The last fields that a dispatch stores. -/
structure Concluded (dp : Nat) (success : Bool) (m m' : ByteMem) : Prop where
  state : m'.load (dp + 16) 4 =
    if success then OperatorState.complete.code else OperatorState.error.code
  kept : success = true → m'.load (dp + 20) 4 = m.load (dp + 20) 4
  named : success = false → m'.load (dp + 20) 4 ≠ OperatorError.none.code
  beside : AgreeOn (fun i => (i < dp + 16 ∨ dp + 24 ≤ i) ∧ (i < dp + 240 ∨ dp + 248 ≤ i)) m m'

theorem concludeRun_concluded (dp : Nat) (success : Bool) (m : ByteMem) :
    Concluded dp success m (concludeRun dp success m).state := by
  cases success with
  | true =>
    rw [concludeRun_true]
    constructor
    · rw [ByteMem.load_storeWord]
      rfl
    · intro _
      rw [load_field_store _ (by omega)]
      split
      · rw [load_field_store _ (by omega)]
      · rfl
    · exact nofun
    · refine IsTrans.trans _ _ _ ?_ (agree_storeWord _ _ fun i hi => by omega)
      split
      · exact agree_storeWord _ _ fun i hi => by omega
      · exact refl m
  | false =>
    rw [concludeRun_false]
    constructor
    · rw [ByteMem.load_storeWord]
      rfl
    · exact nofun
    · intro _
      rw [load_field_store _ (by omega)]
      split
      · rw [ByteMem.load_storeWord]
        decide
      · assumption
    · refine IsTrans.trans _ _ _ ?_ (agree_storeWord _ _ fun i hi => by omega)
      split
      · exact agree_storeWord _ _ fun i hi => by omega
      · exact refl m

/-- The descriptor is apart from the tensors that it declares. -/
def DescriptorApart (base dp : Nat) (d : OperatorDescriptor) : Prop :=
  ∀ i < operatorMaxTensors, i < d.tensorCount →
    (d.tensors i).address + (d.tensors i).size ≤ base + dp ∨
      base + dp + descriptorBytes ≤ (d.tensors i).address

instance (base dp : Nat) (d : OperatorDescriptor) : Decidable (DescriptorApart base dp d) :=
  inferInstanceAs (Decidable (∀ i < operatorMaxTensors, _))

/-- How a dispatch that returns `success` has left the memory. -/
structure Ends (base dp : Nat) (m : ByteMem) (success : Bool) (m' : ByteMem) : Prop where
  state : m'.load (dp + 16) 4 =
    if success then OperatorState.complete.code else OperatorState.error.code
  error : m'.load (dp + 20) 4 = OperatorError.none.code ↔ success = true
  failed : success = false → ∀ i, i < dp ∨ dp + descriptorBytes ≤ i → m' i = m i
  stored : success = true → ∃ o, OperatorOpcode.ofCode (OperatorDescriptor.read m dp).opcode =
    some o ∧ ∀ i, i < dp ∨ dp + descriptorBytes ≤ i → m' i ≠ m i →
      ((OperatorDescriptor.read m dp).tensors (outputTensor (.read m dp) o)).address ≤ base + i ∧
        base + i < ((OperatorDescriptor.read m dp).tensors (outputTensor (.read m dp) o)).address +
          ((OperatorDescriptor.read m dp).tensors (outputTensor (.read m dp) o)).size

theorem started_error (dp : Nat) (m : ByteMem) :
    (started dp m).load (dp + 20) 4 = OperatorError.none.code := by
  have hState : started dp m = ((((((m.storeWord (dp + 16) 4 2).storeWord (dp + 20) 4 0).storeWord
      (dp + 232) 8 0).storeWord (dp + 240) 8 0).storeWord (dp + 248) 8 0).storeWord
        (dp + 256) 8 0) := rfl
  rw [hState, load_field_store _ (by omega), load_field_store _ (by omega),
    load_field_store _ (by omega), load_field_store _ (by omega), ByteMem.load_storeWord]
  rfl

theorem Ends.of_failure {m' m'' : ByteMem} (hConcluded : Concluded dp false m' m'')
    (hSame : ∀ i, i < dp ∨ dp + descriptorBytes ≤ i → m' i = m i) : Ends base dp m false m'' where
  state := hConcluded.state
  error := iff_of_false (hConcluded.named rfl) Bool.false_ne_true
  failed _ i hi := by
    unfold descriptorBytes at hi hSame
    exact (hConcluded.beside i (by omega)).trans (hSame i hi)
  stored := nofun

/-- The output tensor that the started descriptor names is the one that was declared. -/
theorem started_output (hSame : SameRanges (.read m dp) (.read (started dp m) dp))
    {o : OperatorOpcode}
    (hDeclared : outputTensor (.read (started dp m) dp) o <
      (OperatorDescriptor.read (started dp m) dp).tensorCount) :
    outputTensor (.read (started dp m) dp) o = outputTensor (.read m dp) o ∧
      outputTensor (.read m dp) o < (OperatorDescriptor.read m dp).tensorCount := by
  have hIndex : outputTensor (.read (started dp m) dp) o = outputTensor (.read m dp) o := by
    cases o <;> simp only [outputTensor, hSame.tensorCount]
  exact ⟨hIndex, by rwa [hIndex, hSame.tensorCount] at hDeclared⟩

theorem Ends.of_success (hInside : DeclaredInside (.read m dp) base capacity)
    (hSame : SameRanges (.read m dp) (.read (started dp m) dp))
    (hApart : DescriptorApart base dp (.read m dp)) {o : OperatorOpcode}
    (hOpcode : OperatorOpcode.ofCode (OperatorDescriptor.read m dp).opcode = some o)
    (hCount : outputTensor (.read m dp) o < operatorMaxTensors)
    (hDeclared : outputTensor (.read m dp) o < (OperatorDescriptor.read m dp).tensorCount)
    {m' m'' : ByteMem}
    (hBeside : AgreeOn (besideRun base dp ((OperatorDescriptor.read (started dp m) dp).tensors
      (outputTensor (.read m dp) o))) (started dp m) m')
    (hConcluded : Concluded dp true m' m'') : Ends base dp m true m'' := by
  have hRange := hInside.tensors _ hDeclared
  have hPlace := hApart _ hCount hDeclared
  obtain ⟨hAddress, hSize⟩ := hSame.tensors _ hDeclared
  have hStart : tensorData base ((OperatorDescriptor.read (started dp m) dp).tensors
      (outputTensor (.read m dp) o)) =
        ((OperatorDescriptor.read m dp).tensors (outputTensor (.read m dp) o)).address - base := by
    rw [tensorData, hAddress]
    exact tensorData_eq (hInside.words _).address hRange.above
  unfold besideRun besideTensor at hBeside
  rw [hStart, hSize] at hBeside
  have hAbove := hRange.above
  unfold descriptorBytes at hPlace
  refine ⟨hConcluded.state, iff_of_true ?_ rfl, fun hFailed =>
    absurd hFailed.symm Bool.false_ne_true, fun _ => ⟨o, hOpcode, ?_⟩⟩
  · rw [hConcluded.kept rfl, hBeside.load fun i hi => by omega]
    exact started_error dp m
  · intro i hi hChanged
    unfold descriptorBytes at hi
    by_contra hOutside
    apply hChanged
    rw [hConcluded.beside i (by omega), hBeside i (by omega),
      started_byte dp m (by omega) (by omega)]

theorem dispatch_invalid_state
    (hInvalid : validateGem5HybridDescriptor (.read m dp) base capacity ≠ .none) :
    ∃ error : OperatorError, error ≠ .none ∧
      (dispatchGem5HybridOperator ops dp base capacity elapsed m).state =
        (m.storeWord (dp + 16) 4 OperatorState.error.code).storeWord (dp + 20) 4 error.code := by
  refine ⟨_, hInvalid, ?_⟩
  rw [dispatchGem5HybridOperator, descriptorAt_bind]
  cases hError : validateGem5HybridDescriptor (.read m dp) base capacity with
  | none => exact absurd hError hInvalid
  | badDescriptor | unsupported | execution | address => rfl

theorem OperatorError.code_ne_zero {error : OperatorError} (h : error ≠ .none) :
    error.code % 256 ^ 4 ≠ OperatorError.none.code := by
  cases error with
  | none => exact absurd rfl h
  | badDescriptor | unsupported | execution | address => decide

theorem dispatch_ends (hApart : DescriptorApart base dp (.read m dp))
    (hOpcode : integerOpcode (OperatorOpcode.ofCode (OperatorDescriptor.read m dp).opcode)) :
    ∃ success, (dispatchGem5HybridOperator ops dp base capacity elapsed m).result = some success ∧
      Ends base dp m success (dispatchGem5HybridOperator ops dp base capacity elapsed m).state := by
  by_cases hValid : validateGem5HybridDescriptor (.read m dp) base capacity = .none
  · obtain ⟨hSame, hInside⟩ := started_declaredInside hValid
    have hCode : (OperatorDescriptor.read (started dp m) dp).opcode =
        (OperatorDescriptor.read m dp).opcode := started_load dp m (by omega) (by omega)
    have hKernel := runKernel_ends ops elapsed hInside (hCode ▸ hOpcode)
    obtain ⟨success, hSuccess⟩ := Option.isSome_iff_exists.mp
      (runKernel_total ops dp base elapsed (OperatorOpcode.ofCode
        (OperatorDescriptor.read (started dp m) dp).opcode) (started dp m))
    obtain ⟨hResult, hState⟩ := dispatch_valid ops elapsed hValid rfl hSuccess
    refine ⟨success, hResult, ?_⟩
    rw [hState]
    rw [hSuccess] at hKernel
    have hConcluded := concludeRun_concluded dp success (runKernel ops dp base elapsed
      (OperatorOpcode.ofCode (OperatorDescriptor.read (started dp m) dp).opcode)
        (started dp m)).state
    generalize (runKernel ops dp base elapsed (OperatorOpcode.ofCode
      (OperatorDescriptor.read (started dp m) dp).opcode) (started dp m)).state = m' at *
    have hStart : ∀ i, i < dp ∨ dp + descriptorBytes ≤ i → started dp m i = m i := by
      intro i hi
      unfold descriptorBytes at hi
      exact started_byte dp m (by omega) (by omega)
    cases hKernel with
    | rejected => exact .of_failure hConcluded hStart
    | unsupported =>
      refine .of_failure hConcluded fun i hi => ?_
      rw [ByteMem.storeWord, ByteMem.store_outside _ _ (by unfold descriptorBytes at hi; omega)]
      exact hStart i hi
    | finished hNamed hDeclared hBeside =>
      obtain ⟨hIndex, hDeclared⟩ := started_output hSame hDeclared
      rw [hIndex] at hBeside
      exact .of_success (declaredInside_of_validate hValid) hSame hApart (hCode ▸ hNamed)
        (Nat.lt_of_lt_of_le hDeclared (tensorCount_le_of_validate hValid)) hDeclared
          hBeside hConcluded
  · obtain ⟨error, hError, hState⟩ := dispatch_invalid_state ops elapsed hValid
    refine ⟨false, dispatch_invalid ops elapsed hValid, ?_⟩
    rw [hState]
    refine ⟨?_, iff_of_false ?_ Bool.false_ne_true, fun _ i hi => ?_,
      fun hSuccess => absurd hSuccess Bool.false_ne_true⟩
    · rw [load_field_store _ (by omega), ByteMem.load_storeWord]
      rfl
    · rw [ByteMem.load_storeWord]
      exact OperatorError.code_ne_zero hError
    · unfold descriptorBytes at hi
      rw [ByteMem.storeWord, ByteMem.store_outside _ _ (by omega), ByteMem.storeWord,
        ByteMem.store_outside _ _ (by omega)]

/-- The returned value, the state and error left in the descriptor, and the memory that has
changed all say the same. -/
theorem dispatch_atomic (hApart : DescriptorApart base dp (.read m dp))
    (hOpcode : integerOpcode (OperatorOpcode.ofCode (OperatorDescriptor.read m dp).opcode)) :
    ∃ success m',
      dispatchGem5HybridOperator ops dp base capacity elapsed m = ⟨some success, m',
        (dispatchGem5HybridOperator ops dp base capacity elapsed m).trace⟩ ∧
      (success = true ↔ m'.load (dp + 16) 4 = OperatorState.complete.code ∧
        m'.load (dp + 20) 4 = OperatorError.none.code) ∧
      (success = false ↔ m'.load (dp + 16) 4 = OperatorState.error.code ∧
        m'.load (dp + 20) 4 ≠ OperatorError.none.code) ∧
      Ends base dp m success m' ∧
      (validateGem5HybridDescriptor (.read m dp) base capacity ≠ .none →
        ∀ i, i < dp + 16 ∨ dp + 24 ≤ i → m' i = m i) ∧
      m'.load (dp + 16) 4 ≠ OperatorState.submitted.code ∧
      m'.load (dp + 16) 4 ≠ OperatorState.running.code := by
  obtain ⟨success, hResult, hEnds⟩ := dispatch_ends ops elapsed hApart hOpcode
  refine ⟨success, _, by rw [← hResult], ?_, ?_, hEnds, ?_, ?_⟩
  · rw [hEnds.state, hEnds.error]
    cases success <;> decide
  · rw [hEnds.state, Ne, hEnds.error]
    cases success <;> decide
  · intro hInvalid i hi
    obtain ⟨error, -, hState⟩ := dispatch_invalid_state ops elapsed hInvalid
    rw [hState, ByteMem.storeWord, ByteMem.store_outside _ _ (by omega), ByteMem.storeWord,
      ByteMem.store_outside _ _ (by omega)]
  · rw [hEnds.state]
    cases success <;> decide

end Dispatch

theorem dispatch_atomic_pointwise :
    DescriptorApart 0x20000000 512
        (.read (ByteMem.ofWords 512 (pointwiseWords 0x20000000 2)) 512) ∧
      ∃ success m', Ends 0x20000000 512 (ByteMem.ofWords 512 (pointwiseWords 0x20000000 2))
        success m' := by
  refine ⟨by decide +kernel, ?_⟩
  obtain ⟨success, m', -, -, -, hEnds, -⟩ := @dispatch_atomic ℝ exactFloat
    (ByteMem.ofWords 512 (pointwiseWords 0x20000000 2)) 512 0x20000000 4096 0
    (by decide +kernel) (by decide +kernel)
  exact ⟨success, m', hEnds⟩

end OpenNpux.Hybrid
