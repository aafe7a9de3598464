import OpenNpux.Hybrid.Dispatch
import OpenNpux.Lib.Lockstep

/-!
# What a convolution changes

A convolution stores to its output tensor and then to the statistics of its descriptor,
so with the output apart from the descriptor the figures that it leaves there are those
of the descriptor it was given, and nothing else in memory changes.
-/

namespace OpenNpux.Hybrid

open Lib

/-- The bytes in `S` are the same. -/
def AgreeOn (S : Nat → Prop) (m m' : ByteMem) : Prop := ∀ i, S i → m' i = m i

instance (S : Nat → Prop) : IsPreorder ByteMem (AgreeOn S) where
  refl _ _ _ := rfl
  trans _ _ _ h h' i hi := (h' i hi).trans (h i hi)

theorem AgreeOn.load {S : Nat → Prop} {m m' : ByteMem} (h : AgreeOn S m m') {a n : Nat}
    (hRange : ∀ i < n, S (a + i)) : m'.load a n = m.load a n :=
  ByteMem.load_congr fun i hi => h _ (hRange i hi)

/-- The program leaves the bytes in `S` alone. -/
abbrev Leaves (S : Nat → Prop) {α : Type} (p : Kernel α) : Prop := p.Grows (AgreeOn S)

section Primitives

variable {S : Nat → Prop}

theorem leaves_descriptorAt (dp : Nat) : Leaves S (descriptorAt dp) := .get_bind fun _ => .pure _

theorem leaves_loadI32 (region : Region) (offset : Nat) : Leaves S (loadI32 region offset) :=
  .bind (.bind (.emit _) fun _ => .get_bind fun _ => .pure _) fun _ => .pure _

theorem leaves_loadI8 (region : Region) (offset : Nat) : Leaves S (loadI8 region offset) :=
  .bind (.emit _) fun _ => .get_bind fun _ => .pure _

theorem leaves_divide (a b : Nat) : Leaves S (divide a b) := .bind (.emit _) fun _ => .pure _

theorem leaves_modulo (a b : Nat) : Leaves S (modulo a b) := .bind (.emit _) fun _ => .pure _

theorem leaves_storeI8 {region : Region} {offset : Nat} (value : Int) (h : ¬S offset) :
    Leaves S (storeI8 region offset value) := by
  refine .bind (.emit _) fun _ => .modify fun m i hi => ?_
  apply ByteMem.store_outside
  rintro ⟨hLow, hHigh⟩
  obtain rfl : i = offset := by omega
  exact h hi

theorem leaves_setField {dp offset bytes value : Nat}
    (h : ∀ i, S i → i < dp + offset ∨ dp + offset + bytes ≤ i) :
    Leaves S (setField dp offset bytes value) := by
  refine .modify fun m i hi => ?_
  apply ByteMem.store_outside
  have hi := h i hi
  omega

theorem leaves_centeredProduct (dp lhs rhs : Nat) : Leaves S (centeredProduct dp lhs rhs) :=
  .bind (leaves_loadI8 _ _) fun _ => .bind (leaves_loadI8 _ _) fun _ =>
    .bind (leaves_descriptorAt dp) fun _ => .pure _

theorem leaves_elementCount (t : OperatorTensor) : Leaves S (elementCount t) := by
  have hStep : ∀ i count, Leaves S (countStep t i count) := by
    intro i count
    cases count with
    | none => exact .pure _
    | some count =>
      exact .ite (.pure _) (.bind (leaves_divide _ _) fun _ => .ite (.pure _) (.pure _))
  exact .ite (.pure _) (.bind (.loop fun i _ count => hStep i count) fun _ => .pure _)

theorem leaves_commonConvValid (d : OperatorDescriptor) (depthwise : Bool) :
    Leaves S (commonConvValid d depthwise) := by
  refine .bind (.require _) fun _ => .bind (.require _) fun _ =>
    .bind (leaves_elementCount _) fun _ =>
    .bind (.require _) fun _ => .bind (leaves_elementCount _) fun _ => .bind (.require _) fun _ =>
    .bind (leaves_elementCount _) fun _ => .bind (.require _) fun _ => .bind (leaves_elementCount _)
    fun _ => .bind (.require _) fun _ => .bind (.require _) fun _ => .bind (.require _) fun _ => ?_
  cases depthwise with
  | true => exact .bind (.require _) fun _ => .bind (leaves_modulo _ _) fun _ => .require _
  | false => exact .require _

theorem leaves_checkShifts (d : OperatorDescriptor) (base : Nat) : Leaves S (checkShifts d base) :=
  .loop fun _ _ _ => .bind (leaves_loadI32 _ _) fun _ => .require _

theorem leaves_accumulateTaps (dp : Nat) (d : OperatorDescriptor) (outY outX : Nat)
    {tap : Nat → Nat → Nat → Nat → Int → Kernel Int} (bias : Int)
    (hTap : ∀ filterY filterX inY inX accumulator,
      Leaves S (tap filterY filterX inY inX accumulator)) :
    Leaves S (accumulateTaps dp d outY outX tap bias) :=
  .loop fun _ _ _ => .bind (leaves_descriptorAt dp) fun _ => .ite (.pure _)
    (.loop fun _ _ _ => .bind (leaves_descriptorAt dp) fun _ => .ite (.pure _) (hTap _ _ _ _ _))

end Primitives

/-- Everything but one tensor. -/
def besideTensor (base : Nat) (t : OperatorTensor) (i : Nat) : Prop :=
  i < tensorData base t ∨ tensorData base t + t.size ≤ i

def ApartFrom (base : Nat) (t : OperatorTensor) (start bytes : Nat) : Prop :=
  start + bytes ≤ tensorData base t ∨ tensorData base t + t.size ≤ start

instance (base : Nat) (t : OperatorTensor) (start bytes : Nat) :
    Decidable (ApartFrom base t start bytes) :=
  inferInstanceAs (Decidable (_ ∨ _))

theorem ApartFrom.beside {base start bytes i : Nat} {t : OperatorTensor}
    (h : ApartFrom base t start bytes) (hi : i < bytes) : besideTensor base t (start + i) := by
  unfold ApartFrom at h
  unfold besideTensor
  omega

section Loops

variable {d : OperatorDescriptor} {base : Nat} (dp : Nat)

theorem leaves_convPixel {tap : Nat → Nat → Nat → Nat → Int → Kernel Int}
    {batch outY outX outC : Nat}
    (hIndex : flatIndex ((d.tensors 3).dimensions 1) ((d.tensors 3).dimensions 2)
      ((d.tensors 3).dimensions 3) batch outY outX outC < (d.tensors 3).size)
    (hTap : ∀ filterY filterX inY inX accumulator,
      Leaves (besideTensor base (d.tensors 3)) (tap filterY filterX inY inX accumulator)) :
    Leaves (besideTensor base (d.tensors 3)) (convPixel dp base d tap batch outY outX outC) := by
  refine .bind (leaves_loadI32 _ _) fun bias =>
    .bind (leaves_accumulateTaps dp d _ _ bias hTap) fun _ =>
    .bind (leaves_loadI32 _ _) fun _ => .bind (leaves_loadI32 _ _) fun _ =>
    .bind (.emit _) fun _ => .bind (leaves_descriptorAt dp) fun _ => leaves_storeI8 _ ?_
  unfold besideTensor
  omega

theorem leaves_forEachOutput {S : Nat → Prop} {body : Nat → Nat → Nat → Nat → Kernel Unit}
    (hBody : ∀ batch < (d.tensors 0).dimensions 0, ∀ outY < (d.tensors 3).dimensions 1,
      ∀ outX < (d.tensors 3).dimensions 2, ∀ outC < (d.tensors 3).dimensions 3,
        Leaves S (body batch outY outX outC)) : Leaves S (forEachOutput d body) :=
  .loop fun _ hBatch _ => .loop fun _ hOutY _ => .loop fun _ hOutX _ => .loop fun _ hOutC _ =>
    hBody _ hBatch _ hOutY _ hOutX _ hOutC

variable {depthwise : Bool} (hWords : (d.tensors 3).Words) (hShape : ConvShape d depthwise)

include hWords hShape

theorem ConvShape.output_index {batch outY outX outC : Nat}
    (hBatch : batch < (d.tensors 0).dimensions 0)
    (hOutY : outY < (d.tensors 3).dimensions 1) (hOutX : outX < (d.tensors 3).dimensions 2)
    (hOutC : outC < (d.tensors 3).dimensions 3) :
    flatIndex ((d.tensors 3).dimensions 1) ((d.tensors 3).dimensions 2)
      ((d.tensors 3).dimensions 3) batch outY outX outC < (d.tensors 3).size :=
  flatIndex_lt_size hWords hShape.output (hShape.batches ▸ hBatch) hOutY hOutX hOutC

theorem leaves_conv2DLoops : Leaves (besideTensor base (d.tensors 3)) (conv2DLoops dp base d) := by
  refine leaves_forEachOutput fun batch hBatch outY hOutY outX hOutX outC hOutC => ?_
  apply leaves_convPixel dp (hShape.output_index hWords hBatch hOutY hOutX hOutC)
  intro filterY filterX inY inX accumulator
  exact .loop fun _ _ _ => .bind (leaves_centeredProduct dp _ _) fun _ => .pure _

theorem leaves_depthwiseLoops (depthMultiplier : Nat) :
    Leaves (besideTensor base (d.tensors 3)) (depthwiseLoops dp base d depthMultiplier) := by
  refine leaves_forEachOutput fun batch hBatch outY hOutY outX hOutX outC hOutC => ?_
  refine .bind (leaves_divide _ _) fun inC => ?_
  apply leaves_convPixel dp (hShape.output_index hWords hBatch hOutY hOutX hOutC)
  intro filterY filterX inY inX accumulator
  exact .bind (leaves_centeredProduct dp _ _) fun _ => .pure _

end Loops

/-! ## The figures of a run -/

def convOperations : Bool → OperatorDescriptor → Nat
  | true, d => u64 ((d.tensors 0).dimensions 0 * (d.tensors 3).dimensions 1 *
      (d.tensors 3).dimensions 2 * (d.tensors 3).dimensions 3 * (d.tensors 1).dimensions 1 *
      (d.tensors 1).dimensions 2)
  | false, d => u64 ((d.tensors 0).dimensions 0 * (d.tensors 3).dimensions 1 *
      (d.tensors 3).dimensions 2 * (d.tensors 3).dimensions 3 * (d.tensors 1).dimensions 1 *
      (d.tensors 1).dimensions 2 * (d.tensors 0).dimensions 3)

def convBytesRead (d : OperatorDescriptor) : Nat :=
  u64 (u32 ((d.tensors 0).size + (d.tensors 1).size + (d.tensors 2).size) + 2 *
    d.quantizationCount * 4)

/-- Everything but the output tensor and the state and the statistics of the descriptor. -/
def besideResults (base dp : Nat) (d : OperatorDescriptor) (i : Nat) : Prop :=
  besideTensor base (d.tensors 3) i ∧ (i < dp + 16 ∨ dp + 24 ≤ i) ∧ (i < dp + 224 ∨ dp + 264 ≤ i)

/-- What a convolution has left in memory. -/
structure ConvFigures (base dp : Nat) (depthwise : Bool) (d : OperatorDescriptor) (m m' : ByteMem) :
    Prop where
  shape : ConvShape d depthwise
  beside : AgreeOn (besideResults base dp d) m m'
  operationCount : m'.load (dp + 224) 8 = convOperations depthwise d
  bytesRead : m'.load (dp + 248) 8 = convBytesRead d
  bytesWritten : m'.load (dp + 256) 8 = (d.tensors 3).size

theorem u64_lt (z : Int) : u64 z < 2 ^ 64 := by
  unfold u64
  omega

section Finish

variable {base dp : Nat} {depthwise : Bool} {m₀ m : ByteMem} (elapsed : Nat)

theorem finishConv_figures {operations : Nat}
    (hOperations : convOperations depthwise (.read m₀ dp) = operations)
    (hShape : ConvShape (.read m₀ dp) depthwise)
    (hApart : ApartFrom base ((OperatorDescriptor.read m₀ dp).tensors 3) dp descriptorBytes)
    (hLoops : AgreeOn (besideTensor base ((OperatorDescriptor.read m₀ dp).tensors 3)) m₀ m) :
    Prog.Ensures (fun _ => True) (finishConv dp operations elapsed) m fun _ m' =>
      ConvFigures base dp depthwise (.read m₀ dp) m₀ m' := by
  subst hOperations
  have hField : ∀ offset, offset + 4 ≤ 224 →
      (m.storeWord (dp + 224) 8 (convOperations depthwise (.read m₀ dp))).load (dp + offset) 4 =
        m₀.load (dp + offset) 4 := by
    intro offset hOffset
    rw [ByteMem.storeWord, ByteMem.load_store_disjoint _ _ (by omega)]
    refine hLoops.load fun i hi => ?_
    rw [Nat.add_assoc]
    exact hApart.beside (by unfold descriptorBytes; omega)
  have hSize : ∀ i < 4, ((OperatorDescriptor.read
      (m.storeWord (dp + 224) 8 (convOperations depthwise (.read m₀ dp))) dp).tensors i).size =
        ((OperatorDescriptor.read m₀ dp).tensors i).size := by
    intro i hi
    have hAt := hField (36 + 36 * i + 4) (by omega)
    rwa [show dp + (36 + 36 * i + 4) = dp + 36 + 36 * i + 4 by omega] at hAt
  have hRead : convBytesRead (.read
      (m.storeWord (dp + 224) 8 (convOperations depthwise (.read m₀ dp))) dp) =
        convBytesRead (.read m₀ dp) := by
    have hCount : (OperatorDescriptor.read
        (m.storeWord (dp + 224) 8 (convOperations depthwise (.read m₀ dp))) dp).quantizationCount =
          (OperatorDescriptor.read m₀ dp).quantizationCount := hField 216 (by omega)
    rw [convBytesRead, hSize 0 (by omega), hSize 1 (by omega), hSize 2 (by omega), hCount]
    rfl
  have hState : (finishConv dp (convOperations depthwise (.read m₀ dp)) elapsed m).state =
      (((m.storeWord (dp + 224) 8 (convOperations depthwise (.read m₀ dp))).storeWord (dp + 248) 8
        (convBytesRead (.read m₀ dp))).storeWord (dp + 256) 8
          ((OperatorDescriptor.read m₀ dp).tensors 3).size).storeWord (dp + 232) 8 elapsed := by
    rw [← hRead, ← hSize 3 (by omega)]
    rfl
  refine ⟨fun _ _ => trivial, fun _ _ => ?_⟩
  rw [hState]
  have hCounted : convOperations depthwise (.read m₀ dp) < 256 ^ 8 := by
    cases depthwise <;> exact u64_lt _
  have hBytes : convBytesRead (.read m₀ dp) < 256 ^ 8 := u64_lt _
  have hWritten : ((OperatorDescriptor.read m₀ dp).tensors 3).size < 256 ^ 8 :=
    (OperatorTensor.read_words m₀ _).size.trans (by decide)
  refine ⟨hShape, ?_, ?_, ?_, ?_⟩
  · rintro i ⟨hBeside, -, hOutside⟩
    unfold ByteMem.storeWord
    rw [ByteMem.store_outside, ByteMem.store_outside, ByteMem.store_outside, ByteMem.store_outside]
    · exact hLoops i hBeside
    all_goals omega
  · rw [ByteMem.storeWord, ByteMem.load_store_disjoint _ _ (by omega), ByteMem.storeWord,
      ByteMem.load_store_disjoint _ _ (by omega), ByteMem.storeWord,
      ByteMem.load_store_disjoint _ _ (by omega), ByteMem.load_storeWord, Nat.mod_eq_of_lt hCounted]
  · rw [ByteMem.storeWord, ByteMem.load_store_disjoint _ _ (by omega), ByteMem.storeWord,
      ByteMem.load_store_disjoint _ _ (by omega), ByteMem.load_storeWord, Nat.mod_eq_of_lt hBytes]
  · rw [ByteMem.storeWord, ByteMem.load_store_disjoint _ _ (by omega), ByteMem.load_storeWord,
      Nat.mod_eq_of_lt hWritten]

theorem conv2D_figures {capacity : Nat} (hInside : DeclaredInside (.read m₀ dp) base capacity)
    (hApart : ApartFrom base ((OperatorDescriptor.read m₀ dp).tensors 3) dp descriptorBytes) :
    Prog.Ensures (fun _ => True) (runGem5HybridConv2D dp base elapsed) m₀
      fun _ m' => ConvFigures base dp false (.read m₀ dp) m₀ m' := by
  have hChecks : Prog.Ensures (fun _ => True) (conv2DChecks base (.read m₀ dp)) m₀
      fun _ m' => ConvShape (.read m₀ dp) false ∧ AgreeOn (fun _ => True) m₀ m' := by
    refine ((conv2DChecks_yields hInside).ensures m₀).and ?_
    exact Prog.Grows.ensures (.bind (leaves_commonConvValid _ _) fun _ => leaves_checkShifts _ _) _
  refine .congr (descriptorAt_bind dp _ m₀) ?_
  unfold conv2DFrom
  refine hChecks.bind ?_
  rintro _ m₁ ⟨hShape, hSame⟩
  obtain rfl : m₁ = m₀ := funext fun i => hSame i trivial
  refine ((leaves_conv2DLoops dp (hInside.words 3) hShape).ensures _).bind ?_
  intro _ m₂ hLoops
  exact finishConv_figures elapsed (by rw [convOperations]) hShape hApart hLoops

theorem depthwise_figures {capacity : Nat} (hInside : DeclaredInside (.read m₀ dp) base capacity)
    (hApart : ApartFrom base ((OperatorDescriptor.read m₀ dp).tensors 3) dp descriptorBytes) :
    Prog.Ensures (fun _ => True) (runGem5HybridDepthwiseConv2D dp base elapsed) m₀
      fun _ m' => ConvFigures base dp true (.read m₀ dp) m₀ m' := by
  have hChecks : Prog.Ensures (fun _ => True) (depthwiseChecks base (.read m₀ dp)) m₀
      fun _ m' => ConvShape (.read m₀ dp) true ∧ AgreeOn (fun _ => True) m₀ m' := by
    refine (((depthwiseChecks_yields hInside).ensures m₀).mono fun _ _ h => h.1).and ?_
    exact Prog.Grows.ensures (.bind (leaves_commonConvValid _ _) fun _ => .bind (leaves_divide _ _)
      fun _ => .bind (leaves_checkShifts _ _) fun _ => .pure _) _
  refine .congr (descriptorAt_bind dp _ m₀) ?_
  unfold depthwiseFrom
  refine hChecks.bind ?_
  rintro depthMultiplier m₁ ⟨hShape, hSame⟩
  obtain rfl : m₁ = m₀ := funext fun i => hSame i trivial
  refine ((leaves_depthwiseLoops dp (hInside.words 3) hShape depthMultiplier).ensures _).bind ?_
  intro _ m₂ hLoops
  exact finishConv_figures elapsed (by rw [convOperations]) hShape hApart hLoops

end Finish

section Dispatch

variable {base dp : Nat} {depthwise : Bool} {d : OperatorDescriptor} {m m' : ByteMem}

/-- A later store to the state or the cycles of the descriptor. -/
theorem ConvFigures.store (h : ConvFigures base dp depthwise d m m') {a n : Nat} (value : Nat)
    (hPlace : dp + 16 ≤ a ∧ a + n ≤ dp + 24 ∨ dp + 240 ≤ a ∧ a + n ≤ dp + 248) :
    ConvFigures base dp depthwise d m (m'.storeWord a n value) := by
  refine ⟨h.shape, ?_, ?_, ?_, ?_⟩
  · rintro i ⟨hBeside, hState, hStatistics⟩
    rw [ByteMem.storeWord, ByteMem.store_outside _ _ (by omega)]
    exact h.beside i ⟨hBeside, hState, hStatistics⟩
  · rw [ByteMem.storeWord, ByteMem.load_store_disjoint _ _ (by omega), h.operationCount]
  · rw [ByteMem.storeWord, ByteMem.load_store_disjoint _ _ (by omega), h.bytesRead]
  · rw [ByteMem.storeWord, ByteMem.load_store_disjoint _ _ (by omega), h.bytesWritten]

theorem started_byte (dp : Nat) (m : ByteMem) {i : Nat} (hState : i < dp + 16 ∨ dp + 24 ≤ i)
    (hStatistics : i < dp + 232 ∨ dp + 264 ≤ i) : started dp m i = m i := by
  have hByte := started_load dp m (a := i) (n := 1) (by omega) (by omega)
  simp only [ByteMem.load, Nat.mul_zero, Nat.add_zero] at hByte
  exact UInt8.toNat_inj.mp hByte

theorem started_agree (base dp : Nat) (d : OperatorDescriptor) (m : ByteMem) :
    AgreeOn (besideResults base dp d) m (started dp m) := by
  rintro i ⟨-, hState, hStatistics⟩
  exact started_byte dp m hState (by omega)

theorem ConvFigures.from_start (h : ConvFigures base dp depthwise d (started dp m) m') :
    ConvFigures base dp depthwise d m m' :=
  ⟨h.shape, fun i hi => (h.beside i hi).trans (started_agree base dp d m i hi), h.operationCount,
    h.bytesRead, h.bytesWritten⟩

def convOpcode : Bool → OperatorOpcode
  | true => .depthwiseConv2DInt8
  | false => .conv2DInt8

variable {F : Type} (ops : FloatOps F) {capacity : Nat} (elapsed : Nat)

theorem runKernel_figures (hInside : DeclaredInside (.read m dp) base capacity)
    (hApart : ApartFrom base ((OperatorDescriptor.read m dp).tensors 3) dp descriptorBytes)
    (hTrue : (runKernel ops dp base elapsed (some (convOpcode depthwise)) m).result = some true) :
    ConvFigures base dp depthwise (.read m dp) m
      (runKernel ops dp base elapsed (some (convOpcode depthwise)) m).state := by
  cases depthwise with
  | true =>
    have hReturned : (runGem5HybridDepthwiseConv2D dp base elapsed m).result.isSome = true :=
      Option.some.inj hTrue
    obtain ⟨_, hResult⟩ := Option.isSome_iff_exists.mp hReturned
    exact (depthwise_figures elapsed hInside hApart).2 _ hResult
  | false =>
    have hReturned : (runGem5HybridConv2D dp base elapsed m).result.isSome = true :=
      Option.some.inj hTrue
    obtain ⟨_, hResult⟩ := Option.isSome_iff_exists.mp hReturned
    exact (conv2D_figures elapsed hInside hApart).2 _ hResult

theorem concludeRun_true (dp : Nat) (m : ByteMem) :
    (concludeRun dp true m).state =
      (if (OperatorDescriptor.read m dp).modeledCycles = 0 then
        m.storeWord (dp + 240) 8 (OperatorDescriptor.read m dp).operationCount
      else m).storeWord (dp + 16) 4 OperatorState.complete.code := by
  unfold concludeRun
  rw [descriptorAt_bind]
  by_cases hCycles : (OperatorDescriptor.read m dp).modeledCycles = 0
  · rw [if_pos hCycles, hCycles]
    rfl
  · rw [if_neg hCycles, Bool.true_and, beq_eq_false_iff_ne.2 hCycles]
    rfl

theorem concludeRun_false (dp : Nat) (m : ByteMem) :
    (concludeRun dp false m).state =
      (if (OperatorDescriptor.read m dp).error = OperatorError.none.code then
        m.storeWord (dp + 20) 4 OperatorError.execution.code
      else m).storeWord (dp + 16) 4 OperatorState.error.code := by
  unfold concludeRun
  rw [descriptorAt_bind]
  by_cases hError : (OperatorDescriptor.read m dp).error = OperatorError.none.code
  · rw [if_pos hError, hError]
    rfl
  · rw [if_neg hError, beq_eq_false_iff_ne.2 hError, Bool.and_false]
    rfl

theorem ConvFigures.concluded (h : ConvFigures base dp depthwise d m m') :
    ConvFigures base dp depthwise d m (concludeRun dp true m').state := by
  rw [concludeRun_true]
  apply ConvFigures.store _ _ (by omega)
  split
  · exact h.store _ (by omega)
  · exact h

omit capacity in
theorem concludeRun_result (dp : Nat) (success : Bool) (m : ByteMem) :
    (concludeRun dp success m).result = some success := by
  unfold concludeRun
  cases success <;> simp [Prog.bind_apply, descriptorAt, setField] <;> split <;> rfl

theorem dispatch_valid {k : Outcome ByteMem Access Bool} {success : Bool}
    (hValid : validateGem5HybridDescriptor (.read m dp) base capacity = .none)
    (hKernel : runKernel ops dp base elapsed
      (OperatorOpcode.ofCode (OperatorDescriptor.read (started dp m) dp).opcode) (started dp m) = k)
    (hSuccess : k.result = some success) :
    (dispatchGem5HybridOperator ops dp base capacity elapsed m).result = some success ∧
      (dispatchGem5HybridOperator ops dp base capacity elapsed m).state =
        (concludeRun dp success k.state).state := by
  have hBegin : (beginRun dp m).result = some () := rfl
  subst hKernel
  unfold started at hSuccess ⊢
  rw [dispatchGem5HybridOperator, descriptorAt_bind]
  simp only [hValid]
  rw [Prog.bind_returned hBegin, descriptorAt_bind, Prog.bind_returned hSuccess]
  dsimp only
  exact ⟨concludeRun_result _ _ _, rfl⟩

theorem dispatch_invalid (hInvalid : validateGem5HybridDescriptor (.read m dp) base
    capacity ≠ .none) :
    (dispatchGem5HybridOperator ops dp base capacity elapsed m).result = some false := by
  rw [dispatchGem5HybridOperator, descriptorAt_bind]
  cases hError : validateGem5HybridDescriptor (.read m dp) base capacity with
  | none => exact absurd hError hInvalid
  | badDescriptor | unsupported | execution | address => rfl

/-- A dispatched convolution that has succeeded. -/
theorem dispatch_figures
    (hOpcode : OperatorOpcode.ofCode (OperatorDescriptor.read (started dp m) dp).opcode =
      some (convOpcode depthwise))
    (hApart : ApartFrom base ((OperatorDescriptor.read (started dp m) dp).tensors 3) dp
      descriptorBytes)
    (hTrue : (dispatchGem5HybridOperator ops dp base capacity elapsed m).result = some true) :
    ConvFigures base dp depthwise (.read (started dp m) dp) m
      (dispatchGem5HybridOperator ops dp base capacity elapsed m).state := by
  by_cases hValid : validateGem5HybridDescriptor (.read m dp) base capacity = .none
  · obtain ⟨success, hSuccess⟩ := Option.isSome_iff_exists.mp
      (runKernel_total ops dp base elapsed (OperatorOpcode.ofCode
        (OperatorDescriptor.read (started dp m) dp).opcode) (started dp m))
    obtain ⟨hResult, hState⟩ := dispatch_valid ops elapsed hValid rfl hSuccess
    rw [hResult, Option.some.injEq] at hTrue
    subst hTrue
    obtain ⟨_, hInside⟩ := started_declaredInside hValid
    rw [hOpcode] at hSuccess hState
    rw [hState]
    exact (runKernel_figures ops elapsed hInside hApart hSuccess).from_start.concluded
  · rw [dispatch_invalid ops elapsed hValid] at hTrue
    cases hTrue

end Dispatch
end OpenNpux.Hybrid
