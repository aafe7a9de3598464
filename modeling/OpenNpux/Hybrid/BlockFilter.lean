import OpenNpux.Hybrid.ConvValue

/-!
# A depthwise convolution as a dense one

The dense filter that repeats the depthwise one on the channels that belong together and
holds its own zero point elsewhere gives the same output: of the products that the dense
kernel adds up at a tap, only that of the mapped input channel is not zero. Both kernels
visit the same taps and requantize the same accumulator.
-/

namespace OpenNpux.Hybrid

open Lib Finset

/-- The second convolution has the input, bias, quantization and geometry of the first,
which is depthwise, and the block filter made from the first one's filter. -/
structure BlockPair (base base' : Nat) (d d' : OperatorDescriptor) (m m' : ByteMem) : Prop where
  parameters : SameParameters d d'
  inputShape : ∀ i < 4, (d'.tensors 0).dimensions i = (d.tensors 0).dimensions i
  outputShape : ∀ i < 4, (d'.tensors 3).dimensions i = (d.tensors 3).dimensions i
  filterHeight : (d'.tensors 1).dimensions 1 = (d.tensors 1).dimensions 1
  filterWidth : (d'.tensors 1).dimensions 2 = (d.tensors 1).dimensions 2
  input : ∀ b < (d.tensors 0).dimensions 0, ∀ y < (d.tensors 0).dimensions 1,
    ∀ x < (d.tensors 0).dimensions 2, ∀ c < (d.tensors 0).dimensions 3,
      (d'.tensors 0).element base' m' b y x c = (d.tensors 0).element base m b y x c
  bias : ∀ outC < (d.tensors 3).dimensions 3,
    int32At m' (tensorData base' (d'.tensors 2) + outC * 4) =
      int32At m (tensorData base (d.tensors 2) + outC * 4)
  multiplier : ∀ outC < (d.tensors 3).dimensions 3,
    int32At m' (d'.multiplierAddress - base' + outC * 4) =
      int32At m (d.multiplierAddress - base + outC * 4)
  shift : ∀ outC < (d.tensors 3).dimensions 3,
    int32At m' (d'.shiftAddress - base' + outC * 4) =
      int32At m (d.shiftAddress - base + outC * 4)
  filter : ∀ outC < (d.tensors 3).dimensions 3, ∀ y < (d.tensors 1).dimensions 1,
    ∀ x < (d.tensors 1).dimensions 2, ∀ inC < (d.tensors 0).dimensions 3,
      (d'.tensors 1).element base' m' outC y x inC =
        if inC = outC / ((d.tensors 3).dimensions 3 / (d.tensors 0).dimensions 3) then
          (d.tensors 1).element base m 0 y x outC
        else (d.tensors 1).zeroPoint

theorem tapSum_congr {d d' : OperatorDescriptor} {outY outX : Nat}
    {term term' : Nat → Nat → Nat → Nat → Int} (hSame : SameParameters d d')
    (hHeight : (d'.tensors 1).dimensions 1 = (d.tensors 1).dimensions 1)
    (hWidth : (d'.tensors 1).dimensions 2 = (d.tensors 1).dimensions 2)
    (hInput : ∀ i < 4, (d'.tensors 0).dimensions i = (d.tensors 0).dimensions i)
    (hWords : (d.tensors 0).Words)
    (hTerm : ∀ filterY < (d.tensors 1).dimensions 1, ∀ filterX < (d.tensors 1).dimensions 2,
      ∀ inY < (d.tensors 0).dimensions 1, ∀ inX < (d.tensors 0).dimensions 2,
        term' filterY filterX inY inX = term filterY filterX inY inX) :
    tapSum d' outY outX term' = tapSum d outY outX term := by
  unfold tapSum
  rw [hHeight, hWidth]
  refine sum_congr rfl fun filterY hFilterY => sum_congr rfl fun filterX hFilterX => ?_
  unfold tapTerm
  rw [hSame.strideHeight, hSame.strideWidth, hSame.paddingHeight, hSame.paddingWidth,
    hInput 1 (by decide), hInput 2 (by decide)]
  cases hY : tapIndex outY d.strideHeight filterY d.paddingHeight ((d.tensors 0).dimensions 1) with
  | none => rw [Option.elim_none, Option.elim_none]
  | some inY =>
    rw [Option.elim_some, Option.elim_some]
    cases hX : tapIndex outX d.strideWidth filterX d.paddingWidth ((d.tensors 0).dimensions 2) with
    | none => rw [Option.elim_none, Option.elim_none]
    | some inX =>
      exact hTerm _ (mem_range.1 hFilterY) _ (mem_range.1 hFilterX) _
        (tapIndex_lt (hWords.dimensions 1) hY) _ (tapIndex_lt (hWords.dimensions 2) hX)

section Pair

variable {base base' : Nat} {d d' : OperatorDescriptor} {m m' : ByteMem}
  (hPair : BlockPair base base' d d' m m')

include hPair

theorem BlockPair.inOutput (k : Nat × Nat × Nat × Nat) : InOutput d' k ↔ InOutput d k := by
  unfold InOutput
  rw [hPair.inputShape 0 (by decide), hPair.outputShape 1 (by decide),
    hPair.outputShape 2 (by decide), hPair.outputShape 3 (by decide)]

theorem BlockPair.operandZeros (hZeros : OperandZeros d) : OperandZeros d' := by
  constructor
  · rw [hPair.parameters.zeroPoint 0 (by decide)]
    exact hZeros.input
  · rw [hPair.parameters.zeroPoint 1 (by decide)]
    exact hZeros.filter

theorem BlockPair.shiftsValid : ShiftsValid base' d' m' ↔ ShiftsValid base d m := by
  unfold ShiftsValid
  rw [hPair.outputShape 3 (by decide)]
  exact forall₂_congr fun outC hOutC => by rw [hPair.shift outC hOutC]

/-- The products of the other input channels vanish. -/
theorem BlockPair.term {batch outC filterY filterX inY inX : Nat}
    (hInC : outC / ((d.tensors 3).dimensions 3 / (d.tensors 0).dimensions 3) <
      (d.tensors 0).dimensions 3)
    (hBatch : batch < (d.tensors 0).dimensions 0) (hOutC : outC < (d.tensors 3).dimensions 3)
    (hFilterY : filterY < (d.tensors 1).dimensions 1)
    (hFilterX : filterX < (d.tensors 1).dimensions 2) (hInY : inY < (d.tensors 0).dimensions 1)
    (hInX : inX < (d.tensors 0).dimensions 2) :
    conv2DTerm base' d' m' batch outC filterY filterX inY inX =
      depthwiseTerm base d m batch outC
        (outC / ((d.tensors 3).dimensions 3 / (d.tensors 0).dimensions 3)) filterY filterX inY
          inX := by
  have hZero := hPair.parameters.zeroPoint 1 (by decide)
  unfold conv2DTerm depthwiseTerm
  rw [hPair.inputShape 3 (by decide), sum_eq_single_of_mem _ (mem_range.2 hInC)]
  · rw [hPair.input _ hBatch _ hInY _ hInX _ hInC,
      hPair.filter _ hOutC _ hFilterY _ hFilterX _ hInC,
      if_pos rfl, centered, centered, hZero, hPair.parameters.zeroPoint 0 (by decide)]
  · intro inC hMem hOther
    rw [hPair.filter _ hOutC _ hFilterY _ hFilterX _ (mem_range.1 hMem), if_neg hOther, centered,
      hZero, sub_self, mul_zero]

theorem BlockPair.value {capacity : Nat} (hInside : DeclaredInside d base capacity)
    (hShape : ConvShape d true) {k : Nat × Nat × Nat × Nat} (hk : InOutput d k) :
    conv2DValue base' d' m' k = depthwiseValue base d m k := by
  obtain ⟨hBatch, hOutY, hOutX, hOutC⟩ := hk
  have hSum := @tapSum_congr d d' k.2.1 k.2.2.1 _ _ hPair.parameters hPair.filterHeight
    hPair.filterWidth hPair.inputShape (hInside.words 0) fun filterY hFilterY filterX hFilterX inY
      hInY inX hInX => hPair.term (hShape.input_channel_lt hInside hOutC) hBatch hOutC hFilterY
        hFilterX hInY hInX
  unfold conv2DValue depthwiseValue convValue convAccumulator requantized
  rw [hSum, hPair.bias _ hOutC, hPair.multiplier _ hOutC, hPair.shift _ hOutC,
    hPair.parameters.outputZeroPoint, hPair.parameters.clampActivation]

end Pair

theorem byte_eq_of_int8At {m m' : ByteMem} {a b : Nat} (h : int8At m a = int8At m' b) :
    m a = m' b := by
  have ha := (m a).toNat_lt
  have hb := (m' b).toNat_lt
  unfold int8At i8 at h
  rw [Int.bmod_def, Int.bmod_def] at h
  apply UInt8.toNat_inj.1
  split at h <;> split at h <;> omega

section Reject

variable {m : ByteMem} {dp base : Nat} (elapsed : Nat) (hShifts : ¬ShiftsValid base (.read m dp) m)

include hShifts

theorem conv2D_rejects (hCommon : (commonConvValid (.read m dp) false m).result = some ()) :
    (runGem5HybridConv2D dp base elapsed m).result = none := by
  have hChecks : (conv2DChecks base (.read m dp) m).result = none :=
    ((commonConvValid_evaluates hCommon).bind_result _).trans
      ((checkShifts_checks _ base m).rejects hShifts)
  rw [runGem5HybridConv2D, descriptorAt_bind, conv2DFrom, Prog.bind_rejected hChecks]

theorem depthwise_rejects (hCommon : (commonConvValid (.read m dp) true m).result = some ()) :
    (runGem5HybridDepthwiseConv2D dp base elapsed m).result = none := by
  have hChecks : (depthwiseChecks base (.read m dp) m).result = none := by
    refine ((commonConvValid_evaluates hCommon).bind_result _).trans ?_
    refine (Prog.Evaluates.bind_result (a := _) ⟨rfl, rfl⟩ _).trans ?_
    rw [Prog.bind_rejected ((checkShifts_checks _ base m).rejects hShifts)]
  rw [runGem5HybridDepthwiseConv2D, descriptorAt_bind, depthwiseFrom, Prog.bind_rejected hChecks]

end Reject

/-- Both kernels accept or both reject, and when they accept the output bytes are the same. -/
theorem depthwise_eq_block_conv2D {m m' : ByteMem} {dp dp' base base' capacity capacity' : Nat}
    (hInside : DeclaredInside (.read m dp) base capacity)
    (hInside' : DeclaredInside (.read m' dp') base' capacity')
    (hCommon : (commonConvValid (.read m dp) true m).result = some ())
    (hCommon' : (commonConvValid (.read m' dp') false m').result = some ())
    (hApart : RegionsApart base dp (.read m dp)) (hApart' : RegionsApart base' dp' (.read m' dp'))
    (hZeros : OperandZeros (.read m dp))
    (hPair : BlockPair base base' (.read m dp) (.read m' dp') m m') (elapsed elapsed' : Nat) :
    (runGem5HybridDepthwiseConv2D dp base elapsed m).result =
        (runGem5HybridConv2D dp' base' elapsed' m').result ∧
      ((runGem5HybridDepthwiseConv2D dp base elapsed m).result = some () →
        ∀ k, InOutput (.read m dp) k →
          (runGem5HybridDepthwiseConv2D dp base elapsed m).state
              (outputOffset base (.read m dp) k.1 k.2.1 k.2.2.1 k.2.2.2) =
            (runGem5HybridConv2D dp' base' elapsed' m').state
              (outputOffset base' (.read m' dp') k.1 k.2.1 k.2.2.1 k.2.2.2)) := by
  by_cases hShifts : ShiftsValid base (.read m dp) m
  · obtain ⟨-, ⟨⟩, hResult, hStored⟩ := depthwise_runs hInside hApart hZeros hCommon hShifts elapsed
    obtain ⟨-, ⟨⟩, hResult', hStored'⟩ := conv2D_runs hInside' hApart' (hPair.operandZeros hZeros)
      hCommon' (hPair.shiftsValid.2 hShifts) elapsed'
    refine ⟨hResult.trans hResult'.symm, fun _ k hk => byte_eq_of_int8At ?_⟩
    rw [hStored k hk, hStored' k ((hPair.inOutput k).2 hk),
      hPair.value hInside (convShape_of_accepted hInside hCommon) hk]
  · rw [depthwise_rejects elapsed hShifts hCommon, conv2D_rejects elapsed'
      (fun h => hShifts (hPair.shiftsValid.1 h)) hCommon']
    exact ⟨rfl, nofun⟩

/-- A 1x1 convolution from two to four channels with the given filter words, whose zero
point is 7. -/
def channelMemory (opcode : OperatorOpcode) (filters depth : Nat) (filter : List (Nat × Nat)) :
    ByteMem :=
  (ByteMem.ofWords 512
    [operatorAbiMagic, operatorAbiVersion, descriptorBytes, opcode.code,
      OperatorState.submitted.code, 0, 0, OperatorMode.hybrid.code, 4,
      0x20000000, 2, 4, 1, 1, 1, 2, ElementType.int8.code, 0,
      0x20000010, filters * depth, 4, filters, 1, 1, depth, ElementType.int8.code, 7,
      0x20000020, 16, 1, 4, 0, 0, 0, ElementType.int32.code, 0,
      0x20000040, 4, 4, 1, 1, 1, 4, ElementType.int8.code, 0,
      1, 1, 0, 0, 0x20000060, 0x20000080, 0, 2 ^ 32 - 128, 127, 4]).storeWords
    ([(0, 0x0503), (96, 2 ^ 30), (100, 2 ^ 30), (104, 2 ^ 30), (108, 2 ^ 30)] ++ filter)

/-- The filters `[1, 2, 3, 4]` and `[[1, 7], [2, 7], [7, 3], [7, 4]]`. -/
theorem depthwise_eq_block_four_channels :
    let m := channelMemory .depthwiseConv2DInt8 1 4 [(16, 0x04030201)]
    let m' := channelMemory .conv2DInt8 4 2 [(16, 0x07020701), (20, 0x04070307)]
    (runGem5HybridDepthwiseConv2D 512 0x20000000 0 m).result = some () ∧
      ∀ k, InOutput (.read m 512) k →
        (runGem5HybridDepthwiseConv2D 512 0x20000000 0 m).state
            (outputOffset 0x20000000 (.read m 512) k.1 k.2.1 k.2.2.1 k.2.2.2) =
          (runGem5HybridConv2D 512 0x20000000 0 m').state
            (outputOffset 0x20000000 (.read m' 512) k.1 k.2.1 k.2.2.1 k.2.2.2) := by
  intro m m'
  have hReturned : (runGem5HybridDepthwiseConv2D 512 0x20000000 0 m).result = some () := by
    decide +kernel
  refine ⟨hReturned, (depthwise_eq_block_conv2D
    (@declaredInside_of_validate m 512 0x20000000 4096 (by decide +kernel))
    (@declaredInside_of_validate m' 512 0x20000000 4096 (by decide +kernel)) (by decide +kernel)
    (by decide +kernel) ?_ ?_ ?_ ?_ 0 0).2 hReturned⟩
  · constructor <;> decide +kernel
  · constructor <;> decide +kernel
  · constructor <;> decide +kernel
  · refine ⟨?_, ?_, ?_, ?_, ?_, ?_, ?_, ?_, ?_, ?_⟩
    · constructor <;> decide +kernel
    all_goals decide +kernel

end OpenNpux.Hybrid
