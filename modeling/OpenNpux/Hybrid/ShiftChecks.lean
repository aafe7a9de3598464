import OpenNpux.Hybrid.ConvExact

/-!
# Checked shifts and the shifts that are used

A convolution checks every shift and reads it again for each output value, after earlier
values have been stored. The shifts in use are the checked ones if no byte stored before
the last use of a shift lies on it. Nothing enforces that: a descriptor may place its
output on the shifts, and then a stored value becomes a shift amount.
-/

namespace OpenNpux.Hybrid

open Lib

/-- A shift that is passed to the requantization is in the checked range. -/
def Access.Checked : Access → Prop
  | .requantize shift => -31 ≤ shift ∧ shift ≤ 30
  | _ => True

/-- No output byte that is stored before the last use of a shift lies on that shift. -/
def ShiftsKept (base : Nat) (d : OperatorDescriptor) : Prop :=
  ∀ outC < d.quantizationCount,
    (d.tensors 3).size - d.quantizationCount + outC = 0 ∨
      d.shiftAddress - base + outC * 4 + 4 ≤ tensorData base (d.tensors 3) ∨
      tensorData base (d.tensors 3) + ((d.tensors 3).size - d.quantizationCount + outC) ≤
        d.shiftAddress - base + outC * 4

instance (base : Nat) (d : OperatorDescriptor) : Decidable (ShiftsKept base d) :=
  inferInstanceAs (Decidable (∀ outC < d.quantizationCount, _))

theorem ShiftsKept.of_sameRanges {base : Nat} {d d' : OperatorDescriptor} (h : ShiftsKept base d)
    (hSame : SameRanges d d') (hCount : 3 < d.tensorCount) : ShiftsKept base d' := by
  obtain ⟨hAddress, hSize⟩ := hSame.tensors 3 hCount
  unfold ShiftsKept tensorData
  rw [hSame.quantizationCount, hSame.shiftAddress, hAddress, hSize]
  exact h

/-- Everything but the first bytes of the output tensor. -/
def besideFirst (base : Nat) (d : OperatorDescriptor) (n i : Nat) : Prop :=
  i < tensorData base (d.tensors 3) ∨ tensorData base (d.tensors 3) + n ≤ i

theorem ensures_of_reads {α : Type} {ok : Access → Prop} {p : Kernel α} {post : α → Prop}
    (hYields : p.Yields ok post) (hLeaves : Leaves (fun _ => True) p) (m : ByteMem) :
    p.Ensures ok m fun a m' => m' = m ∧ post a :=
  ⟨fun _ he => hYields.events he,
    fun _ ha => ⟨funext fun i => hLeaves m i trivial, hYields.returned ha⟩⟩

/-- An invariant of the loops that counts the values stored so far. -/
theorem forEachOutput_ensures {d : OperatorDescriptor} {ok : Access → Prop}
    {I : Nat → ByteMem → Prop} {body : Nat → Nat → Nat → Nat → Kernel Unit}
    (hBody : ∀ k, InOutput d k → ∀ m,
      I (rowMajor ((d.tensors 3).dimensions 1) ((d.tensors 3).dimensions 2)
        ((d.tensors 3).dimensions 3) k.1 k.2.1 k.2.2.1 k.2.2.2) m →
      (body k.1 k.2.1 k.2.2.1 k.2.2.2).Ensures ok m fun _ m' =>
        I (rowMajor ((d.tensors 3).dimensions 1) ((d.tensors 3).dimensions 2)
          ((d.tensors 3).dimensions 3) k.1 k.2.1 k.2.2.1 k.2.2.2 + 1) m')
    {m : ByteMem} (hStart : I 0 m) :
    (forEachOutput d body).Ensures ok m fun _ _ => True := by
  generalize hH : (d.tensors 3).dimensions 1 = h at hBody
  generalize hW : (d.tensors 3).dimensions 2 = w at hBody
  generalize hC : (d.tensors 3).dimensions 3 = c at hBody
  unfold forEachOutput
  rw [hH, hW, hC]
  refine Prog.Ensures.mono (.loop (I := fun b _ m => I (rowMajor h w c b 0 0 0) m)
    (by simpa [rowMajor] using hStart) fun b hb _ m₁ h₁ => ?_) fun _ _ _ => trivial
  rw [← rowMajor_rows]
  refine .loop (I := fun y _ m => I (rowMajor h w c b y 0 0) m) h₁ fun y hy _ m₂ h₂ => ?_
  rw [← rowMajor_columns]
  refine .loop (I := fun x _ m => I (rowMajor h w c b y x 0) m) h₂ fun x hx _ m₃ h₃ => ?_
  rw [← rowMajor_channels]
  exact .loop (I := fun i _ m => I (rowMajor h w c b y x i) m) h₃ fun i hi _ m₄ h₄ =>
    hBody (b, y, x, i) ⟨hb, hH ▸ hy, hW ▸ hx, hC ▸ hi⟩ m₄ h₄

theorem centeredProduct_checked (dp lhs rhs : Nat) :
    (centeredProduct dp lhs rhs).Yields Access.Checked fun _ => True :=
  (yields_loadI8 trivial).bind fun _ _ => (yields_loadI8 trivial).bind fun _ _ =>
    (yields_descriptorAt dp).bind fun _ _ => .pure trivial

section Pixel

variable {base dp : Nat} {d : OperatorDescriptor} {m m' : ByteMem} {depthwise : Bool}

/-- The shift of a channel has not been stored to when it is used. -/
theorem ShiftsKept.int32At_eq (hKept : ShiftsKept base d) (hShape : ConvShape d depthwise)
    {k : Nat × Nat × Nat × Nat} (hk : InOutput d k)
    (hAgree : AgreeOn (besideFirst base d (rowMajor ((d.tensors 3).dimensions 1)
      ((d.tensors 3).dimensions 2) ((d.tensors 3).dimensions 3) k.1 k.2.1 k.2.2.1 k.2.2.2)) m m') :
    int32At m' (d.shiftAddress - base + k.2.2.2 * 4) =
      int32At m (d.shiftAddress - base + k.2.2.2 * 4) := by
  obtain ⟨hBatch, hOutY, hOutX, hOutC⟩ := hk
  have hCase := hKept k.2.2.2 (hShape.channels ▸ hOutC)
  have hPixels : ((k.1 * (d.tensors 3).dimensions 1 + k.2.1) * (d.tensors 3).dimensions 2 +
      k.2.2.1 + 1) * (d.tensors 3).dimensions 3 ≤ (d.tensors 3).size := by
    rw [hShape.output, OperatorTensor.volume, hShape.batches]
    exact Nat.mul_le_mul_right _ (flat_lt (flat_lt hBatch hOutY) hOutX)
  rw [Nat.succ_mul] at hPixels
  rw [hShape.channels] at hCase
  have hIndex : rowMajor ((d.tensors 3).dimensions 1) ((d.tensors 3).dimensions 2)
      ((d.tensors 3).dimensions 3) k.1 k.2.1 k.2.2.1 k.2.2.2 ≤
        (d.tensors 3).size - (d.tensors 3).dimensions 3 + k.2.2.2 := by
    unfold rowMajor
    omega
  unfold int32At
  rw [hAgree.load fun i hi => ?_]
  unfold besideFirst
  omega

theorem accumulateTaps_checked (dp : Nat) (outY outX : Nat)
    {tap : Nat → Nat → Nat → Nat → Int → Kernel Int} (bias : Int)
    (hTap : ∀ filterY filterX inY inX accumulator,
      (tap filterY filterX inY inX accumulator).Yields Access.Checked fun _ => True) :
    (accumulateTaps dp d outY outX tap bias).Yields Access.Checked fun _ => True := by
  refine .each fun filterY _ accumulator => (yields_descriptorAt dp).bind fun _ _ => ?_
  refine .ite (fun _ => .pure trivial) fun _ => .each fun filterX _ accumulator => ?_
  exact (yields_descriptorAt dp).bind fun _ _ => .ite (fun _ => .pure trivial) fun _ =>
    hTap _ _ _ _ _

theorem loadI32_ensures {ok : Access → Prop} {region : Region} {offset : Nat}
    (h : ok (.read region offset 4)) (m : ByteMem) :
    (loadI32 region offset).Ensures ok m fun value m' => value = int32At m offset ∧ m' = m :=
  ⟨fun _ he => (yields_loadI32 h).events he, fun _ hResult => ⟨(Option.some.inj hResult).symm, rfl⟩⟩

theorem storeRequantized_checked {outC : Nat}
    (hShift : Access.Checked (.requantize (int32At m (d.shiftAddress - base + outC * 4))))
    (index : Nat) (accumulator : Int) :
    (storeRequantized dp base d outC index accumulator).Ensures Access.Checked m fun _ m' =>
      ∀ i, i ≠ tensorData base (d.tensors 3) + index → m' i = m i := by
  refine (loadI32_ensures trivial m).bind ?_
  rintro multiplier _ ⟨-, rfl⟩
  refine (loadI32_ensures trivial _).bind ?_
  rintro shift _ ⟨hValue, rfl⟩
  rw [← hValue] at hShift
  refine .emit_bind hShift ?_
  refine (ensures_of_reads (yields_descriptorAt dp) (leaves_descriptorAt dp) _).bind ?_
  rintro now _ ⟨rfl, -⟩
  refine .emit_bind trivial (.modify fun i hi => ?_)
  exact ByteMem.store_outside _ _ (by omega)

/-- One output value uses a checked shift and stores one more byte. -/
theorem convPixel_checked (hShape : ConvShape d depthwise) (hWords : (d.tensors 3).Words)
    (hKept : ShiftsKept base d) (hShifts : ShiftsValid base d m)
    {tap : Nat → Nat → Nat → Nat → Int → Kernel Int} {k : Nat × Nat × Nat × Nat} (hk : InOutput d k)
    (hTap : ∀ filterY filterX inY inX accumulator,
      (tap filterY filterX inY inX accumulator).Yields Access.Checked fun _ => True)
    (hReads : ∀ filterY filterX inY inX accumulator,
      Leaves (fun _ => True) (tap filterY filterX inY inX accumulator))
    (hAgree : AgreeOn (besideFirst base d (rowMajor ((d.tensors 3).dimensions 1)
      ((d.tensors 3).dimensions 2) ((d.tensors 3).dimensions 3) k.1 k.2.1 k.2.2.1 k.2.2.2)) m m') :
    (convPixel dp base d tap k.1 k.2.1 k.2.2.1 k.2.2.2).Ensures Access.Checked m' fun _ m'' =>
      AgreeOn (besideFirst base d (rowMajor ((d.tensors 3).dimensions 1)
        ((d.tensors 3).dimensions 2) ((d.tensors 3).dimensions 3) k.1 k.2.1 k.2.2.1 k.2.2.2 + 1))
        m m'' := by
  have hShift : Access.Checked (.requantize
      (int32At m' (d.shiftAddress - base + k.2.2.2 * 4))) := by
    rw [hKept.int32At_eq hShape hk hAgree, Access.Checked]
    exact hShifts _ hk.2.2.2
  have hIndex := flatIndex_eq hWords hShape.output (hShape.batches ▸ hk.1) hk.2.1 hk.2.2.1 hk.2.2.2
  unfold convPixel
  rw [hIndex]
  refine (ensures_of_reads (yields_loadI32 trivial) (leaves_loadI32 _ _) m').bind ?_
  rintro bias _ ⟨rfl, -⟩
  refine (ensures_of_reads (accumulateTaps_checked dp _ _ bias hTap)
    (leaves_accumulateTaps dp d _ _ bias hReads) _).bind ?_
  rintro accumulator _ ⟨rfl, -⟩
  refine (storeRequantized_checked hShift _ accumulator).mono ?_
  intro _ m'' hOthers i hi
  unfold besideFirst at hi
  rw [hOthers i (by omega)]
  exact hAgree i (by unfold besideFirst; omega)

end Pixel

section Kernels

variable {base dp capacity : Nat} {m : ByteMem}

theorem conv2DLoops_checked {d : OperatorDescriptor} (hShape : ConvShape d false)
    (hWords : (d.tensors 3).Words) (hKept : ShiftsKept base d) (hShifts : ShiftsValid base d m) :
    (conv2DLoops dp base d).Ensures Access.Checked m fun _ _ => True := by
  refine forEachOutput_ensures (I := fun n m' => AgreeOn (besideFirst base d n) m m')
    (fun k hk m' hAgree => ?_) (refl m)
  refine convPixel_checked hShape hWords hKept hShifts hk (fun _ _ _ _ _ => ?_)
    (fun _ _ _ _ _ => .loop fun _ _ _ => .bind (leaves_centeredProduct dp _ _) fun _ =>
      .pure _) hAgree
  exact .each fun _ _ _ => (centeredProduct_checked dp _ _).bind fun _ _ => .pure trivial

theorem depthwiseLoops_checked {d : OperatorDescriptor} (hShape : ConvShape d true)
    (hWords : (d.tensors 3).Words) (hKept : ShiftsKept base d) (hShifts : ShiftsValid base d m)
    (depthMultiplier : Nat) :
    (depthwiseLoops dp base d depthMultiplier).Ensures Access.Checked m fun _ _ => True := by
  refine forEachOutput_ensures (I := fun n m' => AgreeOn (besideFirst base d n) m m')
    (fun k hk m' hAgree => ?_) (refl m)
  refine (ensures_of_reads (yields_divide _ trivial) (leaves_divide _ _) _).bind ?_
  rintro inC _ ⟨rfl, -⟩
  exact convPixel_checked hShape hWords hKept hShifts hk
    (fun _ _ _ _ _ => (centeredProduct_checked dp _ _).bind fun _ _ => .pure trivial)
    (fun _ _ _ _ _ => .bind (leaves_centeredProduct dp _ _) fun _ => .pure _) hAgree

theorem commonConvValid_ensures {d : OperatorDescriptor} (depthwise : Bool)
    (hInside : DeclaredInside d base capacity) (m : ByteMem) :
    (commonConvValid d depthwise).Ensures Access.Checked m fun _ m' =>
      m' = m ∧ ConvShape d depthwise :=
  ensures_of_reads (commonConvValid_yields (fun _ _ => trivial) depthwise hInside)
    (leaves_commonConvValid d depthwise) m

theorem checkShifts_ensures (d : OperatorDescriptor) (base : Nat) (m : ByteMem) :
    (checkShifts d base).Ensures Access.Checked m fun _ m' => m' = m ∧ ShiftsValid base d m := by
  have hYields : (checkShifts d base).Yields Access.Checked fun _ => True :=
    .each fun _ _ _ => (yields_loadI32 trivial).bind fun _ _ => (Prog.Yields.require _).forget
  have hChecks := checkShifts_checks d base m
  exact ⟨fun _ he => hYields.events he, fun _ h => ⟨hChecks.1, hChecks.2.1 h⟩⟩

theorem finish_checked (dp operations elapsed : Nat) (m : ByteMem) :
    (finishConv dp operations elapsed).Ensures Access.Checked m fun _ _ => True :=
  ⟨fun _ he => (yields_finishRun dp operations elapsed 3 _).events he, fun _ _ => trivial⟩

variable (hInside : DeclaredInside (.read m dp) base capacity)
  (hKept : (OperatorDescriptor.read m dp).tensorCount = 4 → ShiftsKept base (.read m dp))
  (elapsed : Nat)

include hInside hKept

theorem conv2D_checked :
    (runGem5HybridConv2D dp base elapsed).Ensures Access.Checked m fun _ _ => True := by
  refine .congr (descriptorAt_bind dp _ m) ?_
  unfold conv2DFrom
  refine .bind (Q := fun _ m' => m' = m ∧ ConvShape (.read m dp) false ∧
    ShiftsValid base (.read m dp) m) ?_ ?_
  · refine (commonConvValid_ensures false hInside m).bind ?_
    rintro _ _ ⟨rfl, hShape⟩
    exact (checkShifts_ensures _ base _).mono fun _ _ h => ⟨h.1, hShape, h.2⟩
  · rintro _ _ ⟨rfl, hShape, hShifts⟩
    refine (conv2DLoops_checked hShape (hInside.words 3) (hKept hShape.tensorCount) hShifts).bind ?_
    exact fun _ m' _ => finish_checked dp _ elapsed m'

theorem depthwise_checked :
    (runGem5HybridDepthwiseConv2D dp base elapsed).Ensures Access.Checked m fun _ _ => True := by
  refine .congr (descriptorAt_bind dp _ m) ?_
  unfold depthwiseFrom
  refine .bind (Q := fun _ m' => m' = m ∧ ConvShape (.read m dp) true ∧
    ShiftsValid base (.read m dp) m) ?_ ?_
  · refine (commonConvValid_ensures true hInside m).bind ?_
    rintro _ _ ⟨rfl, hShape⟩
    refine (ensures_of_reads (yields_divide _ trivial) (leaves_divide _ _) _).bind ?_
    rintro depthMultiplier _ ⟨rfl, -⟩
    refine (checkShifts_ensures _ base _).bind ?_
    rintro _ _ ⟨rfl, hShifts⟩
    exact .pure ⟨rfl, hShape, hShifts⟩
  · rintro depthMultiplier _ ⟨rfl, hShape, hShifts⟩
    refine (depthwiseLoops_checked hShape (hInside.words 3) (hKept hShape.tensorCount) hShifts
      depthMultiplier).bind ?_
    exact fun _ m' _ => finish_checked dp _ elapsed m'

end Kernels

/-- Every shift amount of a dispatched convolution is below the width it is applied to. -/
theorem dispatch_shifts_checked {F : Type} (ops : FloatOps F) {m : ByteMem}
    {dp base capacity : Nat} (elapsed : Nat) {depthwise : Bool}
    (hOpcode : OperatorOpcode.ofCode (OperatorDescriptor.read m dp).opcode =
      some (convOpcode depthwise))
    (hKept : ShiftsKept base (.read m dp)) (shift : Int)
    (hUsed : .requantize shift ∈
      (dispatchGem5HybridOperator ops dp base capacity elapsed m).trace) :
    (-31 ≤ shift ∧ shift ≤ 30) ∧ (max shift 0).toNat < 64 ∧ (max (-shift) 0).toNat < 32 := by
  by_cases hValid : validateGem5HybridDescriptor (.read m dp) base capacity = .none
  · obtain ⟨hSame, hInside⟩ := started_declaredInside hValid
    have hStarted : (OperatorDescriptor.read (started dp m) dp).opcode =
        (OperatorDescriptor.read m dp).opcode := started_load dp m (by omega) (by omega)
    have hKept' : (OperatorDescriptor.read (started dp m) dp).tensorCount = 4 →
        ShiftsKept base (.read (started dp m) dp) := fun hCount =>
      hKept.of_sameRanges hSame (by rw [← hSame.tensorCount, hCount]; decide)
    rw [dispatch_trace_valid hValid, hStarted, hOpcode] at hUsed
    have hChecked : Access.Checked (.requantize shift) := by
      cases depthwise with
      | true => exact (depthwise_checked hInside hKept' elapsed).1 _ hUsed
      | false => exact (conv2D_checked hInside hKept' elapsed).1 _ hUsed
    rw [Access.Checked] at hChecked
    exact ⟨hChecked, by omega, by omega⟩
  · rw [dispatch_trace_rejected hValid] at hUsed
    cases hUsed

end OpenNpux.Hybrid
