import OpenNpux.Hybrid.Checks
import OpenNpux.Hybrid.Rounding

/-!
# The convolution kernels

The two kernels share the nested loops, the tap coordinates and the requantized store,
and differ in the channel a tap reads. Sizes and pointers are the values at entry;
strides, padding, zero points and activation bounds are read again at each use, since an
output store may fall on the descriptor.
-/

namespace OpenNpux.Hybrid

open Lib

/-- The index `((b * h + y) * w + x) * c + i` in 32-bit arithmetic. -/
def flatIndex (h w c b y x i : Nat) : Nat := u32 (((b * h + y) * w + x) * c + i)

def tapCoordinate (out stride tap padding : Nat) : Int :=
  i32 (u32 (out * stride + tap - padding))

def checkShifts (d : OperatorDescriptor) (base : Nat) : Kernel Unit :=
  Prog.loop ((d.tensors 3).dimensions 3) () fun i _ => do
    let shift ← loadI32 .shift (d.shiftAddress - base + i * 4)
    Prog.require (decide (-31 ≤ shift) && decide (shift ≤ 30))

/-- The two tap loops of one output value; `continue` keeps the accumulator. -/
def accumulateTaps (dp : Nat) (d : OperatorDescriptor) (outY outX : Nat)
    (tap : Nat → Nat → Nat → Nat → Int → Kernel Int) (bias : Int) : Kernel Int :=
  Prog.loop ((d.tensors 1).dimensions 1) bias fun filterY accumulator => do
    let now ← descriptorAt dp
    let inY := tapCoordinate outY now.strideHeight filterY now.paddingHeight
    if inY < 0 ∨ inY ≥ i32 ((d.tensors 0).dimensions 1) then return accumulator
    Prog.loop ((d.tensors 1).dimensions 2) accumulator fun filterX accumulator => do
      let now ← descriptorAt dp
      let inX := tapCoordinate outX now.strideWidth filterX now.paddingWidth
      if inX < 0 ∨ inX ≥ i32 ((d.tensors 0).dimensions 2) then return accumulator
      tap filterY filterX inY.toNat inX.toNat accumulator

def storeRequantized (dp base : Nat) (d : OperatorDescriptor) (outC index : Nat)
    (accumulator : Int) : Kernel Unit := do
  let multiplier ← loadI32 .multiplier (d.multiplierAddress - base + outC * 4)
  let shift ← loadI32 .shift (d.shiftAddress - base + outC * 4)
  Prog.emit (.requantize shift)
  let now ← descriptorAt dp
  let scaled := i32 (multiplyByQuantizedMultiplier (saturate32 accumulator) multiplier shift +
    now.outputZeroPoint)
  storeI8 (.tensor 3) (tensorData base (d.tensors 3) + index) (clampActivation now scaled)

def forEachOutput (d : OperatorDescriptor) (body : Nat → Nat → Nat → Nat → Kernel Unit) :
    Kernel Unit :=
  Prog.loop ((d.tensors 0).dimensions 0) () fun batch _ =>
    Prog.loop ((d.tensors 3).dimensions 1) () fun outY _ =>
      Prog.loop ((d.tensors 3).dimensions 2) () fun outX _ =>
        Prog.loop ((d.tensors 3).dimensions 3) () fun outC _ => body batch outY outX outC

/-- One output value: bias, taps, requantization and store. -/
def convPixel (dp base : Nat) (d : OperatorDescriptor)
    (tap : Nat → Nat → Nat → Nat → Int → Kernel Int) (batch outY outX outC : Nat) :
    Kernel Unit := do
  let bias ← loadI32 (.tensor 2) (tensorData base (d.tensors 2) + outC * 4)
  let accumulator ← accumulateTaps dp d outY outX tap bias
  storeRequantized dp base d outC
    (flatIndex ((d.tensors 3).dimensions 1) ((d.tensors 3).dimensions 2)
      ((d.tensors 3).dimensions 3) batch outY outX outC) accumulator

def finishConv (dp operations elapsed : Nat) : Kernel Unit :=
  finishRun dp operations elapsed 3 fun now =>
    u64 (u32 ((now.tensors 0).size + (now.tensors 1).size + (now.tensors 2).size) +
      2 * now.quantizationCount * 4)

def conv2DTap (dp base : Nat) (d : OperatorDescriptor)
    (batch outC filterY filterX inY inX : Nat) (accumulator : Int) : Kernel Int :=
  let input := d.tensors 0
  let filter := d.tensors 1
  Prog.loop (input.dimensions 3) accumulator fun inC accumulator => do
    let inputIndex := flatIndex (input.dimensions 1) (input.dimensions 2) (input.dimensions 3)
      batch inY inX inC
    let filterIndex := flatIndex (filter.dimensions 1) (filter.dimensions 2) (input.dimensions 3)
      outC filterY filterX inC
    let product ← centeredProduct dp (tensorData base input + inputIndex)
      (tensorData base filter + filterIndex)
    return i64 (accumulator + product)

def conv2DChecks (base : Nat) (d : OperatorDescriptor) : Kernel Unit := do
  commonConvValid d false
  checkShifts d base

def conv2DLoops (dp base : Nat) (d : OperatorDescriptor) : Kernel Unit :=
  forEachOutput d fun batch outY outX outC =>
    convPixel dp base d (conv2DTap dp base d batch outC) batch outY outX outC

def conv2DFrom (dp base elapsed : Nat) (d : OperatorDescriptor) : Kernel Unit := do
  let input := d.tensors 0
  let filter := d.tensors 1
  let output := d.tensors 3
  conv2DChecks base d
  conv2DLoops dp base d
  finishConv dp (u64 (input.dimensions 0 * output.dimensions 1 * output.dimensions 2 *
    output.dimensions 3 * filter.dimensions 1 * filter.dimensions 2 * input.dimensions 3)) elapsed

def runGem5HybridConv2D (dp base elapsed : Nat) : Kernel Unit := do
  conv2DFrom dp base elapsed (← descriptorAt dp)

def depthwiseTap (dp base : Nat) (d : OperatorDescriptor)
    (batch outC inC filterY filterX inY inX : Nat) (accumulator : Int) : Kernel Int := do
  let input := d.tensors 0
  let filter := d.tensors 1
  let inputIndex := flatIndex (input.dimensions 1) (input.dimensions 2) (input.dimensions 3)
    batch inY inX inC
  let filterIndex := u32 ((filterY * filter.dimensions 2 + filterX) * (d.tensors 3).dimensions 3 +
    outC)
  let product ← centeredProduct dp (tensorData base input + inputIndex)
    (tensorData base filter + filterIndex)
  return i64 (accumulator + product)

def depthwiseChecks (base : Nat) (d : OperatorDescriptor) : Kernel Nat := do
  commonConvValid d true
  let depthMultiplier ← divide ((d.tensors 3).dimensions 3) ((d.tensors 0).dimensions 3)
  checkShifts d base
  return depthMultiplier

def depthwiseLoops (dp base : Nat) (d : OperatorDescriptor) (depthMultiplier : Nat) :
    Kernel Unit :=
  forEachOutput d fun batch outY outX outC => do
    let inC ← divide outC depthMultiplier
    convPixel dp base d (depthwiseTap dp base d batch outC inC) batch outY outX outC

def depthwiseFrom (dp base elapsed : Nat) (d : OperatorDescriptor) : Kernel Unit := do
  let output := d.tensors 3
  let filter := d.tensors 1
  let depthMultiplier ← depthwiseChecks base d
  depthwiseLoops dp base d depthMultiplier
  finishConv dp (u64 ((d.tensors 0).dimensions 0 * output.dimensions 1 * output.dimensions 2 *
    output.dimensions 3 * filter.dimensions 1 * filter.dimensions 2)) elapsed

def runGem5HybridDepthwiseConv2D (dp base elapsed : Nat) : Kernel Unit := do
  depthwiseFrom dp base elapsed (← descriptorAt dp)

/-! ## Index bounds -/

theorem flatIndex_lt {n h w c b y x i : Nat} (hb : b < n) (hy : y < h) (hx : x < w) (hi : i < c)
    (hWord : n * h * w * c < 2 ^ 32) : flatIndex h w c b y x i < n * h * w * c := by
  have hExact : ((b * h + y) * w + x) * c + i < n * h * w * c :=
    flat_lt (flat_lt (flat_lt hb hy) hx) hi
  have hCast : flatIndex h w c b y x i = ((b * h + y) * w + x) * c + i := by
    exact_mod_cast u32_natCast (hExact.trans hWord)
  rwa [hCast]

theorem flatIndex_lt_size {t : OperatorTensor} {b y x i : Nat} (hWords : t.Words)
    (hSize : t.size = t.volume) (hb : b < t.dimensions 0) (hy : y < t.dimensions 1)
    (hx : x < t.dimensions 2) (hi : i < t.dimensions 3) :
    flatIndex (t.dimensions 1) (t.dimensions 2) (t.dimensions 3) b y x i < t.size := by
  have hWord := hWords.size
  rw [hSize] at hWord ⊢
  exact flatIndex_lt hb hy hx hi hWord

/-- A coordinate that passes the signed range test is an index below an unsigned size. -/
theorem toNat_lt_of_tap {z : Int} {n : Nat} (hn : n < 2 ^ 32) (h : ¬(z < 0 ∨ z ≥ i32 n)) :
    z.toNat < n := by
  rw [not_or, not_lt, not_le] at h
  have hLe : i32 (n : Int) ≤ n := by
    by_cases hSmall : n < 2 ^ 31
    · exact (i32_of_range (by omega) (by omega)).le
    · have := (i32_range n).2
      omega
  omega

section Events

variable {d : OperatorDescriptor} {base capacity : Nat} (hInside : DeclaredInside d base capacity)
include hInside

variable {depthwise : Bool} (hShape : ConvShape d depthwise)
include hShape

theorem checkShifts_yields : Safe d base capacity (checkShifts d base) := by
  refine .each fun i hi _ => ?_
  have hShift := hInside.within_shift (i := i) (by rw [hShape.channels]; exact hi)
  exact (yields_loadI32 hShift).bind fun _ _ => (Prog.Yields.require _).forget

omit hShape in
theorem accumulateTaps_yields (dp : Nat) {outY outX : Nat}
    {tap : Nat → Nat → Nat → Nat → Int → Kernel Int} (bias : Int)
    (hTap : ∀ filterY filterX inY inX accumulator, filterY < (d.tensors 1).dimensions 1 →
      filterX < (d.tensors 1).dimensions 2 → inY < (d.tensors 0).dimensions 1 →
      inX < (d.tensors 0).dimensions 2 →
      Safe d base capacity (tap filterY filterX inY inX accumulator)) :
    Safe d base capacity (accumulateTaps dp d outY outX tap bias) := by
  refine .each fun filterY hFilterY accumulator => ?_
  refine (yields_descriptorAt dp).bind fun now _ => ?_
  refine .ite (fun _ => .pure trivial) fun hInY => ?_
  refine .each fun filterX hFilterX accumulator => ?_
  refine (yields_descriptorAt dp).bind fun now' _ => ?_
  refine .ite (fun _ => .pure trivial) fun hInX => ?_
  exact hTap _ _ _ _ _ hFilterY hFilterX
    (toNat_lt_of_tap ((hInside.words 0).dimensions 1) hInY)
    (toNat_lt_of_tap ((hInside.words 0).dimensions 2) hInX)

theorem storeRequantized_yields (dp : Nat) {outC index : Nat} (accumulator : Int)
    (hOutC : outC < (d.tensors 3).dimensions 3) (hIndex : index < (d.tensors 3).size) :
    Safe d base capacity (storeRequantized dp base d outC index accumulator) := by
  have hChannel : outC < d.quantizationCount := by rw [hShape.channels]; exact hOutC
  have hCount := hShape.tensorCount
  refine (yields_loadI32 (hInside.within_multiplier hChannel)).bind fun _ _ => ?_
  refine (yields_loadI32 (hInside.within_shift hChannel)).bind fun _ _ => ?_
  refine (Prog.Yields.emit trivial).bind fun _ _ => ?_
  refine (yields_descriptorAt dp).bind fun _ _ => ?_
  exact yields_storeI8 (hInside.within_tensor (by omega) (by omega))

theorem convPixel_yields (dp : Nat) {batch outY outX outC : Nat}
    {tap : Nat → Nat → Nat → Nat → Int → Kernel Int}
    (hBias : (d.tensors 3).dimensions 3 ≤ (d.tensors 2).dimensions 0)
    (hBatch : batch < (d.tensors 0).dimensions 0) (hOutY : outY < (d.tensors 3).dimensions 1)
    (hOutX : outX < (d.tensors 3).dimensions 2) (hOutC : outC < (d.tensors 3).dimensions 3)
    (hTap : ∀ filterY filterX inY inX accumulator, filterY < (d.tensors 1).dimensions 1 →
      filterX < (d.tensors 1).dimensions 2 → inY < (d.tensors 0).dimensions 1 →
      inX < (d.tensors 0).dimensions 2 →
      Safe d base capacity (tap filterY filterX inY inX accumulator)) :
    Safe d base capacity (convPixel dp base d tap batch outY outX outC) := by
  have hCount := hShape.tensorCount
  have hBiasSize := hShape.bias
  have hIndex : flatIndex ((d.tensors 3).dimensions 1) ((d.tensors 3).dimensions 2)
      ((d.tensors 3).dimensions 3) batch outY outX outC < (d.tensors 3).size :=
    flatIndex_lt_size (hInside.words 3) hShape.output (hShape.batches ▸ hBatch) hOutY hOutX hOutC
  refine (yields_loadI32 (hInside.within_tensor (by omega) (by omega))).bind fun bias _ => ?_
  refine (accumulateTaps_yields hInside dp bias hTap).bind fun accumulator _ => ?_
  exact storeRequantized_yields hInside hShape dp accumulator hOutC hIndex

omit hInside hShape in
theorem forEachOutput_yields {body : Nat → Nat → Nat → Nat → Kernel Unit}
    (hBody : ∀ batch outY outX outC, batch < (d.tensors 0).dimensions 0 →
      outY < (d.tensors 3).dimensions 1 → outX < (d.tensors 3).dimensions 2 →
      outC < (d.tensors 3).dimensions 3 → Safe d base capacity (body batch outY outX outC)) :
    Safe d base capacity (forEachOutput d body) :=
  .each fun _ hBatch _ => .each fun _ hOutY _ => .each fun _ hOutX _ => .each fun _ hOutC _ =>
    hBody _ _ _ _ hBatch hOutY hOutX hOutC

omit hShape in
theorem conv2DTap_yields (dp : Nat) (hShape : ConvShape d false) {batch outC : Nat}
    (hBatch : batch < (d.tensors 0).dimensions 0) (hOutC : outC < (d.tensors 3).dimensions 3)
    {filterY filterX inY inX : Nat} (accumulator : Int)
    (hFilterY : filterY < (d.tensors 1).dimensions 1)
    (hFilterX : filterX < (d.tensors 1).dimensions 2) (hInY : inY < (d.tensors 0).dimensions 1)
    (hInX : inX < (d.tensors 0).dimensions 2) :
    Safe d base capacity
      (conv2DTap dp base d batch outC filterY filterX inY inX accumulator) := by
  obtain ⟨hFilters, hDepth⟩ : (d.tensors 1).dimensions 0 = (d.tensors 3).dimensions 3 ∧
      (d.tensors 1).dimensions 3 = (d.tensors 0).dimensions 3 := hShape.layout
  have hCount := hShape.tensorCount
  refine .each fun inC hInC accumulator => ?_
  have hInput := flatIndex_lt_size (hInside.words 0) hShape.input hBatch hInY hInX hInC
  have hFilter := flatIndex_lt_size (hInside.words 1) hShape.filter (hFilters ▸ hOutC) hFilterY
    hFilterX (hDepth ▸ hInC)
  rw [hDepth] at hFilter
  exact (centeredProduct_yields hInside dp (by omega) hInput hFilter).bind fun _ _ => .pure trivial

omit hShape in
theorem depthwiseTap_yields (dp : Nat) (hShape : ConvShape d true) {batch outC inC : Nat}
    (hBatch : batch < (d.tensors 0).dimensions 0) (hOutC : outC < (d.tensors 3).dimensions 3)
    (hInC : inC < (d.tensors 0).dimensions 3) {filterY filterX inY inX : Nat} (accumulator : Int)
    (hFilterY : filterY < (d.tensors 1).dimensions 1)
    (hFilterX : filterX < (d.tensors 1).dimensions 2) (hInY : inY < (d.tensors 0).dimensions 1)
    (hInX : inX < (d.tensors 0).dimensions 2) :
    Safe d base capacity
      (depthwiseTap dp base d batch outC inC filterY filterX inY inX accumulator) := by
  obtain ⟨hFilters, hDepth, _⟩ : (d.tensors 1).dimensions 0 = 1 ∧
      (d.tensors 1).dimensions 3 = (d.tensors 3).dimensions 3 ∧
      (d.tensors 0).dimensions 3 ∣ (d.tensors 3).dimensions 3 := hShape.layout
  have hCount := hShape.tensorCount
  have hInput := flatIndex_lt_size (hInside.words 0) hShape.input hBatch hInY hInX hInC
  have hFilter := flatIndex_lt_size (b := 0) (hInside.words 1) hShape.filter (by omega) hFilterY
    hFilterX (hDepth ▸ hOutC)
  simp only [flatIndex, hDepth, Nat.cast_zero, zero_mul, zero_add] at hFilter
  exact (centeredProduct_yields hInside dp (by omega) hInput hFilter).bind fun _ _ => .pure trivial

omit hShape in
theorem conv2DChecks_yields :
    (conv2DChecks base d).Yields (Access.Inside d base capacity) fun _ => ConvShape d false := by
  refine (commonConvValid_yields (fun _ hb => hb) false hInside).bind fun _ hShape => ?_
  exact (checkShifts_yields hInside hShape).mono fun _ _ => hShape

omit hShape in
theorem ConvShape.input_channels_ne_zero (hShape : ConvShape d depthwise) :
    (d.tensors 0).dimensions 3 ≠ 0 := by
  have hSize := (hInside.tensors 0 (by rw [hShape.tensorCount]; omega)).nonempty
  rw [hShape.input, OperatorTensor.volume] at hSize
  exact Nat.ne_of_gt (Nat.pos_of_mul_pos_left hSize)

omit hShape in
theorem depthwiseChecks_yields :
    (depthwiseChecks base d).Yields (Access.Inside d base capacity) fun depthMultiplier =>
      ConvShape d true ∧
        depthMultiplier = (d.tensors 3).dimensions 3 / (d.tensors 0).dimensions 3 := by
  refine (commonConvValid_yields (fun _ hb => hb) true hInside).bind fun _ hShape => ?_
  have hInput : Access.Inside d base capacity (.divide ((d.tensors 0).dimensions 3)) :=
    hShape.input_channels_ne_zero hInside
  refine (yields_divide _ hInput).bind fun depthMultiplier hq => ?_
  exact (checkShifts_yields hInside hShape).bind fun _ _ => .pure ⟨hShape, hq⟩

omit hShape in
/-- With a bias value for each output channel the convolution stays inside. -/
theorem conv2DLoops_yields (dp : Nat) (hShape : ConvShape d false)
    (hBias : (d.tensors 3).dimensions 3 ≤ (d.tensors 2).dimensions 0) :
    Safe d base capacity (conv2DLoops dp base d) :=
  forEachOutput_yields fun _ _ _ _ hBatch hOutY hOutX hOutC =>
    convPixel_yields hInside hShape dp hBias hBatch hOutY hOutX hOutC
      fun _ _ _ _ accumulator hFilterY hFilterX hInY hInX =>
        conv2DTap_yields hInside dp hShape hBatch hOutC accumulator hFilterY hFilterX hInY hInX

omit hShape in
theorem depthwiseLoops_yields (dp : Nat) (hShape : ConvShape d true)
    (hBias : (d.tensors 3).dimensions 3 ≤ (d.tensors 2).dimensions 0) :
    Safe d base capacity (depthwiseLoops dp base d
      ((d.tensors 3).dimensions 3 / (d.tensors 0).dimensions 3)) := by
  refine forEachOutput_yields fun batch outY outX outC hBatch hOutY hOutX hOutC => ?_
  obtain ⟨_, _, multiplier, hMultiplier⟩ : (d.tensors 1).dimensions 0 = 1 ∧
      (d.tensors 1).dimensions 3 = (d.tensors 3).dimensions 3 ∧
      (d.tensors 0).dimensions 3 ∣ (d.tensors 3).dimensions 3 := hShape.layout
  have hChannels := hShape.input_channels_ne_zero hInside
  rw [hMultiplier, Nat.mul_div_cancel_left _ (Nat.pos_of_ne_zero hChannels)]
  have hne : multiplier ≠ 0 := by
    rintro rfl
    omega
  refine (yields_divide outC (b := multiplier) hne).bind fun inC hInC => ?_
  have hInput : inC < (d.tensors 0).dimensions 3 := by
    rw [hInC, Nat.div_lt_iff_lt_mul (Nat.pos_of_ne_zero hne), ← hMultiplier]
    exact hOutC
  exact convPixel_yields hInside hShape dp hBias hBatch hOutY hOutX hOutC
    fun _ _ _ _ accumulator hFilterY hFilterX hInY hInX =>
      depthwiseTap_yields hInside dp hShape hBatch hOutC hInput accumulator hFilterY
        hFilterX hInY hInX

end Events

/-! ## Reaching the bias -/

theorem accumulateTaps_total (dp : Nat) (d : OperatorDescriptor) (outY outX : Nat) (bias : Int)
    {tap : Nat → Nat → Nat → Nat → Int → Kernel Int}
    (hTap : ∀ filterY filterX inY inX accumulator,
      (tap filterY filterX inY inX accumulator).Total) :
    (accumulateTaps dp d outY outX tap bias).Total := by
  refine .loop fun filterY _ accumulator => ?_
  refine (total_descriptorAt dp).bind fun now => .ite (.pure _) (.loop fun filterX _ _ => ?_)
  exact (total_descriptorAt dp).bind fun now' => .ite (.pure _) (hTap _ _ _ _ _)

theorem convPixel_total (dp base : Nat) (d : OperatorDescriptor)
    {tap : Nat → Nat → Nat → Nat → Int → Kernel Int}
    (hTap : ∀ filterY filterX inY inX accumulator, (tap filterY filterX inY inX accumulator).Total)
    (batch outY outX outC : Nat) : (convPixel dp base d tap batch outY outX outC).Total := by
  refine (total_loadI32 _ _).bind fun bias => ?_
  refine (accumulateTaps_total dp d outY outX bias hTap).bind fun accumulator => ?_
  refine (total_loadI32 _ _).bind fun multiplier => (total_loadI32 _ _).bind fun shift => ?_
  refine (Prog.Total.emit _).bind fun _ => ?_
  exact (total_descriptorAt dp).bind fun now => total_storeI8 _ _ _

theorem convPixel_reaches (dp base : Nat) (d : OperatorDescriptor)
    (tap : Nat → Nat → Nat → Nat → Int → Kernel Int) (batch outY outX outC : Nat) :
    (convPixel dp base d tap batch outY outX outC).Reaches
      (.read (.tensor 2) (tensorData base (d.tensors 2) + outC * 4) 4) :=
  (((Prog.Reaches.emit _).bind_left _).bind_left _).bind_left _

theorem forEachOutput_reaches {d : OperatorDescriptor} {e : Access} {outC : Nat}
    {body : Nat → Nat → Nat → Nat → Kernel Unit} (hShape : 0 < (d.tensors 3).volume)
    (hBatches : (d.tensors 3).dimensions 0 = (d.tensors 0).dimensions 0)
    (hOutC : outC < (d.tensors 3).dimensions 3)
    (hTotal : ∀ batch outY outX outC, (body batch outY outX outC).Total)
    (hReaches : ∀ batch outY outX, (body batch outY outX outC).Reaches e) :
    (forEachOutput d body).Reaches e := by
  rw [OperatorTensor.volume, hBatches, Nat.mul_pos_iff_of_pos_right (by omega)] at hShape
  have hOutX := Nat.pos_of_mul_pos_left hShape
  have hRows := Nat.pos_of_mul_pos_right hShape
  have hOutY := Nat.pos_of_mul_pos_left hRows
  have hBatch := Nat.pos_of_mul_pos_right hRows
  have hLoop : ∀ batch outY outX, (Prog.loop ((d.tensors 3).dimensions 3) ()
      fun outC _ => body batch outY outX outC).Total := fun _ _ _ =>
    .loop fun _ _ _ => hTotal _ _ _ _
  exact .loop hBatch (fun _ _ => .loop fun _ _ _ => .loop fun _ _ _ => hLoop _ _ _) fun _ =>
    .loop hOutY (fun _ _ => .loop fun _ _ _ => hLoop _ _ _) fun _ =>
      .loop hOutX (fun _ _ => hLoop _ _ _) fun _ =>
        .loop hOutC (fun _ _ => hTotal _ _ _ _) fun _ => hReaches _ _ _

theorem conv2DLoops_reaches (dp base : Nat) {d : OperatorDescriptor} {outC : Nat}
    (hShape : ConvShape d false) (hOutput : 0 < (d.tensors 3).size)
    (hOutC : outC < (d.tensors 3).dimensions 3) :
    (conv2DLoops dp base d).Reaches
      (.read (.tensor 2) (tensorData base (d.tensors 2) + outC * 4) 4) := by
  refine forEachOutput_reaches (hShape.output ▸ hOutput) hShape.batches hOutC
    (fun _ _ _ _ => convPixel_total dp base d (fun _ _ _ _ _ => .loop fun _ _ _ => ?_) _ _ _ _)
    fun _ _ _ => convPixel_reaches dp base d _ _ _ _ _
  exact (centeredProduct_total dp _ _).bind fun _ => .pure _

theorem depthwiseLoops_reaches (dp base : Nat) {d : OperatorDescriptor} {outC : Nat}
    (hShape : ConvShape d true) (hOutput : 0 < (d.tensors 3).size)
    (hOutC : outC < (d.tensors 3).dimensions 3) (depthMultiplier : Nat) :
    (depthwiseLoops dp base d depthMultiplier).Reaches
      (.read (.tensor 2) (tensorData base (d.tensors 2) + outC * 4) 4) := by
  refine forEachOutput_reaches (hShape.output ▸ hOutput) hShape.batches hOutC ?_ ?_
  · refine fun _ _ _ _ => (total_divide _ _).bind fun inC => ?_
    exact convPixel_total dp base d
      (fun _ _ _ _ _ => (centeredProduct_total dp _ _).bind fun _ => .pure _) _ _ _ _
  · exact fun _ _ _ => .bind_right (total_divide _ _) fun inC =>
      convPixel_reaches dp base d _ _ _ _ _

end OpenNpux.Hybrid
