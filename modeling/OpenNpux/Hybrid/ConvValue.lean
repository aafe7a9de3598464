import OpenNpux.Hybrid.Values

/-!
# What a convolution stores

With the output apart from everything that a kernel reads, each output value is a function
of the memory at the start: the bias, the sum over the taps that fall into the input, and
the requantization of the channel. Both kernels fill the output tensor with these values;
they differ in the term of a tap.
-/

namespace OpenNpux.Hybrid

open Lib Finset

/-! ## Indices -/

def rowMajor (h w c b y x i : Nat) : Nat := ((b * h + y) * w + x) * c + i

/-- The element of a rank-four int8 tensor. -/
def OperatorTensor.element (t : OperatorTensor) (base : Nat) (m : ByteMem) (b y x i : Nat) : Int :=
  int8At m (tensorData base t +
    rowMajor (t.dimensions 1) (t.dimensions 2) (t.dimensions 3) b y x i)

theorem rowMajor_lt {n h w c b y x i : Nat} (hb : b < n) (hy : y < h) (hx : x < w) (hi : i < c) :
    rowMajor h w c b y x i < n * h * w * c :=
  flat_lt (flat_lt (flat_lt hb hy) hx) hi

theorem rowMajor_channels (h w c b y x : Nat) :
    rowMajor h w c b y x c = rowMajor h w c b y (x + 1) 0 := by
  unfold rowMajor
  ring

theorem rowMajor_columns (h w c b y : Nat) :
    rowMajor h w c b y w 0 = rowMajor h w c b (y + 1) 0 0 := by
  unfold rowMajor
  ring

theorem rowMajor_rows (h w c b : Nat) :
    rowMajor h w c b h 0 0 = rowMajor h w c (b + 1) 0 0 0 := by
  unfold rowMajor
  ring

theorem rowMajor_injective {h w c b y x i b' y' x' i' : Nat} (hy : y < h) (hx : x < w) (hi : i < c)
    (hy' : y' < h) (hx' : x' < w) (hi' : i' < c)
    (hEq : rowMajor h w c b y x i = rowMajor h w c b' y' x' i') :
    b = b' ∧ y = y' ∧ x = x' ∧ i = i' := by
  obtain ⟨hPixel, hChannel⟩ := flat_injective hi hi' hEq
  obtain ⟨hRow, hColumn⟩ := flat_injective hx hx' hPixel
  obtain ⟨hBatch, hY⟩ := flat_injective hy hy' hRow
  exact ⟨hBatch, hY, hColumn, hChannel⟩

theorem flatIndex_eq {t : OperatorTensor} {b y x i : Nat} (hWords : t.Words)
    (hSize : t.size = t.volume) (hb : b < t.dimensions 0) (hy : y < t.dimensions 1)
    (hx : x < t.dimensions 2) (hi : i < t.dimensions 3) :
    flatIndex (t.dimensions 1) (t.dimensions 2) (t.dimensions 3) b y x i =
      rowMajor (t.dimensions 1) (t.dimensions 2) (t.dimensions 3) b y x i := by
  have hLess := rowMajor_lt hb hy hx hi
  have hWord := hWords.size
  rw [hSize, OperatorTensor.volume] at hWord
  unfold flatIndex rowMajor at *
  exact_mod_cast u32_natCast (hLess.trans hWord)

theorem i64_add (y z : Int) : i64 (i64 y + z) = i64 (y + z) := by
  unfold i64
  exact Int.bmod_add_bmod

/-! ## The output apart from what is read -/

/-- The output range of a convolution is disjoint from what the kernel reads. The bias is
the array of one value for each output channel. -/
structure RegionsApart (base dp : Nat) (d : OperatorDescriptor) : Prop where
  input : ApartFrom base (d.tensors 3) (tensorData base (d.tensors 0)) (d.tensors 0).size
  filter : ApartFrom base (d.tensors 3) (tensorData base (d.tensors 1)) (d.tensors 1).size
  bias : ApartFrom base (d.tensors 3) (tensorData base (d.tensors 2))
    ((d.tensors 3).dimensions 3 * 4)
  multipliers : ApartFrom base (d.tensors 3) (d.multiplierAddress - base) (d.quantizationCount * 4)
  shifts : ApartFrom base (d.tensors 3) (d.shiftAddress - base) (d.quantizationCount * 4)
  descriptor : ApartFrom base (d.tensors 3) dp descriptorBytes

/-! ## Taps -/

/-- The input coordinate of a tap, unless it falls outside the input. -/
def tapIndex (out stride tap padding size : Nat) : Option Nat :=
  let z := tapCoordinate out stride tap padding
  if z < 0 ∨ z ≥ i32 size then none else some z.toNat

/-- The term of a tap, zero outside the input. -/
def tapTerm (d : OperatorDescriptor) (outY outX : Nat) (term : Nat → Nat → Nat → Nat → Int)
    (filterY filterX : Nat) : Int :=
  (tapIndex outY d.strideHeight filterY d.paddingHeight ((d.tensors 0).dimensions 1)).elim 0
    fun inY => (tapIndex outX d.strideWidth filterX d.paddingWidth
      ((d.tensors 0).dimensions 2)).elim 0 fun inX => term filterY filterX inY inX

def tapSum (d : OperatorDescriptor) (outY outX : Nat) (term : Nat → Nat → Nat → Nat → Int) : Int :=
  ∑ filterY ∈ range ((d.tensors 1).dimensions 1), ∑ filterX ∈ range ((d.tensors 1).dimensions 2),
    tapTerm d outY outX term filterY filterX

theorem tapIndex_outside {out stride tap padding size : Nat}
    (h : tapCoordinate out stride tap padding < 0 ∨
      tapCoordinate out stride tap padding ≥ i32 size) :
    tapIndex out stride tap padding size = none := by
  rw [tapIndex, if_pos h]

theorem tapIndex_inside {out stride tap padding size : Nat}
    (h : ¬(tapCoordinate out stride tap padding < 0 ∨
      tapCoordinate out stride tap padding ≥ i32 size)) :
    tapIndex out stride tap padding size = some (tapCoordinate out stride tap padding).toNat := by
  rw [tapIndex, if_neg h]

theorem tapIndex_lt {out stride tap padding size i : Nat} (hSize : size < 2 ^ 32)
    (h : tapIndex out stride tap padding size = some i) : i < size := by
  by_cases hOutside : tapCoordinate out stride tap padding < 0 ∨
      tapCoordinate out stride tap padding ≥ i32 size
  · rw [tapIndex_outside hOutside] at h
    cases h
  · rw [tapIndex_inside hOutside] at h
    obtain rfl := Option.some.inj h
    exact toNat_lt_of_tap hSize hOutside

section Taps

variable {dp : Nat} {d : OperatorDescriptor} {m : ByteMem} {outY outX : Nat}
  {tap : Nat → Nat → Nat → Nat → Int → Kernel Int} {term : Nat → Nat → Nat → Nat → Int}

/-- The accumulator is the exact sum reduced to 64 bits. -/
theorem accumulateTaps_evaluates (hSame : SameParameters d (.read m dp)) (bias : Int)
    (hTap : ∀ filterY < (d.tensors 1).dimensions 1, ∀ filterX < (d.tensors 1).dimensions 2,
      ∀ inY inX,
      tapIndex outY d.strideHeight filterY d.paddingHeight ((d.tensors 0).dimensions 1) = some inY →
      tapIndex outX d.strideWidth filterX d.paddingWidth ((d.tensors 0).dimensions 2) = some inX →
      ∀ z, (tap filterY filterX inY inX (i64 z)).Evaluates m
        (i64 (z + term filterY filterX inY inX))) :
    (accumulateTaps dp d outY outX tap (i64 bias)).Evaluates m
      (i64 (bias + tapSum d outY outX term)) := by
  refine .loop (fun k => i64 (bias + ∑ filterY ∈ range k,
    ∑ filterX ∈ range ((d.tensors 1).dimensions 2), tapTerm d outY outX term filterY filterX))
    (by simp) rfl fun filterY hFilterY => ?_
  dsimp only
  rw [sum_range_succ, ← add_assoc]
  refine .bind (a := .read m dp) ⟨rfl, rfl⟩ ?_
  rw [hSame.strideHeight, hSame.paddingHeight]
  generalize bias + ∑ filterY ∈ range filterY, _ = row
  by_cases hOutsideY : tapCoordinate outY d.strideHeight filterY d.paddingHeight < 0 ∨
      tapCoordinate outY d.strideHeight filterY d.paddingHeight ≥ i32 ((d.tensors 0).dimensions 1)
  · rw [if_pos hOutsideY, sum_eq_zero, add_zero]
    · exact .pure _ _
    · intro filterX _
      rw [tapTerm, tapIndex_outside hOutsideY, Option.elim_none]
  · rw [if_neg hOutsideY]
    refine .loop (fun k => i64 (row + ∑ filterX ∈ range k,
      tapTerm d outY outX term filterY filterX)) (by simp) rfl fun filterX hFilterX => ?_
    rw [sum_range_succ, ← add_assoc]
    refine .bind (a := .read m dp) ⟨rfl, rfl⟩ ?_
    rw [hSame.strideWidth, hSame.paddingWidth, tapTerm, tapIndex_inside hOutsideY,
      Option.elim_some]
    generalize row + ∑ filterX ∈ range filterX, _ = z
    by_cases hOutsideX : tapCoordinate outX d.strideWidth filterX d.paddingWidth < 0 ∨
        tapCoordinate outX d.strideWidth filterX d.paddingWidth ≥ i32 ((d.tensors 0).dimensions 2)
    · rw [if_pos hOutsideX, tapIndex_outside hOutsideX, Option.elim_none, add_zero]
      exact .pure _ _
    · rw [if_neg hOutsideX, tapIndex_inside hOutsideX, Option.elim_some]
      exact hTap filterY hFilterY filterX hFilterX _ _ (tapIndex_inside hOutsideY)
        (tapIndex_inside hOutsideX) z

end Taps

theorem Filling.element {base dp : Nat} {d : OperatorDescriptor} {m m' : ByteMem}
    (h : Filling base dp (d.tensors 3) d m m') {t : OperatorTensor} {b y x i : Nat}
    (hApart : ApartFrom base (d.tensors 3) (tensorData base t) t.size) (hSize : t.size = t.volume)
    (hb : b < t.dimensions 0) (hy : y < t.dimensions 1) (hx : x < t.dimensions 2)
    (hi : i < t.dimensions 3) : t.element base m' b y x i = t.element base m b y x i :=
  h.int8At hApart (hSize ▸ rowMajor_lt hb hy hx hi)

def conv2DTerm (base : Nat) (d : OperatorDescriptor) (m : ByteMem)
    (batch outC filterY filterX inY inX : Nat) : Int :=
  ∑ inC ∈ range ((d.tensors 0).dimensions 3),
    centered d ((d.tensors 0).element base m batch inY inX inC)
      ((d.tensors 1).element base m outC filterY filterX inC)

def depthwiseTerm (base : Nat) (d : OperatorDescriptor) (m : ByteMem)
    (batch outC inC filterY filterX inY inX : Nat) : Int :=
  centered d ((d.tensors 0).element base m batch inY inX inC)
    ((d.tensors 1).element base m 0 filterY filterX outC)

section Kernels

variable {base dp capacity : Nat} {d : OperatorDescriptor} {m m' : ByteMem}
  (hInside : DeclaredInside d base capacity) (hApart : RegionsApart base dp d)
  (hZeros : OperandZeros d) (hFilling : Filling base dp (d.tensors 3) d m m')

include hInside hApart hZeros hFilling in
theorem conv2DTap_evaluates (hShape : ConvShape d false) {batch outC filterY filterX inY inX : Nat}
    (hBatch : batch < (d.tensors 0).dimensions 0) (hOutC : outC < (d.tensors 3).dimensions 3)
    (hFilterY : filterY < (d.tensors 1).dimensions 1)
    (hFilterX : filterX < (d.tensors 1).dimensions 2) (hInY : inY < (d.tensors 0).dimensions 1)
    (hInX : inX < (d.tensors 0).dimensions 2) (z : Int) :
    (conv2DTap dp base d batch outC filterY filterX inY inX (i64 z)).Evaluates m'
      (i64 (z + conv2DTerm base d m batch outC filterY filterX inY inX)) := by
  obtain ⟨hFilters, hDepth⟩ : (d.tensors 1).dimensions 0 = (d.tensors 3).dimensions 3 ∧
      (d.tensors 1).dimensions 3 = (d.tensors 0).dimensions 3 := hShape.layout
  refine .loop (fun k => i64 (z + ∑ inC ∈ range k,
    centered d ((d.tensors 0).element base m batch inY inX inC)
      ((d.tensors 1).element base m outC filterY filterX inC))) (by simp) rfl fun inC hInC => ?_
  have hInput := flatIndex_eq (hInside.words 0) hShape.input hBatch hInY hInX hInC
  have hFilter := flatIndex_eq (hInside.words 1) hShape.filter (hFilters ▸ hOutC) hFilterY
    hFilterX (hDepth ▸ hInC)
  nth_rewrite 1 [hDepth] at hFilter
  rw [sum_range_succ, ← add_assoc, ← hFilling.element hApart.input hShape.input hBatch hInY hInX
    hInC, ← hFilling.element hApart.filter hShape.filter (hFilters ▸ hOutC) hFilterY hFilterX
      (hDepth ▸ hInC)]
  generalize z + ∑ inC ∈ range inC, _ = accumulator
  rw [← i64_add, hInput, hFilter]
  exact (centeredProduct_evaluates hFilling.same hZeros _ _).bind (.pure _ _)

include hInside hApart hZeros hFilling in
theorem depthwiseTap_evaluates (hShape : ConvShape d true)
    {batch outC inC filterY filterX inY inX : Nat}
    (hBatch : batch < (d.tensors 0).dimensions 0) (hOutC : outC < (d.tensors 3).dimensions 3)
    (hInC : inC < (d.tensors 0).dimensions 3) (hFilterY : filterY < (d.tensors 1).dimensions 1)
    (hFilterX : filterX < (d.tensors 1).dimensions 2) (hInY : inY < (d.tensors 0).dimensions 1)
    (hInX : inX < (d.tensors 0).dimensions 2) (z : Int) :
    (depthwiseTap dp base d batch outC inC filterY filterX inY inX (i64 z)).Evaluates m'
      (i64 (z + depthwiseTerm base d m batch outC inC filterY filterX inY inX)) := by
  obtain ⟨hFilters, hDepth, _⟩ : (d.tensors 1).dimensions 0 = 1 ∧
      (d.tensors 1).dimensions 3 = (d.tensors 3).dimensions 3 ∧
      (d.tensors 0).dimensions 3 ∣ (d.tensors 3).dimensions 3 := hShape.layout
  have hOne : 0 < (d.tensors 1).dimensions 0 := by omega
  have hInput := flatIndex_eq (hInside.words 0) hShape.input hBatch hInY hInX hInC
  have hFilter := flatIndex_eq (hInside.words 1) hShape.filter hOne hFilterY hFilterX
    (hDepth ▸ hOutC)
  rw [flatIndex, Nat.cast_zero, zero_mul, zero_add] at hFilter
  nth_rewrite 1 [hDepth] at hFilter
  rw [depthwiseTerm, ← hFilling.element hApart.input hShape.input hBatch hInY hInX hInC,
    ← hFilling.element hApart.filter hShape.filter hOne hFilterY hFilterX (hDepth ▸ hOutC),
    ← i64_add, depthwiseTap, hInput, hFilter]
  exact (centeredProduct_evaluates hFilling.same hZeros _ _).bind (.pure _ _)

end Kernels

/-! ## One output value -/

/-- What is stored for an accumulator. -/
def requantized (d : OperatorDescriptor) (accumulator multiplier shift : Int) : Int :=
  clampActivation d (i32 (multiplyByQuantizedMultiplier (saturate32 accumulator) multiplier shift +
    d.outputZeroPoint))

/-- The bias of a channel and the terms of the taps. -/
def convAccumulator (base : Nat) (d : OperatorDescriptor) (m : ByteMem)
    (term : Nat → Nat → Nat → Nat → Int) (outY outX outC : Nat) : Int :=
  int32At m (tensorData base (d.tensors 2) + outC * 4) + tapSum d outY outX term

def convValue (base : Nat) (d : OperatorDescriptor) (m : ByteMem)
    (term : Nat → Nat → Nat → Nat → Int) (outY outX outC : Nat) : Int :=
  requantized d (i64 (convAccumulator base d m term outY outX outC))
    (int32At m (d.multiplierAddress - base + outC * 4))
    (int32At m (d.shiftAddress - base + outC * 4))

def outputOffset (base : Nat) (d : OperatorDescriptor) (batch outY outX outC : Nat) : Nat :=
  tensorData base (d.tensors 3) + rowMajor ((d.tensors 3).dimensions 1)
    ((d.tensors 3).dimensions 2) ((d.tensors 3).dimensions 3) batch outY outX outC

/-- The bytes of one output value, from whatever memory holds then. -/
theorem storeRequantized_stores (dp base : Nat) (d : OperatorDescriptor) (outC index : Nat)
    (accumulator : Int) (m : ByteMem) :
    (storeRequantized dp base d outC index accumulator).Runs (fun _ => True) m fun _ m' =>
      m' = m.storeWord (tensorData base (d.tensors 3) + index) 1
        (u32 (requantized (.read m dp) accumulator
          (int32At m (d.multiplierAddress - base + outC * 4))
          (int32At m (d.shiftAddress - base + outC * 4)))) := by
  refine Prog.Evaluates.runs_bind ⟨rfl, rfl⟩ ?_
  refine Prog.Evaluates.runs_bind ⟨rfl, rfl⟩ ?_
  refine Prog.Evaluates.runs_bind ⟨rfl, rfl⟩ ?_
  refine Prog.Evaluates.runs_bind (a := .read m dp) ⟨rfl, rfl⟩ ?_
  exact .emit_bind trivial (.modify rfl)

theorem storeRequantized_runs {base dp : Nat} {d : OperatorDescriptor} {m m' : ByteMem}
    (hApart : RegionsApart base dp d) (hFilling : Filling base dp (d.tensors 3) d m m') {outC : Nat}
    (hChannel : outC < d.quantizationCount) (index : Nat) (accumulator : Int) :
    (storeRequantized dp base d outC index accumulator).Runs (fun _ => True) m' fun _ m'' =>
      m'' = m'.storeWord (tensorData base (d.tensors 3) + index) 1
        (u32 (requantized d accumulator (int32At m (d.multiplierAddress - base + outC * 4))
          (int32At m (d.shiftAddress - base + outC * 4)))) := by
  rw [← hFilling.int32At hApart.multipliers (by omega), ← hFilling.int32At hApart.shifts (by omega)]
  refine (storeRequantized_stores dp base d outC index accumulator m').mono fun _ m'' h => ?_
  rwa [requantized, hFilling.same.outputZeroPoint, hFilling.same.clampActivation] at h

theorem convPixel_runs {base dp : Nat} {d : OperatorDescriptor} {m m' : ByteMem} {depthwise : Bool}
    (hShape : ConvShape d depthwise) (hWords : (d.tensors 3).Words)
    (hApart : RegionsApart base dp d) (hFilling : Filling base dp (d.tensors 3) d m m')
    {tap : Nat → Nat → Nat → Nat → Int → Kernel Int} {term : Nat → Nat → Nat → Nat → Int}
    {batch outY outX outC : Nat} (hBatch : batch < (d.tensors 0).dimensions 0)
    (hOutY : outY < (d.tensors 3).dimensions 1) (hOutX : outX < (d.tensors 3).dimensions 2)
    (hOutC : outC < (d.tensors 3).dimensions 3)
    (hTap : ∀ filterY < (d.tensors 1).dimensions 1, ∀ filterX < (d.tensors 1).dimensions 2,
      ∀ inY inX,
      tapIndex outY d.strideHeight filterY d.paddingHeight ((d.tensors 0).dimensions 1) = some inY →
      tapIndex outX d.strideWidth filterX d.paddingWidth ((d.tensors 0).dimensions 2) = some inX →
      ∀ z, (tap filterY filterX inY inX (i64 z)).Evaluates m'
        (i64 (z + term filterY filterX inY inX))) :
    (convPixel dp base d tap batch outY outX outC).Runs (fun _ => True) m' fun _ m'' =>
      m'' = m'.storeWord (outputOffset base d batch outY outX outC) 1
        (u32 (convValue base d m term outY outX outC)) := by
  have hBias : (loadI32 (.tensor 2) (tensorData base (d.tensors 2) + outC * 4)).Evaluates m'
      (int32At m (tensorData base (d.tensors 2) + outC * 4)) := by
    rw [← hFilling.int32At hApart.bias (by omega)]
    exact ⟨rfl, rfl⟩
  have hExact : i64 (int32At m (tensorData base (d.tensors 2) + outC * 4)) =
      int32At m (tensorData base (d.tensors 2) + outC * 4) := by
    have hRange := i32_range (m.load (tensorData base (d.tensors 2) + outC * 4) 4)
    unfold int32At
    exact i64_of_range (by omega) (by omega)
  have hTaps := accumulateTaps_evaluates hFilling.same
    (int32At m (tensorData base (d.tensors 2) + outC * 4)) hTap
  rw [hExact] at hTaps
  have hIndex := flatIndex_eq hWords hShape.output (hShape.batches ▸ hBatch) hOutY hOutX hOutC
  unfold convPixel
  rw [hIndex]
  exact hBias.runs_bind (hTaps.runs_bind
    (storeRequantized_runs hApart hFilling (hShape.channels ▸ hOutC) _ _))

/-! ## All output values -/

/-- The coordinates of an output value. -/
def InOutput (d : OperatorDescriptor) (k : Nat × Nat × Nat × Nat) : Prop :=
  k.1 < (d.tensors 0).dimensions 0 ∧ k.2.1 < (d.tensors 3).dimensions 1 ∧
    k.2.2.1 < (d.tensors 3).dimensions 2 ∧ k.2.2.2 < (d.tensors 3).dimensions 3

/-- Every output value is the given one. -/
def Stored (base : Nat) (d : OperatorDescriptor) (value : Nat × Nat × Nat × Nat → Int)
    (m : ByteMem) : Prop :=
  ∀ k, InOutput d k → int8At m (outputOffset base d k.1 k.2.1 k.2.2.1 k.2.2.2) = value k

section Fill

variable {base : Nat} {d : OperatorDescriptor} {m : ByteMem} {depthwise : Bool}
  (hShape : ConvShape d depthwise)

include hShape in
theorem outputOffset_beside {k : Nat × Nat × Nat × Nat} (hk : InOutput d k) {a : Nat}
    (ha : besideTensor base (d.tensors 3) a) :
    outputOffset base d k.1 k.2.1 k.2.2.1 k.2.2.2 ≠ a := by
  obtain ⟨hBatch, hOutY, hOutX, hOutC⟩ := hk
  have hLess := rowMajor_lt (hShape.batches ▸ hBatch) hOutY hOutX hOutC
  rw [← OperatorTensor.volume, ← hShape.output] at hLess
  unfold besideTensor at ha
  unfold outputOffset
  omega

theorem outputOffset_injective {k k' : Nat × Nat × Nat × Nat} (hk : InOutput d k)
    (hk' : InOutput d k') (h : outputOffset base d k.1 k.2.1 k.2.2.1 k.2.2.2 =
      outputOffset base d k'.1 k'.2.1 k'.2.2.1 k'.2.2.2) : k = k' := by
  obtain ⟨hBatch, hY, hX, hC⟩ := rowMajor_injective hk.2.1 hk.2.2.1 hk.2.2.2 hk'.2.1 hk'.2.2.1
    hk'.2.2.2 (Nat.add_left_cancel h)
  exact Prod.ext hBatch (Prod.ext hY (Prod.ext hX hC))

/-- What each round of the four loops establishes for its own coordinates. -/
theorem forEachOutput_runs {R : ByteMem → ByteMem → Prop} [IsPreorder ByteMem R]
    {D : Nat × Nat × Nat × Nat → ByteMem → Prop} {body : Nat → Nat → Nat → Nat → Kernel Unit}
    (hKeep : ∀ k, InOutput d k → ∀ m m', R m m' → D k m → D k m')
    (hBody : ∀ k, InOutput d k → ∀ m', R m m' →
      (body k.1 k.2.1 k.2.2.1 k.2.2.2).Runs (fun _ => True) m' fun _ m'' => R m' m'' ∧ D k m'') :
    (forEachOutput d body).Runs (fun _ => True) m fun _ m' =>
      R m m' ∧ ∀ k, InOutput d k → D k m' := by
  have hLoops : (forEachOutput d body).Runs (fun _ => True) m fun _ m' =>
      R m m' ∧ ∀ batch < (d.tensors 0).dimensions 0, ∀ outY < (d.tensors 3).dimensions 1,
        ∀ outX < (d.tensors 3).dimensions 2, ∀ outC < (d.tensors 3).dimensions 3,
          D (batch, outY, outX, outC) m' := by
    refine .each (fun _ hBatch _ _ h hDone _ hOutY _ hOutX _ hOutC => hKeep _
      ⟨hBatch, hOutY, hOutX, hOutC⟩ _ _ h (hDone _ hOutY _ hOutX _ hOutC))
      fun batch hBatch m₁ h₁ => ?_
    refine .each (fun _ hOutY _ _ h hDone _ hOutX _ hOutC => hKeep _
      ⟨hBatch, hOutY, hOutX, hOutC⟩ _ _ h (hDone _ hOutX _ hOutC)) fun outY hOutY m₂ h₂ => ?_
    refine .each (fun _ hOutX _ _ h hDone _ hOutC => hKeep _
      ⟨hBatch, hOutY, hOutX, hOutC⟩ _ _ h (hDone _ hOutC)) fun outX hOutX m₃ h₃ => ?_
    refine .each (fun _ hOutC _ _ h hDone => hKeep _ ⟨hBatch, hOutY, hOutX, hOutC⟩ _ _ h hDone)
      fun outC hOutC m₄ h₄ => ?_
    have hReached : R m m₃ := IsTrans.trans _ _ _ (IsTrans.trans _ _ _ h₁ h₂) h₃
    exact hBody (batch, outY, outX, outC) ⟨hBatch, hOutY, hOutX, hOutC⟩ m₄
      (IsTrans.trans _ _ _ hReached h₄)
  exact hLoops.mono fun _ m' h => ⟨h.1, fun k hk => h.2 _ hk.1 _ hk.2.1 _ hk.2.2.1 _ hk.2.2.2⟩

include hShape in
/-- A store for each output value leaves every value in its place. -/
theorem forEachOutput_fills {body : Nat → Nat → Nat → Nat → Kernel Unit}
    {value : Nat × Nat × Nat × Nat → Int} (hRange : ∀ k, i8 (value k) = value k)
    (hBody : ∀ k, InOutput d k → ∀ m', AgreeOn (besideTensor base (d.tensors 3)) m m' →
      (body k.1 k.2.1 k.2.2.1 k.2.2.2).Runs (fun _ => True) m' fun _ m'' =>
        m'' = m'.storeWord (outputOffset base d k.1 k.2.1 k.2.2.1 k.2.2.2) 1 (u32 (value k))) :
    (forEachOutput d body).Runs (fun _ => True) m fun _ m' => Stored base d value m' := by
  let place : Nat × Nat × Nat × Nat → Nat := fun k => outputOffset base d k.1 k.2.1 k.2.2.1 k.2.2.2
  let byte : Nat × Nat × Nat × Nat → UInt8 := fun k => ByteMem.bytesOf (u32 (value k)) 0
  have hLoops : (forEachOutput d body).Runs (fun _ => True) m fun _ m' =>
      ByteMem.Filled (InOutput d) place byte m m' ∧ ∀ k, InOutput d k → m' (place k) = byte k := by
    apply forEachOutput_runs
    · exact fun k hk _ _ h hDone => h.kept
        (fun _ _ hk hk' => outputOffset_injective hk hk') hk hDone
    · intro k hk m' hReached
      refine runs_fill hk (hBody k hk m' fun a ha => ?_)
      exact hReached.outside fun k hk => outputOffset_beside hShape hk ha
  exact hLoops.mono fun _ m' h k hk => int8At_of_byte (h.2 k hk) (hRange k)

end Fill

/-! ## The kernels -/

def conv2DValue (base : Nat) (d : OperatorDescriptor) (m : ByteMem) (k : Nat × Nat × Nat × Nat) :
    Int :=
  convValue base d m (conv2DTerm base d m k.1 k.2.2.2) k.2.1 k.2.2.1 k.2.2.2

def depthwiseValue (base : Nat) (d : OperatorDescriptor) (m : ByteMem)
    (k : Nat × Nat × Nat × Nat) : Int :=
  convValue base d m (depthwiseTerm base d m k.1 k.2.2.2
    (k.2.2.2 / ((d.tensors 3).dimensions 3 / (d.tensors 0).dimensions 3))) k.2.1 k.2.2.1 k.2.2.2

def ShiftsValid (base : Nat) (d : OperatorDescriptor) (m : ByteMem) : Prop :=
  ∀ outC < (d.tensors 3).dimensions 3, -31 ≤ int32At m (d.shiftAddress - base + outC * 4) ∧
    int32At m (d.shiftAddress - base + outC * 4) ≤ 30

theorem checkShifts_checks (d : OperatorDescriptor) (base : Nat) (m : ByteMem) :
    (checkShifts d base).Checks m (ShiftsValid base d m) := by
  refine .loop fun outC _ => ?_
  have hShift : (loadI32 .shift (d.shiftAddress - base + outC * 4)).Evaluates m
      (int32At m (d.shiftAddress - base + outC * 4)) := ⟨rfl, rfl⟩
  have hRequire := Prog.Checks.require (ε := Access)
    (decide (-31 ≤ int32At m (d.shiftAddress - base + outC * 4)) &&
      decide (int32At m (d.shiftAddress - base + outC * 4) ≤ 30)) m
  rw [Bool.and_eq_true, decide_eq_true_eq, decide_eq_true_eq] at hRequire
  exact .after hShift hRequire

/-- The input channel from which an output channel is computed. -/
theorem ConvShape.input_channel_lt {d : OperatorDescriptor} {base capacity outC : Nat}
    (hShape : ConvShape d true) (hInside : DeclaredInside d base capacity)
    (hOutC : outC < (d.tensors 3).dimensions 3) :
    outC / ((d.tensors 3).dimensions 3 / (d.tensors 0).dimensions 3) <
      (d.tensors 0).dimensions 3 := by
  obtain ⟨_, _, multiplier, hMultiplier⟩ : (d.tensors 1).dimensions 0 = 1 ∧
      (d.tensors 1).dimensions 3 = (d.tensors 3).dimensions 3 ∧
      (d.tensors 0).dimensions 3 ∣ (d.tensors 3).dimensions 3 := hShape.layout
  have hChannels := Nat.pos_of_ne_zero (hShape.input_channels_ne_zero hInside)
  have hPositive : 0 < multiplier := by
    rcases Nat.eq_zero_or_pos multiplier with rfl | h
    · omega
    · exact h
  rw [hMultiplier, Nat.mul_div_cancel_left _ hChannels, Nat.div_lt_iff_lt_mul hPositive,
    ← hMultiplier]
  exact hOutC

theorem convShape_of_accepted {d : OperatorDescriptor} {base capacity : Nat} {m : ByteMem}
    {depthwise : Bool} (hInside : DeclaredInside d base capacity)
    (h : (commonConvValid d depthwise m).result = some ()) : ConvShape d depthwise :=
  (@commonConvValid_yields (fun _ => True) (fun _ _ => trivial) d base capacity depthwise
    hInside).returned h

theorem commonConvValid_evaluates {d : OperatorDescriptor} {m : ByteMem} {depthwise : Bool}
    (h : (commonConvValid d depthwise m).result = some ()) :
    (commonConvValid d depthwise).Evaluates m () :=
  evaluates_of_leaves (leaves_commonConvValid d depthwise) h

section Kernels

variable {base dp capacity : Nat} {m : ByteMem} {depthwise : Bool}

/-- The statistics are stored beside the output. -/
theorem stored_finish {value : Nat × Nat × Nat × Nat → Int}
    (hShape : ConvShape (.read m dp) depthwise) (hApart : RegionsApart base dp (.read m dp))
    (operations elapsed : Nat) {m' : ByteMem} (h : Stored base (.read m dp) value m') :
    (finishConv dp operations elapsed).Runs (fun _ => True) m' fun _ m'' =>
      Stored base (.read m dp) value m'' := by
  refine (finishRun_keeps hApart.descriptor _ _ _ _ m').mono fun _ m'' hAgree k hk => ?_
  rw [← h k hk, int8At, int8At,
    hAgree _ fun hBeside => outputOffset_beside hShape hk hBeside rfl]

variable (hInside : DeclaredInside (.read m dp) base capacity)
  (hApart : RegionsApart base dp (.read m dp)) (hZeros : OperandZeros (.read m dp))

include hInside hApart hZeros

theorem conv2DLoops_runs (hShape : ConvShape (.read m dp) false) :
    (conv2DLoops dp base (.read m dp)).Runs (fun _ => True) m fun _ m' =>
      Stored base (.read m dp) (conv2DValue base (.read m dp) m) m' := by
  refine forEachOutput_fills hShape (fun _ => clampActivation_range hShape.activation _)
    fun k hk m' hAgree => ?_
  have hFilling := hApart.descriptor.filling hAgree
  obtain ⟨hBatch, hOutY, hOutX, hOutC⟩ := hk
  refine convPixel_runs hShape (hInside.words 3) hApart hFilling hBatch hOutY hOutX hOutC ?_
  intro filterY hFilterY filterX hFilterX inY inX hInY hInX z
  exact conv2DTap_evaluates hInside hApart hZeros hFilling hShape hBatch hOutC hFilterY hFilterX
    (tapIndex_lt ((hInside.words 0).dimensions 1) hInY)
    (tapIndex_lt ((hInside.words 0).dimensions 2) hInX) z

theorem depthwiseLoops_runs (hShape : ConvShape (.read m dp) true) :
    (depthwiseLoops dp base (.read m dp) (((OperatorDescriptor.read m dp).tensors 3).dimensions 3 /
      ((OperatorDescriptor.read m dp).tensors 0).dimensions 3)).Runs (fun _ => True) m fun _ m' =>
      Stored base (.read m dp) (depthwiseValue base (.read m dp) m) m' := by
  refine forEachOutput_fills hShape (fun _ => clampActivation_range hShape.activation _)
    fun k hk m' hAgree => ?_
  have hFilling := hApart.descriptor.filling hAgree
  obtain ⟨hBatch, hOutY, hOutX, hOutC⟩ := hk
  refine Prog.Evaluates.runs_bind (a := k.2.2.2 /
    (((OperatorDescriptor.read m dp).tensors 3).dimensions 3 /
      ((OperatorDescriptor.read m dp).tensors 0).dimensions 3)) ⟨rfl, rfl⟩ ?_
  refine convPixel_runs hShape (hInside.words 3) hApart hFilling hBatch hOutY hOutX hOutC ?_
  intro filterY hFilterY filterX hFilterX inY inX hInY hInX z
  exact depthwiseTap_evaluates hInside hApart hZeros hFilling hShape hBatch hOutC
    (hShape.input_channel_lt hInside hOutC) hFilterY hFilterX
    (tapIndex_lt ((hInside.words 0).dimensions 1) hInY)
    (tapIndex_lt ((hInside.words 0).dimensions 2) hInX) z

theorem conv2D_runs (hCommon : (commonConvValid (.read m dp) false m).result = some ())
    (hShifts : ShiftsValid base (.read m dp) m) (elapsed : Nat) :
    (runGem5HybridConv2D dp base elapsed).Runs (fun _ => True) m fun _ m' =>
      Stored base (.read m dp) (conv2DValue base (.read m dp) m) m' := by
  have hShape := convShape_of_accepted hInside hCommon
  have hChecks : (conv2DChecks base (.read m dp)).Evaluates m () :=
    (commonConvValid_evaluates hCommon).bind ((checkShifts_checks _ base m).evaluates hShifts)
  refine .congr (descriptorAt_bind dp _ m) ?_
  unfold conv2DFrom
  refine hChecks.runs_bind ?_
  exact (conv2DLoops_runs hInside hApart hZeros hShape).bind fun _ m' h =>
    stored_finish hShape hApart _ elapsed h

theorem depthwise_runs (hCommon : (commonConvValid (.read m dp) true m).result = some ())
    (hShifts : ShiftsValid base (.read m dp) m) (elapsed : Nat) :
    (runGem5HybridDepthwiseConv2D dp base elapsed).Runs (fun _ => True) m fun _ m' =>
      Stored base (.read m dp) (depthwiseValue base (.read m dp) m) m' := by
  have hShape := convShape_of_accepted hInside hCommon
  have hChecks : (depthwiseChecks base (.read m dp)).Evaluates m
      (((OperatorDescriptor.read m dp).tensors 3).dimensions 3 /
        ((OperatorDescriptor.read m dp).tensors 0).dimensions 3) :=
    (commonConvValid_evaluates hCommon).bind (.bind ⟨rfl, rfl⟩
      (((checkShifts_checks _ base m).evaluates hShifts).bind (.pure _ _)))
  refine .congr (descriptorAt_bind dp _ m) ?_
  unfold depthwiseFrom
  refine hChecks.runs_bind ?_
  exact (depthwiseLoops_runs hInside hApart hZeros hShape).bind fun _ m' h =>
    stored_finish hShape hApart _ elapsed h

end Kernels

end OpenNpux.Hybrid
