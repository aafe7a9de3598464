import OpenNpux.Hybrid.ShiftChecks

/-!
# An output on its own shifts

If the output of an accepted convolution lies on a shift that is still to be used, some
content of memory turns a stored value into a shift out of range. The activation bounds
pin every output value to 100, and a zero shift with one of its bytes replaced by 100 is
above every checked shift. So the layouts for which checked shifts stay checked are
exactly those that keep the shifts.
-/

namespace OpenNpux.Hybrid

open Lib

/-! ## Descriptors of one layout -/

/-- The same descriptor bytes, apart from the activation bounds. -/
def SameLayout (dp : Nat) (m m' : ByteMem) : Prop :=
  AgreeOn (fun i => dp ≤ i ∧ i < dp + descriptorBytes ∧ (i < dp + 208 ∨ dp + 216 ≤ i)) m m'

structure SameTensor (t t' : OperatorTensor) : Prop where
  address : t'.address = t.address
  size : t'.size = t.size
  rank : t'.rank = t.rank
  dimensions : ∀ i < 4, t'.dimensions i = t.dimensions i
  elementType : t'.elementType = t.elementType

/-- What the checks of a convolution look at, apart from the activation bounds. -/
structure SameForm (d d' : OperatorDescriptor) : Prop where
  tensorCount : d'.tensorCount = d.tensorCount
  tensors : ∀ i < 4, SameTensor (d.tensors i) (d'.tensors i)
  strideHeight : d'.strideHeight = d.strideHeight
  strideWidth : d'.strideWidth = d.strideWidth
  multiplierAddress : d'.multiplierAddress = d.multiplierAddress
  shiftAddress : d'.shiftAddress = d.shiftAddress
  quantizationCount : d'.quantizationCount = d.quantizationCount

theorem sameForm_of_fields {m m' : ByteMem} {dp : Nat}
    (hField : ∀ a, dp + 24 ≤ a → a + 4 ≤ dp + 208 ∨ a = dp + 216 → m'.load a 4 = m.load a 4) :
    SameForm (.read m dp) (.read m' dp) where
  tensorCount := hField _ (by omega) (by omega)
  tensors i hi := ⟨hField _ (by omega) (by omega), hField _ (by omega) (by omega),
    hField _ (by omega) (by omega), fun j hj => hField _ (by omega) (by omega),
    hField _ (by omega) (by omega)⟩
  strideHeight := hField _ (by omega) (by omega)
  strideWidth := hField _ (by omega) (by omega)
  multiplierAddress := hField _ (by omega) (by omega)
  shiftAddress := hField _ (by omega) (by omega)
  quantizationCount := hField _ (by omega) (by omega)

section Layout

variable {dp : Nat} {m m' : ByteMem}

theorem SameLayout.load (h : SameLayout dp m m') {a : Nat} (hLow : dp ≤ a)
    (hHigh : a + 4 ≤ dp + 208 ∨ a = dp + 216) : m'.load a 4 = m.load a 4 := by
  refine AgreeOn.load h fun i hi => ?_
  unfold descriptorBytes
  omega

theorem SameLayout.sameForm (h : SameLayout dp m m') : SameForm (.read m dp) (.read m' dp) :=
  sameForm_of_fields fun _ hLow hHigh => h.load (by omega) hHigh

theorem SameLayout.started (h : SameLayout dp m m') :
    SameForm (.read (started dp m) dp) (.read (started dp m') dp) := by
  refine sameForm_of_fields fun a hLow hHigh => ?_
  rw [started_load dp m' (by omega) (by omega), started_load dp m (by omega) (by omega)]
  exact h.load (by omega) hHigh

/-- The fields at the start of the descriptor. -/
structure SameHeader (d d' : OperatorDescriptor) : Prop where
  magic : d'.magic = d.magic
  version : d'.version = d.version
  descriptorSize : d'.descriptorSize = d.descriptorSize
  opcode : d'.opcode = d.opcode
  state : d'.state = d.state
  executionMode : d'.executionMode = d.executionMode

theorem SameLayout.sameHeader (h : SameLayout dp m m') :
    SameHeader (.read m dp) (.read m' dp) where
  magic := h.load (by omega) (by omega)
  version := h.load (by omega) (by omega)
  descriptorSize := h.load (by omega) (by omega)
  opcode := h.load (by omega) (by omega)
  state := h.load (by omega) (by omega)
  executionMode := h.load (by omega) (by omega)

end Layout

section Form

variable {d d' : OperatorDescriptor} {base capacity : Nat}

theorem SameForm.shiftsKept_iff (h : SameForm d d') : ShiftsKept base d' ↔ ShiftsKept base d := by
  have hOutput := h.tensors 3 (by decide)
  unfold ShiftsKept tensorData
  rw [h.quantizationCount, h.shiftAddress, hOutput.address, hOutput.size]

theorem SameForm.validate (h : SameForm d d') (hHeader : SameHeader d d')
    (hValid : validateGem5HybridDescriptor d base capacity = .none) :
    validateGem5HybridDescriptor d' base capacity = .none := by
  have hCount : d.tensorCount ≤ 4 := tensorCount_le_of_validate hValid
  have hTensors : (List.range d.tensorCount).all
      (fun i => tensorValid (d'.tensors i) base capacity) =
      (List.range d.tensorCount).all (fun i => tensorValid (d.tensors i) base capacity) := by
    rw [Bool.eq_iff_iff, List.all_eq_true, List.all_eq_true]
    refine forall₂_congr fun i hi => ?_
    have hTensor := h.tensors i (Nat.lt_of_lt_of_le (List.mem_range.1 hi) hCount)
    rw [tensorValid, tensorValid, hTensor.elementType, hTensor.rank, hTensor.address, hTensor.size]
  rw [validateGem5HybridDescriptor, headerValid, hHeader.magic, hHeader.version,
    hHeader.descriptorSize, hHeader.executionMode, hHeader.state, h.tensorCount, hTensors,
    h.multiplierAddress, h.shiftAddress, quantizationValid, h.quantizationCount,
    h.multiplierAddress, h.shiftAddress]
  exact hValid

theorem SameTensor.elementCount {t t' : OperatorTensor} (h : SameTensor t t') :
    elementCount t' = Hybrid.elementCount t := by
  unfold Hybrid.elementCount
  rw [h.rank]
  split
  · rfl
  · rename_i hRank
    unfold operatorMaxDims at hRank
    have hSteps : Prog.loop t.rank (some 1) (countStep t') =
        Prog.loop t.rank (some 1) (countStep t) := by
      refine Prog.loop_congr fun i hi count => ?_
      cases count with
      | none => rfl
      | some count => rw [countStep, countStep, h.dimensions i (by omega)]
    rw [hSteps]

theorem SameForm.commonConvValid (h : SameForm d d')
    (hActivation : activationValid d' = activationValid d) (depthwise : Bool) :
    commonConvValid d' depthwise = Hybrid.commonConvValid d depthwise := by
  have hInput := h.tensors 0 (by decide)
  have hFilter := h.tensors 1 (by decide)
  have hBias := h.tensors 2 (by decide)
  have hOutput := h.tensors 3 (by decide)
  unfold Hybrid.commonConvValid
  simp only [h.tensorCount, h.quantizationCount, h.strideHeight, h.strideWidth, hInput.elementType,
    hFilter.elementType, hBias.elementType, hOutput.elementType, hInput.rank, hFilter.rank,
    hBias.rank, hOutput.rank, hInput.size, hFilter.size, hBias.size, hOutput.size,
    hInput.elementCount, hFilter.elementCount, hBias.elementCount, hOutput.elementCount,
    hInput.dimensions 0 (by decide), hInput.dimensions 3 (by decide),
    hFilter.dimensions 0 (by decide), hFilter.dimensions 3 (by decide),
    hOutput.dimensions 0 (by decide), hOutput.dimensions 3 (by decide), hActivation]

/-- The shape checks do not look at memory. -/
theorem commonConvValid_lockstep (d : OperatorDescriptor) (depthwise : Bool) (m m' : ByteMem) :
    (commonConvValid d depthwise).Lockstep (fun _ _ => True) m (Hybrid.commonConvValid d depthwise)
      m' := by
  have hCount : ∀ t m m', (elementCount t).Lockstep (fun _ _ => True) m
      (Hybrid.elementCount t) m' := by
    intro t m m'
    refine .ite Iff.rfl (.pure _ trivial) (.bind (.loop trivial fun i count _ _ _ => ?_)
      fun _ _ _ _ => .pure _ trivial)
    cases count with
    | none => exact .pure _ trivial
    | some count =>
      refine .ite Iff.rfl (.pure _ trivial) (.bind ?_ fun _ _ _ _ => ?_)
      · exact .bind (.emit _ _ trivial) fun _ _ _ _ => .pure _ trivial
      · exact .ite Iff.rfl (.pure _ trivial) (.pure _ trivial)
  refine .bind (.require _ trivial) fun _ _ _ _ => .bind (.require _ trivial) fun _ _ _ _ => ?_
  refine .bind (hCount _ _ _) fun _ _ _ _ => .bind (.require _ trivial) fun _ _ _ _ => ?_
  refine .bind (hCount _ _ _) fun _ _ _ _ => .bind (.require _ trivial) fun _ _ _ _ => ?_
  refine .bind (hCount _ _ _) fun _ _ _ _ => .bind (.require _ trivial) fun _ _ _ _ => ?_
  refine .bind (hCount _ _ _) fun _ _ _ _ => .bind (.require _ trivial) fun _ _ _ _ => ?_
  refine .bind (.require _ trivial) fun _ _ _ _ => .bind (.require _ trivial) fun _ _ _ _ => ?_
  cases depthwise with
  | true =>
    refine .bind (.require _ trivial) fun _ _ _ _ => .bind ?_ fun _ _ _ _ => .require _ trivial
    exact .bind (.emit _ _ trivial) fun _ _ _ _ => .pure _ trivial
  | false => exact .require _ trivial

end Form

/-! ## Every output value is 100 -/

/-- A word with bytes 0 and 100, and at least one byte 100, is above every checked shift. -/
theorem int32At_above {m : ByteMem} {a j : Nat} (hBytes : ∀ i < 4, m (a + i) = 0 ∨ m (a + i) = 100)
    (hj : j < 4) (hHit : m (a + j) = 100) : 30 < int32At m a := by
  have hByte : ∀ i < 4, (m (a + i)).toNat = 0 ∨ (m (a + i)).toNat = 100 := by
    intro i hi
    rcases hBytes i hi with h | h
    · exact .inl (by rw [h]; rfl)
    · exact .inr (by rw [h]; rfl)
  have hValue : m.load a 4 = (m a).toNat + 256 * ((m (a + 1)).toNat + 256 * ((m (a + 2)).toNat +
      256 * (m (a + 3)).toNat)) := rfl
  have h0 := hByte 0 (by decide)
  have h1 := hByte 1 (by decide)
  have h2 := hByte 2 (by decide)
  have h3 := hByte 3 (by decide)
  rw [Nat.add_zero] at h0
  have hSome : (m a).toNat = 100 ∨ (m (a + 1)).toNat = 100 ∨ (m (a + 2)).toNat = 100 ∨
      (m (a + 3)).toNat = 100 := by
    have hHit' : (m (a + j)).toNat = 100 := by
      rw [hHit]
      rfl
    obtain rfl | rfl | rfl | rfl : j = 0 ∨ j = 1 ∨ j = 2 ∨ j = 3 := by omega
    · exact .inl hHit'
    · exact .inr (.inl hHit')
    · exact .inr (.inr (.inl hHit'))
    · exact .inr (.inr (.inr hHit'))
  have hRange : 100 ≤ m.load a 4 ∧ m.load a 4 < 2 ^ 31 := by omega
  rw [int32At, i32_of_range (by omega) (by omega)]
  omega

/-- Every invariant of the output loops holds where a given output value is computed. -/
theorem forEachOutput_visits {d : OperatorDescriptor} {ok : Access → Prop}
    {I : Nat → ByteMem → Prop} {body : Nat → Nat → Nat → Nat → Kernel Unit}
    (hBody : ∀ k, InOutput d k → ∀ m,
      I (rowMajor ((d.tensors 3).dimensions 1) ((d.tensors 3).dimensions 2)
        ((d.tensors 3).dimensions 3) k.1 k.2.1 k.2.2.1 k.2.2.2) m →
      (body k.1 k.2.1 k.2.2.1 k.2.2.2).Runs ok m fun _ m' =>
        I (rowMajor ((d.tensors 3).dimensions 1) ((d.tensors 3).dimensions 2)
          ((d.tensors 3).dimensions 3) k.1 k.2.1 k.2.2.1 k.2.2.2 + 1) m')
    {m : ByteMem} (hStart : I 0 m) {k : Nat × Nat × Nat × Nat} (hk : InOutput d k) :
    ∃ m', I (rowMajor ((d.tensors 3).dimensions 1) ((d.tensors 3).dimensions 2)
        ((d.tensors 3).dimensions 3) k.1 k.2.1 k.2.2.1 k.2.2.2) m' ∧
      ∀ e ∈ (body k.1 k.2.1 k.2.2.1 k.2.2.2 m').trace, e ∈ (forEachOutput d body m).trace := by
  obtain ⟨b, y, x, c⟩ := k
  obtain ⟨hb, hy, hx, hc⟩ := hk
  unfold forEachOutput
  generalize hH : (d.tensors 3).dimensions 1 = height at hBody hy ⊢
  generalize hW : (d.tensors 3).dimensions 2 = width at hBody hx ⊢
  generalize hC : (d.tensors 3).dimensions 3 = channels at hBody hc ⊢
  have hChannel : ∀ b < (d.tensors 0).dimensions 0, ∀ y < height, ∀ x < width, ∀ c < channels, ∀ m,
      I (rowMajor height width channels b y x c) m → (body b y x c).Runs ok m fun _ m' =>
        I (rowMajor height width channels b y x (c + 1)) m' :=
    fun b hb y hy x hx c hc m h => hBody (b, y, x, c) ⟨hb, hH ▸ hy, hW ▸ hx, hC ▸ hc⟩ m h
  have hColumn : ∀ b < (d.tensors 0).dimensions 0, ∀ y < height, ∀ x < width, ∀ m,
      I (rowMajor height width channels b y x 0) m →
      (Prog.loop channels () fun c _ => body b y x c).Runs ok m fun _ m' =>
        I (rowMajor height width channels b y (x + 1) 0) m' := by
    intro b hb y hy x hx m h
    rw [← rowMajor_channels]
    exact .loop (I := fun c _ m => I (rowMajor height width channels b y x c) m) h
      fun c hc _ m h => hChannel b hb y hy x hx c hc m h
  have hRow : ∀ b < (d.tensors 0).dimensions 0, ∀ y < height, ∀ m,
      I (rowMajor height width channels b y 0 0) m →
      (Prog.loop width () fun x _ => Prog.loop channels () fun c _ => body b y x c).Runs ok m
        fun _ m' => I (rowMajor height width channels b (y + 1) 0 0) m' := by
    intro b hb y hy m h
    rw [← rowMajor_columns]
    exact .loop (I := fun x _ m => I (rowMajor height width channels b y x 0) m) h
      fun x hx _ m h => hColumn b hb y hy x hx m h
  have hBatch : ∀ b < (d.tensors 0).dimensions 0, ∀ m,
      I (rowMajor height width channels b 0 0 0) m →
      (Prog.loop height () fun y _ => Prog.loop width () fun x _ =>
        Prog.loop channels () fun c _ => body b y x c).Runs ok m
        fun _ m' => I (rowMajor height width channels (b + 1) 0 0 0) m' := by
    intro b hb m h
    rw [← rowMajor_rows]
    exact .loop (I := fun y _ m => I (rowMajor height width channels b y 0 0) m) h
      fun y hy _ m h => hRow b hb y hy m h
  obtain ⟨_, m₁, h₁, hTrace₁⟩ := Prog.Runs.loop_visits
    (I := fun b _ m => I (rowMajor height width channels b 0 0 0) m)
    (by simpa [rowMajor] using hStart) (fun b hb _ m h => hBatch b hb m h) hb
  obtain ⟨_, m₂, h₂, hTrace₂⟩ := Prog.Runs.loop_visits
    (I := fun y _ m => I (rowMajor height width channels b y 0 0) m) h₁
    (fun y hy _ m h => hRow b hb y hy m h) hy
  obtain ⟨_, m₃, h₃, hTrace₃⟩ := Prog.Runs.loop_visits
    (I := fun x _ m => I (rowMajor height width channels b y x 0) m) h₂
    (fun x hx _ m h => hColumn b hb y hy x hx m h) hx
  obtain ⟨_, m₄, h₄, hTrace₄⟩ := Prog.Runs.loop_visits
    (I := fun c _ m => I (rowMajor height width channels b y x c) m) h₃
    (fun c hc _ m h => hChannel b hb y hy x hx c hc m h) hc
  exact ⟨m₄, h₄, fun e he => hTrace₁ e (hTrace₂ e (hTrace₃ e (hTrace₄ e he)))⟩

/-- The descriptor with its activation bounds at 100, in an otherwise empty memory. -/
def pinned (dp : Nat) (m : ByteMem) : ByteMem :=
  ByteMem.storeWords (fun i => if dp ≤ i ∧ i < dp + descriptorBytes then m i else 0)
    [(dp + 208, 100), (dp + 212, 100)]

theorem pinned_sameLayout (dp : Nat) (m : ByteMem) : SameLayout dp m (pinned dp m) := by
  rintro i ⟨hLow, hHigh, hBeside⟩
  simp only [pinned, ByteMem.storeWords, List.foldl_cons, List.foldl_nil, ByteMem.storeWord]
  rw [ByteMem.store_outside _ _ (by omega), ByteMem.store_outside _ _ (by omega)]
  exact if_pos ⟨hLow, hHigh⟩

theorem pinned_outside (m : ByteMem) {dp i : Nat} (h : i < dp ∨ dp + descriptorBytes ≤ i) :
    pinned dp m i = 0 := by
  have hBytes : descriptorBytes = 296 := rfl
  simp only [pinned, ByteMem.storeWords, List.foldl_cons, List.foldl_nil, ByteMem.storeWord]
  rw [ByteMem.store_outside _ _ (by omega), ByteMem.store_outside _ _ (by omega)]
  exact if_neg (by omega)

theorem pinned_bounds (dp : Nat) (m : ByteMem) :
    (pinned dp m).load (dp + 208) 4 = 100 ∧ (pinned dp m).load (dp + 212) 4 = 100 := by
  simp only [pinned, ByteMem.storeWords, List.foldl_cons, List.foldl_nil]
  constructor
  · rw [ByteMem.storeWord, ByteMem.load_store_disjoint _ _ (by omega), ByteMem.load_storeWord,
      Nat.mod_eq_of_lt (by decide)]
  · rw [ByteMem.load_storeWord, Nat.mod_eq_of_lt (by decide)]

/-- The activation bounds of a descriptor leave only the value 100. -/
def Pinned (dp : Nat) (m : ByteMem) : Prop :=
  m.load (dp + 208) 4 = 100 ∧ m.load (dp + 212) 4 = 100

section Pinned

variable {dp base : Nat} {m : ByteMem}

theorem Pinned.activation (h : Pinned dp m) : (OperatorDescriptor.read m dp).activationMin = 100 ∧
    (OperatorDescriptor.read m dp).activationMax = 100 := by
  simp only [OperatorDescriptor.read, h.1, h.2]
  exact ⟨rfl, rfl⟩

theorem Pinned.requantized (h : Pinned dp m) (accumulator multiplier shift : Int) :
    requantized (.read m dp) accumulator multiplier shift = 100 := by
  unfold Hybrid.requantized clampActivation
  rw [h.activation.1, h.activation.2]
  omega

theorem Pinned.activationValid (h : Pinned dp m) : activationValid (.read m dp) = true := by
  unfold Hybrid.activationValid
  rw [h.activation.1, h.activation.2]
  rfl

/-- One output value of a pinned descriptor: the shift is used as memory holds it. -/
theorem convPixel_pinned (h : Pinned dp m) (d : OperatorDescriptor)
    {tap : Nat → Nat → Nat → Nat → Int → Kernel Int}
    (hTotal : ∀ filterY filterX inY inX accumulator,
      (tap filterY filterX inY inX accumulator).Total)
    (hReads : ∀ filterY filterX inY inX accumulator,
      Leaves (fun _ => True) (tap filterY filterX inY inX accumulator))
    (batch outY outX outC : Nat) :
    ((convPixel dp base d tap batch outY outX outC).Runs (fun _ => True) m fun _ m' =>
      m' = m.storeWord (tensorData base (d.tensors 3) +
        flatIndex ((d.tensors 3).dimensions 1) ((d.tensors 3).dimensions 2)
          ((d.tensors 3).dimensions 3) batch outY outX outC) 1 (u32 100)) ∧
      .requantize (int32At m (d.shiftAddress - base + outC * 4)) ∈
        (convPixel dp base d tap batch outY outX outC m).trace := by
  obtain ⟨bias, hBias⟩ := evaluates_of_total
    (total_loadI32 (.tensor 2) (tensorData base (d.tensors 2) + outC * 4)) (leaves_loadI32 _ _) m
  obtain ⟨accumulator, hTaps⟩ := evaluates_of_total
    (accumulateTaps_total dp d outY outX bias hTotal)
    (leaves_accumulateTaps dp d outY outX bias hReads) m
  constructor
  · refine hBias.runs_bind (hTaps.runs_bind ?_)
    refine (storeRequantized_stores dp base d outC _ accumulator m).mono fun _ m' hStored => ?_
    rwa [h.requantized] at hStored
  · refine hBias.mem_bind_trace (hTaps.mem_bind_trace ?_)
    refine Prog.Evaluates.mem_bind_trace ⟨rfl, rfl⟩ (Prog.Evaluates.mem_bind_trace ⟨rfl, rfl⟩ ?_)
    exact (Prog.Reaches.emit _).bind_left _ m

end Pinned

/-! ## The last use of a shift -/

/-- One round of the loops of a pinned descriptor, wherever it starts. -/
def PinnedRound (dp base : Nat) (d : OperatorDescriptor)
    (body : Nat → Nat → Nat → Nat → Kernel Unit) :
    Prop :=
  ∀ m, Pinned dp m → ∀ batch outY outX outC,
    ((body batch outY outX outC).Runs (fun _ => True) m fun _ m' =>
      m' = m.storeWord (tensorData base (d.tensors 3) +
        flatIndex ((d.tensors 3).dimensions 1) ((d.tensors 3).dimensions 2)
          ((d.tensors 3).dimensions 3) batch outY outX outC) 1 (u32 100)) ∧
      .requantize (int32At m (d.shiftAddress - base + outC * 4)) ∈
        (body batch outY outX outC m).trace

theorem conv2D_pinnedRound (dp base : Nat) (d : OperatorDescriptor) :
    PinnedRound dp base d fun batch outY outX outC =>
      convPixel dp base d (conv2DTap dp base d batch outC) batch outY outX outC := by
  intro m hPinned batch outY outX outC
  refine convPixel_pinned hPinned d (fun _ _ _ _ _ => .loop fun _ _ _ => ?_)
    (fun _ _ _ _ _ => .loop fun _ _ _ => ?_) batch outY outX outC
  · exact (centeredProduct_total dp _ _).bind fun _ => .pure _
  · exact .bind (leaves_centeredProduct dp _ _) fun _ => .pure _

theorem depthwise_pinnedRound (dp base : Nat) (d : OperatorDescriptor) (depthMultiplier : Nat) :
    PinnedRound dp base d fun batch outY outX outC => divide outC depthMultiplier >>= fun inC =>
      convPixel dp base d (depthwiseTap dp base d batch outC inC) batch outY outX outC := by
  intro m hPinned batch outY outX outC
  obtain ⟨inC, hDivide⟩ := evaluates_of_total (total_divide outC depthMultiplier)
    (leaves_divide _ _) m
  obtain ⟨hRuns, hUsed⟩ := convPixel_pinned hPinned d
    (fun _ _ _ _ _ => (centeredProduct_total dp _ _).bind fun _ => .pure _)
    (fun _ _ _ _ _ => .bind (leaves_centeredProduct dp _ _) fun _ => .pure _) batch outY outX outC
  exact ⟨hDivide.runs_bind hRuns, hDivide.mem_bind_trace hUsed⟩

section Loops

variable {dp base capacity : Nat} {m : ByteMem} {d : OperatorDescriptor} {depthwise : Bool}

/-- Memory after the first `n` output values. -/
def filled (base : Nat) (d : OperatorDescriptor) (m : ByteMem) (n : Nat) : ByteMem :=
  m.store (tensorData base (d.tensors 3)) n fun _ => 100

theorem filled_succ (base : Nat) (d : OperatorDescriptor) (m : ByteMem) (n : Nat) :
    (filled base d m n).storeWord (tensorData base (d.tensors 3) + n) 1 (u32 100) =
      filled base d m (n + 1) := by
  unfold filled
  rw [← ByteMem.store_store_append, ByteMem.storeWord]
  refine ByteMem.store_congr _ fun i hi => ?_
  obtain rfl : i = 0 := by omega
  rfl

theorem Pinned.filled (h : Pinned dp m) (hApart : ApartFrom base (d.tensors 3) dp descriptorBytes)
    {n : Nat} (hn : n ≤ (d.tensors 3).size) : Pinned dp (filled base d m n) := by
  unfold ApartFrom descriptorBytes at hApart
  unfold Pinned Hybrid.filled
  rw [ByteMem.load_store_disjoint _ _ (by omega), ByteMem.load_store_disjoint _ _ (by omega)]
  exact h

/-- The last output value of a channel. -/
theorem last_rowMajor {n h w c i : Nat} (hVolume : 0 < n * h * w * c) :
    rowMajor h w c (n - 1) (h - 1) (w - 1) i = n * h * w * c - c + i := by
  obtain ⟨⟨⟨hn, hh⟩, hw⟩, -⟩ : ((0 < n ∧ 0 < h) ∧ 0 < w) ∧ 0 < c := by
    simpa only [Nat.pos_iff_ne_zero, ne_eq, Nat.mul_eq_zero, not_or] using hVolume
  obtain ⟨n, rfl⟩ := Nat.exists_eq_succ_of_ne_zero hn.ne'
  obtain ⟨h, rfl⟩ := Nat.exists_eq_succ_of_ne_zero hh.ne'
  obtain ⟨w, rfl⟩ := Nat.exists_eq_succ_of_ne_zero hw.ne'
  have hLast : n.succ * h.succ * w.succ * c = ((n * h.succ + h) * w.succ + w) * c + c := by
    simp only [Nat.succ_eq_add_one]
    ring
  rw [hLast, Nat.add_sub_cancel]
  rfl

/-- A channel whose shift is stored to before its last use gets a shift out of range. -/
theorem forEachOutput_overwrites {body : Nat → Nat → Nat → Nat → Kernel Unit}
    (hRound : PinnedRound dp base d body) (hShape : ConvShape d depthwise)
    (hWords : (d.tensors 3).Words) (hNonempty : 0 < (d.tensors 3).size) (hPinned : Pinned dp m)
    (hApart : ApartFrom base (d.tensors 3) dp descriptorBytes)
    (hZero : ∀ i < d.quantizationCount * 4, m (d.shiftAddress - base + i) = 0)
    (hKept : ¬ShiftsKept base d) :
    ∃ shift, 30 < shift ∧ .requantize shift ∈ (forEachOutput d body m).trace := by
  unfold ShiftsKept at hKept
  push Not at hKept
  obtain ⟨outC, hOutC, hStored, hAbove, hBelow⟩ := hKept
  have hVolume := hShape.output ▸ hNonempty
  have hLast := @last_rowMajor _ _ _ _ outC hVolume
  rw [← OperatorTensor.volume, ← hShape.output] at hLast
  have hDimensions := hVolume
  simp only [OperatorTensor.volume, Nat.pos_iff_ne_zero, ne_eq, Nat.mul_eq_zero,
    not_or] at hDimensions
  have hk : InOutput d ((d.tensors 3).dimensions 0 - 1, (d.tensors 3).dimensions 1 - 1,
      (d.tensors 3).dimensions 2 - 1, outC) := by
    refine ⟨?_, ?_, ?_, hShape.channels ▸ hOutC⟩
    · rw [← hShape.batches]
      omega
    · dsimp only
      omega
    · dsimp only
      omega
  have hBody : ∀ k, InOutput d k → ∀ m', m' = filled base d m (rowMajor ((d.tensors 3).dimensions 1)
      ((d.tensors 3).dimensions 2) ((d.tensors 3).dimensions 3) k.1 k.2.1 k.2.2.1 k.2.2.2) →
      (body k.1 k.2.1 k.2.2.1 k.2.2.2).Runs (fun _ => True) m' fun _ m'' =>
        m'' = filled base d m (rowMajor ((d.tensors 3).dimensions 1) ((d.tensors 3).dimensions 2)
          ((d.tensors 3).dimensions 3) k.1 k.2.1 k.2.2.1 k.2.2.2 + 1) := by
    rintro ⟨b, y, x, c⟩ ⟨hb, hy, hx, hc⟩ _ rfl
    have hLess := rowMajor_lt (hShape.batches ▸ hb) hy hx hc
    rw [← OperatorTensor.volume, ← hShape.output] at hLess
    refine (hRound _ (hPinned.filled hApart hLess.le) b y x c).1.mono fun _ m'' hStored => ?_
    rw [hStored, flatIndex_eq hWords hShape.output (hShape.batches ▸ hb) hy hx hc, filled_succ]
  obtain ⟨_, rfl, hTrace⟩ := forEachOutput_visits (I := fun n m' => m' = filled base d m n) hBody
    (ByteMem.store_zero m _ _).symm hk
  dsimp only at hTrace
  have hFits : (d.tensors 3).size - d.quantizationCount + outC ≤ (d.tensors 3).size := by
    have hChannels : d.quantizationCount ≤ (d.tensors 3).size := by
      rw [hShape.output, hShape.channels]
      exact Nat.le_mul_of_pos_left _ (Nat.pos_of_mul_pos_right hVolume)
    omega
  rw [hLast, ← hShape.channels] at hTrace
  refine ⟨_, ?_, hTrace _ (hRound _ (hPinned.filled hApart hFits) _ _ _ _).2⟩
  have hByte : ∀ i < 4, filled base d m ((d.tensors 3).size - d.quantizationCount + outC)
      (d.shiftAddress - base + outC * 4 + i) =
        if tensorData base (d.tensors 3) ≤ d.shiftAddress - base + outC * 4 + i ∧
          d.shiftAddress - base + outC * 4 + i < tensorData base (d.tensors 3) +
            ((d.tensors 3).size - d.quantizationCount + outC) then 100 else 0 := by
    intro i hi
    unfold filled ByteMem.store
    rw [show d.shiftAddress - base + outC * 4 + i = d.shiftAddress - base + (outC * 4 + i) by omega,
      hZero _ (by omega)]
  refine int32At_above (j := tensorData base (d.tensors 3) - (d.shiftAddress - base + outC * 4))
    (fun i hi => ?_) (by omega) ?_
  · rw [hByte i hi]
    split
    · exact .inr rfl
    · exact .inl rfl
  · rw [hByte _ (by omega), if_pos (by omega)]

end Loops

theorem shiftsValid_of_zero {base : Nat} {d : OperatorDescriptor} {m : ByteMem} {depthwise : Bool}
    (hShape : ConvShape d depthwise)
    (hZero : ∀ i < d.quantizationCount * 4, m (d.shiftAddress - base + i) = 0) :
    ShiftsValid base d m := by
  intro outC hOutC
  rw [← hShape.channels] at hOutC
  have hWord : m.load (d.shiftAddress - base + outC * 4) 4 = ByteMem.load (fun _ => 0) 0 4 := by
    refine ByteMem.load_eq fun i hi => ?_
    rw [Nat.add_assoc]
    exact hZero _ (by omega)
  rw [int32At, hWord]
  decide

section Dispatch

variable {dp base capacity : Nat} {m : ByteMem} {depthwise : Bool} {F : Type} (ops : FloatOps F)
  (elapsed : Nat)

theorem runKernel_accepts
    (hTrue : (runKernel ops dp base elapsed (some (convOpcode depthwise)) m).result = some true) :
    (commonConvValid (.read m dp) depthwise m).result = some () := by
  cases depthwise with
  | true =>
    have hReturned : (runGem5HybridDepthwiseConv2D dp base elapsed m).result.isSome = true :=
      Option.some.inj hTrue
    obtain ⟨_, hResult⟩ := Option.isSome_iff_exists.1 hReturned
    rw [runGem5HybridDepthwiseConv2D, descriptorAt_bind, depthwiseFrom] at hResult
    obtain ⟨_, hChecks⟩ := Prog.returned_of_bind hResult
    rw [depthwiseChecks] at hChecks
    obtain ⟨⟨⟩, hCommon⟩ := Prog.returned_of_bind hChecks
    exact hCommon
  | false =>
    have hReturned : (runGem5HybridConv2D dp base elapsed m).result.isSome = true :=
      Option.some.inj hTrue
    obtain ⟨_, hResult⟩ := Option.isSome_iff_exists.1 hReturned
    rw [runGem5HybridConv2D, descriptorAt_bind, conv2DFrom] at hResult
    obtain ⟨_, hChecks⟩ := Prog.returned_of_bind hResult
    rw [conv2DChecks] at hChecks
    obtain ⟨⟨⟩, hCommon⟩ := Prog.returned_of_bind hChecks
    exact hCommon

theorem dispatch_accepts
    (hOpcode : OperatorOpcode.ofCode (OperatorDescriptor.read m dp).opcode =
      some (convOpcode depthwise))
    (hTrue : (dispatchGem5HybridOperator ops dp base capacity elapsed m).result = some true) :
    validateGem5HybridDescriptor (.read m dp) base capacity = .none ∧
      (commonConvValid (.read (started dp m) dp) depthwise (started dp m)).result = some () := by
  by_cases hValid : validateGem5HybridDescriptor (.read m dp) base capacity = .none
  · obtain ⟨success, hSuccess⟩ := Option.isSome_iff_exists.1
      (runKernel_total ops dp base elapsed (OperatorOpcode.ofCode
        (OperatorDescriptor.read (started dp m) dp).opcode) (started dp m))
    obtain ⟨hResult, -⟩ := dispatch_valid ops elapsed hValid rfl hSuccess
    rw [hResult, Option.some.injEq] at hTrue
    subst hTrue
    have hStarted : (OperatorDescriptor.read (started dp m) dp).opcode =
        (OperatorDescriptor.read m dp).opcode := started_load dp m (by omega) (by omega)
    rw [hStarted, hOpcode] at hSuccess
    exact ⟨hValid, runKernel_accepts ops elapsed hSuccess⟩
  · rw [dispatch_invalid ops elapsed hValid] at hTrue
    cases hTrue

theorem runKernel_overwrites (hInside : DeclaredInside (.read m dp) base capacity)
    (hCommon : (commonConvValid (.read m dp) depthwise m).result = some ()) (hPinned : Pinned dp m)
    (hApart : ApartFrom base ((OperatorDescriptor.read m dp).tensors 3) dp descriptorBytes)
    (hZero : ∀ i < (OperatorDescriptor.read m dp).quantizationCount * 4,
      m ((OperatorDescriptor.read m dp).shiftAddress - base + i) = 0)
    (hKept : ¬ShiftsKept base (.read m dp)) :
    ∃ shift, 30 < shift ∧ .requantize shift ∈
      (runKernel ops dp base elapsed (some (convOpcode depthwise)) m).trace := by
  have hShape := convShape_of_accepted hInside hCommon
  have hNonempty := (hInside.tensors 3 (by rw [hShape.tensorCount]; decide)).nonempty
  have hEvaluates := commonConvValid_evaluates hCommon
  have hShifts := (checkShifts_checks _ base m).evaluates (shiftsValid_of_zero hShape hZero)
  cases depthwise with
  | true =>
    obtain ⟨shift, hAbove, hUsed⟩ := forEachOutput_overwrites (depthwise_pinnedRound dp base _ _)
      hShape (hInside.words 3) hNonempty hPinned hApart hZero hKept
    refine ⟨shift, hAbove, ?_⟩
    rw [convOpcode, runKernel, Prog.attempt_trace, runGem5HybridDepthwiseConv2D, descriptorAt_bind,
      depthwiseFrom]
    refine Prog.Evaluates.mem_bind_trace (hEvaluates.bind (.bind ⟨rfl, rfl⟩
      (hShifts.bind (.pure _ m)))) ?_
    exact Prog.mem_bind_trace hUsed _
  | false =>
    obtain ⟨shift, hAbove, hUsed⟩ := forEachOutput_overwrites (conv2D_pinnedRound dp base _)
      hShape (hInside.words 3) hNonempty hPinned hApart hZero hKept
    refine ⟨shift, hAbove, ?_⟩
    rw [convOpcode, runKernel, Prog.attempt_trace, runGem5HybridConv2D,
      descriptorAt_bind, conv2DFrom]
    have hChecks : (conv2DChecks base (.read m dp)).Evaluates m () := hEvaluates.bind hShifts
    exact hChecks.mem_bind_trace (Prog.mem_bind_trace hUsed _)

/-- The pinned descriptor is accepted like the given one, and uses a shift out of range. -/
theorem dispatch_overwrites
    (hOpcode : OperatorOpcode.ofCode (OperatorDescriptor.read m dp).opcode =
      some (convOpcode depthwise))
    (hAccepted : (dispatchGem5HybridOperator ops dp base capacity elapsed m).result = some true)
    (hApart : ApartFrom base ((OperatorDescriptor.read m dp).tensors 3) dp descriptorBytes)
    (hShifts : (OperatorDescriptor.read m dp).shiftAddress - base +
        (OperatorDescriptor.read m dp).quantizationCount * 4 ≤ dp ∨
      dp + descriptorBytes ≤ (OperatorDescriptor.read m dp).shiftAddress - base)
    (hKept : ¬ShiftsKept base (.read m dp)) :
    ∃ shift, 30 < shift ∧ .requantize shift ∈
      (dispatchGem5HybridOperator ops dp base capacity elapsed (pinned dp m)).trace := by
  have hLayout := pinned_sameLayout dp m
  obtain ⟨hValid, hCommon⟩ := dispatch_accepts ops elapsed hOpcode hAccepted
  have hValid' := hLayout.sameForm.validate hLayout.sameHeader hValid
  obtain ⟨hSame, hInside⟩ := started_declaredInside hValid
  obtain ⟨-, hInside'⟩ := started_declaredInside hValid'
  have hShape := convShape_of_accepted hInside hCommon
  have hForm : SameForm (.read m dp) (.read (started dp (pinned dp m)) dp) := by
    refine sameForm_of_fields fun a hLow hHigh => ?_
    rw [started_load dp _ (by omega) (by omega)]
    exact hLayout.load (by omega) hHigh
  have hPinned : Pinned dp (started dp (pinned dp m)) := by
    unfold Pinned
    rw [started_load dp _ (by omega) (by omega), started_load dp _ (by omega) (by omega)]
    exact pinned_bounds dp m
  have hCommon' : (commonConvValid (.read (started dp (pinned dp m)) dp) depthwise
      (started dp (pinned dp m))).result = some () := by
    rw [hLayout.started.commonConvValid (hPinned.activationValid.trans hShape.activation.symm),
      (commonConvValid_lockstep _ depthwise _ (started dp m)).1]
    exact hCommon
  have hOpcode' : OperatorOpcode.ofCode
      (OperatorDescriptor.read (started dp (pinned dp m)) dp).opcode =
        some (convOpcode depthwise) := by
    have hStarted : (OperatorDescriptor.read (started dp (pinned dp m)) dp).opcode =
        (OperatorDescriptor.read (pinned dp m) dp).opcode := started_load dp _ (by omega) (by omega)
    rw [hStarted, hLayout.sameHeader.opcode, hOpcode]
  rw [dispatch_trace_valid hValid', hOpcode']
  refine runKernel_overwrites ops elapsed hInside' hCommon' hPinned ?_ ?_ ?_
  · have hOutput := hForm.tensors 3 (by decide)
    unfold ApartFrom tensorData at hApart ⊢
    rw [hOutput.address, hOutput.size]
    exact hApart
  · rw [hForm.shiftAddress, hForm.quantizationCount]
    intro i hi
    rw [started_byte dp _ (by unfold descriptorBytes at hShifts; omega)
      (by unfold descriptorBytes at hShifts; omega)]
    exact pinned_outside m (by omega)
  · exact fun h => hKept (hForm.shiftsKept_iff.1 h)

end Dispatch

/-- An accepted layout gives only checked shifts, for every content and all activation bounds. -/
def LayoutChecked {F : Type} (ops : FloatOps F) (dp base capacity elapsed : Nat) (m : ByteMem) :
    Prop :=
  ∀ m', SameLayout dp m m' → ∀ shift,
    .requantize shift ∈ (dispatchGem5HybridOperator ops dp base capacity elapsed m').trace →
      (-31 ≤ shift ∧ shift ≤ 30) ∧ (max shift 0).toNat < 64 ∧ (max (-shift) 0).toNat < 32

/-- Keeping the shifts is enough for every layout; a layout whose descriptor is apart from its
output and its shifts needs it. -/
theorem dispatch_shifts_checked_iff {F : Type} (ops : FloatOps F) {m : ByteMem}
    {dp base capacity : Nat} (elapsed : Nat) {depthwise : Bool}
    (hOpcode : OperatorOpcode.ofCode (OperatorDescriptor.read m dp).opcode =
      some (convOpcode depthwise))
    (hAccepted : (dispatchGem5HybridOperator ops dp base capacity elapsed m).result = some true) :
    (ShiftsKept base (.read m dp) → LayoutChecked ops dp base capacity elapsed m) ∧
      (ApartFrom base ((OperatorDescriptor.read m dp).tensors 3) dp descriptorBytes →
        ((OperatorDescriptor.read m dp).shiftAddress - base +
            (OperatorDescriptor.read m dp).quantizationCount * 4 ≤ dp ∨
          dp + descriptorBytes ≤ (OperatorDescriptor.read m dp).shiftAddress - base) →
        LayoutChecked ops dp base capacity elapsed m → ShiftsKept base (.read m dp)) := by
  constructor
  · intro hKept m' hLayout shift hUsed
    rw [← hLayout.sameHeader.opcode] at hOpcode
    exact dispatch_shifts_checked ops elapsed hOpcode
      (hLayout.sameForm.shiftsKept_iff.2 hKept) shift hUsed
  · intro hApart hShifts hChecked
    by_contra hKept
    obtain ⟨shift, hAbove, hUsed⟩ := dispatch_overwrites ops elapsed hOpcode hAccepted
      hApart hShifts hKept
    obtain ⟨⟨-, hBelow⟩, -⟩ := hChecked _ (pinned_sameLayout dp m) shift hUsed
    omega

/-- The pointwise convolution with its output on the shift of the second channel. -/
def outputOnShifts : ByteMem :=
  (pointwiseMemory 200 (2 ^ 30) 0).storeWords [(512 + 144, 0x20000000 + 132)]

theorem dispatch_shifts_checked_pointwise :
    LayoutChecked exactFloat 512 0x20000000 4096 0 (pointwiseMemory 5 (2 ^ 30) 3) ∧
      ¬LayoutChecked exactFloat 512 0x20000000 4096 0 outputOnShifts := by
  have hPointwise := @dispatch_shifts_checked_iff ℝ exactFloat (pointwiseMemory 5 (2 ^ 30) 3) 512
    0x20000000 4096 0 false (by decide +kernel) (by decide +kernel)
  have hOverlap := @dispatch_shifts_checked_iff ℝ exactFloat outputOnShifts 512 0x20000000 4096 0
    false (by decide +kernel) (by decide +kernel)
  refine ⟨hPointwise.1 (by decide +kernel), fun hChecked => ?_⟩
  exact absurd (hOverlap.2 (by decide +kernel) (by decide +kernel) hChecked) (by decide +kernel)

/-- The first output value is 100, and it is the shift of the second. -/
theorem dispatch_shift_overwritten :
    (dispatchGem5HybridOperator exactFloat 512 0x20000000 4096 0 outputOnShifts).result =
      some true ∧ .requantize 100 ∈
        (dispatchGem5HybridOperator exactFloat 512 0x20000000 4096 0 outputOnShifts).trace := by
  decide +kernel

end OpenNpux.Hybrid
