import OpenNpux.Firmware.Staging

/-!
# What the doorbell finds

The blocks of a node are staged one behind the other: the four tensors and then the
multipliers and the shifts of the output channels. Each one has its address in a field of
the descriptor, and later steps write neither that field nor the staging area below the
cursor. The other fields of the descriptor are written once, so that what a step has left
there is still found when the doorbell is rung.
-/

namespace OpenNpux.Firmware

open Lib Bridge Hybrid

/-! ## Blocks -/

/-- Bytes in the staging area, with the field of the descriptor that has their address. -/
structure Block where
  field : Nat
  bytes : Nat
  data : Nat → UInt8

/-- The blocks lie one behind the other below the cursor. -/
structure Laid (dp : Nat) (place : Nat → Nat) (blocks : List Block) (cursor : Nat) (m : ByteMem) :
    Prop where
  field : ∀ b ∈ blocks, b.field + 4 ≤ descriptorBytes
  address : ∀ b ∈ blocks, m.load (dp + b.field) 4 = extmemBase + place b.field
  bytes : ∀ b ∈ blocks, ∀ i < b.bytes, m (place b.field + i) = b.data i
  inside : ∀ b ∈ blocks, operatorStagingOffset ≤ place b.field ∧
    place b.field + b.bytes ≤ operatorStagingOffset + cursor
  ordered : blocks.Pairwise fun b b' => place b.field + b.bytes ≤ place b'.field

/-- The words that are in the descriptor, and the blocks that are staged. -/
structure Holding (dp : Nat) (words : List (Nat × Nat)) (blocks : List Block) (cursor : Nat)
    (m : ByteMem) : Prop where
  words : ∀ word ∈ words, word.1 + 4 ≤ descriptorBytes ∧ m.load (dp + word.1) 4 = word.2
  laid : ∃ place, Laid dp place blocks cursor m
  cursor : cursor ≤ operatorStagingSize

section Blocks

variable {dp cursor : Nat} {place : Nat → Nat} {words : List (Nat × Nat)} {blocks : List Block}
  {S : Nat → Prop} {m m' : ByteMem}

theorem Laid.agree (h : Laid dp place blocks cursor m) (hSame : AgreeOn S m m')
    (hFields : ∀ b ∈ blocks, ∀ i, Within (dp + b.field) 4 i → S i)
    (hStaged : ∀ i, Within operatorStagingOffset cursor i → S i) :
    Laid dp place blocks cursor m' := by
  refine ⟨h.field, fun b hb => ?_, fun b hb i hi => ?_, h.inside, h.ordered⟩
  · rw [← h.address b hb]
    exact hSame.load fun i hi => hFields b hb _ ⟨by omega, by omega⟩
  · obtain ⟨hLow, hHigh⟩ := h.inside b hb
    rw [← h.bytes b hb i hi]
    exact hSame _ (hStaged _ ⟨by omega, by omega⟩)

theorem Holding.agree (h : Holding dp words blocks cursor m) (hSame : AgreeOn S m m')
    (hWords : ∀ word ∈ words, ∀ i, Within (dp + word.1) 4 i → S i)
    (hFields : ∀ b ∈ blocks, ∀ i, Within (dp + b.field) 4 i → S i)
    (hStaged : ∀ i, Within operatorStagingOffset cursor i → S i) :
    Holding dp words blocks cursor m' := by
  obtain ⟨place, hLaid⟩ := h.laid
  refine ⟨fun word hWord => ⟨(h.words word hWord).1, ?_⟩,
    ⟨place, hLaid.agree hSame hFields hStaged⟩, h.cursor⟩
  rw [← (h.words word hWord).2]
  exact hSame.load fun i hi => hWords word hWord _ ⟨by omega, by omega⟩

theorem Laid.append (h : Laid dp place blocks cursor m) {b : Block} {p cursor' : Nat}
    (hField : b.field + 4 ≤ descriptorBytes) (hFields : ∀ b' ∈ blocks, b'.field ≠ b.field)
    (hAddress : m.load (dp + b.field) 4 = extmemBase + p)
    (hBytes : ∀ i < b.bytes, m (p + i) = b.data i)
    (hLow : operatorStagingOffset + cursor ≤ p)
    (hHigh : p + b.bytes ≤ operatorStagingOffset + cursor') :
    Laid dp (Function.update place b.field p) (blocks ++ [b]) cursor' m := by
  have hNew : Function.update place b.field p b.field = p := Function.update_self ..
  have hOld : ∀ b' ∈ blocks, Function.update place b.field p b'.field = place b'.field :=
    fun b' hb' => Function.update_of_ne (hFields b' hb') ..
  have hEach {P : Block → Prop} (hBefore : ∀ b' ∈ blocks, P b') (hLast : P b) :
      ∀ b' ∈ blocks ++ [b], P b' := by
    intro b' hb'
    rcases List.mem_append.1 hb' with hb' | hb'
    · exact hBefore b' hb'
    · rwa [List.mem_singleton.1 hb']
  constructor
  · exact hEach h.field hField
  · exact hEach (fun b' hb' => by rw [hOld b' hb', h.address b' hb']) (by rw [hNew, hAddress])
  · exact hEach (fun b' hb' => by rw [hOld b' hb']; exact h.bytes b' hb') (by rwa [hNew])
  · refine hEach (fun b' hb' => ?_) ?_
    · have hInside := h.inside b' hb'
      rw [hOld b' hb']
      omega
    · rw [hNew]
      omega
  · refine List.pairwise_append.2 ⟨h.ordered.imp_of_mem fun hb hb' hOrder => ?_,
      List.pairwise_singleton _ _, fun b' hb' last hLast => ?_⟩
    · rwa [hOld _ hb, hOld _ hb']
    · have hInside := h.inside b' hb'
      rw [List.mem_singleton.1 hLast, hOld b' hb', hNew]
      omega

theorem Holding.addWords (h : Holding dp words blocks cursor m) {words' : List (Nat × Nat)}
    (hNew : ∀ word ∈ words', word.1 + 4 ≤ descriptorBytes ∧ m.load (dp + word.1) 4 = word.2) :
    Holding dp (words ++ words') blocks cursor m := by
  refine ⟨fun word hWord => ?_, h.laid, h.cursor⟩
  rcases List.mem_append.1 hWord with hWord | hWord
  · exact h.words word hWord
  · exact hNew word hWord

theorem Holding.copyBlock (hdp : dp + descriptorBytes ≤ operatorStagingOffset)
    (h : Holding dp words blocks cursor m) {b : Block} {offset : Nat}
    (hField : b.field + 4 ≤ descriptorBytes) (hFields : ∀ b' ∈ blocks, b'.field ≠ b.field)
    (hAddress : m.load (dp + b.field) 4 = extmemBase + operatorStagingOffset + offset)
    (hFrom : cursor ≤ offset) (hFits : offset + b.bytes ≤ operatorStagingSize) :
    Holding dp words (blocks ++ [b]) (offset + b.bytes)
      (m.store (extmemBase + operatorStagingOffset + offset - extmemBase) b.bytes b.data) := by
  obtain ⟨_, hLaid⟩ := h.laid
  rw [Nat.add_assoc, Nat.add_sub_cancel_left]
  have hSame : AgreeOn (fun i => i < operatorStagingOffset + offset) m
      (m.store (operatorStagingOffset + offset) b.bytes b.data) := by
    refine agreeOn_store m b.data fun i hi hWithin => ?_
    unfold Within at hWithin
    omega
  have hHeld : Holding dp words blocks cursor
      (m.store (operatorStagingOffset + offset) b.bytes b.data) := by
    apply h.agree hSame
    · exact fun word hWord i hi => by have := (h.words word hWord).1; unfold Within at hi; omega
    · exact fun b' hb' i hi => by have := hLaid.field b' hb'; unfold Within at hi; omega
    · exact fun i hi => by unfold Within at hi; omega
  obtain ⟨place, hPlaces⟩ := hHeld.laid
  refine ⟨hHeld.words, ⟨_, hPlaces.append (p := operatorStagingOffset + offset)
    hField hFields ?_ (fun i hi => ?_) ?_ ?_⟩, hFits⟩
  · rw [← Nat.add_assoc, ← hAddress]
    exact ByteMem.load_store_disjoint m _ (by omega)
  · rw [ByteMem.store_inside m _ (by omega), Nat.add_sub_cancel_left]
  · omega
  · omega

end Blocks

/-! ## Tensors -/

/-- A tensor at its index of the descriptor, with its size. -/
structure Entry where
  index : Nat
  tensor : EvalTensor
  bytes : Nat
  elementType : ElementType
  zeroPoint : Int

namespace Entry

variable (e : Entry)

def block : Block := ⟨36 + 36 * e.index, e.bytes, e.tensor.data⟩

/-- The fields of the entry behind the address. -/
def words : List (Nat × Nat) :=
  (tensorWords e.index 0 e.bytes e.tensor e.elementType e.zeroPoint).tail

theorem tensorWords_eq (address : Nat) :
    tensorWords e.index address e.bytes e.tensor e.elementType e.zeroPoint =
      (36 + 36 * e.index, address) :: e.words := rfl

variable {e}

theorem words_place {word : Nat × Nat} (h : word ∈ e.words) :
    36 + 36 * e.index ≤ word.1 ∧ word.1 + 4 ≤ 36 + 36 * e.index + 36 :=
  tensorWords_place _ _ _ (List.mem_of_mem_tail h)

theorem words_lt (hBytes : e.bytes < 2 ^ 32) (hRank : e.tensor.dims.length < 2 ^ 32)
    {word : Nat × Nat} (h : word ∈ e.words) : word.2 < 2 ^ 32 := by
  simp only [words, tensorWords, List.tail_cons, List.mem_cons, List.not_mem_nil, or_false] at h
  rcases h with rfl | rfl | rfl | rfl | rfl | rfl | rfl | rfl
  · exact hBytes
  · exact hRank
  · exact u32_lt _
  · exact u32_lt _
  · exact u32_lt _
  · exact u32_lt _
  · dsimp only
    cases e.elementType <;> decide
  · exact u32_lt _

end Entry

/-- In front of the state, or between the count of tensors and `top`. -/
def Before (top field : Nat) : Prop := field + 4 ≤ 16 ∨ 36 ≤ field ∧ field + 4 ≤ top

/-- The descriptor and the staging area with these tensors. -/
abbrev Staged (dp opcode : Nat) (entries : List Entry) (cursor : Nat) (m : ByteMem) : Prop :=
  Holding dp ((12, opcode) :: entries.flatMap Entry.words) (entries.map Entry.block) cursor m

section Entries

variable {opcode index : Nat} {entries : List Entry} (h : ∀ e ∈ entries, e.index < index)

include h

theorem words_before :
    ∀ word ∈ (12, opcode) :: entries.flatMap Entry.words, Before (36 + 36 * index) word.1 := by
  intro word hWord
  rcases List.mem_cons.1 hWord with rfl | hWord
  · exact .inl (by dsimp only; omega)
  · obtain ⟨e, he, hWord⟩ := List.mem_flatMap.1 hWord
    have := h e he
    have := Entry.words_place hWord
    exact .inr (by omega)

theorem blocks_before : ∀ b ∈ entries.map Entry.block, Before (36 + 36 * index) b.field := by
  intro b hb
  obtain ⟨e, he, rfl⟩ := List.mem_map.1 hb
  have := h e he
  unfold Entry.block
  exact .inr (by dsimp only; omega)

end Entries

section Stages

variable {dp cursor : Nat} {words : List (Nat × Nat)} {blocks : List Block}

theorem setOperatorTensor_words {e : Entry} {address : Nat} (hAddress : address < 2 ^ 32)
    (hBytes : e.bytes < 2 ^ 32) (s : Handle) :
    (setOperatorTensor dp e.index address e.bytes e.tensor e.elementType e.zeroPoint).Ensures
      (fun _ => True) s fun _ s' => ∀ word ∈ (36 + 36 * e.index, address) :: e.words,
        s'.localExtmem.load (dp + word.1) 4 = word.2 := by
  refine .require_bind fun hChecks => writeExtmem_bind fun s₁ h₁ => writeExtmem_ensures
    fun s₂ h₂ => ?_
  have hCount : AgreeOn (fun i => ¬Within (dp + 32) 4 i) s₁.localExtmem s₂.localExtmem := by
    rw [h₂]
    split
    · exact agreeOn_store _ _ fun i hi => hi
    · exact fun _ _ => rfl
  simp only [Bool.and_eq_true, decide_eq_true_eq] at hChecks
  have hRank : e.tensor.dims.length < 2 ^ 32 := Nat.lt_of_le_of_lt hChecks.2 (by decide)
  intro word hWord
  rw [← e.tensorWords_eq] at hWord
  have hPlace := tensorWords_place _ _ _ hWord
  rw [hCount.load fun i hi hWithin => by unfold Within at hWithin; omega, h₁,
    load_descriptorWords _ dp (tensorWords_pairwise _ _ _ _ _) hWord]
  apply Nat.mod_eq_of_lt
  rcases List.mem_cons.1 hWord with rfl | hWord
  · exact hAddress
  · exact Entry.words_lt hBytes hRank hWord

variable (hdp : dp + descriptorBytes ≤ operatorStagingOffset)

include hdp

theorem stageTensor_staged {s : Handle} {opcode : Nat} {entries : List Entry}
    (h : Staged dp opcode entries cursor s.localExtmem) {index : Nat} (hIndex : index < 4)
    (hBefore : ∀ e ∈ entries, e.index < index) (t : EvalTensor) (elementSize : Nat)
    (elementType : ElementType) (zeroPoint : Int) :
    (stageTensor dp cursor index t elementSize elementType zeroPoint).Ensures (fun _ => True) s
      fun cursor' s' => Staged dp opcode
        (entries ++ [⟨index, t, tensorBytes t elementSize, elementType, zeroPoint⟩]) cursor'
        s'.localExtmem := by
  unfold stageTensor
  dsimp only
  have hBlock := @allocateStaging_block cursor (tensorBytes t elementSize)
    (if elementSize < 16 then 16 else elementSize)
  generalize allocateStaging cursor (tensorBytes t elementSize)
    (if elementSize < 16 then 16 else elementSize) = allocation at hBlock ⊢
  obtain ⟨e, he⟩ : ∃ e : Entry, e = ⟨index, t, tensorBytes t elementSize, elementType, zeroPoint⟩ :=
    ⟨_, rfl⟩
  rw [← he]
  obtain rfl : e.index = index := he ▸ rfl
  obtain rfl : e.tensor = t := he ▸ rfl
  obtain rfl : e.elementType = elementType := he ▸ rfl
  obtain rfl : e.zeroPoint = zeroPoint := he ▸ rfl
  have hBytes : tensorBytes e.tensor elementSize = e.bytes := he ▸ rfl
  rw [hBytes] at hBlock ⊢
  refine .require_bind fun hAddress => ?_
  obtain ⟨offset, rfl, -, hFrom, -, hFits⟩ := hBlock (bne_iff_ne.mp hAddress)
  have hTop : extmemBase + operatorStagingOffset + operatorStagingSize < 2 ^ 32 := by decide
  have hSmall : operatorStagingSize < 2 ^ 32 := by decide
  refine .bind ((setOperatorTensor_words (by dsimp only; omega) (by omega) s).and
    ((spares_setOperatorTensor _ _ _ _ _).ensures s)) fun _ s₁ ⟨hWords, hSame⟩ =>
      writeExtmem_bind fun s₂ h₂ => .pure ?_
  have hDescriptor : 36 + 36 * e.index + 36 ≤ descriptorBytes := by
    unfold descriptorBytes
    omega
  -- What was there is beside the entry, and below the cursor of the staging area.
  have hOld : Staged dp opcode entries cursor s₁.localExtmem := by
    have hField {field : Nat} (hBefore : Before (36 + 36 * e.index) field) (i : Nat)
        (hi : Within (dp + field) 4 i) : besideEntry dp e.index i := by
      unfold Before at hBefore
      unfold besideEntry
      unfold Within at hi ⊢
      omega
    apply h.agree hSame
    · exact fun word hWord => hField (words_before hBefore word hWord)
    · exact fun b hb => hField (blocks_before hBefore b hb)
    · intro i hi
      unfold besideEntry
      unfold Within at hi ⊢
      omega
  have hNew : Holding dp ((12, opcode) :: (entries ++ [e]).flatMap Entry.words)
      (entries.map Entry.block) cursor s₁.localExtmem := by
    rw [List.flatMap_append, List.flatMap_singleton, ← List.cons_append]
    refine hOld.addWords fun word hWord => ⟨?_, hWords word (List.mem_cons_of_mem _ hWord)⟩
    have := Entry.words_place hWord
    omega
  rw [h₂, Staged, List.map_append, List.map_singleton]
  refine hNew.copyBlock hdp (b := e.block) ?_ ?_ (hWords _ List.mem_cons_self) hFrom hFits
  · unfold Entry.block
    dsimp only
    omega
  · intro b hb
    have hFront := blocks_before hBefore b hb
    unfold Before at hFront
    unfold Entry.block
    dsimp only
    omega

omit hdp in
theorem initializeOperatorDescriptor_staged {opcode : Nat} (hOpcode : opcode < 2 ^ 32)
    (executionMode : Nat) (s : Handle) :
    (initializeOperatorDescriptor dp opcode executionMode).Ensures (fun _ => True) s
      fun _ s' => Staged dp opcode [] 0 s'.localExtmem := by
  refine writeExtmem_bind fun s₁ _ => .modify ⟨?_, ⟨fun _ => 0, ?_⟩, Nat.zero_le _⟩
  · intro word hWord
    obtain rfl := List.mem_singleton.1 hWord
    have hLoad := @ByteMem.load_storeWords_of_mem s₁.localExtmem
      [(dp, operatorAbiMagic), (dp + 4, operatorAbiVersion), (dp + 8, descriptorBytes),
        (dp + 12, opcode), (dp + 28, executionMode)] (by simp) (dp + 12) opcode (by simp)
    exact ⟨(by decide : 12 + 4 ≤ descriptorBytes), hLoad.trans (Nat.mod_eq_of_lt hOpcode)⟩
  · constructor <;> simp

theorem stageQuantization_holding {s : Handle} (h : Holding dp words blocks cursor s.localExtmem)
    (hWords : ∀ word ∈ words, Before 180 word.1) (hFields : ∀ b ∈ blocks, Before 180 b.field)
    (channels : Nat) (data : OpDataConv) :
    (stageQuantization dp cursor channels data).Ensures (fun _ => True) s fun _ s' =>
      ∃ cursor', Holding dp words (blocks ++
        [⟨196, channels * 4 % 2 ^ 32, wordBytes data.perChannelOutputMultiplier⟩,
          ⟨200, channels * 4 % 2 ^ 32, wordBytes data.perChannelOutputShift⟩]) cursor'
        s'.localExtmem := by
  unfold stageQuantization
  dsimp only
  have hFirst := @allocateStaging_block cursor (channels * 4 % 2 ^ 32) 4
  generalize allocateStaging cursor (channels * 4 % 2 ^ 32) 4 = first at hFirst ⊢
  have hSecond := @allocateStaging_block first.2 (channels * 4 % 2 ^ 32) 4
  generalize allocateStaging first.2 (channels * 4 % 2 ^ 32) 4 = second at hSecond ⊢
  generalize channels * 4 % 2 ^ 32 = bytes at hFirst hSecond ⊢
  refine writeExtmem_bind fun s₁ h₁ => .require_bind fun hBoth => ?_
  rw [Bool.and_eq_true, bne_iff_ne, bne_iff_ne] at hBoth
  obtain ⟨offset, rfl, -, hFrom, -, hFits⟩ := hFirst hBoth.1
  obtain ⟨offset', rfl, -, hFrom', -, hFits'⟩ := hSecond hBoth.2
  dsimp only at h₁ hFrom' ⊢
  have hTop : extmemBase + operatorStagingOffset + operatorStagingSize < 2 ^ 32 := by decide
  have hSame : AgreeOn (fun i => ¬Within (dp + 196) 8 i) s.localExtmem s₁.localExtmem := by
    rw [h₁]
    exact spares_quantizationWords _ _ s
  have hLoad {a v : Nat} (hMem : (a, v) ∈ [(196, extmemBase + operatorStagingOffset + offset),
      (200, extmemBase + operatorStagingOffset + offset')]) (hv : v < 2 ^ 32) :
      s₁.localExtmem.load (dp + a) 4 = v := by
    rw [h₁, load_descriptorWords _ dp (by simp) hMem]
    exact Nat.mod_eq_of_lt hv
  have hHeld : Holding dp words blocks cursor s₁.localExtmem := by
    unfold descriptorBytes at hdp
    have hField {field : Nat} (hBefore : Before 180 field) (i : Nat)
        (hi : Within (dp + field) 4 i) : ¬Within (dp + 196) 8 i := by
      unfold Before at hBefore
      unfold Within at hi ⊢
      omega
    apply h.agree hSame
    · exact fun word hWord => hField (hWords word hWord)
    · exact fun b hb => hField (hFields b hb)
    · exact fun i hi => by unfold Within at hi ⊢; omega
  have hFresh {field : Nat} (hField : 180 ≤ field) : ∀ b ∈ blocks, b.field ≠ field := by
    intro b hb
    have hFront := hFields b hb
    unfold Before at hFront
    omega
  refine writeExtmem_bind fun s₂ h₂ => writeExtmem_ensures fun s₃ h₃ =>
    ⟨offset' + bytes, ?_⟩
  have hMultipliers := hHeld.copyBlock hdp
    (b := ⟨196, bytes, wordBytes data.perChannelOutputMultiplier⟩)
    (by dsimp only; decide) (hFresh (by dsimp only; decide))
      (hLoad (by simp) (by omega)) hFrom hFits
  have hShifts := hMultipliers.copyBlock hdp
    (b := ⟨200, bytes, wordBytes data.perChannelOutputShift⟩)
    (by dsimp only; decide) ?_ ?_ hFrom' hFits'
  · rw [h₃, h₂]
    rwa [List.append_assoc] at hShifts
  · intro b hb
    rcases List.mem_append.1 hb with hb | hb
    · exact hFresh (by dsimp only; decide) b hb
    · rw [List.mem_singleton.1 hb]
      dsimp only
      decide
  · refine Eq.trans ?_ (hLoad (a := 200) (by simp) (by omega))
    unfold descriptorBytes at hdp
    exact ByteMem.load_store_disjoint _ _ (by dsimp only; omega)

end Stages

/-! ## Nodes -/

structure Convolution where
  depthwise : Bool
  data : OpDataConv
  params : ConvParams
  input : EvalTensor
  filter : EvalTensor
  bias : EvalTensor
  output : EvalTensor

namespace Convolution

variable (c : Convolution)

def node : ConvNode where
  depthwise := c.depthwise
  numInputs := 3
  userData := some c.data
  builtinData := some c.params
  input := some c.input
  filter := some c.filter
  bias := some c.bias
  output := some c.output

theorem node_injective : Function.Injective node := by
  rintro ⟨_, _, _, _, _, _, _⟩ ⟨_, _, _, _, _, _, _⟩ hSame
  simpa [node] using hSame

def inputEntry : Entry := ⟨0, c.input, tensorBytes c.input 1, .int8, c.data.inputZeroPoint⟩
def filterEntry : Entry := ⟨1, c.filter, tensorBytes c.filter 1, .int8, c.data.filterZeroPoint⟩
def biasEntry : Entry := ⟨2, c.bias, tensorBytes c.bias 4, .int32, 0⟩
def outputEntry : Entry := ⟨3, c.output, tensorBytes c.output 1, .int8, c.data.outputZeroPoint⟩

def entries : List Entry := [c.inputEntry, c.filterEntry, c.biasEntry, c.outputEntry]

/-- The opcode, the entries of the tensors and the parameters of the node. -/
def words : List (Nat × Nat) :=
  ((12, (convOpcode c.depthwise).code) :: c.entries.flatMap Entry.words) ++
    describeWords (tensorDimension c.output 3) c.data c.params

def blocks : List Block :=
  c.entries.map Entry.block ++
    [⟨196, tensorDimension c.output 3 * 4 % 2 ^ 32, wordBytes c.data.perChannelOutputMultiplier⟩,
      ⟨200, tensorDimension c.output 3 * 4 % 2 ^ 32, wordBytes c.data.perChannelOutputShift⟩]

/-- What the descriptor and the staging area hold when the doorbell is rung. -/
def Ready (m : ByteMem) : Prop :=
  ∃ cursor, Holding operatorDescriptorOffset c.words c.blocks cursor m

variable {c}

theorem entries_index : ∀ e ∈ c.entries, e.index < 4 := by
  simp [entries, inputEntry, filterEntry, biasEntry, outputEntry]

theorem words_place : ∀ word ∈ c.words, Before 180 word.1 ∨
    180 ≤ word.1 ∧ word.1 + 4 ≤ 196 ∨ 204 ≤ word.1 ∧ word.1 + 4 ≤ 220 := by
  intro word hWord
  rcases List.mem_append.1 hWord with hWord | hWord
  · exact .inl (words_before entries_index word hWord)
  · exact .inr (describeWords_place hWord)

theorem blocks_place : ∀ b ∈ c.blocks, Before 180 b.field ∨ b.field = 196 ∨ b.field = 200 := by
  intro b hb
  rcases List.mem_append.1 hb with hb | hb
  · exact .inl (blocks_before entries_index b hb)
  · simp only [List.mem_cons, List.not_mem_nil, or_false] at hb
    rcases hb with rfl | rfl
    · exact .inr (.inl rfl)
    · exact .inr (.inr rfl)

end Convolution

section Nodes

variable {c : Convolution} {dp : Nat} (hdp : dp + descriptorBytes ≤ operatorStagingOffset)

include hdp

theorem stageNode_holding {s : Handle} {opcode : Nat} (h : Staged dp opcode [] 0 s.localExtmem) :
    (stageNode dp c.data c.input c.filter c.bias c.output).Ensures (fun _ => True) s fun _ s' =>
      ∃ cursor, Holding dp ((12, opcode) :: c.entries.flatMap Entry.words) c.blocks cursor
        s'.localExtmem := by
  refine .bind (stageTensor_staged hdp h (by decide) (by simp) c.input 1 _ _)
    fun cursor₀ s₀ h₀ => ?_
  refine .bind (stageTensor_staged hdp h₀ (by decide) (by simp) c.filter 1 _ _)
    fun cursor₁ s₁ h₁ => ?_
  refine .bind (stageTensor_staged hdp h₁ (by decide) (by simp) c.bias 4 _ _)
    fun cursor₂ s₂ h₂ => ?_
  refine .bind (stageTensor_staged hdp h₂ (by decide) (by simp) c.output 1 _ _)
    fun cursor₃ s₃ h₃ => ?_
  exact stageQuantization_holding hdp h₃ (words_before Convolution.entries_index)
    (blocks_before Convolution.entries_index) (tensorDimension c.output 3) c.data

theorem describeNode_holding {s : Handle} {cursor opcode : Nat}
    (h : Holding dp ((12, opcode) :: c.entries.flatMap Entry.words) c.blocks cursor s.localExtmem) :
    (describeNode dp (tensorDimension c.output 3) c.data c.params).Ensures (fun _ => True) s
      fun _ s' => Holding dp (((12, opcode) :: c.entries.flatMap Entry.words) ++
        describeWords (tensorDimension c.output 3) c.data c.params) c.blocks cursor
          s'.localExtmem := by
  unfold describeNode descriptorWords
  refine writeExtmem_ensures fun s' hs' => ?_
  have hSame : AgreeOn (fun i => ¬(Within (dp + 180) 16 i ∨ Within (dp + 204) 16 i))
      s.localExtmem s'.localExtmem := by
    rw [hs']
    exact spares_describeNode _ _ _ s
  have hHeld : Holding dp ((12, opcode) :: c.entries.flatMap Entry.words) c.blocks cursor
      s'.localExtmem := by
    unfold descriptorBytes at hdp
    apply h.agree hSame
    · intro word hWord i hi
      have hFront := words_before Convolution.entries_index word hWord
      unfold Before at hFront
      unfold Within at hi ⊢
      omega
    · intro b hb i hi
      have hPlace := Convolution.blocks_place b hb
      unfold Before at hPlace
      unfold Within at hi ⊢
      omega
    · exact fun i hi => by unfold Within at hi ⊢; omega
  refine hHeld.addWords fun word hWord => ⟨?_, ?_⟩
  · have := describeWords_place hWord
    unfold descriptorBytes
    omega
  · rw [hs', load_descriptorWords _ dp (describeWords_pairwise _ _ _) hWord]
    apply Nat.mod_eq_of_lt
    simp only [describeWords, List.mem_cons, List.not_mem_nil, or_false] at hWord
    rcases hWord with rfl | rfl | rfl | rfl | rfl | rfl | rfl | rfl <;> exact u32_lt _

omit hdp in
/-- Only a node with all its parts is prepared. -/
theorem prepareNode_ready {F : Type} (cfg : BridgeConfig F) (node : ConvNode) (s : Handle) :
    (prepareNode cfg node).Ensures (fun _ => True) s fun _ s' =>
      ∃ c : Convolution, node = c.node ∧ c.Ready s'.localExtmem := by
  refine .get_bind (.require_bind fun hHybrid => ?_)
  rw [Bool.and_eq_true, beq_iff_eq] at hHybrid
  obtain ⟨depthwise, numInputs, data, params, input, filter, bias, output⟩ := node
  obtain rfl : numInputs = 3 := hHybrid.2
  dsimp only
  split
  · rename_i data params input filter bias output
    refine .require_bind fun _ => ?_
    have hOpcode : (convOpcode depthwise).code < 2 ^ 32 := by cases depthwise <;> decide
    refine .bind (initializeOperatorDescriptor_staged hOpcode _ _) fun _ s₁ hStart => ?_
    refine .bind (@stageNode_holding ⟨depthwise, data, params, input, filter, bias, output⟩ _
      (by decide) _ _ hStart) fun _ s₂ ⟨cursor, hHeld⟩ => ?_
    exact (describeNode_holding (by decide) hHeld).mono fun _ _ h =>
      ⟨⟨depthwise, data, params, input, filter, bias, output⟩, rfl, cursor, h⟩
  · exact ⟨fun _ _ => trivial, fun _ hNever => by cases hNever⟩

end Nodes

/-! ## The descriptor that the host reads -/

/-- The tensor of the descriptor is the one of the entry, and lies in the staging area. -/
structure Entry.Found (e : Entry) (t : OperatorTensor) : Prop where
  address : extmemBase + operatorStagingOffset ≤ t.address
  size : t.size = e.bytes
  dimensions : ∀ i < 4, t.dimensions i = tensorDimension e.tensor i
  zeroPoint : t.zeroPoint = i32 (u32 e.zeroPoint)

namespace Convolution.Ready

variable {c : Convolution} {m m' : ByteMem} (h : c.Ready m)

include h

theorem word {a v : Nat} (hMem : (a, v) ∈ c.words) :
    m.load (operatorDescriptorOffset + a) 4 = v := by
  obtain ⟨_, hHeld⟩ := h
  exact (hHeld.words _ hMem).2

theorem entry {e : Entry} (he : e ∈ c.entries) :
    e.Found ((OperatorDescriptor.read m operatorDescriptorOffset).tensors e.index) := by
  have hWord {a v : Nat} (hMem : (36 + 36 * e.index + a, v) ∈ e.words) :
      m.load (operatorDescriptorOffset + 36 + 36 * e.index + a) 4 = v := by
    have hLoad := h.word (List.mem_append_left _ (List.mem_cons_of_mem _
      (List.mem_flatMap.2 ⟨e, he, hMem⟩)))
    rwa [← Nat.add_assoc, ← Nat.add_assoc] at hLoad
  constructor
  · obtain ⟨_, hHeld⟩ := h
    obtain ⟨place, hLaid⟩ := hHeld.laid
    have hBlock : e.block ∈ c.blocks := List.mem_append_left _ (List.mem_map_of_mem he)
    have hAddress := hLaid.address _ hBlock
    have hInside := (hLaid.inside _ hBlock).1
    have hField : ((OperatorDescriptor.read m operatorDescriptorOffset).tensors e.index).address =
        m.load (operatorDescriptorOffset + e.block.field) 4 :=
      congrArg (m.load · 4) (Nat.add_assoc _ _ _)
    rw [hField]
    omega
  · exact hWord (a := 4) (by simp [Entry.words, tensorWords])
  · intro i hi
    refine (congrArg (m.load · 4) (Nat.add_assoc _ _ _)).trans (hWord ?_)
    have hCases : i = 0 ∨ i = 1 ∨ i = 2 ∨ i = 3 := by omega
    rcases hCases with rfl | rfl | rfl | rfl <;> simp [Entry.words, tensorWords]
  · simp only [OperatorDescriptor.read, OperatorTensor.read]
    rw [hWord (a := 32) (v := u32 e.zeroPoint) (by simp [Entry.words, tensorWords])]

theorem input : c.inputEntry.Found ((OperatorDescriptor.read m operatorDescriptorOffset).tensors
      0) :=
  h.entry (e := c.inputEntry) (by simp [entries])

theorem filter :
    c.filterEntry.Found ((OperatorDescriptor.read m operatorDescriptorOffset).tensors 1) :=
  h.entry (e := c.filterEntry) (by simp [entries])

theorem bias : c.biasEntry.Found ((OperatorDescriptor.read m operatorDescriptorOffset).tensors 2) :=
  h.entry (e := c.biasEntry) (by simp [entries])

theorem output :
    c.outputEntry.Found ((OperatorDescriptor.read m operatorDescriptorOffset).tensors 3) :=
  h.entry (e := c.outputEntry) (by simp [entries])

theorem channels : (OperatorDescriptor.read m operatorDescriptorOffset).quantizationCount =
    tensorDimension c.output 3 :=
  h.word (List.mem_append_right _ (by simp [describeWords]))

theorem opcode : OperatorOpcode.ofCode (OperatorDescriptor.read m operatorDescriptorOffset).opcode =
    some (convOpcode c.depthwise) := by
  have hCode : (OperatorDescriptor.read m operatorDescriptorOffset).opcode =
      (convOpcode c.depthwise).code := h.word List.mem_cons_self
  rw [hCode]
  cases c.depthwise <;> rfl

theorem agree (hSame : AgreeOn (fun i => ¬(Within (operatorDescriptorOffset + 16) 8 i ∨
    Within (operatorDescriptorOffset + 220) 44 i)) m m') : c.Ready m' := by
  obtain ⟨cursor, hHeld⟩ := h
  refine ⟨cursor, hHeld.agree hSame ?_ ?_ ?_⟩
  · intro word hWord i hi
    have hPlace := words_place word hWord
    unfold Before at hPlace
    unfold Within at hi ⊢
    omega
  · intro b hb i hi
    have hPlace := blocks_place b hb
    unfold Before at hPlace
    unfold Within at hi ⊢
    omega
  · intro i hi
    unfold Within operatorStagingOffset at hi
    unfold Within operatorDescriptorOffset
    omega

theorem started : c.Ready (Hybrid.started operatorDescriptorOffset m) := by
  apply h.agree
  intro i hi
  unfold Within at hi
  exact started_byte operatorDescriptorOffset m (by omega) (by omega)

theorem outputData : operatorStagingOffset ≤
    tensorData extmemBase ((OperatorDescriptor.read m operatorDescriptorOffset).tensors 3) := by
  have hLow := h.output.address
  have hAddress : ((OperatorDescriptor.read m operatorDescriptorOffset).tensors 3).address <
      2 ^ 32 :=
    ByteMem.load_lt _ _ 4
  rw [tensorData_eq hAddress (by omega)]
  omega

theorem outputApart :
    ApartFrom extmemBase ((OperatorDescriptor.read m operatorDescriptorOffset).tensors 3)
      operatorDescriptorOffset descriptorBytes := by
  left
  refine Nat.le_trans ?_ h.outputData
  unfold operatorDescriptorOffset descriptorBytes operatorStagingOffset
  omega

end Convolution.Ready

end OpenNpux.Firmware
