import OpenNpux.Firmware.ConvNode

/-!
# What staging writes

A node is staged in the operator descriptor and behind the staging offset, and nowhere
else. Each step writes its own fields of the descriptor and, in the staging area, only
from the cursor on.
-/

namespace OpenNpux.Firmware

open Lib Bridge Hybrid

/-! ## Bytes that a program leaves alone -/

def SameOn (S : Nat → Prop) (h h' : Handle) : Prop := AgreeOn S h.localExtmem h'.localExtmem

instance (S : Nat → Prop) : IsPreorder Handle (SameOn S) where
  refl _ _ _ := rfl
  trans _ _ _ hFirst hSecond i hi := (hSecond i hi).trans (hFirst i hi)

abbrev Spares (S : Nat → Prop) {α : Type} (p : OnCore α) : Prop := p.Grows (SameOn S)

def Within (a n i : Nat) : Prop := a ≤ i ∧ i < a + n

theorem agreeOn_store {S : Nat → Prop} {a n : Nat} (m : ByteMem) (src : Nat → UInt8)
    (h : ∀ i, S i → ¬Within a n i) : AgreeOn S m (m.store a n src) :=
  fun i hi => ByteMem.store_outside m src (h i hi)

theorem agreeOn_storeWords {S : Nat → Prop} {words : List (Nat × Nat)} (m : ByteMem)
    (h : ∀ word ∈ words, ∀ i, S i → ¬Within word.1 4 i) : AgreeOn S m (m.storeWords words) := by
  induction words generalizing m with
  | nil => exact fun _ _ => rfl
  | cons word words ih =>
    obtain ⟨hHead, hTail⟩ := List.forall_mem_cons.mp h
    intro i hi
    exact (ih _ hTail i hi).trans (agreeOn_store m _ hHead i hi)

section Spares

variable {S : Nat → Prop}

theorem Spares.mono {S' : Nat → Prop} {α : Type} {p : OnCore α} (h : Spares S p)
    (hLess : ∀ i, S' i → S i) : Spares S' p := fun s i hi => h s i (hLess i hi)

theorem spares_writeExtmem {f : ByteMem → ByteMem} (h : ∀ m, AgreeOn S m (f m)) :
    Spares S (writeExtmem f) := fun s => h s.localExtmem

theorem spares_stageBytes {address size : Nat} (data : Nat → UInt8)
    (h : ∀ i, S i → ¬Within (address - extmemBase) size i) :
    Spares S (stageBytes address size data) :=
  spares_writeExtmem fun m => agreeOn_store m data h

theorem spares_descriptorWords {dp : Nat} {words : List (Nat × Nat)}
    (h : ∀ word ∈ words, ∀ i, S i → ¬Within (dp + word.1) 4 i) :
    Spares S (descriptorWords dp words) := by
  apply spares_writeExtmem
  intro m
  apply agreeOn_storeWords
  intro word hWord
  obtain ⟨original, hOriginal, rfl⟩ := List.mem_map.mp hWord
  exact h original hOriginal

end Spares

theorem load_descriptorWords (m : ByteMem) (dp : Nat) {words : List (Nat × Nat)}
    (hSorted : words.Pairwise fun word word' => word.1 + 4 ≤ word'.1) {a v : Nat}
    (hMem : (a, v) ∈ words) :
    (m.storeWords (words.map fun word => (dp + word.1, word.2))).load (dp + a) 4 = v % 256 ^ 4 := by
  apply ByteMem.load_storeWords_of_mem
  · rw [List.pairwise_map]
    exact hSorted.imp fun h => by
      dsimp only
      omega
  · exact List.mem_map.mpr ⟨(a, v), hMem, rfl⟩

theorem writeExtmem_bind {α : Type} {f : ByteMem → ByteMem} {rest : Unit → OnCore α} {s : Handle}
    {post : α → Handle → Prop}
    (h : ∀ s' : Handle, s'.localExtmem = f s.localExtmem →
      (rest ()).Ensures (fun _ => True) s' post) :
    (writeExtmem f >>= rest).Ensures (fun _ => True) s post :=
  .modify_bind (h _ rfl)

theorem writeExtmem_ensures {f : ByteMem → ByteMem} {s : Handle} {post : Unit → Handle → Prop}
    (h : ∀ s' : Handle, s'.localExtmem = f s.localExtmem → post () s') :
    (writeExtmem f).Ensures (fun _ => True) s post :=
  .modify (h _ rfl)

/-! ## The allocator -/

/-- An allocation is an aligned block of the arena, from the cursor on. -/
theorem allocateStaging_block {cursor size alignment : Nat}
    (h : (allocateStaging cursor size alignment).1 ≠ 0) :
    ∃ offset, allocateStaging cursor size alignment =
        (extmemBase + operatorStagingOffset + offset, offset + size) ∧
      alignment.isPowerOfTwo ∧ cursor ≤ offset ∧ alignment ∣ offset ∧
        offset + size ≤ operatorStagingSize := by
  unfold allocateStaging at h ⊢
  dsimp only at h ⊢
  split
  · rename_i hBad
    rw [if_pos hBad] at h
    exact absurd rfl h
  · rename_i hGood
    rw [if_neg hGood] at h
    split
    · rename_i hFull
      rw [if_pos hFull] at h
      exact absurd rfl h
    · push Not at hGood
      obtain ⟨-, hNonzero, hBits⟩ := hGood
      exact ⟨_, rfl, (Nat.and_sub_one_eq_zero_iff_isPowerOfTwo hNonzero).1 hBits, by omega,
        Nat.dvd_mul_left _ _, by omega⟩

/-! ## Tensors -/

/-- Apart from a tensor's entry of the descriptor and the count of tensors. -/
def besideEntry (dp index i : Nat) : Prop :=
  ¬Within (dp + 36 + 36 * index) 36 i ∧ ¬Within (dp + 32) 4 i

section Tensor

variable {dp : Nat} (cursor : Nat) {index : Nat} (t : EvalTensor) (elementSize : Nat)
  (elementType : ElementType) (zeroPoint : Int)

theorem tensorWords_pairwise (address size : Nat) :
    (tensorWords index address size t elementType zeroPoint).Pairwise
      fun word word' => word.1 + 4 ≤ word'.1 := by
  simp [tensorWords]

theorem tensorWords_place {address size : Nat} {word : Nat × Nat}
    (h : word ∈ tensorWords index address size t elementType zeroPoint) :
    36 + 36 * index ≤ word.1 ∧ word.1 + 4 ≤ 36 + 36 * index + 36 := by
  simp only [tensorWords, List.mem_cons, List.not_mem_nil, or_false] at h
  rcases h with rfl | rfl | rfl | rfl | rfl | rfl | rfl | rfl | rfl <;> dsimp only <;> omega

theorem spares_setOperatorTensor (address size : Nat) :
    Spares (besideEntry dp index)
      (setOperatorTensor dp index address size t elementType zeroPoint) := by
  refine .bind (.require _) fun _ => .bind (spares_descriptorWords ?_) fun _ =>
    spares_writeExtmem fun m => ?_
  · intro word hWord i hi
    have hPlace := tensorWords_place t elementType zeroPoint hWord
    have hOutside := hi.1
    unfold Within at hOutside ⊢
    omega
  · split
    · exact agreeOn_store m _ fun i hi => hi.2
    · exact fun _ _ => rfl

theorem spares_stageTensor :
    Spares (fun i => besideEntry dp index i ∧ i < operatorStagingOffset + cursor)
      (stageTensor dp cursor index t elementSize elementType zeroPoint) := by
  unfold stageTensor
  dsimp only
  intro s
  by_cases hAddress : (allocateStaging cursor (tensorBytes t elementSize)
      (if elementSize < 16 then 16 else elementSize)).1 = 0
  · rw [hAddress]
    exact fun _ _ => rfl
  · obtain ⟨offset, hBlock, -, hFrom, -⟩ := allocateStaging_block hAddress
    rw [hBlock]
    refine Prog.Grows.bind (.require _) (fun _ =>
      .bind ((spares_setOperatorTensor t elementType zeroPoint _ _).mono fun i hi => hi.1) fun _ =>
        .bind (spares_stageBytes _ ?_) fun _ => .pure _) s
    intro i hi
    have hBelow := hi.2
    unfold Within
    omega

end Tensor

/-! ## Nodes -/

theorem describeWords_pairwise (channels : Nat) (data : OpDataConv) (params : ConvParams) :
    (describeWords channels data params).Pairwise fun word word' => word.1 + 4 ≤ word'.1 := by
  simp [describeWords]

theorem describeWords_place {channels : Nat} {data : OpDataConv} {params : ConvParams}
    {word : Nat × Nat} (h : word ∈ describeWords channels data params) :
    180 ≤ word.1 ∧ word.1 + 4 ≤ 196 ∨ 204 ≤ word.1 ∧ word.1 + 4 ≤ 220 := by
  simp only [describeWords, List.mem_cons, List.not_mem_nil, or_false] at h
  rcases h with rfl | rfl | rfl | rfl | rfl | rfl | rfl | rfl <;> dsimp only <;> omega

section Node

variable {dp : Nat}

theorem spares_quantizationWords (multiplier shift : Nat) :
    Spares (fun i => ¬Within (dp + 196) 8 i)
      (descriptorWords dp [(196, multiplier), (200, shift)]) := by
  apply spares_descriptorWords
  intro word hWord i hi
  simp only [List.mem_cons, List.not_mem_nil, or_false] at hWord
  unfold Within at hi ⊢
  rcases hWord with rfl | rfl <;> dsimp only <;> omega

theorem spares_stageQuantization (cursor channels : Nat) (data : OpDataConv) :
    Spares (fun i => ¬Within (dp + 196) 8 i ∧ i < operatorStagingOffset + cursor)
      (stageQuantization dp cursor channels data) := by
  unfold stageQuantization
  dsimp only
  have hFirst := @allocateStaging_block cursor (channels * 4 % 2 ^ 32) 4
  generalize allocateStaging cursor (channels * 4 % 2 ^ 32) 4 = first at hFirst ⊢
  have hSecond := @allocateStaging_block first.2 (channels * 4 % 2 ^ 32) 4
  generalize allocateStaging first.2 (channels * 4 % 2 ^ 32) 4 = second at hSecond ⊢
  generalize channels * 4 % 2 ^ 32 = bytes at hFirst hSecond ⊢
  refine .bind ((spares_quantizationWords _ _).mono fun i hi => hi.1) fun _ => ?_
  by_cases hBoth : first.1 ≠ 0 ∧ second.1 ≠ 0
  · obtain ⟨offset, rfl, -, hFrom, -⟩ := hFirst hBoth.1
    obtain ⟨offset', rfl, -, hFrom', -⟩ := hSecond hBoth.2
    dsimp only at hFrom'
    refine .bind (.require _) fun _ => .bind (spares_stageBytes _ ?_) fun _ =>
      spares_stageBytes _ ?_
    · intro i hi
      have hBelow := hi.2
      unfold Within
      dsimp only
      omega
    · intro i hi
      have hBelow := hi.2
      unfold Within
      dsimp only
      omega
  · have hRejected : (first.1 != 0 && second.1 != 0) = false := by
      rw [Bool.eq_false_iff]
      simpa using hBoth
    rw [hRejected]
    exact fun _ _ _ => rfl

theorem spares_describeNode (channels : Nat) (data : OpDataConv) (params : ConvParams) :
    Spares (fun i => ¬(Within (dp + 180) 16 i ∨ Within (dp + 204) 16 i))
      (describeNode dp channels data params) := by
  apply spares_descriptorWords
  intro word hWord i hi
  have hPlace := describeWords_place hWord
  unfold Within at hi ⊢
  omega

end Node

/-! ## Before the doorbell -/

/-- Below the staging area and apart from the operator descriptor. -/
def besideOperator (i : Nat) : Prop :=
  i < operatorStagingOffset ∧ ¬Within operatorDescriptorOffset descriptorBytes i

section Prepare

variable {F : Type} (cfg : BridgeConfig F) (node : ConvNode)

theorem spares_initializeOperatorDescriptor (opcode executionMode : Nat) :
    Spares besideOperator
      (initializeOperatorDescriptor operatorDescriptorOffset opcode executionMode) := by
  refine .bind (spares_writeExtmem fun m => agreeOn_store m _ fun i hi => hi.2) fun _ =>
    spares_descriptorWords ?_
  intro word hWord i hi
  have hPlace : word.1 + 4 ≤ descriptorBytes := by
    simp only [List.mem_cons, List.not_mem_nil, or_false] at hWord
    unfold descriptorBytes
    rcases hWord with rfl | rfl | rfl | rfl | rfl <;> dsimp only <;> omega
  have hOutside := hi.2
  unfold Within at hOutside ⊢
  omega

theorem spares_stageNode (data : OpDataConv) (input filter bias output : EvalTensor) :
    Spares besideOperator (stageNode operatorDescriptorOffset data input filter bias output) := by
  have hTensor (cursor : Nat) {index : Nat} (hIndex : index < 4) (t : EvalTensor)
      (elementSize : Nat) (elementType : ElementType) (zeroPoint : Int) : Spares besideOperator
      (stageTensor operatorDescriptorOffset cursor index t elementSize elementType zeroPoint) := by
    refine (spares_stageTensor cursor t elementSize elementType zeroPoint).mono fun i hi => ?_
    unfold besideOperator descriptorBytes at hi
    unfold besideEntry
    unfold Within at hi ⊢
    omega
  refine .bind (hTensor _ (by decide) _ _ _ _) fun _ =>
    .bind (hTensor _ (by decide) _ _ _ _) fun _ =>
    .bind (hTensor _ (by decide) _ _ _ _) fun _ => .bind (hTensor _ (by decide) _ _ _ _) fun _ =>
      (spares_stageQuantization _ _ data).mono fun i hi => ?_
  unfold besideOperator descriptorBytes at hi
  unfold Within at hi ⊢
  omega

/-- Staging stays in the operator descriptor and the staging area, also when it gives up. -/
theorem spares_prepareNode : Spares besideOperator (prepareNode cfg node) := by
  refine .get_bind fun h => .bind (.require _) fun _ => ?_
  split
  · refine .bind (.require _) fun _ => .bind (spares_initializeOperatorDescriptor _ _) fun _ =>
      .bind (spares_stageNode _ _ _ _ _) fun _ => (spares_describeNode _ _ _).mono fun i hi => ?_
    unfold besideOperator descriptorBytes at hi
    unfold Within at hi ⊢
    omega
  · exact .require _

end Prepare
end OpenNpux.Firmware
