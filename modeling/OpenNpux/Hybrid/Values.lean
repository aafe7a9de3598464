import OpenNpux.Hybrid.Atomic
import OpenNpux.Lib.Fill

/-!
# Values while a tensor is being filled

A kernel reads its operands and its descriptor again after each store. While only the
output tensor changes, and it is apart from all that is read, these reads have the values
that memory had at the start. The product of two centered int8 values is then exact.
-/

namespace OpenNpux.Hybrid

open Lib

def int8At (m : ByteMem) (offset : Nat) : Int := i8 (m offset).toNat

def int32At (m : ByteMem) (offset : Nat) : Int := i32 (m.load offset 4)

/-- A stored byte is read back as the int8 value. -/
theorem i8_bytesOf_u32 (z : Int) : i8 (ByteMem.bytesOf (u32 z) 0).toNat = i8 z := by
  have hByte : (ByteMem.bytesOf (u32 z) 0).toNat = u32 z % 2 ^ 8 := by
    simp [ByteMem.bytesOf]
  have hWord : (u32 z : Int) = z % 2 ^ 32 := by
    unfold u32
    omega
  unfold i8
  rw [hByte, Int.natCast_emod, hWord]
  push_cast
  rw [Int.emod_emod_of_dvd z (by decide)]
  exact @Int.emod_bmod z 256

theorem flat_injective {columns i j i' j' : Nat} (hj : j < columns) (hj' : j' < columns)
    (h : i * columns + j = i' * columns + j') : i = i' ∧ j = j' := by
  have hRow : i = i' := by
    have hLeft : (i * columns + j) / columns = i := by
      rw [Nat.add_comm, Nat.add_mul_div_right _ _ (by omega), Nat.div_eq_of_lt hj, Nat.zero_add]
    rw [← hLeft, h, Nat.add_comm, Nat.add_mul_div_right _ _ (by omega), Nat.div_eq_of_lt hj',
      Nat.zero_add]
  subst hRow
  exact ⟨rfl, by omega⟩

/-! ## A tensor apart from what is read -/

/-- The fields that a kernel reads again are the same. -/
structure SameParameters (d d' : OperatorDescriptor) : Prop where
  strideHeight : d'.strideHeight = d.strideHeight
  strideWidth : d'.strideWidth = d.strideWidth
  paddingHeight : d'.paddingHeight = d.paddingHeight
  paddingWidth : d'.paddingWidth = d.paddingWidth
  zeroPoint : ∀ i < 2, (d'.tensors i).zeroPoint = (d.tensors i).zeroPoint
  outputZeroPoint : d'.outputZeroPoint = d.outputZeroPoint
  activationMin : d'.activationMin = d.activationMin
  activationMax : d'.activationMax = d.activationMax

theorem sameParameters_of_fields {m m' : ByteMem} {dp : Nat}
    (hField : ∀ offset, offset + 4 ≤ descriptorBytes →
      m'.load (dp + offset) 4 = m.load (dp + offset) 4) :
    SameParameters (.read m dp) (.read m' dp) := by
  unfold descriptorBytes at hField
  refine ⟨hField 180 (by omega), hField 184 (by omega), hField 188 (by omega),
    hField 192 (by omega), ?_, ?_, ?_, ?_⟩
  · intro i hi
    have hAt := hField (36 + 36 * i + 32) (by omega)
    rw [show dp + (36 + 36 * i + 32) = dp + 36 + 36 * i + 32 by omega] at hAt
    simp only [OperatorDescriptor.read, OperatorTensor.read, hAt]
  · simp only [OperatorDescriptor.read, hField 204 (by omega)]
  · simp only [OperatorDescriptor.read, hField 208 (by omega)]
  · simp only [OperatorDescriptor.read, hField 212 (by omega)]

theorem SameParameters.clampActivation {d d' : OperatorDescriptor} (h : SameParameters d d')
    (value : Int) : clampActivation d' value = clampActivation d value := by
  unfold Hybrid.clampActivation
  rw [h.activationMin, h.activationMax]

/-- The memory while tensor `t` is being filled. -/
structure Filling (base dp : Nat) (t : OperatorTensor) (d : OperatorDescriptor) (m m' : ByteMem) :
    Prop where
  agree : AgreeOn (besideTensor base t) m m'
  same : SameParameters d (.read m' dp)

section Filling

variable {base dp : Nat} {t : OperatorTensor} {d : OperatorDescriptor} {m m' : ByteMem}

theorem ApartFrom.filling (h : ApartFrom base t dp descriptorBytes)
    (hAgree : AgreeOn (besideTensor base t) m m') : Filling base dp t (.read m dp) m m' := by
  refine ⟨hAgree, sameParameters_of_fields fun offset hOffset => hAgree.load fun i hi => ?_⟩
  rw [Nat.add_assoc]
  exact h.beside (by omega)

theorem Filling.int8At (h : Filling base dp t d m m') {start bytes i : Nat}
    (hApart : ApartFrom base t start bytes) (hi : i < bytes) :
    int8At m' (start + i) = Hybrid.int8At m (start + i) := by
  unfold Hybrid.int8At
  rw [h.agree _ (hApart.beside hi)]

theorem Filling.int32At (h : Filling base dp t d m m') {start bytes i : Nat}
    (hApart : ApartFrom base t start bytes) (hi : i * 4 + 4 ≤ bytes) :
    int32At m' (start + i * 4) = Hybrid.int32At m (start + i * 4) := by
  unfold Hybrid.int32At
  rw [h.agree.load fun j hj => ?_]
  rw [Nat.add_assoc]
  exact hApart.beside (by omega)

end Filling

/-! ## One product -/

/-- The zero points of the two operands are int8 values. -/
structure OperandZeros (d : OperatorDescriptor) : Prop where
  input : -128 ≤ (d.tensors 0).zeroPoint ∧ (d.tensors 0).zeroPoint ≤ 127
  filter : -128 ≤ (d.tensors 1).zeroPoint ∧ (d.tensors 1).zeroPoint ≤ 127

theorem int8At_range (m : ByteMem) (offset : Nat) :
    -128 ≤ int8At m offset ∧ int8At m offset ≤ 127 := by
  have hRange := i8_range (m offset).toNat
  unfold int8At
  omega

theorem abs_sum_range_le {n : Nat} {f : Nat → Int} {c : Int} (h : ∀ i < n, |f i| ≤ c) :
    |∑ i ∈ Finset.range n, f i| ≤ n * c :=
  calc
    |∑ i ∈ Finset.range n, f i| ≤ ∑ i ∈ Finset.range n, |f i| := Finset.abs_sum_le_sum_abs _ _
    _ ≤ (Finset.range n).card • c := Finset.sum_le_card_nsmul _ _ _ fun i hi =>
      h i (Finset.mem_range.1 hi)
    _ = n * c := by rw [Finset.card_range, nsmul_eq_mul]

/-- The exact product of two centered values. -/
def centered (d : OperatorDescriptor) (lhs rhs : Int) : Int :=
  (lhs - (d.tensors 0).zeroPoint) * (rhs - (d.tensors 1).zeroPoint)

theorem centered_bound {d : OperatorDescriptor} (hZeros : OperandZeros d) {lhs rhs : Int}
    (hLhs : -128 ≤ lhs ∧ lhs ≤ 127) (hRhs : -128 ≤ rhs ∧ rhs ≤ 127) :
    |centered d lhs rhs| ≤ 255 * 255 := by
  obtain ⟨hInput, hFilter⟩ := hZeros
  have hLeft : |lhs - (d.tensors 0).zeroPoint| ≤ 255 := abs_le.2 ⟨by omega, by omega⟩
  have hRight : |rhs - (d.tensors 1).zeroPoint| ≤ 255 := abs_le.2 ⟨by omega, by omega⟩
  calc
    |centered d lhs rhs| = |lhs - (d.tensors 0).zeroPoint| * |rhs - (d.tensors 1).zeroPoint| :=
      abs_mul _ _
    _ ≤ 255 * 255 := mul_le_mul hLeft hRight (abs_nonneg _) (by decide)

theorem centeredProduct_evaluates {d : OperatorDescriptor} {dp : Nat} {m : ByteMem}
    (hSame : SameParameters d (.read m dp)) (hZeros : OperandZeros d) (lhs rhs : Nat) :
    (centeredProduct dp lhs rhs).Evaluates m (centered d (int8At m lhs) (int8At m rhs)) := by
  have hValue : (centeredProduct dp lhs rhs).Evaluates m
      (i32 (i32 (int8At m lhs - ((OperatorDescriptor.read m dp).tensors 0).zeroPoint) *
        i32 (int8At m rhs - ((OperatorDescriptor.read m dp).tensors 1).zeroPoint))) := ⟨rfl, rfl⟩
  have hLhs := int8At_range m lhs
  have hRhs := int8At_range m rhs
  have hBound := abs_le.1 (centered_bound hZeros hLhs hRhs)
  obtain ⟨hInput, hFilter⟩ := hZeros
  have hLeft := @i32_of_range (int8At m lhs - (d.tensors 0).zeroPoint) (by omega) (by omega)
  have hRight := @i32_of_range (int8At m rhs - (d.tensors 1).zeroPoint) (by omega) (by omega)
  have hProduct := @i32_of_range (centered d (int8At m lhs) (int8At m rhs)) (by omega) (by omega)
  rw [hSame.zeroPoint 0 (by decide), hSame.zeroPoint 1 (by decide), hLeft, hRight, ← centered,
    hProduct] at hValue
  exact hValue

/-! ## Filling -/

/-- A store to the place of a key. -/
theorem runs_fill {ι : Type} {K : ι → Prop} {place : ι → Nat} {value : ι → Int} {k : ι}
    (hk : K k) {p : Kernel Unit} {m : ByteMem} (h : p.Runs (fun _ => True) m fun _ m' =>
      m' = m.storeWord (place k) 1 (u32 (value k))) :
    p.Runs (fun _ => True) m fun _ m' =>
      ByteMem.Filled K place (fun k => ByteMem.bytesOf (u32 (value k)) 0) m m' ∧
        m' (place k) = ByteMem.bytesOf (u32 (value k)) 0 := by
  refine h.mono ?_
  rintro _ _ rfl
  refine ⟨.storeWord m hk rfl, ?_⟩
  rw [ByteMem.storeWord, ByteMem.store_inside _ _ ⟨le_refl _, Nat.lt_succ_self _⟩, Nat.sub_self]

theorem int8At_of_byte {m : ByteMem} {a : Nat} {value : Int}
    (h : m a = ByteMem.bytesOf (u32 value) 0) (hRange : i8 value = value) : int8At m a = value := by
  rw [int8At, h, i8_bytesOf_u32, hRange]

theorem clampActivation_range {d : OperatorDescriptor} (h : activationValid d = true)
    (value : Int) :
    i8 (clampActivation d value) = clampActivation d value := by
  simp only [activationValid, Bool.and_eq_true, decide_eq_true_eq] at h
  unfold clampActivation
  exact i8_of_range (by omega) (by omega)

theorem evaluates_of_leaves {α : Type} {p : Kernel α} {m : ByteMem} {a : α}
    (hLeaves : Leaves (fun _ => True) p) (h : (p m).result = some a) : p.Evaluates m a :=
  ⟨h, funext fun i => hLeaves m i trivial⟩

theorem evaluates_of_total {α : Type} {p : Kernel α} (hTotal : p.Total)
    (hLeaves : Leaves (fun _ => True) p) (m : ByteMem) : ∃ a, p.Evaluates m a := by
  obtain ⟨a, ha⟩ := Option.isSome_iff_exists.1 (hTotal m)
  exact ⟨a, evaluates_of_leaves hLeaves ha⟩

theorem runs_of_total {S : Nat → Prop} {p : Kernel Unit} (hTotal : p.Total) (hLeaves : Leaves S p)
    (m : ByteMem) : p.Runs (fun _ => True) m fun _ m' => AgreeOn S m m' := by
  obtain ⟨a, ha⟩ := Option.isSome_iff_exists.1 (hTotal m)
  exact ⟨fun _ _ => trivial, a, ha, hLeaves m⟩

/-- The statistics are stored beside a tensor that is apart from the descriptor. -/
theorem finishRun_keeps {base dp : Nat} {t : OperatorTensor}
    (hApart : ApartFrom base t dp descriptorBytes) (operations elapsed output : Nat)
    (bytesRead : OperatorDescriptor → Nat) (m : ByteMem) :
    (finishRun dp operations elapsed output bytesRead).Runs (fun _ => True) m fun _ m' =>
      AgreeOn (fun i => ¬besideTensor base t i) m m' := by
  refine runs_of_total (total_finishRun _ _ _ _ _) (leaves_finishRun _ _ _ _ _ fun i hi => ?_) m
  by_contra hStatistics
  apply hi
  have hBeside := @ApartFrom.beside base dp descriptorBytes (i - dp) t hApart
    (by unfold descriptorBytes; omega)
  rwa [Nat.add_sub_cancel' (by omega)] at hBeside

end OpenNpux.Hybrid
