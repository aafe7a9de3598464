import Mathlib.Tactic.Ring
import OpenNpux.Gemmini.Kernels

/-!
# The lowered kernels compute the direct ones

Each kernel settles every cell of its output once, at the row-major index of the loops
around it, so a kernel is described by what its cells hold. A row of the rearranged matrix
holds the taps of one output, in the order in which the direct kernel adds them; a tap
outside the matrix is 0 in both.
-/

namespace OpenNpux.Gemmini

open Lib Buffer

universe u

variable {R : Type u} [CommRing R]

theorem u32_rowMajor {c n k : Nat} (hc : c < n * k) (hSize : n * k < 2 ^ 32) :
    u32 (c / k * k + c % k : Nat) = c := by
  rw [Nat.div_add_mod', u32_natCast (by omega)]

/-- A cell that collects terms: the loop `o[c] += term(w, x)` after `o[c] = 0`. -/
def gather (n : Nat) (term : Nat → R) : R := forLoop n (fun t sum => sum + term t) 0

theorem gather_congr {n : Nat} {term term' : Nat → R} (h : ∀ t < n, term t = term' t) :
    gather n term = gather n term' := by
  unfold gather
  rw [forLoop_congr fun t ht sum => by rw [h t ht]]

theorem gather_cells (b : Buffer R) (c n : Nat) (term : Nat → R) :
    (forLoop n (fun t o => o.store c (o.cells c + term t)) (b.store c 0)).cells =
      Function.update b.cells c (gather n term) :=
  (ActsOn.loop fun t => ActsOn.store c (· + term t)).after_store b 0

/-! ## Two dimensions -/

def tap2D (m : Nat → R) (mSize kSize c t : Nat) : R :=
  let idx := m1dIdx2D (c / mSize) (c % mSize) (t / kSize) (t % kSize) mSize kSize
  if idx = -1 then 0 else m idx.toNat

theorem baseConv2D_cells (m k : Nat → R) {mSize kSize c : Nat} (hm : mSize * mSize < 2 ^ 32)
    (hk : kSize * kSize < 2 ^ 32) (hc : c < mSize * mSize) (o : Buffer R) :
    (baseConv2D m k mSize kSize o).cells c =
      gather (kSize * kSize) fun t => tap2D m mSize kSize c t * k t := by
  rw [baseConv2D, forLoop_nested]
  refine @forLoop_cells_self R _ _
    (fun c => gather (kSize * kSize) fun t => tap2D m mSize kSize c t * k t) ?_ o c hc
  intro c hc b
  dsimp only
  rw [u32_rowMajor hc hm, forLoop_nested, gather_cells]
  congr 1
  refine gather_congr fun t ht => ?_
  rw [u32_rowMajor ht hk, tap2D, ite_mul, zero_mul]

/-- The digits of an index of the rearranged matrix: the output, and its tap. -/
theorem digits2D {c t k : Nat} (ht : t < k * k) :
    (c * (k * k) + t) / k / k = c ∧ (c * (k * k) + t) / k % k = t / k ∧
      (c * (k * k) + t) % k = t % k := by
  refine ⟨?_, ?_, ?_⟩
  · rw [Nat.div_div_eq_div_mul, rowMajor_div ht]
  · rw [← Nat.mod_mul_right_div_self, rowMajor_mod ht]
  · rw [← Nat.mod_mod_of_dvd _ (Nat.dvd_mul_right k k), rowMajor_mod ht]

theorem compMatrixA2D_cells (m : Nat → R) {mSize kSize c t : Nat}
    (hSize : mSize * mSize * (kSize * kSize) < 2 ^ 32) (hc : c < mSize * mSize)
    (ht : t < kSize * kSize) (a : Buffer R) :
    (compMatrixA2D m mSize kSize a).cells (c * (kSize * kSize) + t) = tap2D m mSize kSize c t := by
  have hIndex : c * (kSize * kSize) + t < mSize * mSize * kSize * kSize := by
    rw [Nat.mul_assoc _ kSize kSize]
    exact rowMajor_lt hc ht
  rw [compMatrixA2D, forLoop_nested, forLoop_nested, forLoop_nested]
  refine (@forLoop_cells_self R _ _ (fun e =>
    if m1dIdx2D (e / kSize / kSize / mSize) (e / kSize / kSize % mSize) (e / kSize % kSize)
      (e % kSize) mSize kSize = -1 then 0
    else m (m1dIdx2D (e / kSize / kSize / mSize) (e / kSize / kSize % mSize) (e / kSize % kSize)
      (e % kSize) mSize kSize).toNat) ?_ a _ hIndex).trans ?_
  · intro e he b
    have hPlace : u32 ((e / kSize / kSize / mSize * mSize + e / kSize / kSize % mSize) * kSize *
        kSize + e / kSize % kSize * kSize + e % kSize : Nat) = e := by
      rw [Nat.div_add_mod', ← Nat.add_mul, Nat.div_add_mod', Nat.div_add_mod', u32_natCast]
      rw [Nat.mul_assoc _ kSize kSize] at he
      omega
    dsimp only
    rw [hPlace, store_cells]
  · obtain ⟨hRow, hLine, hColumn⟩ := @digits2D c t kSize ht
    rw [hRow, hLine, hColumn]
    rfl

theorem baseConvGemm_cells (a k : Nat → R) {oSize kSize c : Nat} (hSize : oSize * kSize < 2 ^ 32)
    (hc : c < oSize) (o : Buffer R) :
    (baseConvGemm a k oSize kSize o).cells c =
      gather kSize fun t => a (c * kSize + t) * k t := by
  rw [baseConvGemm]
  refine @forLoop_cells_self R _ _ (fun c => gather kSize fun t => a (c * kSize + t) * k t) ?_ o c
    hc
  intro c hc b
  rw [gather_cells]
  congr 1
  refine gather_congr fun t ht => ?_
  have hIndex := rowMajor_lt hc ht
  rw [u32_natCast (by omega)]

theorem convGemm2D_eq (m k : Nat → R) {mSize kSize c : Nat}
    (hSize : mSize * mSize * (kSize * kSize) < 2 ^ 31) (hc : c < mSize * mSize) (hk : 1 ≤ kSize)
    (a o o' : Buffer R) :
    (baseConvGemm (compMatrixA2D m mSize kSize a).cells k (u32 (mSize * mSize : Nat))
      (u32 (kSize * kSize : Nat)) o).cells c = (baseConv2D m k mSize kSize o').cells c := by
  have hRows : mSize * mSize ≤ mSize * mSize * (kSize * kSize) :=
    Nat.le_mul_of_pos_right _ (Nat.mul_pos hk hk)
  have hTaps : kSize * kSize ≤ mSize * mSize * (kSize * kSize) :=
    Nat.le_mul_of_pos_left _ (by omega)
  rw [u32_natCast (by omega), u32_natCast (by omega), baseConvGemm_cells _ _ (by omega) hc,
    baseConv2D_cells m k (by omega) (by omega) hc]
  refine gather_congr fun t ht => ?_
  rw [compMatrixA2D_cells m (by omega) hc ht]

/-! ## Three dimensions -/

def tap3D (m : Nat → R) (mSize kSize c t : Nat) : R :=
  let idx := m1dIdx3D (c / mSize / mSize) (c / mSize % mSize) (c % mSize) (t / kSize / kSize)
    (t / kSize % kSize) (t % kSize) mSize kSize
  if idx = -1 then 0 else m idx.toNat

theorem rowMajor3 (c k : Nat) : c / k / k * k * k + c / k % k * k + c % k = c := by
  rw [← Nat.add_mul, Nat.div_add_mod', Nat.div_add_mod']

theorem u32_rowMajor3 {c n k : Nat} (hc : c < n * k * k) (hSize : n * k * k < 2 ^ 32) :
    u32 (c / k / k * k * k + c / k % k * k + c % k : Nat) = c := by
  rw [rowMajor3, u32_natCast (by omega)]

theorem baseConv3D_cells (m k : Nat → R) {mSize kSize c : Nat}
    (hm : mSize * mSize * mSize < 2 ^ 32) (hk : kSize * kSize * kSize < 2 ^ 32)
    (hc : c < mSize * mSize * mSize) (o : Buffer R) :
    (baseConv3D m k mSize kSize o).cells c =
      gather (kSize * kSize * kSize) fun t => tap3D m mSize kSize c t * k t := by
  rw [baseConv3D, forLoop_nested, forLoop_nested]
  refine @forLoop_cells_self R _ _
    (fun c => gather (kSize * kSize * kSize) fun t => tap3D m mSize kSize c t * k t) ?_ o c hc
  intro c hc b
  dsimp only
  rw [u32_rowMajor3 hc hm, forLoop_nested, forLoop_nested, gather_cells]
  congr 1
  refine gather_congr fun t ht => ?_
  rw [u32_rowMajor3 ht hk, tap3D, ite_mul, zero_mul]

theorem digits3D {c t k : Nat} (ht : t < k * k * k) :
    (c * (k * k * k) + t) / k / k / k = c ∧ (c * (k * k * k) + t) / k / k % k = t / k / k ∧
      (c * (k * k * k) + t) / k % k = t / k % k ∧ (c * (k * k * k) + t) % k = t % k := by
  have hLast : (c * (k * k * k) + t) % (k * k * k) = t := rowMajor_mod ht
  refine ⟨?_, ?_, ?_, ?_⟩
  · rw [Nat.div_div_eq_div_mul, Nat.div_div_eq_div_mul, ← Nat.mul_assoc k k k, rowMajor_div ht]
  · rw [Nat.div_div_eq_div_mul, ← Nat.mod_mul_right_div_self, hLast, Nat.div_div_eq_div_mul]
  · rw [← Nat.mod_mul_right_div_self, ← Nat.mod_mod_of_dvd _ (Nat.dvd_mul_right (k * k) k), hLast,
      Nat.mod_mul_right_div_self]
  · rw [← Nat.mod_mod_of_dvd _ (Nat.dvd_mul_left k (k * k)), hLast]

theorem compMatrixA3D_cells (m : Nat → R) {mSize kSize c t : Nat}
    (hSize : mSize * mSize * mSize * (kSize * kSize * kSize) < 2 ^ 32)
    (hc : c < mSize * mSize * mSize) (ht : t < kSize * kSize * kSize) (a : Buffer R) :
    (compMatrixA3D m mSize kSize a).cells (c * (kSize * kSize * kSize) + t) =
      tap3D m mSize kSize c t := by
  have hTotal : mSize * mSize * mSize * kSize * kSize * kSize =
      mSize * mSize * mSize * (kSize * kSize * kSize) := by ring
  have hIndex : c * (kSize * kSize * kSize) + t <
      mSize * mSize * mSize * kSize * kSize * kSize := by
    rw [hTotal]
    exact rowMajor_lt hc ht
  rw [compMatrixA3D, forLoop_nested, forLoop_nested, forLoop_nested, forLoop_nested, forLoop_nested]
  refine (@forLoop_cells_self R _ _ (fun e =>
    if m1dIdx3D (e / kSize / kSize / kSize / mSize / mSize)
      (e / kSize / kSize / kSize / mSize % mSize) (e / kSize / kSize / kSize % mSize)
      (e / kSize / kSize % kSize) (e / kSize % kSize) (e % kSize) mSize kSize = -1 then 0
    else m (m1dIdx3D (e / kSize / kSize / kSize / mSize / mSize)
      (e / kSize / kSize / kSize / mSize % mSize) (e / kSize / kSize / kSize % mSize)
      (e / kSize / kSize % kSize) (e / kSize % kSize) (e % kSize) mSize kSize).toNat)
    ?_ a _ hIndex).trans ?_
  · intro e he b
    have hPlace : u32 ((e / kSize / kSize / kSize / mSize / mSize * mSize * mSize +
        e / kSize / kSize / kSize / mSize % mSize * mSize + e / kSize / kSize / kSize % mSize) *
        kSize * kSize * kSize + e / kSize / kSize % kSize * kSize * kSize +
        e / kSize % kSize * kSize + e % kSize : Nat) = e := by
      rw [rowMajor3, ← Nat.add_mul, ← Nat.add_mul, rowMajor3, Nat.div_add_mod',
        u32_natCast (by omega)]
    dsimp only
    rw [hPlace, store_cells]
  · obtain ⟨hRow, hPlane, hLine, hColumn⟩ := @digits3D c t kSize ht
    rw [hRow, hPlane, hLine, hColumn]
    rfl

theorem convGemm3D_eq (m k : Nat → R) {mSize kSize c : Nat}
    (hSize : mSize * mSize * mSize * (kSize * kSize * kSize) < 2 ^ 31)
    (hc : c < mSize * mSize * mSize) (hk : 1 ≤ kSize) (a o o' : Buffer R) :
    (baseConvGemm (compMatrixA3D m mSize kSize a).cells k (u32 (mSize * mSize * mSize : Nat))
      (u32 (kSize * kSize * kSize : Nat)) o).cells c = (baseConv3D m k mSize kSize o').cells c := by
  have hRows : mSize * mSize * mSize ≤ mSize * mSize * mSize * (kSize * kSize * kSize) :=
    Nat.le_mul_of_pos_right _ (Nat.mul_pos (Nat.mul_pos hk hk) hk)
  have hTaps : kSize * kSize * kSize ≤ mSize * mSize * mSize * (kSize * kSize * kSize) :=
    Nat.le_mul_of_pos_left _ (by omega)
  rw [u32_natCast (by omega), u32_natCast (by omega), baseConvGemm_cells _ _ (by omega) hc,
    baseConv3D_cells m k (by omega) (by omega) hc]
  refine gather_congr fun t ht => ?_
  rw [compMatrixA3D_cells m (by omega) hc ht]

/-! ## Matrix product -/

/-- The product of two matrices, the second of which has its elements at these places. -/
theorem product_cells (a b : Nat → R) {mSize c : Nat} {place : Nat → Nat → Nat}
    (hPlace : ∀ w < mSize, ∀ j < mSize, place w j < mSize * mSize) (hSize : mSize * mSize < 2 ^ 32)
    (hc : c < mSize * mSize) (o : Buffer R) :
    (forLoop mSize (fun i => forLoop mSize fun j o =>
      let idx := u32 (i * mSize + j : Nat)
      forLoop mSize (fun w o => o.store idx
        (o.cells idx + a (u32 (i * mSize + w : Nat)) * b (u32 (place w j : Nat)))) (o.store idx 0))
      o).cells c = gather mSize fun w => a (c / mSize * mSize + w) * b (place w (c % mSize)) := by
  rw [forLoop_nested]
  refine @forLoop_cells_self R _ _ (fun c =>
    gather mSize fun w => a (c / mSize * mSize + w) * b (place w (c % mSize))) ?_ o c hc
  intro c hc d
  have hRow : c / mSize < mSize := Nat.div_lt_of_lt_mul hc
  have hPos : 0 < mSize := Nat.pos_of_ne_zero fun hZero => by simp [hZero] at hc
  dsimp only
  rw [u32_rowMajor hc hSize, gather_cells]
  congr 1
  refine gather_congr fun w hw => ?_
  have hLeft := rowMajor_lt hRow hw
  have hRight := hPlace w hw _ (Nat.mod_lt c hPos)
  rw [u32_natCast (by omega), u32_natCast (by omega)]

theorem baseMM_cells (a b : Nat → R) {mSize c : Nat} (hSize : mSize * mSize < 2 ^ 32)
    (hc : c < mSize * mSize) (o : Buffer R) :
    (baseMM a b mSize o).cells c =
      gather mSize fun w => a (c / mSize * mSize + w) * b (w * mSize + c % mSize) :=
  product_cells a b (fun _ hw _ hj => rowMajor_lt hw hj) hSize hc o

theorem baseMMGemm_cells (a b : Nat → R) {mSize c : Nat} (hSize : mSize * mSize < 2 ^ 32)
    (hc : c < mSize * mSize) (o : Buffer R) :
    (baseMMGemm a b mSize o).cells c =
      gather mSize fun w => a (c / mSize * mSize + w) * b (c % mSize * mSize + w) :=
  product_cells a b (fun _ hw _ hj => rowMajor_lt hj hw) hSize hc o

omit [CommRing R] in
theorem transpose_cells (m : Nat → R) {mSize i j : Nat} (hSize : mSize * mSize < 2 ^ 32)
    (hi : i < mSize) (hj : j < mSize) (a : Buffer R) :
    (transpose m mSize a).cells (j * mSize + i) = m (i * mSize + j) := by
  have hPos : 0 < mSize := by omega
  have hColumn {c : Nat} (hc : c < mSize * mSize) :
      c % mSize * mSize + c / mSize < mSize * mSize :=
    rowMajor_lt (Nat.mod_lt c hPos) (Nat.div_lt_of_lt_mul hc)
  rw [transpose, forLoop_nested]
  have hCells := @forLoop_cells R (mSize * mSize)
    (fun c a => a.store (u32 (c % mSize * mSize + c / mSize : Nat))
      (m (u32 (c / mSize * mSize + c % mSize : Nat))))
    (fun c => c % mSize * mSize + c / mSize) m ?_ ?_ a _ (rowMajor_lt hi hj)
  · rw [rowMajor_div hj, rowMajor_mod hj] at hCells
    exact hCells
  · intro c hc b
    have hPlace := hColumn hc
    rw [store_cells, u32_rowMajor hc hSize, u32_natCast (by omega)]
  · intro c hc d hd hSame
    have hRow : c % mSize = d % mSize := by
      rw [← @rowMajor_div (c % mSize) _ mSize (Nat.div_lt_of_lt_mul hc), hSame,
        rowMajor_div (Nat.div_lt_of_lt_mul hd)]
    have hLine : c / mSize = d / mSize := by
      rw [← @rowMajor_mod (c % mSize) _ mSize (Nat.div_lt_of_lt_mul hc), hSame,
        rowMajor_mod (Nat.div_lt_of_lt_mul hd)]
    rw [← Nat.div_add_mod' c mSize, ← Nat.div_add_mod' d mSize, hRow, hLine]

theorem mmGemm_eq (a b : Nat → R) {mSize c : Nat} (hSize : mSize * mSize < 2 ^ 31)
    (hc : c < mSize * mSize) (t o o' : Buffer R) :
    (baseMMGemm a (transpose b mSize t).cells mSize o).cells c = (baseMM a b mSize o').cells c := by
  have hPos : 0 < mSize := Nat.pos_of_ne_zero fun hZero => by simp [hZero] at hc
  rw [baseMMGemm_cells _ _ (by omega) hc, baseMM_cells _ _ (by omega) hc]
  refine gather_congr fun w hw => ?_
  rw [transpose_cells b (by omega) hw (Nat.mod_lt c hPos)]

/-- On every cell of the output the lowered kernels agree with the direct ones. -/
theorem lowered_eq_direct (mSize kSize : Nat) (hk : 1 ≤ kSize) (m k : Nat → R)
    (a o o' : Buffer R) :
    (mSize * mSize * (kSize * kSize) < 2 ^ 31 → ∀ c < mSize * mSize,
      (baseConvGemm (compMatrixA2D m mSize kSize a).cells k (u32 (mSize * mSize : Nat))
        (u32 (kSize * kSize : Nat)) o).cells c = (baseConv2D m k mSize kSize o').cells c) ∧
    (mSize * mSize * mSize * (kSize * kSize * kSize) < 2 ^ 31 → ∀ c < mSize * mSize * mSize,
      (baseConvGemm (compMatrixA3D m mSize kSize a).cells k (u32 (mSize * mSize * mSize : Nat))
        (u32 (kSize * kSize * kSize : Nat)) o).cells c = (baseConv3D m k mSize kSize o').cells c) ∧
    (mSize * mSize < 2 ^ 31 → ∀ c < mSize * mSize,
      (baseMMGemm m (transpose k mSize a).cells mSize o).cells c = (baseMM m k mSize o').cells c) :=
  ⟨fun hSize _ hc => convGemm2D_eq m k hSize hc hk a o o',
    fun hSize _ hc => convGemm3D_eq m k hSize hc hk a o o',
    fun hSize _ hc => mmGemm_eq m k hSize hc a o o'⟩

/-- A kernel larger than the matrix. -/
theorem lowered_eq_direct_wideKernel :
    (baseConvGemm (compMatrixA2D (fun i => (i : Int)) 2 3 ⟨fun _ => 0, []⟩).cells
      (fun i => (i : Int) - 4) (u32 (2 * 2 : Nat)) (u32 (3 * 3 : Nat)) ⟨fun _ => 0, []⟩).cells 3 =
      (baseConv2D (fun i => (i : Int)) (fun i => (i : Int) - 4) 2 3 ⟨fun _ => 1, []⟩).cells 3 :=
  (lowered_eq_direct 2 3 (by decide) _ _ _ _ _).1 (by decide) 3 (by decide)

end OpenNpux.Gemmini
