import Mathlib.Data.List.Nodup
import Mathlib.Order.Bounds.Defs
import OpenNpux.Gemmini.Lowering

/-!
# Pooling through the rearranged matrix

Both forms of max pooling reduce a window of the matrix to its greatest entry, and the
rearranged matrix holds the windows one after the other. The form that works on it counts
the cells of its output rows as if the window had two rows, so its output is the direct
one only for that size or where there is one row at most.
-/

namespace OpenNpux.Gemmini

open Lib Lib.Buffer

universe u

variable {α : Type u} [LinearOrder α]

/-- The entries of the window of cell `c`, for a matrix of `n` windows in a row. -/
def windowEntry (m : Nat → α) (n kSize c t : Nat) : α :=
  m ((c / n * kSize + t / kSize) * (kSize * n) + c % n * kSize + t % kSize)

def peak (entry : Nat → α) (size : Nat) : α :=
  forLoop size (fun t v => if entry t > v then entry t else v) (entry 0)

theorem peak_congr {entry entry' : Nat → α} {size : Nat} (hPos : 0 < size)
    (h : ∀ t < size, entry t = entry' t) : peak entry size = peak entry' size := by
  rw [peak, peak, h 0 hPos]
  refine congrFun (forLoop_congr fun t ht v => ?_) _
  rw [h t ht]

theorem peak_bounds (entry : Nat → α) (size : Nat) :
    (∃ t < max 1 size, entry t = peak entry size) ∧ ∀ t < size, entry t ≤ peak entry size := by
  induction size with
  | zero => exact ⟨⟨0, by omega, rfl⟩, fun t ht => absurd ht (Nat.not_lt_zero t)⟩
  | succ size ih =>
    obtain ⟨⟨t, ht, hEntry⟩, hBound⟩ := ih
    have hStep : peak entry (size + 1) =
        if entry size > peak entry size then entry size else peak entry size := rfl
    rw [hStep]
    split
    · rename_i hGreater
      refine ⟨⟨size, by omega, rfl⟩, fun t ht => ?_⟩
      rcases Nat.lt_succ_iff_lt_or_eq.mp ht with hLess | rfl
      · exact (hBound t hLess).trans (le_of_lt hGreater)
      · exact le_refl _
    · rename_i hSmaller
      refine ⟨⟨t, by omega, hEntry⟩, fun t ht => ?_⟩
      rcases Nat.lt_succ_iff_lt_or_eq.mp ht with hLess | rfl
      · exact hBound t hLess
      · exact not_lt.mp hSmaller

theorem peak_isGreatest (entry : Nat → α) {size : Nat} (hPos : 0 < size) :
    IsGreatest {v | ∃ t < size, entry t = v} (peak entry size) := by
  obtain ⟨⟨t, ht, hEntry⟩, hBound⟩ := peak_bounds entry size
  refine ⟨⟨t, by omega, hEntry⟩, ?_⟩
  rintro v ⟨t, ht, rfl⟩
  exact hBound t ht

/-! ## The cells of the two forms -/

section Cells

variable {n kSize c t : Nat}

theorem window_row_le (hc : c < n * n) (hk : 1 ≤ kSize) :
    c / n * (kSize * n) ≤ kSize * n * (kSize * n) := by
  have hRow : c / n ≤ n := Nat.le_of_lt (Nat.div_lt_of_lt_mul hc)
  exact Nat.mul_le_mul_right _ (Nat.le_trans hRow (Nat.le_mul_of_pos_left n hk))

theorem window_cell (hc : c < n * n) (hk : 1 ≤ kSize)
    (hSize : kSize * n * (kSize * n) < 2 ^ 31) :
    u32 (c / n * (kSize * n) : Nat) / kSize + c % n = c := by
  have hRow := window_row_le hc hk
  rw [u32_natCast (by omega), Nat.mul_left_comm, Nat.mul_div_cancel_left _ hk, Nat.div_add_mod']

theorem cells_le (hk : 1 ≤ kSize) : n * n ≤ kSize * n * (kSize * n) :=
  Nat.mul_le_mul (Nat.le_mul_of_pos_left n hk) (Nat.le_mul_of_pos_left n hk)

theorem window_index (hc : c < n * n) (ht : t < kSize * kSize)
    (hSize : kSize * n * (kSize * n) < 2 ^ 31) :
    u32 ((c / n * kSize + t / kSize) * (kSize * n) + c % n * kSize + t % kSize : Nat) =
      (c / n * kSize + t / kSize) * (kSize * n) + c % n * kSize + t % kSize := by
  have hn : 0 < n := Nat.pos_of_ne_zero fun hZero => by simp [hZero] at hc
  have hk : 0 < kSize := Nat.pos_of_ne_zero fun hZero => by simp [hZero] at ht
  have hRow : c / n * kSize + t / kSize < n * kSize :=
    rowMajor_lt (Nat.div_lt_of_lt_mul hc) (Nat.div_lt_of_lt_mul ht)
  have hColumn : c % n * kSize + t % kSize < n * kSize :=
    rowMajor_lt (Nat.mod_lt c hn) (Nat.mod_lt t hk)
  rw [Nat.mul_comm n kSize] at hRow hColumn
  have hIndex := rowMajor_lt hRow hColumn
  rw [u32_natCast (by omega)]

theorem ActsOn.raise (c : Nat) (entry : α) :
    ActsOn c (fun o => if entry > o.cells c then o.store c entry else o)
      fun v => if entry > v then entry else v := by
  intro b
  dsimp only
  split
  · rfl
  · exact (Function.update_eq_self c b.cells).symm

theorem baseMaxPool_cells (m : Nat → α) (hk : 1 ≤ kSize)
    (hSize : kSize * n * (kSize * n) < 2 ^ 31) (o : Buffer α) :
    ∃ pooled, baseMaxPool m (kSize * n) kSize o = some pooled ∧
      ∀ c < n * n, pooled.cells c = peak (windowEntry m n kSize c) (kSize * kSize) := by
  rw [baseMaxPool, if_pos (Nat.mul_mod_right kSize n), Nat.mul_div_cancel_left n hk, forLoop_nested]
  refine ⟨_, rfl, fun c hc => @forLoop_cells_self α _ _
    (fun c => peak (windowEntry m n kSize c) (kSize * kSize)) ?_ o c hc⟩
  intro c hc b
  have hCells := cells_le (n := n) hk
  have hFirst : m (u32 (c / n * kSize * (kSize * n) + c % n * kSize : Nat)) =
      windowEntry m n kSize c 0 := by
    have hIndex := window_index (t := 0) hc (Nat.mul_pos hk hk) hSize
    simp only [Nat.zero_div, Nat.zero_mod, Nat.add_zero] at hIndex
    rw [hIndex, windowEntry, Nat.zero_div, Nat.zero_mod, Nat.add_zero, Nat.add_zero]
  dsimp only
  rw [window_cell hc hk hSize, u32_natCast (by omega), forLoop_nested, hFirst,
    (ActsOn.loop fun t => ActsOn.raise c (m (u32 ((c / n * kSize + t / kSize) * (kSize * n) +
      c % n * kSize + t % kSize : Nat)))).after_store b, peak]
  congr 1
  refine congrFun (forLoop_congr fun t ht v => ?_) _
  rw [window_index hc ht hSize, windowEntry]

omit [LinearOrder α] in
theorem compMatMaxA_cells (m : Nat → α) (hk : 1 ≤ kSize) (hSize : kSize * n * (kSize * n) < 2 ^ 31)
    (a : Buffer α) :
    ∃ arranged, compMatMaxA m (kSize * n) kSize a = some arranged ∧
      ∀ c < n * n, ∀ t < kSize * kSize,
        arranged.cells (c * (kSize * kSize) + t) = windowEntry m n kSize c t := by
  have hTotal : n * n * kSize * kSize = kSize * n * (kSize * n) := by ring
  rw [compMatMaxA, if_pos (Nat.mul_mod_right kSize n), Nat.mul_div_cancel_left n hk, forLoop_nested,
    forLoop_nested, forLoop_nested]
  refine ⟨_, rfl, fun c hc t ht => ?_⟩
  have hIndex : c * (kSize * kSize) + t < n * n * kSize * kSize := by
    rw [Nat.mul_assoc _ kSize kSize]
    exact rowMajor_lt hc ht
  refine (@forLoop_cells_self α _ _ (fun e => m (u32 ((e / kSize / kSize / n * kSize +
    e / kSize % kSize) * (kSize * n) + e / kSize / kSize % n * kSize + e % kSize : Nat)))
    ?_ a _ hIndex).trans ?_
  · intro e he b
    have hCell : e / kSize / kSize < n * n := by
      rw [Nat.div_div_eq_div_mul]
      rw [Nat.mul_assoc] at he
      exact Nat.div_lt_of_lt_mul (by rwa [Nat.mul_comm] at he)
    rw [window_cell hCell hk hSize, rowMajor3, u32_natCast (by omega), store_cells]
  · obtain ⟨hRow, hLine, hColumn⟩ := @digits2D c t kSize ht
    rw [hRow, hLine, hColumn, window_index hc ht hSize, windowEntry]

/-- The cell that the lowered form writes for window `c`. -/
def outCell (n kSize c : Nat) : Nat := c / n * (kSize * n) / 2 + c % n

theorem baseMaxPoolGemm_eq (a : Nat → α) (hk : 1 ≤ kSize)
    (hSize : kSize * n * (kSize * n) < 2 ^ 31) :
    baseMaxPoolGemm a (kSize * n) kSize = forLoop (n * n) fun c o =>
      o.store (outCell n kSize c)
        (peak (fun t => a (c * (kSize * kSize) + t)) (kSize * kSize)) := by
  funext o
  rw [baseMaxPoolGemm, Nat.mul_div_cancel_left n hk, forLoop_nested]
  refine congrFun (forLoop_congr fun c hc o => ?_) o
  have hn : 0 < n := Nat.pos_of_ne_zero fun hZero => by simp [hZero] at hc
  have hTotal : n * n * (kSize * kSize) = kSize * n * (kSize * n) := by ring
  have hRow := window_row_le hc hk
  have hCells := cells_le (n := n) hk
  have hColumn : c % n < n := Nat.mod_lt c hn
  have hWidth : n ≤ n * n := Nat.le_mul_of_pos_left n hn
  have hLast (t : Nat) (ht : t < kSize * kSize) := rowMajor_lt hc ht
  have hFirst := hLast 0 (Nat.mul_pos hk hk)
  have hRowCast : u32 (c / n * (kSize * n) : Nat) = c / n * (kSize * n) := u32_natCast (by omega)
  have hOffset : u32 (c * kSize * kSize : Nat) = c * (kSize * kSize) := by
    rw [Nat.mul_assoc, u32_natCast (by omega)]
  dsimp only
  rw [window_cell hc hk hSize, hOffset, forLoop_nested, hRowCast, u32_natCast (by omega), outCell,
    peak]
  congr 1
  refine congrFun (forLoop_congr fun t ht v => ?_) _
  have hIndex := hLast t ht
  rw [Nat.add_assoc, Nat.div_add_mod', u32_natCast (by omega)]

end Cells

theorem baseMaxPool_isGreatest (m : Nat → α) {n kSize : Nat} (hk : 1 ≤ kSize)
    (hSize : kSize * n * (kSize * n) < 2 ^ 31) (o : Buffer α) :
    ∃ pooled, baseMaxPool m (kSize * n) kSize o = some pooled ∧ ∀ c < n * n,
      IsGreatest {v | ∃ t < kSize * kSize, windowEntry m n kSize c t = v} (pooled.cells c) := by
  obtain ⟨pooled, hPooled, hPeaks⟩ := baseMaxPool_cells m hk hSize o
  refine ⟨pooled, hPooled, fun c hc => ?_⟩
  rw [hPeaks c hc]
  exact peak_isGreatest _ (Nat.mul_pos hk hk)

/-! ## Where they agree -/

/-- The lowered form writes every cell of the output once and no other place, and its output
is the direct one. -/
def PoolsAlike (m : Nat → α) (mSize kSize : Nat) (a : Buffer α) (o o' : Nat → α) : Prop :=
  ∃ arranged pooled, compMatMaxA m mSize kSize a = some arranged ∧
    baseMaxPool m mSize kSize ⟨o', []⟩ = some pooled ∧
    let lowered := baseMaxPoolGemm arranged.cells mSize kSize ⟨o, []⟩
    let oSize := mSize / kSize * (mSize / kSize)
    (∀ c, lowered.writes.count c = if c < oSize then 1 else 0) ∧
      ∀ c < oSize, lowered.cells c = pooled.cells c

theorem outCell_row_end {n kSize : Nat} (hn : 1 ≤ n) :
    outCell n kSize ((n - 1) * n + (n - 1)) = (n - 1) * (kSize * n) / 2 + (n - 1) := by
  have hLast : n - 1 < n := by omega
  rw [outCell, rowMajor_div hLast, rowMajor_mod hLast]

theorem outCell_outside {n kSize : Nat} (hn : 2 ≤ n) (hk : 3 ≤ kSize) :
    n * n ≤ outCell n kSize ((n - 1) * n + (n - 1)) := by
  obtain ⟨p, rfl⟩ : ∃ p, n = p + 2 := ⟨n - 2, by omega⟩
  have hTriple : (p + 1) * (3 * (p + 2)) ≤ (p + 1) * (kSize * (p + 2)) :=
    Nat.mul_le_mul_left _ (Nat.mul_le_mul_right _ hk)
  have hRegroup : (p + 1) * (3 * (p + 2)) = 3 * ((p + 1) * (p + 2)) := by ring
  have hTotal : (p + 2) * (p + 2) = (p + 1) * (p + 2) + (p + 2) := by ring
  have hTwo : 1 * 2 ≤ (p + 1) * (p + 2) := Nat.mul_le_mul (by omega) (by omega)
  rw [outCell_row_end (by omega), Nat.add_sub_cancel (m := 1)]
  omega

theorem outCell_twice {n : Nat} (hn : 2 ≤ n) : outCell n 1 (n / 2) = outCell n 1 n := by
  have hHalf : n / 2 < n := by omega
  rw [outCell, outCell, Nat.div_eq_of_lt hHalf, Nat.mod_eq_of_lt hHalf, Nat.div_self (by omega),
    Nat.mod_self, Nat.zero_mul, Nat.zero_div, Nat.one_mul, Nat.one_mul, Nat.zero_add, Nat.add_zero]

theorem outCell_eq {n kSize c : Nat} (hGood : kSize = 2 ∨ n ≤ 1) (hc : c < n * n) :
    outCell n kSize c = c := by
  rcases hGood with rfl | hn
  · rw [outCell, Nat.mul_left_comm, Nat.mul_div_cancel_left _ (by decide), Nat.div_add_mod']
  · obtain rfl : n = 1 := by
      rcases Nat.le_one_iff_eq_zero_or_eq_one.mp hn with rfl | rfl
      · exact absurd hc (Nat.not_lt_zero c)
      · rfl
    obtain rfl : c = 0 := by omega
    rw [outCell, Nat.zero_div, Nat.zero_mul, Nat.zero_div]

theorem place_of_count {place : Nat → Nat} {size : Nat}
    (hCount : ∀ c, ((List.range size).map place).count c = if c < size then 1 else 0) :
    (∀ c < size, place c < size) ∧ ∀ c < size, ∀ d < size, place c = place d → c = d := by
  constructor
  · intro c hc
    by_contra hOutside
    have hNone := hCount (place c)
    rw [if_neg hOutside, List.count_eq_zero] at hNone
    exact hNone (List.mem_map.mpr ⟨c, List.mem_range.mpr hc, rfl⟩)
  · intro c hc d hd hSame
    have hNodup : ((List.range size).map place).Nodup := by
      refine List.nodup_iff_count_le_one.mpr fun e => ?_
      rw [hCount]
      split <;> omega
    exact List.inj_on_of_nodup_map hNodup (List.mem_range.mpr hc) (List.mem_range.mpr hd) hSame

theorem lowered_writes (a o : Nat → α) {n kSize : Nat} (hk : 1 ≤ kSize)
    (hSize : kSize * n * (kSize * n) < 2 ^ 31) :
    (baseMaxPoolGemm a (kSize * n) kSize ⟨o, []⟩).writes =
      (List.range (n * n)).map (outCell n kSize) := by
  rw [baseMaxPoolGemm_eq a hk hSize, forLoop_writes fun _ _ => rfl]
  rfl

theorem poolsAlike_of_outCell (m : Nat → α) {n kSize : Nat} (hk : 1 ≤ kSize)
    (hSize : kSize * n * (kSize * n) < 2 ^ 31) (hGood : kSize = 2 ∨ n ≤ 1) (a : Buffer α)
    (o o' : Nat → α) : PoolsAlike m (kSize * n) kSize a o o' := by
  obtain ⟨arranged, hArranged, hEntries⟩ := compMatMaxA_cells m hk hSize a
  obtain ⟨pooled, hPooled, hPeaks⟩ := baseMaxPool_cells m hk hSize ⟨o', []⟩
  refine ⟨arranged, pooled, hArranged, hPooled, ?_⟩
  dsimp only
  rw [Nat.mul_div_cancel_left n hk, lowered_writes _ _ hk hSize]
  constructor
  · intro c
    rw [List.map_congr_left fun c hc => outCell_eq hGood (List.mem_range.mp hc), List.map_id',
      List.nodup_range.count]
    simp only [List.mem_range]
  · intro c hc
    rw [hPeaks c hc, baseMaxPoolGemm_eq _ hk hSize]
    refine (@forLoop_cells_self α _ _ (fun c =>
      peak (fun t => arranged.cells (c * (kSize * kSize) + t)) (kSize * kSize)) ?_ _ _ hc).trans
      (peak_congr (Nat.mul_pos hk hk) (hEntries c hc))
    intro c hc b
    rw [outCell_eq hGood hc, store_cells]

theorem poolsAlike_iff (m : Nat → α) (mSize kSize : Nat) (hk : 1 ≤ kSize) (hDvd : kSize ∣ mSize)
    (hSize : mSize * mSize < 2 ^ 31) (a : Buffer α) (o o' : Nat → α) :
    PoolsAlike m mSize kSize a o o' ↔ kSize = 2 ∨ mSize ≤ kSize := by
  obtain ⟨n, rfl⟩ := hDvd
  have hRows : kSize * n ≤ kSize ↔ n ≤ 1 := by
    simpa only [Nat.mul_one] using Nat.mul_le_mul_left_iff (n := n) (m := 1) hk
  rw [hRows]
  refine ⟨?_, fun hGood => poolsAlike_of_outCell m hk hSize hGood a o o'⟩
  rintro ⟨arranged, pooled, -, -, hWrites, -⟩
  rw [Nat.mul_div_cancel_left n hk, lowered_writes _ _ hk hSize] at hWrites
  obtain ⟨hInside, hOnce⟩ := place_of_count hWrites
  by_contra hBad
  obtain ⟨hNotTwo, hMany⟩ := not_or.mp hBad
  have hCells : 2 * n ≤ n * n := Nat.mul_le_mul_right n (by omega)
  rcases Nat.lt_or_ge kSize 3 with hSmall | hLarge
  · obtain rfl : kSize = 1 := by omega
    have hSame := hOnce (n / 2) (by omega) n (by omega) (outCell_twice (by omega))
    omega
  · have hLast := hInside ((n - 1) * n + (n - 1)) (rowMajor_lt (by omega) (by omega))
    have hOutside := @outCell_outside n kSize (by omega) hLarge
    omega

theorem poolsAlike_iff_pairs :
    PoolsAlike (fun i => i * 7 % 5) 4 2 ⟨fun _ => 0, []⟩ (fun _ => 0) (fun _ => 1) :=
  (poolsAlike_iff _ 4 2 (by decide) (by decide) (by decide) _ _ _).mpr (.inl rfl)

/-- With windows of one entry the second row overwrites a cell of the first, and the last
cell is never written. -/
theorem unitWindows_overwrite :
    (baseMaxPoolGemm (fun i => i) 2 1 ⟨fun _ => 0, []⟩).writes = [0, 1, 1, 2] ∧
      ¬ PoolsAlike (fun i => i) 2 1 ⟨fun _ => 0, []⟩ (fun _ => 0) fun _ => 0 := by
  refine ⟨rfl, ?_⟩
  rintro ⟨arranged, pooled, -, -, hWrites, -⟩
  have hTwice : [0, 1, 1, 2].count 1 = 1 := hWrites 1
  exact absurd hTwice (by decide)

end OpenNpux.Gemmini
