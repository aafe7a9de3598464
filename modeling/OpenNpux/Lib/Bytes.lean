import Mathlib.Algebra.GroupWithZero.Nat
import Mathlib.Data.List.Basic
import Mathlib.Data.Nat.Basic

/-!
# A flat byte memory

Addresses are naturals. A copy replaces a range; a little-endian word is read from
and stored to consecutive bytes. A range may be cut into pieces that follow one another, and
an address is aligned to a block if it has none of the bits below the block size.
-/

namespace OpenNpux.Lib

abbrev ByteMem := Nat → UInt8

namespace ByteMem

/-- The copy `memcpy(m + a, src, n)`. -/
def store (m : ByteMem) (a n : Nat) (src : Nat → UInt8) : ByteMem := fun i =>
  if a ≤ i ∧ i < a + n then src (i - a) else m i

def load (m : ByteMem) : Nat → Nat → Nat
  | _, 0 => 0
  | a, n + 1 => (m a).toNat + 256 * load m (a + 1) n

def bytesOf (v i : Nat) : UInt8 := UInt8.ofNat (v / 256 ^ i)

def storeWord (m : ByteMem) (a n v : Nat) : ByteMem := m.store a n (bytesOf v)

/-- Words of four bytes, each with its address, stored one after the other. -/
def storeWords (m : ByteMem) (words : List (Nat × Nat)) : ByteMem :=
  words.foldl (fun m word => m.storeWord word.1 4 word.2) m

/-- Zero below `a`, and the given words of four bytes from there on. -/
def ofWords (a : Nat) (words : List Nat) : ByteMem := fun i =>
  if a ≤ i then bytesOf (words.getD ((i - a) / 4) 0) ((i - a) % 4) else 0

theorem store_inside (m : ByteMem) {a n i : Nat} (src : Nat → UInt8) (h : a ≤ i ∧ i < a + n) :
    m.store a n src i = src (i - a) := if_pos h

theorem store_outside (m : ByteMem) {a n i : Nat} (src : Nat → UInt8) (h : ¬(a ≤ i ∧ i < a + n)) :
    m.store a n src i = m i := if_neg h

theorem store_congr (m : ByteMem) {a n : Nat} {src src' : Nat → UInt8}
    (h : ∀ i < n, src i = src' i) : m.store a n src = m.store a n src' := by
  funext i
  by_cases hi : a ≤ i ∧ i < a + n
  · rw [store_inside m src hi, store_inside m src' hi]
    exact h _ (by omega)
  · rw [store_outside m src hi, store_outside m src' hi]

theorem store_zero (m : ByteMem) (a : Nat) (src : Nat → UInt8) : m.store a 0 src = m := by
  funext i
  exact store_outside m src (by omega)

/-- A copy made in two parts. -/
theorem store_store_append (m : ByteMem) (a n k : Nat) (src : Nat → UInt8) :
    (m.store a n src).store (a + n) k (fun i => src (n + i)) = m.store a (n + k) src := by
  funext i
  by_cases hUpper : a + n ≤ i ∧ i < a + n + k
  · rw [store_inside _ _ hUpper, store_inside m src (by omega)]
    congr 1
    omega
  · rw [store_outside _ _ hUpper]
    by_cases hLower : a ≤ i ∧ i < a + n
    · rw [store_inside m src hLower, store_inside m src (by omega)]
    · rw [store_outside m src hLower, store_outside m src (by omega)]

theorem load_eq {m m' : ByteMem} {a b n : Nat} (h : ∀ i < n, m (a + i) = m' (b + i)) :
    m.load a n = m'.load b n := by
  induction n generalizing a b with
  | zero => rfl
  | succ n ih =>
    have hHead : m a = m' b := h 0 (by omega)
    have hTail : m.load (a + 1) n = m'.load (b + 1) n := by
      apply ih
      intro i hi
      rw [Nat.add_assoc, Nat.add_assoc, Nat.add_comm 1 i]
      exact h (i + 1) (by omega)
    rw [load, load, hHead, hTail]

theorem load_congr {m m' : ByteMem} {a n : Nat} (h : ∀ i < n, m (a + i) = m' (a + i)) :
    m.load a n = m'.load a n :=
  load_eq h

theorem load_lt (m : ByteMem) (a n : Nat) : m.load a n < 256 ^ n := by
  induction n generalizing a with
  | zero => exact Nat.one_pos
  | succ n ih =>
    have hByte : (m a).toNat < 256 := (m a).toNat_lt
    have hRest := ih (a + 1)
    rw [load, Nat.pow_succ]
    omega

theorem load_store_disjoint (m : ByteMem) {a n b k : Nat} (src : Nat → UInt8)
    (h : a + n ≤ b ∨ b + k ≤ a) : (m.store b k src).load a n = m.load a n := by
  apply load_congr
  intro i hi
  exact store_outside m src (by omega)

theorem load_bytesOf (v n : Nat) : load (bytesOf v) 0 n = v % 256 ^ n := by
  suffices h : ∀ k, load (bytesOf v) k n = v / 256 ^ k % 256 ^ n by simpa using h 0
  induction n with
  | zero => intro k; simp [load, Nat.mod_one]
  | succ n ih =>
    intro k
    rw [load, ih, bytesOf, Nat.pow_succ 256 k, ← Nat.div_div_eq_div_mul, Nat.pow_succ,
      Nat.mul_comm _ 256, Nat.mod_mul]
    simp

theorem load_storeWord (m : ByteMem) (a n v : Nat) :
    (m.storeWord a n v).load a n = v % 256 ^ n := by
  rw [← load_bytesOf]
  suffices h : ∀ k j, k + j = n → (m.storeWord a n v).load (a + k) j = load (bytesOf v) k j by
    simpa using h 0 n (by omega)
  intro k j hkj
  induction j generalizing k with
  | zero => rfl
  | succ j ih =>
    have hHead : m.storeWord a n v (a + k) = bytesOf v k := by
      rw [storeWord, store_inside m _ (by omega)]
      congr 1
      omega
    rw [load, load, hHead, Nat.add_assoc, ih (k + 1) (by omega)]

theorem load_storeWords_disjoint (m : ByteMem) {a n : Nat} {words : List (Nat × Nat)}
    (h : ∀ word ∈ words, a + n ≤ word.1 ∨ word.1 + 4 ≤ a) :
    (m.storeWords words).load a n = m.load a n := by
  induction words generalizing m with
  | nil => rfl
  | cons word words ih =>
    obtain ⟨hHead, hTail⟩ := List.forall_mem_cons.mp h
    exact (ih _ hTail).trans (load_store_disjoint m _ hHead)

/-- Words at ascending addresses are all found afterwards. -/
theorem load_storeWords_of_mem (m : ByteMem) {words : List (Nat × Nat)}
    (hSorted : words.Pairwise fun word word' => word.1 + 4 ≤ word'.1) {a v : Nat}
    (hMem : (a, v) ∈ words) : (m.storeWords words).load a 4 = v % 256 ^ 4 := by
  induction words generalizing m with
  | nil => cases hMem
  | cons word words ih =>
    obtain ⟨hHead, hTail⟩ := List.pairwise_cons.mp hSorted
    rcases List.mem_cons.mp hMem with rfl | hRest
    · exact (load_storeWords_disjoint _ fun word' h => .inl (hHead word' h)).trans
        (load_storeWord m a 4 v)
    · exact ih _ hTail hRest

end ByteMem

/-! ## Ranges -/

variable {fit : Nat → Nat → Prop}

inductive Pieces (fit : Nat → Nat → Prop) : Nat → Nat → List (Nat × Nat) → Prop
  | nil (a : Nat) : Pieces fit a a []
  | cons {a b c : Nat} {rest : List (Nat × Nat)} (some : a < b) (fits : fit a b)
      (next : Pieces fit b c rest) : Pieces fit a c ((a, b) :: rest)

namespace Pieces

/-- How many of the pieces hold this number. -/
def holding (x : Nat) (pieces : List (Nat × Nat)) : Nat :=
  pieces.countP fun piece => piece.1 ≤ x ∧ x < piece.2

theorem start_le {a c : Nat} {pieces : List (Nat × Nat)} (h : Pieces fit a c pieces) : a ≤ c := by
  induction h with
  | nil => exact Nat.le_refl _
  | cons some _ _ ih => exact Nat.le_trans (Nat.le_of_lt some) ih

theorem holding_eq {a c : Nat} {pieces : List (Nat × Nat)} (h : Pieces fit a c pieces) (x : Nat) :
    holding x pieces = if a ≤ x ∧ x < c then 1 else 0 := by
  induction h with
  | nil a =>
    rw [if_neg (by omega)]
    rfl
  | cons some _ next ih =>
    have hEnd := next.start_le
    rw [holding] at ih ⊢
    rw [List.countP_cons, ih]
    simp only [decide_eq_true_eq]
    split_ifs <;> omega

end Pieces
/-- A 64-bit address is kept by the mask of a block exactly if it has no bit of the offset. -/
theorem and_blockMask_eq_self_iff {addr offset : Nat} (hAddr : addr < 2 ^ 64)
    (hOffset : offset < 2 ^ 64) :
    addr &&& (2 ^ 64 - (offset + 1)) = addr ↔ addr &&& offset = 0 := by
  have hBit (i : Nat) : (addr &&& (2 ^ 64 - (offset + 1))).testBit i = addr.testBit i ↔
      (addr &&& offset).testBit i = false := by
    rw [Nat.testBit_and, Nat.testBit_and, Nat.testBit_two_pow_sub_succ hOffset]
    by_cases hi : i < 64
    · cases addr.testBit i <;> simp [hi]
    · have hHigh : addr.testBit i = false :=
        Nat.testBit_lt_two_pow
          (Nat.lt_of_lt_of_le hAddr (Nat.pow_le_pow_right (by decide) (by omega)))
      simp [hHigh]
  constructor
  · intro hSame
    refine Nat.eq_of_testBit_eq fun i => ?_
    rw [Nat.zero_testBit]
    exact (hBit i).1 (by rw [hSame])
  · intro hZero
    refine Nat.eq_of_testBit_eq fun i => (hBit i).2 ?_
    rw [hZero, Nat.zero_testBit]

end OpenNpux.Lib
