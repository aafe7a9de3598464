import Mathlib.Data.Int.Basic
import Mathlib.Tactic.NormNum

/-!
# Fixed-width integers of the source language

Values are integers and naturals; a conversion to a fixed width reduces modulo its
power of two. Signed arithmetic that leaves its range is given the wrapped value.
-/

namespace OpenNpux.Lib

def u32 (z : Int) : Nat := (z % 2 ^ 32).toNat

def u64 (z : Int) : Nat := (z % 2 ^ 64).toNat

def i8 (z : Int) : Int := z.bmod (2 ^ 8)

def i32 (z : Int) : Int := z.bmod (2 ^ 32)

def i64 (z : Int) : Int := z.bmod (2 ^ 64)

theorem u32_lt (z : Int) : u32 z < 2 ^ 32 := by
  unfold u32
  omega

theorem u32_natCast {n : Nat} (h : n < 2 ^ 32) : u32 n = n := by
  unfold u32
  omega

theorem u64_natCast {n : Nat} (h : n < 2 ^ 64) : u64 n = n := by
  unfold u64
  omega

theorem i32_range (z : Int) : -2 ^ 31 ≤ i32 z ∧ i32 z < 2 ^ 31 := by
  unfold i32
  constructor
  · have := Int.le_bmod (x := z) (m := 2 ^ 32) (by decide)
    omega
  · have := Int.bmod_lt (x := z) (m := 2 ^ 32) (by decide)
    omega

theorem i32_of_range {z : Int} (hLow : -2 ^ 31 ≤ z) (hHigh : z < 2 ^ 31) : i32 z = z := by
  unfold i32
  rw [Int.bmod_eq_of_le] <;> omega

theorem i64_of_range {z : Int} (hLow : -2 ^ 63 ≤ z) (hHigh : z < 2 ^ 63) : i64 z = z := by
  unfold i64
  rw [Int.bmod_eq_of_le] <;> omega

theorem i8_of_range {z : Int} (hLow : -2 ^ 7 ≤ z) (hHigh : z < 2 ^ 7) : i8 z = z := by
  unfold i8
  rw [Int.bmod_eq_of_le] <;> omega

theorem i8_range (z : Int) : -2 ^ 7 ≤ i8 z ∧ i8 z < 2 ^ 7 := by
  unfold i8
  constructor
  · have := Int.le_bmod (x := z) (m := 2 ^ 8) (by decide)
    omega
  · have := Int.bmod_lt (x := z) (m := 2 ^ 8) (by decide)
    omega

end OpenNpux.Lib
