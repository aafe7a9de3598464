import Mathlib.Algebra.Ring.Defs
import Mathlib.Order.Defs.LinearOrder
import OpenNpux.Lib.Buffer
import OpenNpux.Lib.CInt

/-!
# The kernels of the accelerator

Convolution, pooling and matrix product, each in a direct form and in one that works on a
rearranged matrix, with the functions of the benchmark that rearrange. The numbers are any
ring or order in place of `float`. Sizes are 32-bit unsigned and so are the indices that
are computed from them; a coordinate of the matrix is converted to a signed one, and a tap
outside has the index -1.
-/

namespace OpenNpux.Gemmini

open Lib

universe u

section Ring

variable {R : Type u} [CommRing R]

/-! ## Convolution -/

/-- A coordinate of the matrix, for a place of the output and one of the kernel. -/
def coordinate (i w kSize : Nat) : Int := i32 (i + w - (kSize / 2 : Nat))

def m1dIdx2D (i j w x mSize kSize : Nat) : Int :=
  let mI := coordinate i w kSize
  let mJ := coordinate j x kSize
  if mI < 0 ∨ mI ≥ mSize ∨ mJ < 0 ∨ mJ ≥ mSize then -1 else i32 (mI * mSize + mJ)

def m1dIdx3D (i j w x y z mSize kSize : Nat) : Int :=
  let mI := coordinate i x kSize
  let mJ := coordinate j y kSize
  let mW := coordinate w z kSize
  if mI < 0 ∨ mI ≥ mSize ∨ mJ < 0 ∨ mJ ≥ mSize ∨ mW < 0 ∨ mW ≥ mSize then -1
  else i32 (mI * mSize * mSize + mJ * mSize + mW)

def baseConv2D (m k : Nat → R) (mSize kSize : Nat) : Buffer R → Buffer R :=
  forLoop mSize fun i => forLoop mSize fun j o =>
    let c := u32 (i * mSize + j : Nat)
    forLoop kSize
      (fun w => forLoop kSize fun x o =>
        let idx := m1dIdx2D i j w x mSize kSize
        o.store c (o.cells c +
          if idx = -1 then 0 else m idx.toNat * k (u32 (w * kSize + x : Nat))))
      (o.store c 0)

def baseConv3D (m k : Nat → R) (mSize kSize : Nat) : Buffer R → Buffer R :=
  forLoop mSize fun i => forLoop mSize fun j => forLoop mSize fun w o =>
    let c := u32 (i * mSize * mSize + j * mSize + w : Nat)
    forLoop kSize
      (fun x => forLoop kSize fun y => forLoop kSize fun z o =>
        let idx := m1dIdx3D i j w x y z mSize kSize
        o.store c (o.cells c +
          if idx = -1 then 0
          else m idx.toNat * k (u32 (x * kSize * kSize + y * kSize + z : Nat))))
      (o.store c 0)

def compMatrixA2D (m : Nat → R) (mSize kSize : Nat) : Buffer R → Buffer R :=
  forLoop mSize fun i => forLoop mSize fun j => forLoop kSize fun w => forLoop kSize fun x a =>
    let idx := m1dIdx2D i j w x mSize kSize
    a.store (u32 ((i * mSize + j) * kSize * kSize + w * kSize + x : Nat))
      (if idx = -1 then 0 else m idx.toNat)

def compMatrixA3D (m : Nat → R) (mSize kSize : Nat) : Buffer R → Buffer R :=
  forLoop mSize fun i => forLoop mSize fun j => forLoop mSize fun w =>
    forLoop kSize fun x => forLoop kSize fun y => forLoop kSize fun z a =>
      let idx := m1dIdx3D i j w x y z mSize kSize
      a.store (u32 ((i * mSize * mSize + j * mSize + w) * kSize * kSize * kSize +
          x * kSize * kSize + y * kSize + z : Nat))
        (if idx = -1 then 0 else m idx.toNat)

def baseConvGemm (a k : Nat → R) (oSize kSize : Nat) : Buffer R → Buffer R :=
  forLoop oSize fun i o =>
    forLoop kSize (fun j o => o.store i (o.cells i + a (u32 (i * kSize + j : Nat)) * k j))
      (o.store i 0)

/-! ## Matrix product -/

def baseMM (a b : Nat → R) (mSize : Nat) : Buffer R → Buffer R :=
  forLoop mSize fun i => forLoop mSize fun j c =>
    let idx := u32 (i * mSize + j : Nat)
    forLoop mSize
      (fun w c => c.store idx
        (c.cells idx + a (u32 (i * mSize + w : Nat)) * b (u32 (w * mSize + j : Nat))))
      (c.store idx 0)

def transpose (m : Nat → R) (mSize : Nat) : Buffer R → Buffer R :=
  forLoop mSize fun i => forLoop mSize fun j a =>
    a.store (u32 (j * mSize + i : Nat)) (m (u32 (i * mSize + j : Nat)))

def baseMMGemm (a b : Nat → R) (mSize : Nat) : Buffer R → Buffer R :=
  forLoop mSize fun i => forLoop mSize fun j c =>
    let idx := u32 (i * mSize + j : Nat)
    forLoop mSize
      (fun w c => c.store idx
        (c.cells idx + a (u32 (i * mSize + w : Nat)) * b (u32 (j * mSize + w : Nat))))
      (c.store idx 0)

end Ring

/-! ## Max pooling -/

section Order

variable {α : Type u} [LinearOrder α]

/-- No output if the assertion fails. -/
def baseMaxPool (m : Nat → α) (mSize kSize : Nat) (o : Buffer α) : Option (Buffer α) :=
  if mSize % kSize = 0 then
    some (forLoop (mSize / kSize) (fun i => forLoop (mSize / kSize) fun j o =>
      let c := u32 (u32 (i * mSize : Nat) / kSize + j : Nat)
      forLoop kSize
        (fun w => forLoop kSize fun x o =>
          let idx := u32 ((i * kSize + w) * mSize + j * kSize + x : Nat)
          if m idx > o.cells c then o.store c (m idx) else o)
        (o.store c (m (u32 (i * kSize * mSize + j * kSize : Nat))))) o)
  else none

def compMatMaxA (m : Nat → α) (mSize kSize : Nat) (a : Buffer α) : Option (Buffer α) :=
  if mSize % kSize = 0 then
    some (forLoop (mSize / kSize) (fun i => forLoop (mSize / kSize) fun j =>
      forLoop kSize fun w => forLoop kSize fun x a =>
        a.store (u32 ((u32 (i * mSize : Nat) / kSize + j) * kSize * kSize + w * kSize + x : Nat))
          (m (u32 ((i * kSize + w) * mSize + j * kSize + x : Nat)))) a)
  else none

def baseMaxPoolGemm (a : Nat → α) (mSize kSize : Nat) : Buffer α → Buffer α :=
  forLoop (mSize / kSize) fun i => forLoop (mSize / kSize) fun j o =>
    let offset := u32 ((u32 (i * mSize : Nat) / kSize + j) * kSize * kSize : Nat)
    let max := forLoop kSize
      (fun w => forLoop kSize fun x max =>
        let idx := u32 (offset + w * kSize + x : Nat)
        if a idx > max then a idx else max)
      (a offset)
    -- The divisor is 2, whatever the size of the kernel.
    o.store (u32 (u32 (i * mSize : Nat) / 2 + j : Nat)) max

end Order

end OpenNpux.Gemmini
