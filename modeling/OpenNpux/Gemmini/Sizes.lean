import Mathlib.Data.Option.Basic
import Mathlib.Tactic.Ring

/-!
# The sizes of a Gemmini request

The driver computes the sizes of the three buffers with overflow checks and refuses what
does not fit; the device computes them again from its registers, in arithmetic that wraps
around. Both are compared with the exact numbers of elements. Every refusal of the driver
here is `-EINVAL`, and a device that divides by zero or panics has no sizes.
-/

namespace OpenNpux.Gemmini

inductive Opcode
  | conv2d | conv2dGemm | conv3d | conv3dGemm | maxpool | maxpoolGemm | relu | mm | mmGemm
deriving DecidableEq

/-- The enumeration `gemmini_dev_a_opcode` of the driver's interface. -/
def driverOpcode : Nat → Option Opcode
  | 0 => some .conv2d
  | 1 => some .conv2dGemm
  | 2 => some .conv3d
  | 3 => some .conv3dGemm
  | 4 => some .maxpool
  | 5 => some .maxpoolGemm
  | 6 => some .relu
  | 7 => some .mm
  | 8 => some .mmGemm
  | _ => none

/-- The enumeration `GemminiDevAOP` of the device. -/
def deviceOpcode : Nat → Option Opcode
  | 0 => some .conv2d
  | 1 => some .conv2dGemm
  | 2 => some .conv3d
  | 3 => some .conv3dGemm
  | 4 => some .maxpool
  | 5 => some .maxpoolGemm
  | 6 => some .relu
  | 7 => some .mm
  | 8 => some .mmGemm
  | _ => none

structure Sizes where
  m : Nat
  k : Nat
  o : Nat
deriving DecidableEq

/-- `struct gemmini_dev_a_req`; a user pointer matters only in being null or not. -/
structure Request where
  mUser : UInt64
  kUser : UInt64
  oUser : UInt64
  mSize : UInt32
  kSize : UInt32
  opcode : UInt32

/-! ## The driver -/

def checkMulOverflow (a b : Nat) : Option Nat := if a * b < 2 ^ 64 then some (a * b) else none

def calcElems : Opcode → Nat → Nat → Option Sizes
  | .conv2d, m, k => do
    guard (k ≠ 0)
    let mElems ← checkMulOverflow m m
    let kElems ← checkMulOverflow k k
    pure ⟨mElems, kElems, mElems⟩
  | .conv2dGemm, m, k => do
    guard (k ≠ 0)
    let tmp ← checkMulOverflow m m
    let tmp ← checkMulOverflow tmp k
    let mElems ← checkMulOverflow tmp k
    let kElems ← checkMulOverflow k k
    let oElems ← checkMulOverflow m m
    pure ⟨mElems, kElems, oElems⟩
  | .conv3d, m, k => do
    guard (k ≠ 0)
    let tmp ← checkMulOverflow m m
    let mElems ← checkMulOverflow tmp m
    let tmp ← checkMulOverflow k k
    let kElems ← checkMulOverflow tmp k
    pure ⟨mElems, kElems, mElems⟩
  | .conv3dGemm, m, k => do
    guard (k ≠ 0)
    let tmp ← checkMulOverflow m m
    let tmp ← checkMulOverflow tmp m
    let kElems ← checkMulOverflow k k
    let kElems ← checkMulOverflow kElems k
    let mElems ← checkMulOverflow tmp kElems
    pure ⟨mElems, kElems, tmp⟩
  | .maxpool, m, k | .maxpoolGemm, m, k => do
    guard (k ≠ 0)
    guard (m % k = 0)
    let mElems ← checkMulOverflow m m
    pure ⟨mElems, 0, (m / k) * (m / k) % 2 ^ 64⟩
  | .relu, m, _ => do
    let mElems ← checkMulOverflow m m
    pure ⟨mElems, 0, mElems⟩
  | .mm, m, _ | .mmGemm, m, _ => do
    let mElems ← checkMulOverflow m m
    pure ⟨mElems, mElems, mElems⟩

/-- The size in bytes of so many floats; `sizeMax` is the kernel's `SIZE_MAX`. -/
def calcBytes (sizeMax elems : Nat) : Option Nat := do
  let bytes ← checkMulOverflow elems 4
  guard (bytes ≤ sizeMax)
  pure bytes

def calcKernelBytes (sizeMax elems : Nat) : Option Nat :=
  if elems ≠ 0 then calcBytes sizeMax elems else some 0

def calcSizes (sizeMax : Nat) (req : Request) : Option Sizes := do
  guard (req.mSize.toNat ≠ 0)
  let opcode ← driverOpcode req.opcode.toNat
  let elems ← calcElems opcode req.mSize.toNat req.kSize.toNat
  let mBytes ← calcBytes sizeMax elems.m
  let kBytes ← calcKernelBytes sizeMax elems.k
  let oBytes ← calcBytes sizeMax elems.o
  pure ⟨mBytes, kBytes, oBytes⟩

/-! ## The device -/

def mul64 (a b : Nat) : Nat := a * b % 2 ^ 64

def div64 (a b : Nat) : Option Nat := if b = 0 then none else some (a / b)

def deviceElems : Opcode → Nat → Nat → Option Sizes
  | .conv2d, m, k => some ⟨mul64 m m, mul64 k k, mul64 m m⟩
  | .conv2dGemm, m, k => some ⟨mul64 (mul64 (mul64 m m) k) k, mul64 k k, mul64 m m⟩
  | .conv3d, m, k =>
    some ⟨mul64 (mul64 m m) m, mul64 (mul64 k k) k, mul64 (mul64 m m) m⟩
  | .conv3dGemm, m, k =>
    some ⟨mul64 (mul64 (mul64 (mul64 (mul64 m m) m) k) k) k, mul64 (mul64 k k) k,
      mul64 (mul64 m m) m⟩
  | .maxpool, m, k | .maxpoolGemm, m, k => do
    let rows ← div64 (mul64 m m) k
    let oElems ← div64 rows k
    pure ⟨mul64 m m, 0, oElems⟩
  | .relu, m, _ => some ⟨mul64 m m, 0, mul64 m m⟩
  | .mm, m, _ | .mmGemm, m, _ => some ⟨mul64 m m, mul64 m m, mul64 m m⟩

def deviceSizes (piOpcode piSizeM piSizeK : Nat) : Option Sizes := do
  let opcode ← deviceOpcode piOpcode
  let elems ← deviceElems opcode piSizeM piSizeK
  pure ⟨mul64 elems.m 4, mul64 elems.k 4, mul64 elems.o 4⟩

/-! ## The exact sizes -/

def Opcode.elements : Opcode → Nat → Nat → Sizes
  | .conv2d, m, k => ⟨m ^ 2, k ^ 2, m ^ 2⟩
  | .conv2dGemm, m, k => ⟨m ^ 2 * k ^ 2, k ^ 2, m ^ 2⟩
  | .conv3d, m, k => ⟨m ^ 3, k ^ 3, m ^ 3⟩
  | .conv3dGemm, m, k => ⟨m ^ 3 * k ^ 3, k ^ 3, m ^ 3⟩
  | .maxpool, m, k | .maxpoolGemm, m, k => ⟨m ^ 2, 0, (m / k) ^ 2⟩
  | .relu, m, _ => ⟨m ^ 2, 0, m ^ 2⟩
  | .mm, m, _ | .mmGemm, m, _ => ⟨m ^ 2, m ^ 2, m ^ 2⟩

def Sizes.bytes (s : Sizes) : Sizes := ⟨4 * s.m, 4 * s.k, 4 * s.o⟩

theorem checkMulOverflow_eq_some {a b c : Nat} :
    checkMulOverflow a b = some c ↔ a * b < 2 ^ 64 ∧ a * b = c := by
  unfold checkMulOverflow
  split <;> simp_all

theorem div64_of_pos {a b : Nat} (h : b ≠ 0) : div64 a b = some (a / b) := if_neg h

theorem mul64_of_lt {a b : Nat} (h : a * b < 2 ^ 64) : mul64 a b = a * b := Nat.mod_eq_of_lt h

theorem pooled_rows {m k : Nat} (hk : k ≠ 0) (hDvd : m % k = 0) :
    m * m / k / k = (m / k) * (m / k) := by
  obtain ⟨q, rfl⟩ := Nat.dvd_of_mod_eq_zero hDvd
  have hPos := Nat.pos_of_ne_zero hk
  rw [Nat.mul_div_cancel_left q hPos, Nat.div_div_eq_div_mul]
  have hSquare : k * q * (k * q) = k * k * (q * q) := by ring
  rw [hSquare, Nat.mul_div_cancel_left _ (Nat.mul_pos hPos hPos)]

/-- What the driver accepts is exact, and the device computes it too. -/
theorem calcElems_agrees {opcode : Opcode} {m k : Nat} {elems : Sizes}
    (h : calcElems opcode m k = some elems) :
    elems = opcode.elements m k ∧ deviceElems opcode m k = some elems := by
  cases opcode <;>
    simp only [calcElems, bind, Option.bind_eq_some_iff, checkMulOverflow_eq_some, pure,
      Option.some.injEq, Option.guard_eq_some'] at h
  case conv2d =>
    obtain ⟨_, _, _, ⟨hm, rfl⟩, _, ⟨hk, rfl⟩, rfl⟩ := h
    simp only [Opcode.elements, deviceElems, mul64_of_lt hm, mul64_of_lt hk, Nat.pow_two, and_self]
  case conv2dGemm =>
    obtain ⟨_, _, _, ⟨hm, rfl⟩, _, ⟨hmk, rfl⟩, _, ⟨hmkk, rfl⟩, _, ⟨hk, rfl⟩, _, ⟨_, rfl⟩, rfl⟩ := h
    constructor
    · simp only [Opcode.elements, Nat.pow_two, Nat.mul_assoc]
    · simp only [deviceElems, mul64_of_lt hm, mul64_of_lt hmk, mul64_of_lt hmkk, mul64_of_lt hk]
  case conv3d =>
    obtain ⟨_, _, _, ⟨hm, rfl⟩, _, ⟨hmm, rfl⟩, _, ⟨hk, rfl⟩, _, ⟨hkk, rfl⟩, rfl⟩ := h
    simp only [Opcode.elements, deviceElems, mul64_of_lt hm, mul64_of_lt hmm, mul64_of_lt hk,
      mul64_of_lt hkk, Nat.pow_succ, Nat.pow_zero, Nat.one_mul, and_self]
  case conv3dGemm =>
    obtain ⟨_, hPos, _, ⟨hm, rfl⟩, _, ⟨hmm, rfl⟩, _, ⟨hk, rfl⟩, _, ⟨hkk, rfl⟩, _,
      ⟨hAll, rfl⟩, rfl⟩ := h
    -- The device multiplies by one factor at a time, and no product is above the last.
    have hGrows (n : Nat) : n ≤ n * k := Nat.le_mul_of_pos_right n (Nat.pos_of_ne_zero hPos)
    have hSplit : m * m * m * (k * k * k) = m * m * m * k * k * k := by ring
    have hLast : m * m * m * k * k * k < 2 ^ 64 := hSplit ▸ hAll
    have hTwo : m * m * m * k * k < 2 ^ 64 := Nat.lt_of_le_of_lt (hGrows _) hLast
    have hOne : m * m * m * k < 2 ^ 64 := Nat.lt_of_le_of_lt (hGrows _) hTwo
    constructor
    · simp only [Opcode.elements, Nat.pow_succ, Nat.pow_zero, Nat.one_mul]
    · simp only [deviceElems, mul64_of_lt hm, mul64_of_lt hmm, mul64_of_lt hOne, mul64_of_lt hTwo,
        mul64_of_lt hLast, mul64_of_lt hk, mul64_of_lt hkk, hSplit]
  case maxpool | maxpoolGemm =>
    obtain ⟨_, hPos, _, hDvd, _, ⟨hm, rfl⟩, rfl⟩ := h
    have hLess : m / k * (m / k) < 2 ^ 64 :=
      Nat.lt_of_le_of_lt (Nat.mul_le_mul (Nat.div_le_self m k) (Nat.div_le_self m k)) hm
    simp only [Opcode.elements, deviceElems, mul64_of_lt hm, div64_of_pos hPos,
      pooled_rows hPos hDvd,
      Nat.mod_eq_of_lt hLess, Nat.pow_two, bind, Option.bind_some, pure, and_self]
  case relu | mm | mmGemm =>
    obtain ⟨_, ⟨hm, rfl⟩, rfl⟩ := h
    simp only [Opcode.elements, deviceElems, mul64_of_lt hm, Nat.pow_two, and_self]

theorem calcBytes_eq_some {sizeMax elems bytes : Nat} (h : calcBytes sizeMax elems = some bytes) :
    bytes = 4 * elems ∧ mul64 elems 4 = bytes := by
  simp only [calcBytes, bind, Option.bind_eq_some_iff, checkMulOverflow_eq_some, pure,
    Option.some.injEq, Option.guard_eq_some'] at h
  obtain ⟨_, ⟨hLess, rfl⟩, _, _, rfl⟩ := h
  exact ⟨Nat.mul_comm _ _, mul64_of_lt hLess⟩

theorem calcKernelBytes_eq_some {sizeMax elems bytes : Nat}
    (h : calcKernelBytes sizeMax elems = some bytes) :
    bytes = 4 * elems ∧ mul64 elems 4 = bytes := by
  unfold calcKernelBytes at h
  split at h
  · exact calcBytes_eq_some h
  · rename_i hNone
    obtain rfl := not_not.mp hNone
    obtain rfl := Option.some.inj h
    exact ⟨rfl, rfl⟩

theorem driverOpcode_eq_deviceOpcode (code : Nat) : driverOpcode code = deviceOpcode code := by
  unfold driverOpcode deviceOpcode
  split <;> rfl

theorem calcSizes_agrees {sizeMax : Nat} {req : Request} {sizes : Sizes}
    (h : calcSizes sizeMax req = some sizes) :
    ∃ opcode elems, deviceOpcode req.opcode.toNat = some opcode ∧
      calcElems opcode req.mSize.toNat req.kSize.toNat = some elems ∧ sizes = elems.bytes ∧
      deviceSizes req.opcode.toNat req.mSize.toNat req.kSize.toNat = some sizes := by
  simp only [calcSizes, bind, Option.bind_eq_some_iff, pure, Option.some.injEq,
    Option.guard_eq_some', driverOpcode_eq_deviceOpcode] at h
  obtain ⟨_, _, opcode, hOpcode, elems, hElems, m, hm, k, hk, o, ho, rfl⟩ := h
  obtain ⟨rfl, hm'⟩ := calcBytes_eq_some hm
  obtain ⟨rfl, ho'⟩ := calcBytes_eq_some ho
  obtain ⟨rfl, hk'⟩ := calcKernelBytes_eq_some hk
  refine ⟨opcode, elems, hOpcode, hElems, rfl, ?_⟩
  simp only [deviceSizes, hOpcode, (calcElems_agrees hElems).2, bind, Option.bind_some, pure, hm',
    hk', ho']

theorem calcElems_pool {m k : Nat} {elems : Sizes}
    (h : calcElems .maxpool m k = some elems ∨ calcElems .maxpoolGemm m k = some elems) :
    k ≠ 0 ∧ m % k = 0 := by
  simp only [calcElems, or_self, bind, Option.bind_eq_some_iff, Option.guard_eq_some'] at h
  obtain ⟨_, hPos, _, hDvd, _⟩ := h
  exact ⟨hPos, hDvd⟩

end OpenNpux.Gemmini
