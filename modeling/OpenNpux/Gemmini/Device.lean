import OpenNpux.Gemmini.Sizes

/-!
# The accelerator behind its registers

A write of the start register computes the sizes and begins with the transfer of the
matrix; each transfer that ends lets the device go on to the next one, up to the output.
A panic, a failed assertion or a division by zero gives no state. The contents of the
operands are left out: what is followed is which memory the device reads and writes.
-/

namespace OpenNpux.Gemmini

structure Transfer where
  addr : Nat
  size : Nat
  write : Bool
deriving DecidableEq

structure GemminiDevA where
  piAddrM : Nat := 0
  piAddrK : Nat := 0
  piAddrO : Nat := 0
  piSizeM : Nat := 0
  piSizeK : Nat := 0
  piOpcode : Nat := 0
  piStatus : Nat := 1
  hasOperands : Nat := 0
  /-- The fields `m_size`, `k_size` and `o_size`. -/
  sizes : Sizes := ⟨0, 0, 0⟩
  /-- The transfers that have not ended. -/
  outstanding : List Transfer := []
deriving DecidableEq

namespace GemminiDevA

def accessMemory (d : GemminiDevA) (transfer : Transfer) : GemminiDevA :=
  { d with outstanding := d.outstanding ++ [transfer] }

/-- What the operation itself can fail at. The pooling kernels divide by the size of the
kernel as an `unsigned int`, and the first one asserts that it divides that of the matrix. -/
def process (d : GemminiDevA) : Option Unit := do
  let opcode ← deviceOpcode d.piOpcode
  match opcode with
  | .maxpool => do
    guard (d.piSizeK % 2 ^ 32 ≠ 0)
    guard (d.piSizeM % 2 ^ 32 % (d.piSizeK % 2 ^ 32) = 0)
  | .maxpoolGemm => guard (d.piSizeK % 2 ^ 32 ≠ 0)
  | .conv2d | .conv2dGemm | .conv3d | .conv3dGemm | .relu | .mm | .mmGemm => pure ()

def processFsm (d : GemminiDevA) : Option GemminiDevA :=
  if d.hasOperands = 0 then some (d.accessMemory ⟨d.piAddrM, d.sizes.m, false⟩)
  else if d.hasOperands = 1 ∧ 0 < d.sizes.k then
    some (d.accessMemory ⟨d.piAddrK, d.sizes.k, false⟩)
  else do
    d.process
    pure (d.accessMemory ⟨d.piAddrO, d.sizes.o, true⟩)

def start (d : GemminiDevA) : Option GemminiDevA := do
  let sizes ← deviceSizes d.piOpcode d.piSizeM d.piSizeK
  processFsm { d with piStatus := 0, sizes }

def writePI (ridx data : Nat) (d : GemminiDevA) : Option GemminiDevA :=
  if d.piStatus = 0 then none
  else
    match ridx with
    | 0 => some { d with piAddrM := data }
    | 1 => some { d with piAddrK := data }
    | 2 => some { d with piAddrO := data }
    | 3 => some { d with piSizeM := data }
    | 4 => some { d with piSizeK := data }
    | 5 => some { d with piOpcode := data }
    | 6 => d.start
    | _ => none

/-- The callback of a transfer; a read hands over its data and a write a null pointer. -/
def recvData (read : Bool) (d : GemminiDevA) : Option GemminiDevA :=
  if read then processFsm { d with hasOperands := d.hasOperands + 1 }
  else some { d with piStatus := 1, hasOperands := 0 }

def complete (index : Nat) (d : GemminiDevA) : Option GemminiDevA := do
  let transfer ← d.outstanding[index]?
  recvData (!transfer.write) { d with outstanding := d.outstanding.eraseIdx index }

/-- The transfers from here to the end, each begun when the one before has ended. -/
def transfers : Nat → GemminiDevA → Option (List Transfer)
  | 0, _ => none
  | rounds + 1, d =>
    match d.outstanding with
    | [] => some []
    | transfer :: _ => do
      let d ← d.complete 0
      (transfers rounds d).map (transfer :: ·)

end GemminiDevA

/-! ## A request in the registers -/

structure Operands where
  m : Nat
  k : Nat
  o : Nat

/-- What the driver writes to each register. -/
def registerValue (req : Request) (sizes : Sizes) (dma : Operands) : Nat → Nat
  | 0 => dma.m
  | 1 => if sizes.k ≠ 0 then dma.k else 0
  | 2 => dma.o
  | 3 => req.mSize.toNat
  | 4 => req.kSize.toNat
  | 5 => req.opcode.toNat
  | _ => 1

namespace GemminiDevA

def submit (req : Request) (sizes : Sizes) (dma : Operands) (d : GemminiDevA) :
    Option GemminiDevA :=
  (List.range 7).foldlM (fun d ridx => d.writePI ridx (registerValue req sizes dma ridx)) d

structure Idle (d : GemminiDevA) : Prop where
  status : d.piStatus = 1
  operands : d.hasOperands = 0
  quiet : d.outstanding = []

def register (d : GemminiDevA) : Nat → Nat
  | 0 => d.piAddrM
  | 1 => d.piAddrK
  | 2 => d.piAddrO
  | 3 => d.piSizeM
  | 4 => d.piSizeK
  | 5 => d.piOpcode
  | _ => 0

def Loaded (req : Request) (sizes : Sizes) (dma : Operands) (n : Nat) (d : GemminiDevA) : Prop :=
  ∀ i < n, d.register i = registerValue req sizes dma i

inductive Stage
  | matrix | kernel | output

/-- The one transfer that a stage waits for. -/
def Stage.transfer (sizes : Sizes) (dma : Operands) : Stage → Transfer
  | .matrix => ⟨dma.m, sizes.m, false⟩
  | .kernel => ⟨dma.k, sizes.k, false⟩
  | .output => ⟨dma.o, sizes.o, true⟩

def Stage.Has (sizes : Sizes) (count : Nat) : Stage → Prop
  | .matrix => count = 0
  | .kernel => count = 1 ∧ sizes.k ≠ 0
  | .output => count ≠ 0

structure Processing (req : Request) (sizes : Sizes) (dma : Operands) (stage : Stage)
    (d : GemminiDevA) : Prop where
  loaded : d.Loaded req sizes dma 6
  status : d.piStatus = 0
  sizesKnown : d.sizes = sizes
  waiting : d.outstanding = [stage.transfer sizes dma]
  operands : stage.Has sizes d.hasOperands

section Request

variable {sizeMax : Nat} {req : Request} {sizes : Sizes} {dma : Operands} {d : GemminiDevA}

theorem writePI_idle (hIdle : d.Idle) {n : Nat} (hn : n < 6) (value : Nat) :
    ∃ d', d.writePI n value = some d' ∧ d'.Idle ∧ d'.register n = value ∧
      ∀ i, i ≠ n → d'.register i = d.register i := by
  have hFree : ¬d.piStatus = 0 := by
    rw [hIdle.status]
    decide
  unfold writePI
  rw [if_neg hFree]
  obtain rfl | rfl | rfl | rfl | rfl | rfl : n = 0 ∨ n = 1 ∨ n = 2 ∨ n = 3 ∨ n = 4 ∨ n = 5 := by
    omega
  all_goals
    refine ⟨_, rfl, ⟨hIdle.status, hIdle.operands, hIdle.quiet⟩, rfl, fun i hi => ?_⟩
    unfold register
    split <;> first | rfl | exact absurd rfl hi

theorem Loaded.write {n : Nat} (h : d.Loaded req sizes dma n) (hIdle : d.Idle) (hn : n < 6) :
    ∃ d', d.writePI n (registerValue req sizes dma n) = some d' ∧ d'.Idle ∧
      d'.Loaded req sizes dma (n + 1) := by
  obtain ⟨d', hWritten, hIdle', hNew, hOld⟩ :=
    writePI_idle hIdle hn (registerValue req sizes dma n)
  refine ⟨d', hWritten, hIdle', fun i hi => ?_⟩
  by_cases hSame : i = n
  · rw [hSame, hNew]
  · rw [hOld i hSame]
    exact h i (by omega)

theorem Loaded.start (h : d.Loaded req sizes dma 6) (hIdle : d.Idle)
    (hAccepted : calcSizes sizeMax req = some sizes) :
    ∃ d', d.writePI 6 1 = some d' ∧ d'.Processing req sizes dma .matrix := by
  obtain ⟨_, _, _, _, _, hSizes⟩ := calcSizes_agrees hAccepted
  have hFree : ¬d.piStatus = 0 := by
    rw [hIdle.status]
    decide
  have hAddr : d.piAddrM = dma.m := h 0 (by decide)
  have hM : d.piSizeM = req.mSize.toNat := h 3 (by decide)
  have hK : d.piSizeK = req.kSize.toNat := h 4 (by decide)
  have hOpcode : d.piOpcode = req.opcode.toNat := h 5 (by decide)
  have hStart : d.start =
      some (accessMemory { d with piStatus := 0, sizes } ⟨dma.m, sizes.m, false⟩) := by
    unfold GemminiDevA.start
    rw [hOpcode, hM, hK, hSizes]
    dsimp only [bind, Option.bind_some]
    unfold processFsm
    rw [if_pos hIdle.operands, hAddr]
  refine ⟨_, (if_neg hFree).trans hStart, ?_, rfl, rfl, ?_, hIdle.operands⟩
  · exact fun i hi => h i hi
  · exact congrArg (· ++ _) hIdle.quiet

theorem process_of_loaded (h : d.Loaded req sizes dma 6)
    (hAccepted : calcSizes sizeMax req = some sizes) : d.process = some () := by
  obtain ⟨opcode, elems, hOpcode, hElems, _⟩ := calcSizes_agrees hAccepted
  have hM : d.piSizeM = req.mSize.toNat := h 3 (by decide)
  have hK : d.piSizeK = req.kSize.toNat := h 4 (by decide)
  have hCode : d.piOpcode = req.opcode.toNat := h 5 (by decide)
  have hM32 := Nat.mod_eq_of_lt req.mSize.toNat_lt
  have hK32 := Nat.mod_eq_of_lt req.kSize.toNat_lt
  unfold process
  rw [hCode, hOpcode, hM, hK, hM32, hK32]
  cases opcode with
  | conv2d | conv2dGemm | conv3d | conv3dGemm | relu | mm | mmGemm => rfl
  | maxpool =>
    obtain ⟨hPos, hDvd⟩ := calcElems_pool (.inl hElems)
    simp [hPos, hDvd]
  | maxpoolGemm =>
    obtain ⟨hPos, _⟩ := calcElems_pool (.inr hElems)
    simp [hPos]

def Stage.next (sizes : Sizes) : Stage → Option Stage
  | .matrix => if sizes.k ≠ 0 then some .kernel else some .output
  | .kernel => some .output
  | .output => none

theorem complete_read {transfer : Transfer} (hWaiting : d.outstanding = [transfer])
    (hRead : transfer.write = false) :
    d.complete 0 =
      processFsm { d with outstanding := [], hasOperands := d.hasOperands + 1 } := by
  unfold complete
  rw [hWaiting]
  dsimp only [List.getElem?_cons_zero, bind, Option.bind_some, List.eraseIdx]
  rw [hRead]
  rfl

theorem processFsm_output (hHas : d.hasOperands ≠ 0) (hLast : d.hasOperands = 1 → d.sizes.k = 0)
    (hProcess : d.process = some ()) :
    d.processFsm = some (d.accessMemory ⟨d.piAddrO, d.sizes.o, true⟩) := by
  unfold processFsm
  rw [if_neg hHas, if_neg (by rintro ⟨hOne, hSome⟩; rw [hLast hOne] at hSome; cases hSome),
    hProcess]
  rfl

theorem Processing.next {stage next : Stage} (h : d.Processing req sizes dma stage)
    (hNext : stage.next sizes = some next) (hAccepted : calcSizes sizeMax req = some sizes) :
    ∃ d', d.complete 0 = some d' ∧ d'.Processing req sizes dma next := by
  have hLoaded (count : Nat) (waiting : List Transfer) :
      Loaded req sizes dma 6 { d with outstanding := waiting, hasOperands := count } :=
    fun i hi => h.loaded i hi
  -- The output follows whatever operand was the last one.
  have hOutput (hRead : (stage.transfer sizes dma).write = false)
      (hLast : d.hasOperands + 1 = 1 → sizes.k = 0) :
      ∃ d', d.complete 0 = some d' ∧ d'.Processing req sizes dma .output := by
    rw [complete_read h.waiting hRead, processFsm_output (Nat.succ_ne_zero _)
      (by rw [h.sizesKnown]; exact hLast) (process_of_loaded (hLoaded _ _) hAccepted)]
    refine ⟨_, rfl, hLoaded _ _, h.status, h.sizesKnown, ?_, Nat.succ_ne_zero _⟩
    have hAddr : d.piAddrO = dma.o := h.loaded 2 (by decide)
    simp only [accessMemory, hAddr, h.sizesKnown, List.nil_append, Stage.transfer]
  cases stage with
  | matrix =>
    have hNone : d.hasOperands = 0 := h.operands
    by_cases hK : sizes.k = 0
    · obtain rfl := Option.some.inj ((if_neg (not_not.mpr hK)).symm.trans hNext)
      exact hOutput rfl fun _ => hK
    · obtain rfl := Option.some.inj ((if_pos hK).symm.trans hNext)
      have hAddr : d.piAddrK = dma.k := (h.loaded 1 (by decide)).trans (if_pos hK)
      rw [complete_read h.waiting rfl, hNone]
      unfold processFsm
      rw [if_neg Nat.one_ne_zero, if_pos ⟨rfl, by rw [h.sizesKnown]; exact Nat.pos_of_ne_zero hK⟩]
      refine ⟨_, rfl, hLoaded _ _, h.status, h.sizesKnown, ?_, rfl, hK⟩
      simp only [accessMemory, hAddr, h.sizesKnown, List.nil_append, Stage.transfer]
  | kernel =>
    obtain ⟨hOne, _⟩ := h.operands
    obtain rfl := Option.some.inj hNext
    exact hOutput rfl (by omega)
  | output => cases hNext

theorem Processing.finish (h : d.Processing req sizes dma .output) :
    ∃ d', d.complete 0 = some d' ∧ d'.Idle := by
  unfold GemminiDevA.complete
  rw [h.waiting]
  exact ⟨_, rfl, rfl, rfl, rfl⟩

/-! ## Whole requests -/

theorem submit_of_idle (dma : Operands) (hIdle : d.Idle)
    (hAccepted : calcSizes sizeMax req = some sizes) :
    ∃ d', d.submit req sizes dma = some d' ∧ d'.Processing req sizes dma .matrix := by
  have hWrites (n : Nat) (hn : n ≤ 6) : ∃ d', (List.range n).foldlM
      (fun d ridx => d.writePI ridx (registerValue req sizes dma ridx)) d = some d' ∧ d'.Idle ∧
        d'.Loaded req sizes dma n := by
    induction n with
    | zero => exact ⟨d, rfl, hIdle, fun i hi => absurd hi (Nat.not_lt_zero i)⟩
    | succ n ih =>
      obtain ⟨d', hRun, hIdle', hLoaded⟩ := ih (by omega)
      obtain ⟨d'', hWritten, hIdle'', hLoaded'⟩ := hLoaded.write hIdle' (by omega)
      refine ⟨d'', ?_, hIdle'', hLoaded'⟩
      rw [List.range_succ, List.foldlM_append, hRun]
      simpa using hWritten
  obtain ⟨d', hRun, hIdle', hLoaded⟩ := hWrites 6 le_rfl
  obtain ⟨d'', hStarted, hProcessing⟩ := hLoaded.start hIdle' hAccepted
  refine ⟨d'', ?_, hProcessing⟩
  unfold submit
  rw [List.range_succ, List.foldlM_append, hRun]
  simpa [registerValue] using hStarted

theorem transfers_step {d' : GemminiDevA} {stage : Stage} (h : d.Processing req sizes dma stage)
    (hDone : d.complete 0 = some d') (rounds : Nat) :
    d.transfers (rounds + 1) = (d'.transfers rounds).map (stage.transfer sizes dma :: ·) := by
  rw [transfers, h.waiting]
  dsimp only
  rw [hDone]
  rfl

theorem transfers_output (h : d.Processing req sizes dma .output) (rounds : Nat) :
    d.transfers (rounds + 2) = some [⟨dma.o, sizes.o, true⟩] := by
  obtain ⟨d', hDone, hIdle⟩ := h.finish
  rw [transfers_step h hDone, transfers, hIdle.quiet]
  rfl

theorem transfers_matrix (h : d.Processing req sizes dma .matrix)
    (hAccepted : calcSizes sizeMax req = some sizes) :
    d.transfers 4 = some ([⟨dma.m, sizes.m, false⟩] ++
      (if sizes.k ≠ 0 then [⟨dma.k, sizes.k, false⟩] else []) ++ [⟨dma.o, sizes.o, true⟩]) := by
  by_cases hK : sizes.k = 0
  · obtain ⟨d', hRead, hOutput⟩ := h.next (if_neg (not_not.mpr hK)) hAccepted
    rw [transfers_step h hRead, transfers_output hOutput, if_neg (not_not.mpr hK)]
    rfl
  · obtain ⟨d', hRead, hKernel⟩ := h.next (if_pos hK) hAccepted
    obtain ⟨d'', hRead', hOutput⟩ := hKernel.next rfl hAccepted
    rw [transfers_step h hRead, transfers_step hKernel hRead', transfers_output hOutput, if_pos hK]
    rfl

end Request

end GemminiDevA

/-- The device computes the sizes of the driver's buffers, which are exact, and transfers
these buffers as a whole: it neither panics nor divides by zero. -/
theorem transfers_match_buffers (sizeMax : Nat) (req : Request) (sizes : Sizes)
    (hAccepted : calcSizes sizeMax req = some sizes) (dma : Operands) (d : GemminiDevA)
    (hIdle : d.Idle) :
    (∃ opcode, deviceOpcode req.opcode.toNat = some opcode ∧
      sizes = (opcode.elements req.mSize.toNat req.kSize.toNat).bytes) ∧
      deviceSizes req.opcode.toNat req.mSize.toNat req.kSize.toNat = some sizes ∧
      ∃ d', d.submit req sizes dma = some d' ∧ d'.sizes = sizes ∧
        d'.transfers 4 = some ([⟨dma.m, sizes.m, false⟩] ++
          (if sizes.k ≠ 0 then [⟨dma.k, sizes.k, false⟩] else []) ++ [⟨dma.o, sizes.o, true⟩]) := by
  obtain ⟨opcode, elems, hOpcode, hElems, hBytes, hSizes⟩ := calcSizes_agrees hAccepted
  obtain ⟨d', hSubmitted, hProcessing⟩ := GemminiDevA.submit_of_idle dma hIdle hAccepted
  refine ⟨⟨opcode, hOpcode, ?_⟩, hSizes, d', hSubmitted, hProcessing.sizesKnown,
    GemminiDevA.transfers_matrix hProcessing hAccepted⟩
  rw [hBytes, (calcElems_agrees hElems).1]

def poolRequest : Request := ⟨1, 0, 1, 4, 2, 4⟩

theorem transfers_match_buffers_pool :
    (∃ opcode, deviceOpcode 4 = some opcode ∧ (⟨64, 0, 16⟩ : Sizes) = (opcode.elements 4 2).bytes) ∧
      deviceSizes 4 4 2 = some ⟨64, 0, 16⟩ ∧
      ∃ d', GemminiDevA.submit poolRequest ⟨64, 0, 16⟩ ⟨0x1000, 0, 0x2000⟩ {} = some d' ∧
        d'.sizes = ⟨64, 0, 16⟩ ∧
        d'.transfers 4 = some [⟨0x1000, 64, false⟩, ⟨0x2000, 16, true⟩] :=
  transfers_match_buffers (2 ^ 64 - 1) poolRequest ⟨64, 0, 16⟩ (by decide) ⟨0x1000, 0, 0x2000⟩ {}
    ⟨rfl, rfl, rfl⟩

end OpenNpux.Gemmini
