import Mathlib.Algebra.GroupWithZero.Nat
import OpenNpux.Lib.Run

/-!
# The search device

A command is written to the registers and started; the device reads its operands, computes
at once and sets the status register some cycles later. A panic gives no state. The result
register is written by each kernel, but the search for a key writes it only when it finds
one, so the register then keeps the result of an earlier command.
-/

namespace OpenNpux.Ndp

open Lib

structure NDPDevA where
  scaleFactor : Nat := 0
  piAddrData : Nat := 0
  piDataSize : Nat := 0
  piDataSkey : Nat := 0
  piCmmdCode : Nat := 0
  piStatRgst : Nat := 1
  piLastRslt : Nat := 0
  hasOperands : Bool := false
  operands : List Nat := []
  /-- The burst of the operands that has not come back: its address and its bytes. -/
  burst : Option (Nat × Nat) := none
  /-- The scheduled event, and after how many cycles it comes. -/
  writeBackEvent : Option Nat := none
deriving DecidableEq

namespace NDPDevA

def readPI (ridx : Nat) (d : NDPDevA) : Option Nat :=
  match ridx with
  | 5 => some d.piStatRgst
  | 6 => some d.piLastRslt
  | _ => none

/-! ## The kernels, which return the cycles they take -/

def hitLoop (skey : Nat) : Nat → List Nat → Option Nat
  | _, [] => none
  | i, x :: xs => if x = skey then some i else hitLoop skey (i + 1) xs

def compareNHit (d : NDPDevA) : Nat × NDPDevA :=
  match hitLoop d.piDataSkey 0 d.operands with
  | some i => (i, { d with piLastRslt := 1 })
  | none => (d.piDataSize, d)

def countLoop (skey : Nat) : Nat → List Nat → Nat
  | n, [] => n
  | n, x :: xs => countLoop skey (if x = skey then n + 1 else n) xs

def compareNCount (d : NDPDevA) : Nat × NDPDevA :=
  (d.piDataSize, { d with piLastRslt := countLoop d.piDataSkey 0 d.operands })

def maxLoop : Nat → List Nat → Nat
  | max, [] => max
  | max, x :: xs => maxLoop (if x > max then x else max) xs

def compareNMax (d : NDPDevA) : Option (Nat × NDPDevA) :=
  match d.operands with
  | [] => none
  | x :: xs => some (d.piDataSize, { d with piLastRslt := maxLoop x xs })

/-! ## Registers and events -/

def kernel (d : NDPDevA) : Option (Nat × NDPDevA) :=
  match d.piCmmdCode with
  | 0 => some d.compareNHit
  | 1 => some d.compareNCount
  | 2 => d.compareNMax
  | _ => none

def processFsm (d : NDPDevA) : Option NDPDevA :=
  if !d.hasOperands then
    some { d with burst := some (d.piAddrData, d.piDataSize * 8 % 2 ^ 64) }
  else
    d.kernel.map fun (cycles, d) =>
      { d with writeBackEvent := some (cycles * d.scaleFactor % 2 ^ 64) }

def writePI (ridx data : Nat) (d : NDPDevA) : Option NDPDevA :=
  if d.piStatRgst = 0 then none
  else
    match ridx with
    | 0 => some { d with piAddrData := data }
    | 1 => some { d with piDataSize := data }
    | 2 => some { d with piDataSkey := data }
    | 3 => some { d with piCmmdCode := data }
    | 4 => processFsm { d with piStatRgst := 0, scaleFactor := data }
    | _ => none

def recvData (data : List Nat) (d : NDPDevA) : Option NDPDevA :=
  processFsm { d with burst := none, operands := data, hasOperands := true }

def writeBackResults (d : NDPDevA) : NDPDevA :=
  { d with writeBackEvent := none, piStatRgst := 1, operands := [], hasOperands := false }

end NDPDevA

/-! ## Runs -/

namespace Search

inductive Step
  | writePI (ridx data : Nat)
  | recvData (data : List Nat)
  | writeBack
deriving DecidableEq

def Step.perform (d : NDPDevA) : Step → Option NDPDevA
  | .writePI ridx data => d.writePI ridx data
  | .recvData data => d.recvData data
  | .writeBack => some d.writeBackResults

/-- The device, with the operands of its last command and what the result register held when
the command was started. -/
structure History where
  device : NDPDevA := {}
  data : List Nat := []
  started : Nat := 0
deriving DecidableEq

/-- A step that panics leaves everything as it is. -/
def History.next (h : History) (step : Step) : History :=
  match step.perform h.device with
  | none => h
  | some device =>
    { device
      data := match step with
        | .recvData data => data
        | .writePI _ _ | .writeBack => h.data
      started := match step with
        | .writePI 4 _ => h.device.piLastRslt
        | .writePI _ _ | .recvData _ | .writeBack => h.started }

/-- Commands of the three kinds on 1 to 2^31 - 1 elements, written while the device is idle;
the burst brings as many elements, and only a scheduled event comes. -/
def Legal (h : History) : Step → Prop
  | .writePI ridx _ => h.device.piStatRgst ≠ 0 ∧ ridx ≤ 4 ∧
    (ridx = 4 → h.device.piCmmdCode ≤ 2 ∧ 1 ≤ h.device.piDataSize ∧ h.device.piDataSize < 2 ^ 31)
  | .recvData data => h.device.burst ≠ none ∧ data.length = h.device.piDataSize
  | .writeBack => h.device.writeBackEvent ≠ none

instance (h : History) (step : Step) : Decidable (Legal h step) := by
  cases step <;> unfold Legal <;> infer_instance

def IsReference (code skey : Nat) (data : List Nat) (result : Nat) : Prop :=
  match code with
  | 0 => result = if skey ∈ data then 1 else 0
  | 1 => result = data.count skey
  | _ => result ∈ data ∧ ∀ x ∈ data, x ≤ result

/-- What the kernels leave in the result register, which held `last`. -/
def Computes (code skey : Nat) (data : List Nat) (last result : Nat) : Prop :=
  if code = 0 then result = if skey ∈ data then 1 else last else IsReference code skey data result

theorem Computes.isReference_iff {code skey : Nat} {data : List Nat} {last result : Nat}
    (h : Computes code skey data last result) :
    IsReference code skey data result ↔ (code = 0 → skey ∈ data ∨ last = 0) := by
  unfold Computes at h
  by_cases hCode : code = 0
  · subst hCode
    rw [if_pos rfl] at h
    subst h
    by_cases hFound : skey ∈ data
    · simp [IsReference, hFound]
    · simp [IsReference, hFound]
  · rw [if_neg hCode] at h
    exact iff_of_true h fun hZero => absurd hZero hCode

/-! ## The kernels -/

theorem hitLoop_isSome_iff {skey i : Nat} {data : List Nat} :
    (NDPDevA.hitLoop skey i data).isSome = true ↔ skey ∈ data := by
  induction data generalizing i with
  | nil => simp [NDPDevA.hitLoop]
  | cons x xs ih =>
    rw [NDPDevA.hitLoop, List.mem_cons]
    split
    · rename_i hEqual
      exact iff_of_true rfl (.inl hEqual.symm)
    · rename_i hDiffer
      rw [ih, or_iff_right (Ne.symm hDiffer)]

theorem countLoop_eq {skey n : Nat} {data : List Nat} :
    NDPDevA.countLoop skey n data = n + data.count skey := by
  induction data generalizing n with
  | nil => rfl
  | cons x xs ih =>
    rw [NDPDevA.countLoop, ih, List.count_cons]
    simp only [beq_iff_eq]
    split <;> omega

theorem maxLoop_isMax {first : Nat} {data : List Nat} :
    NDPDevA.maxLoop first data ∈ first :: data ∧
      ∀ x ∈ first :: data, x ≤ NDPDevA.maxLoop first data := by
  induction data generalizing first with
  | nil => simp [NDPDevA.maxLoop]
  | cons x xs ih =>
    rw [NDPDevA.maxLoop]
    generalize hGreater : (if x > first then x else first) = greater
    have hBoth : first ≤ greater ∧ x ≤ greater ∧ (greater = first ∨ greater = x) := by
      split at hGreater <;> omega
    obtain ⟨hMem, hBound⟩ := @ih greater
    have hHead := hBound _ List.mem_cons_self
    constructor
    · rcases List.mem_cons.mp hMem with hEqual | hRest
      · rw [hEqual]
        rcases hBoth.2.2 with rfl | rfl <;> simp
      · exact List.mem_cons_of_mem _ (List.mem_cons_of_mem _ hRest)
    · intro y hy
      rcases List.mem_cons.mp hy with rfl | hy
      · omega
      · rcases List.mem_cons.mp hy with rfl | hy
        · omega
        · exact hBound y (List.mem_cons_of_mem _ hy)

theorem compareNHit_computes (d : NDPDevA) :
    ∃ cycles result, d.compareNHit = (cycles, { d with piLastRslt := result }) ∧
      result = if d.piDataSkey ∈ d.operands then 1 else d.piLastRslt := by
  have hFound := @hitLoop_isSome_iff d.piDataSkey 0 d.operands
  unfold NDPDevA.compareNHit
  cases hLoop : NDPDevA.hitLoop d.piDataSkey 0 d.operands with
  | some i =>
    rw [hLoop] at hFound
    exact ⟨i, 1, rfl, (if_pos (hFound.mp rfl)).symm⟩
  | none =>
    rw [hLoop] at hFound
    exact ⟨d.piDataSize, d.piLastRslt, rfl,
      (if_neg fun hMem => Bool.false_ne_true (hFound.mpr hMem)).symm⟩

theorem kernel_computes {d : NDPDevA} (hCode : d.piCmmdCode ≤ 2) (hSome : d.operands ≠ []) :
    ∃ cycles result, d.kernel = some (cycles, { d with piLastRslt := result }) ∧
      Computes d.piCmmdCode d.piDataSkey d.operands d.piLastRslt result := by
  have hKinds : d.piCmmdCode = 0 ∨ d.piCmmdCode = 1 ∨ d.piCmmdCode = 2 := by omega
  unfold Computes
  rcases hKinds with hHit | hCount | hMax
  · have hKernel : d.kernel = some d.compareNHit := by simp only [NDPDevA.kernel, hHit]
    obtain ⟨cycles, result, hSame, hResult⟩ := compareNHit_computes d
    refine ⟨cycles, result, by rw [hKernel, hSame], ?_⟩
    rw [if_pos hHit]
    exact hResult
  · have hKernel : d.kernel = some d.compareNCount := by simp only [NDPDevA.kernel, hCount]
    refine ⟨d.piDataSize, _, hKernel, ?_⟩
    rw [if_neg (by omega), hCount]
    exact countLoop_eq.trans (Nat.zero_add _)
  · have hKernel : d.kernel = d.compareNMax := by simp only [NDPDevA.kernel, hMax]
    obtain ⟨x, xs, hOperands⟩ := List.exists_cons_of_ne_nil hSome
    refine ⟨d.piDataSize, NDPDevA.maxLoop x xs, ?_, ?_⟩
    · rw [hKernel, NDPDevA.compareNMax, hOperands]
    · rw [if_neg (by omega), hMax, hOperands]
      exact maxLoop_isMax

/-! ## What a step preserves -/

inductive Phase (h : History) : Prop
  | idle (status : h.device.piStatRgst = 1) (operands : h.device.hasOperands = false)
      (burst : h.device.burst = none) (event : h.device.writeBackEvent = none)
  | fetching (status : h.device.piStatRgst = 0) (operands : h.device.hasOperands = false)
      (event : h.device.writeBackEvent = none) (code : h.device.piCmmdCode ≤ 2)
      (size : 1 ≤ h.device.piDataSize) (result : h.device.piLastRslt = h.started)
  | finishing (status : h.device.piStatRgst = 0) (burst : h.device.burst = none)
      (computed : Computes h.device.piCmmdCode h.device.piDataSkey h.data h.started
        h.device.piLastRslt)

theorem Phase.recvData {h : History} (hPhase : Phase h) {data : List Nat}
    (hLegal : Legal h (.recvData data)) :
    ((Step.recvData data).perform h.device).isSome = true ∧ Phase (h.next (.recvData data)) := by
  obtain ⟨hBurst, hLength⟩ := hLegal
  cases hPhase with
  | idle _ _ hNone => exact absurd hNone hBurst
  | finishing _ hNone => exact absurd hNone hBurst
  | fetching hStatus hOperands hEvent hCode hSize hResult =>
    have hSome : data ≠ [] := List.ne_nil_of_length_pos (by omega)
    obtain ⟨cycles, result, hKernel, hComputes⟩ := @kernel_computes
      { h.device with burst := none, operands := data, hasOperands := true } hCode hSome
    have hPerform : (Step.recvData data).perform h.device = some
        { h.device with
          burst := none
          operands := data
          hasOperands := true
          piLastRslt := result
          writeBackEvent := some (cycles * h.device.scaleFactor % 2 ^ 64) } := by
      rw [Step.perform, NDPDevA.recvData, NDPDevA.processFsm, hKernel]
      rfl
    rw [History.next, hPerform]
    refine ⟨rfl, .finishing hStatus rfl ?_⟩
    rw [← hResult]
    exact hComputes

theorem Phase.writePI {h : History} (hPhase : Phase h) {ridx data : Nat}
    (hLegal : Legal h (.writePI ridx data)) :
    ((Step.writePI ridx data).perform h.device).isSome = true ∧
      Phase (h.next (.writePI ridx data)) := by
  obtain ⟨hReady, hRange, hStart⟩ := hLegal
  cases hPhase with
  | fetching hBusy => exact absurd hBusy hReady
  | finishing hBusy => exact absurd hBusy hReady
  | idle hStatus hOperands hBurst hEvent =>
    have hWrite : (Step.writePI ridx data).perform h.device = _ := if_neg hReady
    rw [History.next, hWrite]
    match ridx, hRange, hStart with
    | 0, _, _ => exact ⟨rfl, .idle hStatus hOperands hBurst hEvent⟩
    | 1, _, _ => exact ⟨rfl, .idle hStatus hOperands hBurst hEvent⟩
    | 2, _, _ => exact ⟨rfl, .idle hStatus hOperands hBurst hEvent⟩
    | 3, _, _ => exact ⟨rfl, .idle hStatus hOperands hBurst hEvent⟩
    | 4, _, hStart =>
      obtain ⟨hCode, hSize, -⟩ := hStart rfl
      have hFetch : NDPDevA.processFsm { h.device with piStatRgst := 0, scaleFactor := data } =
          some _ := if_pos (by rw [hOperands]; rfl)
      rw [hFetch]
      exact ⟨rfl, .fetching rfl hOperands hEvent hCode hSize rfl⟩

theorem Phase.next {h : History} (hPhase : Phase h) {step : Step} (hLegal : Legal h step) :
    (step.perform h.device).isSome = true ∧ Phase (h.next step) := by
  cases step with
  | recvData data => exact hPhase.recvData hLegal
  | writePI ridx data => exact hPhase.writePI hLegal
  | writeBack =>
    cases hPhase with
    | idle _ _ _ hNone => exact absurd hNone hLegal
    | fetching _ _ hNone => exact absurd hNone hLegal
    | finishing _ hBurst => exact ⟨rfl, .idle rfl rfl hBurst rfl⟩

def reached (steps : List Step) : History := steps.foldl History.next {}

/-- No step panics, and when the status register is set again the result is the reference of
the last command exactly if that command was no search for an absent key, or the register
held 0 when it was started. -/
theorem result_reference_iff (steps : List Step)
    (hRun : Admits Legal History.next {} (steps ++ [.writeBack])) :
    (∀ step, Legal (reached steps) step → (step.perform (reached steps).device).isSome = true) ∧
    (reached (steps ++ [.writeBack])).device.readPI 5 = some 1 ∧
    ∃ result, (reached (steps ++ [.writeBack])).device.readPI 6 = some result ∧
      (IsReference (reached steps).device.piCmmdCode (reached steps).device.piDataSkey
          (reached steps).data result ↔
        ((reached steps).device.piCmmdCode = 0 →
          (reached steps).device.piDataSkey ∈ (reached steps).data ∨
            (reached steps).started = 0)) := by
  obtain ⟨hSteps, hLast, -⟩ := Admits.append.mp hRun
  have hPhase : Phase (reached steps) :=
    hSteps.invariant (.idle rfl rfl rfl rfl) fun h step hPhase hLegal => (hPhase.next hLegal).2
  have hAfter : reached (steps ++ [.writeBack]) = (reached steps).next .writeBack :=
    List.foldl_append
  rw [hAfter]
  refine ⟨fun step hLegal => (hPhase.next hLegal).1, rfl,
    (reached steps).device.piLastRslt, rfl, ?_⟩
  cases hPhase with
  | idle _ _ _ hNone => exact absurd hNone hLast
  | fetching _ _ hNone => exact absurd hNone hLast
  | finishing _ _ hComputed => exact hComputed.isReference_iff

def command (code skey : Nat) (data : List Nat) : List Step :=
  [.writePI 0 0x1000, .writePI 1 data.length, .writePI 2 skey, .writePI 3 code, .writePI 4 1,
    .recvData data]

-- A count, a maximum, and a search that finds its key.
def threeCommands : List Step :=
  command 1 5 [5, 5] ++ .writeBack :: command 2 0 [3, 9] ++ .writeBack :: command 0 7 [5, 7]

theorem result_reference_iff_search :
    ∃ result, (reached (threeCommands ++ [.writeBack])).device.readPI 6 = some result ∧
      IsReference 0 7 [5, 7] result := by
  obtain ⟨-, -, result, hResult, hIff⟩ := result_reference_iff threeCommands (by decide)
  exact ⟨result, hResult, hIff.mpr fun _ => .inl (by decide)⟩

/-- A search for an absent key after a count returns the count. -/
theorem search_keeps_count :
    Admits Legal History.next {} (command 1 5 [5, 5] ++ .writeBack :: command 0 7 [5] ++
      [.writeBack]) ∧
    (reached (command 1 5 [5, 5] ++ .writeBack :: command 0 7 [5] ++ [.writeBack])).device.readPI
      6 = some 2 ∧ ¬IsReference 0 7 [5] 2 := by
  refine ⟨by decide, by decide, ?_⟩
  intro hReference
  have hZero : 2 = if 7 ∈ [5] then 1 else 0 := hReference
  exact absurd hZero (by decide)

end Search
end OpenNpux.Ndp
