import OpenNpux.Device.Rules
import OpenNpux.Lib.WriteBack

/-!
# The page cache as a write-back cache

What the functions of the page cache compute: a functional range is one copy, a page is
filled and flushed as a whole, and the last page ends with the window. Seen through the
offsets of the window the device's cache is a write-back cache of 4 KiB pages.
-/

namespace OpenNpux.Device.NPUDevice

open Lib Bridge

variable {B : Type} {p : NPUDeviceParams} {d : NPUDevice B}

def Sound (e : DeviceEvent) : Prop := ∀ f, e ≠ .fatal f

theorem sound_access (command : MemCmd) (addr size : Nat) : Sound (command.event addr size) := by
  intro f hFatal
  cases command <;> cases hFatal

theorem runs_fatalIf {c : Bool} {f : Fatal} (h : c = false) :
    Prog.Runs Sound (deviceFatalIf c f : Prog (NPUDevice B) DeviceEvent Unit) d fun _ d' => d' =
      d := by
  subst h
  exact ⟨by simp [deviceFatalIf, onBackend, fatalIf], (), rfl, rfl⟩

/-! ## Ranges -/

section Ranges

variable {addr size start : Nat}

theorem functionalMemoryAccess_read (addr size start : Nat) (buffer : ByteMem) (d : NPUDevice B) :
    functionalMemoryAccess .readReq addr size start buffer d =
      ⟨some (buffer.store start size fun i => d.memory (addr + i)), d, [.hostRead addr size]⟩ := rfl

theorem functionalMemoryAccess_write (addr size start : Nat) (buffer : ByteMem) (d : NPUDevice B) :
    functionalMemoryAccess .writeReq addr size start buffer d =
      ⟨some buffer, { d with memory := d.memory.store addr size fun i => buffer (start + i) },
        [.hostWrite addr size]⟩ := rfl

theorem functionalMemoryLoop_done (command : MemCmd) (fuel : Nat) {completed : Nat}
    (buffer : ByteMem) (h : size ≤ completed) :
    functionalMemoryLoop (B := B) p command addr size start fuel completed buffer =
      pure buffer := by
  cases fuel with
  | zero => rfl
  | succ fuel => exact if_neg (by omega)

theorem functionalMemoryLoop_packet (hBlock : p.cacheBlockSize ≠ 0) (hAddr : addr + size ≤ 2 ^ 64)
    (command : MemCmd) (fuel : Nat) {completed : Nat} (buffer : ByteMem)
    (hMore : completed < size) :
    ∃ chunk, 0 < chunk ∧ chunk ≤ size - completed ∧
      functionalMemoryLoop (B := B) p command addr size start (fuel + 1) completed buffer =
        (functionalMemoryAccess command (addr + completed) chunk (start + completed) buffer >>=
          functionalMemoryLoop p command addr size start fuel (completed + chunk)) := by
  have hLess : (addr + completed) % p.cacheBlockSize < p.cacheBlockSize :=
    Nat.mod_lt _ (Nat.pos_of_ne_zero hBlock)
  refine ⟨min (p.cacheBlockSize - (addr + completed) % p.cacheBlockSize)
    (size - completed), ?_, ?_, ?_⟩
  · omega
  · omega
  · have hCurrent : (addr + completed) % 2 ^ 64 = addr + completed := Nat.mod_eq_of_lt (by omega)
    rw [functionalMemoryLoop, if_pos hMore, hCurrent]

theorem functionalMemoryLoop_read (hBlock : p.cacheBlockSize ≠ 0) (hAddr : addr + size ≤ 2 ^ 64)
    (fuel completed : Nat) (buffer : ByteMem) (hFuel : size - completed ≤ fuel) :
    Prog.Runs Sound (functionalMemoryLoop p .readReq addr size start fuel completed buffer) d
      fun b d' => d' = d ∧ b = buffer.store (start + completed) (size - completed) fun i =>
        d.memory (addr + completed + i) := by
  induction fuel generalizing completed buffer with
  | zero =>
    rw [functionalMemoryLoop_done _ _ _ (by omega), Nat.le_zero.mp hFuel, ByteMem.store_zero]
    exact .pure ⟨rfl, rfl⟩
  | succ fuel ih =>
    by_cases hMore : completed < size
    · obtain ⟨chunk, hPositive, hInside, hLoop⟩ :=
        @functionalMemoryLoop_packet B p addr size start hBlock hAddr .readReq fuel
          completed buffer hMore
      rw [hLoop]
      apply Prog.Runs.step (functionalMemoryAccess_read _ _ _ _ _)
      · exact List.forall_mem_singleton.mpr (sound_access .readReq _ _)
      · apply (ih (completed + chunk) _ (by omega)).mono
        rintro _ _ ⟨rfl, rfl⟩
        refine ⟨rfl, ?_⟩
        rw [show size - completed = chunk + (size - (completed + chunk)) by omega,
          ← ByteMem.store_store_append]
        simp only [Nat.add_assoc]
    · rw [functionalMemoryLoop_done _ _ _ (by omega), Nat.sub_eq_zero_of_le (by omega),
        ByteMem.store_zero]
      exact .pure ⟨rfl, rfl⟩

theorem functionalMemoryLoop_write (hBlock : p.cacheBlockSize ≠ 0) (hAddr : addr + size ≤ 2 ^ 64)
    (fuel completed : Nat) (buffer : ByteMem) (hFuel : size - completed ≤ fuel) :
    Prog.Runs Sound (functionalMemoryLoop p .writeReq addr size start fuel completed buffer) d
      fun _ d' => d' = { d with
        memory := d.memory.store (addr + completed) (size - completed) fun i =>
          buffer (start + completed + i) } := by
  induction fuel generalizing completed d with
  | zero =>
    rw [functionalMemoryLoop_done _ _ _ (by omega), Nat.le_zero.mp hFuel, ByteMem.store_zero]
    exact .pure rfl
  | succ fuel ih =>
    by_cases hMore : completed < size
    · obtain ⟨chunk, hPositive, hInside, hLoop⟩ :=
        @functionalMemoryLoop_packet B p addr size start hBlock hAddr .writeReq fuel
          completed buffer hMore
      rw [hLoop]
      apply Prog.Runs.step (functionalMemoryAccess_write _ _ _ _ _)
      · exact List.forall_mem_singleton.mpr (sound_access .writeReq _ _)
      · apply (ih (completed + chunk) (by omega)).mono
        rintro _ _ rfl
        rw [show size - completed = chunk + (size - (completed + chunk)) by omega,
          ← ByteMem.store_store_append]
        simp only [Nat.add_assoc]
    · rw [functionalMemoryLoop_done _ _ _ (by omega), Nat.sub_eq_zero_of_le (by omega),
        ByteMem.store_zero]
      exact .pure rfl

theorem functionalMemoryRange_read (hBlock : p.cacheBlockSize ≠ 0) (hAddr : addr + size ≤ 2 ^ 64)
    (buffer : ByteMem) :
    Prog.Runs Sound (functionalMemoryRange p .readReq addr size start buffer) d
      fun b d' => d' = d ∧ b = buffer.store start size fun i => d.memory (addr + i) := by
  apply Prog.Runs.bind (runs_fatalIf (by simpa using hBlock))
  rintro _ _ rfl
  exact functionalMemoryLoop_read hBlock hAddr size 0 buffer (by omega)

theorem functionalMemoryRange_write (hBlock : p.cacheBlockSize ≠ 0) (hAddr : addr + size ≤ 2 ^ 64)
    (buffer : ByteMem) :
    Prog.Runs Sound (functionalMemoryRange p .writeReq addr size start buffer) d
      fun _ d' => d' = { d with
        memory := d.memory.store addr size fun i => buffer (start + i) } := by
  apply Prog.Runs.bind (runs_fatalIf (by simpa using hBlock))
  rintro _ _ rfl
  exact functionalMemoryLoop_write hBlock hAddr size 0 buffer (by omega)

end Ranges

/-! ## Pages -/

/-- A fast-mode device: gem5 has a block size, and the page cache is a vector that can exist. -/
structure FastCache (p : NPUDeviceParams) : Prop where
  fast : p.fastDma = true
  block : p.cacheBlockSize ≠ 0
  base : p.dmaSharedBase < 2 ^ 32
  size : p.dmaSharedSize < 2 ^ 63

def pageOf (k : Fin p.dmaSharedSize) : Nat := k / fastDmaPageSize

/-- The page cache, on the offsets of the window. -/
def windowCache (p : NPUDeviceParams) (d : NPUDevice B) :
    WriteBack (Fin p.dmaSharedSize) UInt8 Nat where
  memory k := d.memory (p.dmaSharedBase + k)
  cache k := d.fastDmaCache k
  valid := d.fastDmaPageValid
  dirty i := decide (i < p.pageCount) && d.fastDmaPageDirty i

def requestOffset (p : NPUDeviceParams) (request : CoralDmaRequest) : Nat :=
  request.addr - p.dmaExtmemBase

def requestPage (p : NPUDeviceParams) (request : CoralDmaRequest) : Nat :=
  requestOffset p request / fastDmaPageSize

/-- A request inside the window and inside one page of it. -/
structure InPage (p : NPUDeviceParams) (request : CoralDmaRequest) : Prop where
  window : p.inWindow request = true
  page : requestOffset p request % fastDmaPageSize + request.size ≤ fastDmaPageSize

/-- The bytes that a write request gives new values. -/
def requestCells (p : NPUDeviceParams) (request : CoralDmaRequest) (data : ByteMem)
    (k : Fin p.dmaSharedSize) : Option UInt8 :=
  if requestOffset p request ≤ k ∧ k < requestOffset p request + request.size then
    some (data (k - requestOffset p request))
  else none

def requestAccess (p : NPUDeviceParams) (request : CoralDmaRequest) (data : ByteMem) :
    WriteBack.Access (Fin p.dmaSharedSize) UInt8 Nat :=
  match request.type with
  | .read => .read (requestPage p request)
  | .write => .write (requestPage p request) (requestCells p request data)

section Pages

variable (hCache : FastCache p) {page : Nat}
include hCache

theorem FastCache.cacheSize_eq : p.cacheSize = p.dmaSharedSize := by
  simp [NPUDeviceParams.cacheSize, hCache.fast]

theorem FastCache.pageCount_eq : p.pageCount = (p.dmaSharedSize + 4095) / 4096 := by
  have hSize := hCache.size
  simp only [NPUDeviceParams.pageCount, hCache.fast, if_true, fastDmaPageSize]
  rw [Nat.mod_eq_of_lt (by omega)]
  rfl

theorem FastCache.pageOf_lt (k : Fin p.dmaSharedSize) : pageOf k < p.pageCount := by
  have hk := k.isLt
  rw [hCache.pageCount_eq, pageOf, fastDmaPageSize]
  omega

theorem FastCache.pageSize_eq (page : Nat) :
    pageSize p page = min 4096 (p.dmaSharedSize - page * 4096) := by
  rw [pageSize, hCache.cacheSize_eq, pageOffset, fastDmaPageSize]

theorem FastCache.pageAddr_eq (hPage : page < p.pageCount) :
    (p.dmaSharedBase + pageOffset page) % 2 ^ 64 = p.dmaSharedBase + page * 4096 := by
  have hBase := hCache.base
  have hSize := hCache.size
  rw [hCache.pageCount_eq] at hPage
  rw [pageOffset, fastDmaPageSize]
  exact Nat.mod_eq_of_lt (by omega)

theorem FastCache.page_fits (hPage : page < p.pageCount) :
    p.dmaSharedBase + page * 4096 + pageSize p page ≤ 2 ^ 64 := by
  have hBase := hCache.base
  have hSize := hCache.size
  rw [hCache.pageCount_eq] at hPage
  rw [hCache.pageSize_eq]
  omega

theorem fillPage_runs (hPage : page < p.pageCount) :
    Prog.Runs Sound (fillPage p page) d fun _ d' => SameControl d d' ∧ d'.memory = d.memory ∧
      windowCache p d' = (windowCache p d).fill pageOf page := by
  apply Prog.Runs.get_bind
  cases hValid : d.fastDmaPageValid page with
  | true =>
    refine .pure ⟨.refl d, rfl, ?_⟩
    have hFilled : (windowCache p d).valid page = true := hValid
    rw [WriteBack.fill, if_pos hFilled]
  | false =>
    apply Prog.Runs.bind (functionalMemoryRange_read hCache.block
      (by rw [hCache.pageAddr_eq hPage]; exact hCache.page_fits hPage) _)
    rintro _ d ⟨rfl, rfl⟩
    refine .modify ⟨⟨_, _, _, _, rfl⟩, rfl, ?_⟩
    have hInvalid : ¬ (windowCache p d).valid page = true := by simp [windowCache, hValid]
    rw [WriteBack.fill, if_neg hInvalid]
    apply WriteBack.ext
    · rfl
    · funext k
      have hk := k.isLt
      have hSize := hCache.pageSize_eq page
      have hOf : pageOf k = k / 4096 := rfl
      simp only [windowCache, hCache.pageAddr_eq hPage]
      simp only [pageOffset, fastDmaPageSize]
      by_cases hIn : pageOf k = page
      · rw [if_pos hIn, ByteMem.store_inside _ _ (by omega)]
        congr 1
        omega
      · rw [if_neg hIn, ByteMem.store_outside _ _ (by omega)]
    · rfl
    · rfl

theorem FastCache.hostOffset {request : CoralDmaRequest} (hWindow : p.inWindow request = true) :
    p.hostAddr request = p.dmaSharedBase + requestOffset p request ∧
      (p.hostAddr request + 2 ^ 64 - p.dmaSharedBase) % 2 ^ 64 = requestOffset p request := by
  have hBase := hCache.base
  have hSize := hCache.size
  simp only [NPUDeviceParams.inWindow, Bool.and_eq_true, decide_eq_true_eq] at hWindow
  have hHost : p.hostAddr request = p.dmaSharedBase + requestOffset p request := by
    rw [NPUDeviceParams.hostAddr, requestOffset]
    exact Nat.mod_eq_of_lt (by omega)
  refine ⟨hHost, ?_⟩
  rw [hHost, requestOffset]
  omega

theorem FastCache.requestPage_lt {request : CoralDmaRequest} (hWindow : p.inWindow request = true) :
    requestPage p request < p.pageCount := by
  simp only [NPUDeviceParams.inWindow, Bool.and_eq_true, decide_eq_true_eq] at hWindow
  exact hCache.pageOf_lt ⟨requestOffset p request, hWindow.1.2⟩

theorem fastDmaAccess_runs {request : CoralDmaRequest} (hPage : InPage p request) (data : ByteMem) :
    Prog.Runs Sound (fastDmaAccess p request (p.hostAddr request) data) d fun answer d' =>
      SameControl d d' ∧ d'.memory = d.memory ∧
      windowCache p d' = (windowCache p d).step pageOf (requestAccess p request data) ∧
      answer = match request.type with
        | .read => data.store 0 request.size fun i => d'.fastDmaCache (requestOffset p request + i)
        | .write => data := by
  have hLess := hCache.requestPage_lt hPage.window
  have hInPage := hPage.page
  unfold fastDmaAccess
  rw [(hCache.hostOffset hPage.window).2]
  apply Prog.Runs.bind (runs_fatalIf _)
  · rintro _ d rfl
    apply Prog.Runs.bind (fillPage_runs hCache hLess)
    rintro _ d' ⟨hSame, hMemory, hFilled⟩
    unfold requestAccess
    cases request.type with
    | read => exact .get_bind (.pure ⟨hSame, hMemory, hFilled, rfl⟩)
    | write =>
      apply Prog.Runs.modify_bind
      refine .pure ⟨stable_sameControl d d' _ _ _ _ hSame, hMemory, ?_, rfl⟩
      rw [WriteBack.step, ← hFilled]
      apply WriteBack.ext
      · rfl
      · funext k
        simp only [windowCache, WriteBack.put, overwrite, requestCells]
        by_cases hIn : requestOffset p request ≤ k ∧
          (k : Nat) < requestOffset p request + request.size
        · rw [if_pos hIn, ByteMem.store_inside _ _ hIn]
          rfl
        · rw [if_neg hIn, ByteMem.store_outside _ _ hIn]
          rfl
      · rfl
      · funext j
        simp only [windowCache, WriteBack.put]
        by_cases hj : j = requestPage p request
        · simp only [hj, if_true, requestPage, Bool.and_true, decide_eq_true_eq]
          exact hLess
        · have hOther : ¬ j = requestOffset p request / fastDmaPageSize := hj
          rw [if_neg hj, if_neg hOther]
  · simp only [ge_iff_le, Bool.or_eq_false_iff, decide_eq_false_iff_not, not_le, not_lt]
    refine ⟨hLess, ?_⟩
    rw [fastDmaPageSize] at hInPage ⊢
    omega

omit hCache in
/-- Host memory once the first `n` pages are flushed. -/
def flushedMemory (p : NPUDeviceParams) (n : Nat) (d : NPUDevice B) : ByteMem := fun a =>
  if (p.dmaSharedBase ≤ a ∧ a < p.dmaSharedBase + p.dmaSharedSize) ∧
      (a - p.dmaSharedBase) / 4096 < n ∧
        d.fastDmaPageDirty ((a - p.dmaSharedBase) / 4096) = true then
    d.fastDmaCache (a - p.dmaSharedBase)
  else d.memory a

omit hCache in
def flushedDirty (n : Nat) (d : NPUDevice B) (i : Nat) : Bool :=
  if i < n then false else d.fastDmaPageDirty i

omit hCache in
def flushed (p : NPUDeviceParams) (n : Nat) (d : NPUDevice B) : NPUDevice B :=
  { d with memory := flushedMemory p n d, fastDmaPageDirty := flushedDirty n d }

omit hCache in
theorem flushedDirty_succ (n : Nat) (d : NPUDevice B) :
    (fun i => if i = n then false else flushedDirty n d i) = flushedDirty (n + 1) d := by
  funext i
  by_cases hi : i = n
  · simp [flushedDirty, hi]
  · have hSame : i < n + 1 ↔ i < n := by omega
    simp [flushedDirty, hi, hSame]

omit hCache in
theorem flushedMemory_succ_of_clean (hClean : d.fastDmaPageDirty page = false) :
    flushedMemory p (page + 1) d = flushedMemory p page d := by
  funext a
  by_cases ha : (a - p.dmaSharedBase) / 4096 = page
  · simp [flushedMemory, ha, hClean]
  · have hSame : (a - p.dmaSharedBase) / 4096 < page + 1 ↔ (a - p.dmaSharedBase) / 4096 < page := by
      omega
    simp [flushedMemory, hSame]

theorem flushedMemory_succ_of_dirty (hDirty : d.fastDmaPageDirty page = true) :
    flushedMemory p (page + 1) d = (flushedMemory p page d).store (p.dmaSharedBase + page * 4096)
      (pageSize p page) fun i => d.fastDmaCache (pageOffset page + i) := by
  have hSize := hCache.pageSize_eq page
  funext a
  by_cases hIn : p.dmaSharedBase + page * 4096 ≤ a ∧
      a < p.dmaSharedBase + page * 4096 + pageSize p page
  · have hPage : (a - p.dmaSharedBase) / 4096 = page := by omega
    have hOffset : pageOffset page + (a - (p.dmaSharedBase + page * 4096)) =
        a - p.dmaSharedBase := by
      rw [pageOffset, fastDmaPageSize]
      omega
    rw [ByteMem.store_inside _ _ hIn, hOffset]
    exact if_pos ⟨by omega, by omega, by rw [hPage, hDirty]⟩
  · rw [ByteMem.store_outside _ _ hIn]
    by_cases hWindow : p.dmaSharedBase ≤ a ∧ a < p.dmaSharedBase + p.dmaSharedSize
    · have hSame : (a - p.dmaSharedBase) / 4096 < page + 1 ↔
          (a - p.dmaSharedBase) / 4096 < page := by
        omega
      simp only [flushedMemory, hSame]
    · simp only [flushedMemory, hWindow, false_and, if_false]

omit hCache in
theorem flushed_zero (p : NPUDeviceParams) (d : NPUDevice B) : flushed p 0 d = d := by
  have hMemory : flushedMemory p 0 d = d.memory := by
    funext a
    simp [flushedMemory]
  have hDirty : flushedDirty 0 d = d.fastDmaPageDirty := by
    funext i
    simp [flushedDirty]
  rw [flushed, hMemory, hDirty]

theorem flushPage_runs (hPage : page < p.pageCount) :
    Prog.Runs Sound (flushPage p page) (flushed p page d) fun _ d' => d' =
      flushed p (page + 1) d := by
  have hNow : (flushed p page d).fastDmaPageDirty page = d.fastDmaPageDirty page := by
    simp [flushed, flushedDirty]
  apply Prog.Runs.get_bind
  rw [hNow]
  cases hDirty : d.fastDmaPageDirty page with
  | false =>
    have hNext : flushedDirty page d = flushedDirty (page + 1) d := by
      rw [← flushedDirty_succ]
      funext i
      by_cases hi : i = page <;> simp [flushedDirty, hi, hDirty]
    apply Prog.Runs.pure
    rw [flushed, flushed, flushedMemory_succ_of_clean hDirty, hNext]
  | true =>
    apply Prog.Runs.bind (functionalMemoryRange_write hCache.block
      (by rw [hCache.pageAddr_eq hPage]; exact hCache.page_fits hPage) _)
    rintro _ _ rfl
    apply Prog.Runs.modify
    rw [hCache.pageAddr_eq hPage, flushed, flushed, flushedMemory_succ_of_dirty hCache hDirty,
      ← flushedDirty_succ]

theorem flushFastDmaCache_runs :
    Prog.Runs Sound (flushFastDmaCache p) d fun _ d' => d' = flushed p p.pageCount d := by
  apply Prog.Runs.loop (I := fun n _ d' => d' = flushed p n d)
  · exact (flushed_zero p d).symm
  · rintro page hPage _ _ rfl
    exact flushPage_runs hCache hPage

theorem windowCache_flushed :
    windowCache p (flushed p p.pageCount d) = (windowCache p d).flush pageOf := by
  apply WriteBack.ext
  · funext k
    have hk := k.isLt
    have hPage := hCache.pageOf_lt k
    have hOf : pageOf k = k / 4096 := rfl
    have hIn : (p.dmaSharedBase ≤ p.dmaSharedBase + k ∧
      p.dmaSharedBase + k < p.dmaSharedBase + p.dmaSharedSize) := by omega
    simp only [windowCache, flushed, flushedMemory, WriteBack.flush, hOf, Nat.add_sub_cancel_left]
    rw [hOf] at hPage
    simp [hIn, hPage]
  · rfl
  · rfl
  · funext i
    simp only [windowCache, flushed, flushedDirty, WriteBack.flush]
    by_cases hi : i < p.pageCount <;> simp [hi]

end Pages

end OpenNpux.Device.NPUDevice
