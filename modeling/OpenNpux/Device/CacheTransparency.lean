import OpenNpux.Device.Counters
import OpenNpux.Device.PageCache

/-!
# The page cache is transparent

Runs begin with a reset that invalidates the cache and end with a flush, and the host
writes only between them. Memory as the NPU sees it through the cache is then the memory
of the same requests made directly, and the flush makes it the host's memory. The page
check of the request builders keeps every request inside a page of the cache.
-/

namespace OpenNpux.Device.NPUDevice

open Lib Bridge

variable {B : Type} {p : NPUDeviceParams} {d : NPUDevice B} {request : CoralDmaRequest}

/-! ## Direct execution -/

/-- The answer to a request made on host memory itself, and that memory afterwards. -/
def directAccess (p : NPUDeviceParams) (m : ByteMem) (request : CoralDmaRequest) :
    ByteMem × ByteMem :=
  match request.type with
  | .read => (request.data.store 0 request.size fun i => m (p.hostAddr request + i), m)
  | .write => (request.data, m.store (p.hostAddr request) request.size request.data)

def directAll (p : NPUDeviceParams) : List CoralDmaRequest → ByteMem → List ByteMem × ByteMem
  | [], m => ([], m)
  | request :: requests, m =>
    let access := directAccess p m request
    let rest := directAll p requests access.2
    (access.1 :: rest.1, rest.2)

/-- Memory as the NPU sees it through the cache. -/
def npuView (p : NPUDeviceParams) (d : NPUDevice B) : ByteMem := fun a =>
  if h : p.dmaSharedBase ≤ a ∧ a - p.dmaSharedBase < p.dmaSharedSize then
    (windowCache p d).view pageOf ⟨a - p.dmaSharedBase, h.2⟩
  else d.memory a

/-- The device shows the NPU the given memory. -/
structure Shows (p : NPUDeviceParams) (d : NPUDevice B) (m : ByteMem) : Prop where
  coherent : (windowCache p d).Coherent pageOf
  view : npuView p d = m

theorem npuView_congr {d' : NPUDevice B} (hMemory : d'.memory = d.memory)
    (hView : (windowCache p d').view pageOf = (windowCache p d).view pageOf) :
    npuView p d' = npuView p d := by
  funext a
  simp only [npuView, hMemory, hView]

section Requests

variable (hCache : FastCache p) (hPage : InPage p request)
include hPage

theorem InPage.bounds : requestOffset p request + request.size ≤ p.dmaSharedSize ∧
    requestOffset p request < p.dmaSharedSize := by
  have hWindow := hPage.window
  simp only [NPUDeviceParams.inWindow, Bool.and_eq_true, decide_eq_true_eq] at hWindow
  rw [requestOffset]
  omega

theorem InPage.pageOf_eq {k : Fin p.dmaSharedSize} (hLow : requestOffset p request ≤ k)
    (hHigh : k < requestOffset p request + request.size) : pageOf k = requestPage p request := by
  have hInPage := hPage.page
  rw [pageOf, requestPage, fastDmaPageSize] at *
  omega

theorem InPage.cells_within (data : ByteMem) :
    WriteBack.Within pageOf (requestPage p request) (requestCells p request data) := by
  intro k hk
  unfold requestCells at hk
  split at hk
  · rename_i hIn
    exact hPage.pageOf_eq hIn.1 hIn.2
  · cases hk

include hCache

theorem npuView_put {d' : NPUDevice B} {data : ByteMem} (hMemory : d'.memory = d.memory)
    (hView : (windowCache p d').view pageOf =
      overwrite ((windowCache p d).view pageOf) (requestCells p request data)) :
    npuView p d' = (npuView p d).store (p.hostAddr request) request.size data := by
  have hBounds := hPage.bounds
  rw [(hCache.hostOffset hPage.window).1]
  funext a
  by_cases hIn : p.dmaSharedBase + requestOffset p request ≤ a ∧
      a < p.dmaSharedBase + requestOffset p request + request.size
  · have hWindow : p.dmaSharedBase ≤ a ∧ a - p.dmaSharedBase < p.dmaSharedSize := by omega
    have hCell : requestOffset p request ≤ a - p.dmaSharedBase ∧
        a - p.dmaSharedBase < requestOffset p request + request.size := by omega
    rw [ByteMem.store_inside _ _ hIn, npuView, dif_pos hWindow, hView, overwrite, requestCells,
      if_pos hCell, Option.getD_some, Nat.sub_sub]
  · rw [ByteMem.store_outside _ _ hIn]
    by_cases hWindow : p.dmaSharedBase ≤ a ∧ a - p.dmaSharedBase < p.dmaSharedSize
    · have hCell : ¬ (requestOffset p request ≤ a - p.dmaSharedBase ∧
          a - p.dmaSharedBase < requestOffset p request + request.size) := by omega
      rw [npuView, dif_pos hWindow, npuView, dif_pos hWindow, hView, overwrite, requestCells,
        if_neg hCell, Option.getD_none]
    · rw [npuView, dif_neg hWindow, npuView, dif_neg hWindow, hMemory]

theorem npuView_request {i : Nat} (hi : i < request.size)
    (hValid : (windowCache p d).valid (requestPage p request) = true) :
    npuView p d (p.hostAddr request + i) = d.fastDmaCache (requestOffset p request + i) := by
  have hBounds := hPage.bounds
  have hHost := (hCache.hostOffset hPage.window).1
  have hOffset : p.hostAddr request + i - p.dmaSharedBase = requestOffset p request + i := by omega
  have hWindow : p.dmaSharedBase ≤ p.hostAddr request + i ∧
      p.hostAddr request + i - p.dmaSharedBase < p.dmaSharedSize := by omega
  have hPageOf : pageOf ⟨p.hostAddr request + i - p.dmaSharedBase, hWindow.2⟩ =
      requestPage p request :=
    hPage.pageOf_eq (by simp only; omega) (by simp only; omega)
  rw [npuView, dif_pos hWindow, WriteBack.view, hPageOf, if_pos hValid]
  exact congrArg d.fastDmaCache hOffset

theorem fastDmaAccess_shows {m : ByteMem} (h : Shows p d m) :
    Prog.Runs Sound (fastDmaAccess p request (p.hostAddr request) request.data) d fun answer d' =>
      answer = (directAccess p m request).1 ∧ Shows p d' (directAccess p m request).2 := by
  apply (fastDmaAccess_runs hCache hPage request.data).mono
  rintro answer d' ⟨_, hMemory, hStep, rfl⟩
  unfold directAccess
  unfold requestAccess at hStep
  cases hType : request.type with
  | read =>
    simp only [hType, WriteBack.step] at hStep ⊢
    have hView : npuView p d' = m := by
      rw [← h.view]
      apply npuView_congr hMemory
      rw [hStep, WriteBack.view_fill]
    refine ⟨?_, ?_, hView⟩
    · apply ByteMem.store_congr
      intro i hi
      have hFilled : (windowCache p d').valid (requestPage p request) = true := by
        rw [hStep]
        exact WriteBack.fill_valid
      rw [← hView, npuView_request hCache hPage hi hFilled]
    · rw [hStep]
      exact h.coherent.fill
  | write =>
    simp only [hType, WriteBack.step] at hStep ⊢
    refine ⟨trivial, ?_, ?_⟩
    · rw [hStep]
      exact h.coherent.fill.put WriteBack.fill_valid (hPage.cells_within _)
    · rw [← h.view]
      apply npuView_put hCache hPage hMemory
      rw [hStep, WriteBack.view_put WriteBack.fill_valid (hPage.cells_within _),
        WriteBack.view_fill]

end Requests

/-! ## Runs -/

/-- A run: what the host does to memory before it, the word of its reset, its requests. -/
structure CacheRun where
  host : ByteMem → ByteMem
  reset : ByteMem
  requests : List CoralDmaRequest

def serveAll (p : NPUDeviceParams) :
    List CoralDmaRequest → Prog (NPUDevice B) DeviceEvent (List ByteMem)
  | [] => pure []
  | request :: requests => do
    let answer ← fastDmaAccess p request (p.hostAddr request) request.data
    let answers ← serveAll p requests
    return answer :: answers

/-- The answers to the requests of a run that the device serves from its cache. -/
def cacheRun (be : CoralBackend B) (p : NPUDeviceParams) (run : CacheRun) :
    Prog (NPUDevice B) DeviceEvent (List ByteMem) := do
  Prog.modify fun d => { d with memory := run.host d.memory }
  let _ ← write be p (p.pioAddr + resetControlOffset) 4 run.reset
  let answers ← serveAll p run.requests
  flushFastDmaCache p
  return answers

def cacheRuns (be : CoralBackend B) (p : NPUDeviceParams) :
    List CacheRun → Prog (NPUDevice B) DeviceEvent (List (List ByteMem))
  | [] => pure []
  | run :: runs => do
    let answers ← cacheRun be p run
    let rest ← cacheRuns be p runs
    return answers :: rest

/-- The same runs with every request made on host memory. -/
def directRuns (p : NPUDeviceParams) : List CacheRun → ByteMem → List (List ByteMem) × ByteMem
  | [], m => ([], m)
  | run :: runs, m =>
    let served := directAll p run.requests (run.host m)
    let rest := directRuns p runs served.2
    (served.1 :: rest.1, rest.2)

/-- A backend whose MMIO writes always return. -/
def AnswersWrites (be : CoralBackend B) : Prop :=
  ∀ now offset size data b, ∃ accepted b', be.write now offset size data b = ⟨some accepted, b', []⟩

section Runs

variable {be : CoralBackend B} (hCache : FastCache p)
include hCache

theorem serveAll_shows {requests : List CoralDmaRequest} {m : ByteMem}
    (hRequests : ∀ request ∈ requests, InPage p request) (h : Shows p d m) :
    Prog.Runs Sound (serveAll p requests) d fun answers d' =>
      answers = (directAll p requests m).1 ∧ Shows p d' (directAll p requests m).2 := by
  induction requests generalizing d m with
  | nil => exact .pure ⟨rfl, h⟩
  | cons request requests ih =>
    apply Prog.Runs.bind (fastDmaAccess_shows hCache (hRequests request List.mem_cons_self) h)
    rintro _ d' ⟨rfl, hShows⟩
    apply Prog.Runs.bind (ih (fun other hOther =>
      hRequests other (List.mem_cons_of_mem _ hOther)) hShows)
    rintro _ d'' ⟨rfl, hShows'⟩
    exact .pure ⟨rfl, hShows'⟩

omit hCache in
theorem shows_invalidated (hValid : d.fastDmaPageValid = fun _ => false)
    (hDirty : d.fastDmaPageDirty = fun _ => false) : Shows p d d.memory := by
  have hInvalid : windowCache p d = (windowCache p d).invalidate := by
    simp [windowCache, WriteBack.invalidate, hValid, hDirty]
  constructor
  · rw [hInvalid]
    exact WriteBack.coherent_invalidate
  · funext a
    rw [npuView, hInvalid, WriteBack.view_invalidate]
    split
    · rename_i hWindow
      simp only [windowCache, Nat.add_sub_cancel' hWindow.1]
    · rfl

theorem write_reset_shows (hWrites : AnswersWrites be) {reset : ByteMem}
    (hReset : hasBit (reset.load 0 4) resetBit = true) :
    Prog.Runs Sound (write be p (p.pioAddr + resetControlOffset) 4 reset) d fun _ d' =>
      Shows p d' d.memory := by
  have hRegister : isResetControl p (p.pioAddr + resetControlOffset) 4 = true := by
    have hOffset : pioOffset p (p.pioAddr + resetControlOffset) = resetControlOffset := by
      rw [pioOffset, resetControlOffset]
      omega
    simp [isResetControl, hOffset]
  have hStart : (reset.load 0 4 % 4 == 0) = false := by
    simp only [hasBit, resetBit, beq_iff_eq, Nat.div_one] at hReset
    simp only [beq_eq_false_iff_ne]
    omega
  simp only [write, hRegister, hStart, hReset, hCache.fast, Bool.and_true, Bool.and_false]
  apply Prog.Runs.bind (@Prog.Runs.pure _ _ _ _ (fun _ d' => d' = d) _ _ rfl)
  rintro _ d rfl
  apply Prog.Runs.get_bind
  obtain ⟨accepted, b, hWrite⟩ :=
    hWrites d.curTick (pioOffset p (p.pioAddr + resetControlOffset)) 4 reset d.backend
  have hBackend : onBackend (be.write d.curTick
      (pioOffset p (p.pioAddr + resetControlOffset)) 4 reset)
      d = ⟨some accepted, { d with backend := b }, []⟩ := by
    simp [onBackend, hWrite]
  apply Prog.Runs.step hBackend (by simp)
  apply Prog.Runs.modify_bind
  apply Prog.Runs.modify_bind
  exact .pure (shows_invalidated rfl rfl)

theorem flushFastDmaCache_shows {m : ByteMem} (h : Shows p d m) :
    Prog.Runs Sound (flushFastDmaCache p) d fun _ d' => d'.memory = m := by
  apply (flushFastDmaCache_runs hCache).mono
  rintro _ _ rfl
  rw [← h.view]
  funext a
  by_cases hWindow : p.dmaSharedBase ≤ a ∧ a - p.dmaSharedBase < p.dmaSharedSize
  · have hAt : (windowCache p (flushed p p.pageCount d)).memory ⟨a - p.dmaSharedBase, hWindow.2⟩ =
        (flushed p p.pageCount d).memory a :=
      congrArg (flushed p p.pageCount d).memory (Nat.add_sub_cancel' hWindow.1)
    rw [← hAt, windowCache_flushed hCache, WriteBack.memory_flush h.coherent, npuView,
      dif_pos hWindow]
  · have hOutside : ¬ (p.dmaSharedBase ≤ a ∧ a < p.dmaSharedBase + p.dmaSharedSize) := by omega
    simp only [npuView, dif_neg hWindow, flushed, flushedMemory, hOutside, false_and, if_false]

theorem cacheRuns_direct (hWrites : AnswersWrites be) {runs : List CacheRun}
    (hReset : ∀ run ∈ runs, hasBit (run.reset.load 0 4) resetBit = true)
    (hRequests : ∀ run ∈ runs, ∀ request ∈ run.requests, InPage p request) :
    Prog.Runs Sound (cacheRuns be p runs) d fun answers d' =>
      answers = (directRuns p runs d.memory).1 ∧ d'.memory = (directRuns p runs d.memory).2 := by
  induction runs generalizing d with
  | nil => exact .pure ⟨rfl, rfl⟩
  | cons run runs ih =>
    apply Prog.Runs.bind (Q := fun answers d' =>
      answers = (directAll p run.requests (run.host d.memory)).1 ∧
        d'.memory = (directAll p run.requests (run.host d.memory)).2)
    · apply Prog.Runs.modify_bind
      apply Prog.Runs.bind (write_reset_shows hCache hWrites (hReset run List.mem_cons_self))
      intro _ d₁ hShows
      apply Prog.Runs.bind (serveAll_shows hCache (hRequests run List.mem_cons_self) hShows)
      rintro _ d₂ ⟨rfl, hShows'⟩
      apply Prog.Runs.bind (flushFastDmaCache_shows hCache hShows')
      intro _ d₃ hMemory
      exact .pure ⟨rfl, hMemory⟩
    · rintro _ d' ⟨rfl, hMemory⟩
      apply Prog.Runs.bind (ih (fun other hOther => hReset other (List.mem_cons_of_mem _ hOther))
        fun other hOther => hRequests other (List.mem_cons_of_mem _ hOther))
      rintro _ d'' ⟨rfl, hMemory'⟩
      rw [hMemory] at hMemory' ⊢
      exact .pure ⟨rfl, hMemory'⟩

end Runs

/-! ## Requests of the builders -/

/-- A request as the backend reports it to the device. -/
def reported (request : DmaRequest) : CoralDmaRequest where
  type := request.type
  addr := request.addr.toNat
  size := request.size
  data := request.data

/-- The requests that the AXI request builders produce. -/
inductive Built : CoralDmaRequest → Prop
  | read (a : AxiAddr) {built : DmaRequest} {bytesPerBeat beats : Nat}
      (h : buildGem5DmaReadRequest a = some (built, bytesPerBeat, beats)) : Built (reported built)
  | write (a : AxiAddr) (data : List AxiWData) (slot : DmaRequest)
      (h : (buildGem5DmaWriteRequest a data slot).result = some ()) :
      Built (reported (buildGem5DmaWriteRequest a data slot).state)

theorem pageAccepted_fits {a : AxiAddr} (h : a.pageAccepted = true) :
    a.addr.toNat % 4096 + a.burstBytes ≤ 4096 := by
  simp only [AxiAddr.pageAccepted, Bool.and_eq_true, decide_eq_true_eq] at h
  exact h.2

theorem Built.in_page (h : Built request) : request.addr % 4096 + request.size ≤ 4096 := by
  cases h with
  | read a hBuilt =>
    by_cases hAccepted : a.Accepted
    · rw [buildGem5DmaReadRequest_of_accepted hAccepted] at hBuilt
      cases hBuilt
      exact pageAccepted_fits hAccepted.page
    · rw [buildGem5DmaReadRequest_of_not_accepted hAccepted] at hBuilt
      cases hBuilt
  | write a data slot hReturned =>
    have hAccepted := (buildGem5DmaWriteRequest_yields.returned hReturned).1
    rw [(buildGem5DmaWriteRequest_gathers slot trivial).2 () hReturned]
    exact pageAccepted_fits hAccepted.page

theorem Built.inPage (h : Built request) (hBase : p.dmaExtmemBase % 4096 = 0)
    (hWindow : p.inWindow request = true) : InPage p request := by
  refine ⟨hWindow, ?_⟩
  have hFits := h.in_page
  simp only [NPUDeviceParams.inWindow, Bool.and_eq_true, decide_eq_true_eq] at hWindow
  rw [requestOffset, fastDmaPageSize]
  omega

theorem stageA_answersWrites (a : StageAParams) : AnswersWrites (stageA a) := by
  intro now offset size data b
  simp only [stageA, CoralStageABackend.write]
  cases b.written a now offset size data with
  | some b' => exact ⟨true, b', rfl⟩
  | none => exact ⟨false, b, rfl⟩

theorem verilated_answersWrites {M : Type} (br : CoralBridge M) (v : VerilatedParams) :
    AnswersWrites (verilated br v) := by
  intro now offset size data b
  obtain ⟨model, ⟨accepted, hWrite⟩ | ⟨_, hWrite⟩⟩ := verilated_write br v now offset size data b
  · exact ⟨accepted, _, hWrite⟩
  · exact ⟨true, _, hWrite⟩

/-- The device answers the runs as host memory itself would, without a fatal error. -/
def TransparentOn (be : CoralBackend B) (p : NPUDeviceParams) (runs : List CacheRun)
    (d : NPUDevice B) : Prop :=
  (cacheRuns be p runs d).result = some (directRuns p runs d.memory).1 ∧
    (cacheRuns be p runs d).state.memory = (directRuns p runs d.memory).2 ∧
    ∀ e ∈ (cacheRuns be p runs d).trace, ∀ f, e ≠ .fatal f

theorem page_cache_transparent {verilatedCoral : Bool} (hParams : p.Accepted verilatedCoral)
    (hFast : p.fastDma = true) (hBlock : p.cacheBlockSize ≠ 0) (hVector : p.dmaSharedSize < 2 ^ 63)
    (hBase : p.dmaExtmemBase % 4096 = 0) (runs : List CacheRun)
    (hReset : ∀ run ∈ runs, hasBit (run.reset.load 0 4) resetBit = true)
    (hRequests : ∀ run ∈ runs, ∀ request ∈ run.requests,
      Built request ∧ p.inWindow request = true) :
    (∀ (a : StageAParams) (d : NPUDevice CoralStageABackend), TransparentOn (stageA a) p runs d) ∧
    ∀ (M : Type) (br : CoralBridge M) (v : VerilatedParams)
      (d : NPUDevice (CoralVerilatedBackend M)),
      TransparentOn (verilated br v) p runs d := by
  have hCache : FastCache p := ⟨hFast, hBlock, hParams.sharedBase, hVector⟩
  have hPages : ∀ run ∈ runs, ∀ request ∈ run.requests, InPage p request :=
    fun run hRun request hRequest =>
      (hRequests run hRun request hRequest).1.inPage hBase (hRequests run hRun request hRequest).2
  have hTransparent : ∀ {B : Type} (be : CoralBackend B), AnswersWrites be →
      ∀ d : NPUDevice B, TransparentOn be p runs d := by
    intro B be hWrites d
    obtain ⟨hTrace, answers, hResult, rfl, hMemory⟩ :=
      cacheRuns_direct (d := d) hCache hWrites hReset hPages
    exact ⟨hResult, hMemory, hTrace⟩
  exact ⟨fun a d => hTransparent _ (stageA_answersWrites a) d,
    fun M br v d => hTransparent _ (verilated_answersWrites br v) d⟩

/-- A read burst of four words in the second page of EXTMEM. -/
def secondPageBurst : AxiAddr := { addr := 0x20001ff0, size := 2, len := 3, burst := 1 }

/-- The host stores a word, then the NPU reads it. -/
def readStoredWord : CacheRun where
  host := fun m => m.storeWord 0x8f001ff0 4 0x12345678
  reset := ByteMem.bytesOf 1
  requests := [reported (readRequest secondPageBurst)]

theorem page_cache_transparent_readStoredWord :
    TransparentOn (verilated idleBridge verilatedDefaults) boardParams [readStoredWord]
      (constructed { model := () } fun _ => 0) := by
  have hBuilt : Built (reported (readRequest secondPageBurst)) :=
    .read secondPageBurst (buildGem5DmaReadRequest_of_accepted (by decide))
  exact (page_cache_transparent boardParams_accepted rfl (by decide) (by decide) (by decide)
    [readStoredWord] (by decide) (by
      simp only [List.mem_singleton, forall_eq, readStoredWord]
      exact ⟨hBuilt, by decide⟩)).2 _ _ _ _

end OpenNpux.Device.NPUDevice
