import OpenNpux.Device.CacheTransparency
import OpenNpux.Device.DirtyPages

/-!
# What a flush writes

A flush writes back whole pages. The bytes of a dirty page that no NPU write covered go
back as they were when the page was filled, so by itself a flush could lose a host store to
them. No device comes to that: the constructor gives the RTL a local EXTMEM exactly in fast
mode, and then an event does not flush, and the other backend raises no request.
-/

namespace OpenNpux.Device.NPUDevice

open Lib Bridge

variable {B : Type} {p : NPUDeviceParams} {d : NPUDevice B}

/-- An access to the shared window: of the NPU through the cache, or of the host. -/
inductive SharedOp
  | npu (request : CoralDmaRequest)
  | host (addr size : Nat) (data : ByteMem)

namespace SharedOp

variable (p : NPUDeviceParams)

def uses (page : Nat) : SharedOp → Bool
  | npu request => decide (requestPage p request = page)
  | host .. => false

def writes (page : Nat) : SharedOp → Bool
  | npu request => request.type == .write && decide (requestPage p request = page)
  | host .. => false

/-- The NPU writes the byte at a host address. -/
def covers (a : Nat) : SharedOp → Bool
  | npu request => request.type == .write &&
      decide (p.hostAddr request ≤ a ∧ a < p.hostAddr request + request.size)
  | host .. => false

def onMemory (m : ByteMem) : SharedOp → ByteMem
  | npu _ => m
  | host addr size data => m.store addr size data

def Served : SharedOp → Prop
  | npu request => InPage p request
  | host .. => True

def run : SharedOp → Prog (NPUDevice B) DeviceEvent Unit
  | npu request => do
    let _ ← fastDmaAccess p request (p.hostAddr request) request.data
  | host addr size data => Prog.modify fun d => { d with memory := d.memory.store addr size data }

end SharedOp

def runAll (p : NPUDeviceParams) : List SharedOp → Prog (NPUDevice B) DeviceEvent Unit
  | [] => pure ()
  | op :: ops => do
    op.run p
    runAll p ops

def period (p : NPUDeviceParams) (ops : List SharedOp) : Prog (NPUDevice B) DeviceEvent Unit := do
  invalidateFastDmaCache
  runAll p ops

/-- Memory after the host stores of a period. -/
def hostMemory (m : ByteMem) (ops : List SharedOp) : ByteMem := ops.foldl SharedOp.onMemory m

/-- The part of a period before the cache fills a page. -/
def beforeFill (p : NPUDeviceParams) (page : Nat) (ops : List SharedOp) : List SharedOp :=
  ops.takeWhile fun op => !op.uses p page

/-- Wherever the NPU wrote a page, the host has not changed its other bytes since the fill. -/
def HostSpares (p : NPUDeviceParams) (m : ByteMem) (ops : List SharedOp) : Prop :=
  ∀ k < p.dmaSharedSize, ops.any (SharedOp.covers p (p.dmaSharedBase + k)) = false →
    ops.any (SharedOp.writes p (k / fastDmaPageSize)) = true →
    hostMemory m (beforeFill p (k / fastDmaPageSize) ops) (p.dmaSharedBase + k) =
      hostMemory m ops (p.dmaSharedBase + k)

/-! ## The period as a history of the write-back cache -/

def SharedOp.access (p : NPUDeviceParams) : SharedOp →
    WriteBack.Access (Fin p.dmaSharedSize) UInt8 Nat
  | npu request => requestAccess p request request.data
  | host addr size data => .foreign fun k =>
      if addr ≤ p.dmaSharedBase + k ∧ p.dmaSharedBase + k < addr + size then
        some (data (p.dmaSharedBase + k - addr))
      else none

theorem SharedOp.touches_access (page : Nat) (op : SharedOp) :
    (op.access p).touches page = op.uses p page := by
  cases op with
  | npu request =>
    simp only [access, requestAccess, uses]
    cases request.type <;> rfl
  | host addr size data => rfl

theorem SharedOp.dirties_access (page : Nat) (op : SharedOp) :
    (op.access p).dirties page = op.writes p page := by
  cases op with
  | npu request =>
    simp only [access, requestAccess, writes]
    cases request.type <;> rfl
  | host addr size data => rfl

theorem SharedOp.covers_access (hCache : FastCache p) {op : SharedOp} (h : op.Served p)
    (k : Fin p.dmaSharedSize) : (op.access p).covers k = op.covers p (p.dmaSharedBase + k) := by
  cases op with
  | npu request =>
    have hHost := (hCache.hostOffset (InPage.window h)).1
    simp only [access, requestAccess, covers]
    cases request.type with
    | read => rfl
    | write =>
      have hSame : p.hostAddr request ≤ p.dmaSharedBase + k ∧
          p.dmaSharedBase + k < p.hostAddr request + request.size ↔
          requestOffset p request ≤ k ∧ (k : Nat) < requestOffset p request + request.size := by
        omega
      by_cases hIn : requestOffset p request ≤ k ∧
        (k : Nat) < requestOffset p request + request.size <;>
        simp [WriteBack.Access.covers, requestCells, hSame, hIn]
  | host addr size data => rfl

def windowBytes (p : NPUDeviceParams) (m : ByteMem) (k : Fin p.dmaSharedSize) : UInt8 :=
  m (p.dmaSharedBase + k)

theorem SharedOp.onMemory_access (m : ByteMem) (op : SharedOp) :
    (op.access p).onMemory (windowBytes p m) = windowBytes p (op.onMemory m) := by
  cases op with
  | npu request =>
    simp only [access, requestAccess, onMemory]
    cases request.type <;> rfl
  | host addr size data =>
    funext k
    simp only [access, onMemory, WriteBack.Access.onMemory, overwrite, windowBytes, ByteMem.store]
    split <;> rfl

theorem foreignMemory_access (m : ByteMem) (ops : List SharedOp) :
    WriteBack.foreignMemory (windowBytes p m) (ops.map (SharedOp.access p)) =
      windowBytes p (hostMemory m ops) := by
  induction ops generalizing m with
  | nil => rfl
  | cons op ops ih =>
    have hRest := ih (op.onMemory m)
    rw [← SharedOp.onMemory_access] at hRest
    exact hRest

theorem beforeFill_access (page : Nat) (ops : List SharedOp) :
    WriteBack.beforeFill page (ops.map (SharedOp.access p)) =
      (beforeFill p page ops).map (SharedOp.access p) := by
  simp only [WriteBack.beforeFill, beforeFill, List.takeWhile_map, Function.comp_def,
    SharedOp.touches_access]

theorem any_dirties_access (page : Nat) (ops : List SharedOp) :
    (ops.map (SharedOp.access p)).any (WriteBack.Access.dirties page) =
      ops.any (SharedOp.writes p page) := by
  simp only [List.any_map, Function.comp_def, SharedOp.dirties_access]

section Period

variable (hCache : FastCache p)
include hCache

theorem any_covers_access {ops : List SharedOp} (hServed : ∀ op ∈ ops, op.Served p)
    (k : Fin p.dmaSharedSize) :
    (ops.map (SharedOp.access p)).any (WriteBack.Access.covers k) =
      ops.any (SharedOp.covers p (p.dmaSharedBase + k)) := by
  induction ops with
  | nil => rfl
  | cons op ops ih =>
    have hHead := SharedOp.covers_access hCache (hServed op List.mem_cons_self) k
    have hTail := ih fun other hOther => hServed other (List.mem_cons_of_mem _ hOther)
    simp only [List.map_cons, List.any_cons, hHead, hTail]

theorem run_steps {op : SharedOp} (h : op.Served p) :
    Prog.Runs Sound (op.run p) d fun _ d' =>
      windowCache p d' = (windowCache p d).step pageOf (op.access p) ∧
        d'.memory = op.onMemory d.memory := by
  cases op with
  | npu request =>
    apply Prog.Runs.bind (fastDmaAccess_runs hCache h request.data)
    rintro _ d' ⟨_, hMemory, hStep, _⟩
    exact .pure ⟨hStep, hMemory⟩
  | host addr size data =>
    refine .modify ⟨?_, rfl⟩
    have hMemory := SharedOp.onMemory_access (p := p) d.memory (.host addr size data)
    exact WriteBack.ext hMemory.symm rfl rfl rfl

theorem runAll_steps {ops : List SharedOp} (hServed : ∀ op ∈ ops, op.Served p) :
    Prog.Runs Sound (runAll p ops) d fun _ d' =>
      windowCache p d' = (ops.map (SharedOp.access p)).foldl (WriteBack.step pageOf)
        (windowCache p d) ∧ d'.memory = hostMemory d.memory ops := by
  induction ops generalizing d with
  | nil => exact .pure ⟨rfl, rfl⟩
  | cons op ops ih =>
    apply Prog.Runs.bind (run_steps hCache (hServed op List.mem_cons_self))
    rintro _ d' ⟨hStep, hMemory⟩
    apply (ih fun other hOther => hServed other (List.mem_cons_of_mem _ hOther)).mono
    rintro _ d'' ⟨hSteps, hMemory'⟩
    rw [hStep] at hSteps
    rw [hMemory] at hMemory'
    exact ⟨hSteps, hMemory'⟩

theorem period_traces {ops : List SharedOp} (hServed : ∀ op ∈ ops, op.Served p) :
    Prog.Runs Sound (period p ops) d fun _ d' =>
      WriteBack.Traces pageOf (windowBytes p d.memory) (ops.map (SharedOp.access p))
        (windowCache p d') ∧ d'.memory = hostMemory d.memory ops := by
  apply Prog.Runs.modify_bind
  apply (runAll_steps hCache hServed).mono
  rintro _ d' ⟨hSteps, hMemory⟩
  have hInvalid : windowCache p { d with
      fastDmaPageValid := fun _ => false, fastDmaPageDirty := fun _ => false } =
      (windowCache p d).invalidate := by
    simp [windowCache, WriteBack.invalidate]
  rw [hInvalid] at hSteps
  refine ⟨?_, hMemory⟩
  rw [hSteps]
  exact WriteBack.traces_run (windowCache p d) _

theorem flush_byte_iff {ops : List SharedOp} (hServed : ∀ op ∈ ops, op.Served p) {k : Nat}
    (hk : k < p.dmaSharedSize) (hCovered : ops.any
      (SharedOp.covers p (p.dmaSharedBase + k)) = false) :
    (flushFastDmaCache p (period p ops d).state).state.memory (p.dmaSharedBase + k) =
        (period p ops d).state.memory (p.dmaSharedBase + k) ↔
      (ops.any (SharedOp.writes p (k / fastDmaPageSize)) = true →
        hostMemory d.memory (beforeFill p (k / fastDmaPageSize) ops) (p.dmaSharedBase + k) =
          hostMemory d.memory ops (p.dmaSharedBase + k)) := by
  obtain ⟨_, _, _, hTraces, _⟩ := period_traces (d := d) hCache hServed
  obtain ⟨_, _, _, hFlushed⟩ := flushFastDmaCache_runs (d := (period p ops d).state) hCache
  have hCell : (flushed p p.pageCount (period p ops d).state).memory (p.dmaSharedBase + k) =
      ((windowCache p (period p ops d).state).flush pageOf).memory ⟨k, hk⟩ := by
    rw [← windowCache_flushed hCache]
    rfl
  have hUncovered := (any_covers_access hCache hServed ⟨k, hk⟩).trans hCovered
  have hFlush := hTraces.flush_uncovered_iff hUncovered
  rw [any_dirties_access, beforeFill_access, foreignMemory_access, foreignMemory_access] at hFlush
  rw [hFlushed, hCell]
  exact hFlush

end Period

theorem flush_frame_iff (hCache : FastCache p) (ops : List SharedOp)
    (hServed : ∀ op ∈ ops, op.Served p) (d : NPUDevice B) :
    (period p ops d).result = some () ∧
      (flushFastDmaCache p (period p ops d).state).result = some () ∧
      ((∀ a, ops.any (SharedOp.covers p a) = false →
        (flushFastDmaCache p (period p ops d).state).state.memory a =
          (period p ops d).state.memory a) ↔ HostSpares p d.memory ops) := by
  obtain ⟨_, _, hPeriod, _⟩ := period_traces (d := d) hCache hServed
  obtain ⟨_, _, hFlush, hFlushed⟩ := flushFastDmaCache_runs (d := (period p ops d).state) hCache
  refine ⟨hPeriod, hFlush, ?_, ?_⟩
  · intro hFrame k hk hCovered
    exact (flush_byte_iff hCache hServed hk hCovered).mp (hFrame _ hCovered)
  · intro hSpares a hCovered
    by_cases hWindow : p.dmaSharedBase ≤ a ∧ a < p.dmaSharedBase + p.dmaSharedSize
    · obtain ⟨k, rfl⟩ := Nat.exists_eq_add_of_le hWindow.1
      have hk : k < p.dmaSharedSize := by omega
      exact (flush_byte_iff hCache hServed hk hCovered).mpr (hSpares k hk hCovered)
    · simp only [hFlushed, flushed, flushedMemory, hWindow, false_and, if_false]

def onePage : NPUDeviceParams :=
  { boardParams with dmaSharedSize := 4096, fastDmaSyncOffset := 0, fastDmaSyncSize := 0 }

theorem onePage_fastCache : FastCache onePage := ⟨rfl, by decide, by decide, by decide⟩

/-- The NPU writes the first word of the page, then the host stores a byte behind it. -/
def storeAfterFill : List SharedOp :=
  [.npu { type := .write, addr := 0x20000000, size := 4, data := fun _ => 7 },
    .host 0x8f000064 1 fun _ => 1]

theorem storeAfterFill_served : ∀ op ∈ storeAfterFill, op.Served onePage := by
  simp only [storeAfterFill, List.forall_mem_cons]
  exact ⟨⟨by decide, by decide⟩, trivial, by simp⟩

-- The page is written back as it was filled, without the byte of the host.
example (d : NPUDevice B) (hZero : d.memory = fun _ => 0) :
    ¬ ∀ a, storeAfterFill.any (SharedOp.covers onePage a) = false →
      (flushFastDmaCache onePage (period onePage storeAfterFill d).state).state.memory a =
        (period onePage storeAfterFill d).state.memory a := by
  rw [(flush_frame_iff onePage_fastCache storeAfterFill storeAfterFill_served d).2.2, hZero]
  intro hSpares
  exact absurd (hSpares 100 (by decide) (by decide) (by decide)) (by decide)

/-! ## The devices that the constructor builds -/

/-- A backend of the constructor: a local EXTMEM comes with fast mode. -/
inductive Constructible (p : NPUDeviceParams) : {B : Type} → CoralBackend B → B → Prop
  | stageA (s : StageAParams) : Constructible p (stageA s) {}
  | verilated {M : Type} (br : CoralBridge M) (v : VerilatedParams) (model : M)
      (hLocal : v.localExtmemEnabled = p.fastDma) : Constructible p (verilated br v) { model }

/-- An event flushes the cache in this state, after its batches. -/
def flushes (be : CoralBackend B) (p : NPUDeviceParams) (d : NPUDevice B) : Bool :=
  p.fastDma && !be.hasLocalExtmem d.backend && !be.hasPendingEvent d.backend &&
    !be.hasDmaRequest d.backend

/-- The device when its event has made its batches. -/
def afterBatches (be : CoralBackend B) (p : NPUDeviceParams) (d : NPUDevice B) (delay : Nat) :
    NPUDevice B :=
  (processBatches be p (batchBudget p)
    { d with curTick := d.curTick + delay, backendEvent := none }).state

theorem publish_of_flushes {be : CoralBackend B} (h : flushes be p d = true) :
    publish be p d = flushFastDmaCache p d := by
  simp only [flushes, Bool.and_eq_true, Bool.not_eq_true'] at h
  obtain ⟨⟨⟨hFast, hLocal⟩, hPending⟩, hRequest⟩ := h
  rw [publish, Prog.get_bind, if_pos (by simp [hFast, hPending, hRequest]),
    if_neg (by simp [hLocal])]

theorem flushFastDmaCache_of_clean (h : Clean d) : flushFastDmaCache p d = ⟨some (), d, []⟩ := by
  unfold flushFastDmaCache
  induction p.pageCount with
  | zero => rfl
  | succ n ih =>
    have hPage : flushPage p n d = ⟨some (), d, []⟩ := by
      rw [flushPage, Prog.get_bind, if_neg (by simp [h n])]
      rfl
    rw [Prog.loop, Prog.bind_apply, ih]
    simp only [hPage, List.append_nil]

section Unasked

variable {be : CoralBackend B} (hNone : ∀ b, be.hasDmaRequest b = false)
include hNone

theorem raisedInBatches_nil (budget : Nat) (d : NPUDevice B) :
    raisedInBatches be p budget d = [] := by
  induction budget generalizing d with
  | zero => rfl
  | succ budget ih => simp [raisedInBatches, raisedRequest, hNone, ih]

theorem run_clean {cs : List Call} (hRun : Admits (Legal be p) (next be p) d cs) (h : Clean d) :
    Clean (cs.foldl (next be p) d) := by
  refine hRun.invariant h ?_
  rintro d ⟨delay, entry⟩ hClean ⟨-, hReturned⟩
  have hReads : OnlyReads p (raisedBy be p d ⟨delay, entry⟩) := by
    cases entry <;> simp [OnlyReads, raisedBy, raisedInBatches_nil hNone]
  exact (call_clean hReads hClean).2 () hReturned

theorem afterBatches_clean {delay : Nat} (hLegal : d.Legal be p ⟨delay, .backendEvent⟩)
    (h : Clean d) :
    Clean (afterBatches be p d delay) := by
  have hReads : OnlyReads p (raisedInBatches be p (batchBudget p)
      { d with curTick := d.curTick + delay, backendEvent := none }) := by
    simp [OnlyReads, raisedInBatches_nil hNone]
  have hBatches := (processBatches_fewerDirty _ hReads).2
  have hReturned : (processBatches be p (batchBudget p)
      { d with curTick := d.curTick + delay, backendEvent := none }).result ≠ none := by
    intro hRejected
    have hEvent : (processBackendEvent be p
        { d with curTick := d.curTick + delay, backendEvent := none }).result = some () := hLegal.2
    rw [processBackendEvent, Prog.bind_rejected hRejected] at hEvent
    cases hEvent
  obtain ⟨_, hReturned⟩ := Option.ne_none_iff_exists'.1 hReturned
  obtain ⟨_, hFewer⟩ := hBatches _ hReturned
  exact fun page => hFewer page (h page)

end Unasked

/-- A board whose stand-in backend halts by itself, with a store of the host before its event. -/
def hostStoresFirst : List Call :=
  [⟨10, resetControlWrite 1⟩, ⟨10, resetControlWrite 0⟩, ⟨5, .hostStore 0x8f000064 1 fun _ => 1⟩]

end OpenNpux.Device.NPUDevice
