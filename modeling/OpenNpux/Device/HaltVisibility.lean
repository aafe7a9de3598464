import OpenNpux.Device.DirtyPages
import OpenNpux.Device.FastMode

/-!
# A visible halt and the data of its run

A fast-mode event publishes what the NPU wrote once the backend has stopped, but the core
is also clocked by every MMIO access. If the accesses neither halt the core nor let a halted
core store, and no event ends with a halted core and a further event to come, then a guest
that reads the halt in `STATUS` finds the results of the run in host memory. With a local
EXTMEM that is its synchronization range, up to what the host itself has overwritten since
the last event; without one no page is dirty.
-/

namespace OpenNpux.Device.NPUDevice

open Lib Bridge CoralVerilatedBackend

variable {C F : Type}

def isHalted (d : RtlDevice C) : Bool := d.backend.model.handle.halted

/-- What the device publishes is in host memory, except where the host has overwritten it. -/
def Published (v : VerilatedParams) (p : NPUDeviceParams) (overwritten : Nat → Bool)
    (d : RtlDevice C) : Prop :=
  if v.localExtmemEnabled then
    ∀ i < p.fastDmaSyncSize, overwritten (syncAddr p + i) = true ∨
      d.memory (syncAddr p + i) = d.backend.model.handle.localExtmem (p.fastDmaSyncOffset + i)
  else ∀ page < p.pageCount, d.fastDmaPageDirty page = false

/-- An access that leaves the core halted found it halted, and stored nothing to publish. -/
def KeepsHalt (p : NPUDeviceParams) (m m' : Machine C) : Prop :=
  m'.handle.halted = true → m.handle.halted = true ∧ ∀ i < p.fastDmaSyncSize,
    m'.handle.localExtmem (p.fastDmaSyncOffset + i) = m.handle.localExtmem (p.fastDmaSyncOffset + i)

instance (p : NPUDeviceParams) (m m' : Machine C) : Decidable (KeepsHalt p m m') :=
  inferInstanceAs (Decidable (_ → _ ∧ _))

section Runs

variable (cfg : BridgeConfig F) (rtl : RtlModel C) (v : VerilatedParams) (p : NPUDeviceParams)
  (cycles : Nat)

/-- A write that starts the core synchronizes the local EXTMEM first. -/
def beginWrite (addr size : Nat) (data : ByteMem) : Prog (RtlDevice C) DeviceEvent Unit :=
  Prog.when (p.fastDma && isResetControl p addr size && data.load 0 4 % 4 == 0)
    (syncHostToLocalExtmem (rtlBackend cfg rtl v cycles) p)

/-- The device when a call starts to access the core. -/
def beforeAccess (d : RtlDevice C) (c : Call) : RtlDevice C :=
  let d := { d with curTick := d.curTick + c.delay }
  match c.entry with
  | .write addr size data => (beginWrite cfg rtl v p cycles addr size data d).state
  | _ => d

/-- How the halt of the core and a call may meet. -/
def HaltsInEvents (d : RtlDevice C) (c : Call) : Prop :=
  match c.entry with
  | .read _ _ | .write _ _ _ => KeepsHalt p (beforeAccess cfg rtl v p cycles d c).backend.model
      (next (rtlBackend cfg rtl v cycles) p d c).backend.model
  | .backendEvent => isHalted (next (rtlBackend cfg rtl v cycles) p d c) = true →
      goesOn (next (rtlBackend cfg rtl v cycles) p d c) = false
  | _ => True

instance (d : RtlDevice C) (c : Call) : Decidable (HaltsInEvents cfg rtl v p cycles d c) :=
  match c with
  | ⟨_, .read _ _⟩ | ⟨_, .write _ _ _⟩ => inferInstanceAs (Decidable (KeepsHalt _ _ _))
  | ⟨delay, .backendEvent⟩ => inferInstanceAs (Decidable
      (isHalted (next (rtlBackend cfg rtl v cycles) p d ⟨delay, .backendEvent⟩) = true →
        goesOn (next (rtlBackend cfg rtl v cycles) p d ⟨delay, .backendEvent⟩) = false))
  | ⟨_, .dmaCallback _⟩ | ⟨_, .drain⟩ | ⟨_, .resume⟩ | ⟨_, .hostStore _ _ _⟩ => .isTrue trivial

/-- The device, and the host addresses that were written since its last event. -/
structure Observed (C : Type) where
  device : RtlDevice C
  overwritten : Nat → Bool := fun _ => false

def Entry.overwrites : Entry → (Nat → Bool) → Nat → Bool
  | .backendEvent, _ => fun _ => false
  | .hostStore addr size _, overwritten => fun a =>
    overwritten a || decide (addr ≤ a) && decide (a < addr + size)
  | _, overwritten => overwritten

def Observed.next (s : Observed C) (c : Call) : Observed C :=
  ⟨NPUDevice.next (rtlBackend cfg rtl v cycles) p s.device c, c.entry.overwrites s.overwritten⟩

def Observed.Legal (s : Observed C) (c : Call) : Prop :=
  s.device.Legal (rtlBackend cfg rtl v cycles) p c ∧ HaltsInEvents cfg rtl v p cycles s.device c

instance (s : Observed C) (c : Call) : Decidable (s.Legal cfg rtl v p cycles c) :=
  inferInstanceAs (Decidable (s.device.Legal (rtlBackend cfg rtl v cycles) p c ∧
    HaltsInEvents cfg rtl v p cycles s.device c))

/-- A fast-mode device between calls: nothing in flight, and a halt only with its data. -/
structure Halts (s : Observed C) : Prop where
  quiet : Quiet s.device
  inFlight : s.device.inFlight = false
  published : isHalted s.device = true → Published v p s.overwritten s.device

variable {cfg rtl v p cycles} {d : RtlDevice C} {overwritten : Nat → Bool}

/-! ## The synchronization range -/

theorem writeLocalExtmem_returned {addr size : Nat} {data : ByteMem}
    {b : CoralVerilatedBackend (Machine C)}
    (h : ((rtlBackend cfg rtl v cycles).writeLocalExtmem addr size data b).result = some ()) :
    ((rtlBackend cfg rtl v cycles).writeLocalExtmem addr size data b).state = { b with
      model := { b.model with handle := { b.model.handle with
        localExtmem := b.model.handle.localExtmem.store (addr - extmemBase) size data } } } := by
  simp only [rtlBackend, verilated, writeLocalExtmem, Prog.get_bind, Machine.bridge,
    Handle.extmemWrite] at h ⊢
  by_cases hGuard : v.localExtmemEnabled = true ∧ addr < 2 ^ 32
  · by_cases hInside : b.model.handle.inExtmem addr size = true
    · simp only [if_pos hGuard, if_pos hInside, Option.map_some]
      rfl
    · simp only [if_pos hGuard, if_neg hInside] at h
      cases h
  · simp only [if_neg hGuard] at h
    cases h

theorem syncHostToLocalExtmem_synced (hLocal : v.localExtmemEnabled = true) (hSync : SyncWindow p) :
    Prog.Ensures (fun _ => True) (syncHostToLocalExtmem
      (rtlBackend cfg rtl v cycles) p) d fun _ d' =>
      ∃ extmem, d' = { d with
        backend := { d.backend with model := { d.backend.model with
          handle := { d.backend.model.handle with localExtmem := extmem } } }
        dmaRequests := d.dmaRequests + 1, dmaCompletions := d.dmaCompletions + 1 } ∧
      ∀ i < p.fastDmaSyncSize, d.memory (syncAddr p + i) = extmem (p.fastDmaSyncOffset + i) := by
  apply Prog.Ensures.get_bind
  refine Prog.Ensures.congr (congrFun (if_pos hLocal) _) ?_
  apply Prog.Ensures.bind
    (functionalMemoryRange_read hSync.block hSync.syncAddr_fits _).ensures.anyEvent
  rintro data _ ⟨rfl, rfl⟩
  apply ensures_onBackend_bind (fun _ _ => trivial)
  intro _ hReturned
  rw [writeLocalExtmem_returned hReturned]
  refine .modify ⟨_, rfl, fun i hi => ?_⟩
  rw [hSync.syncExtmemAddr_eq, Nat.add_sub_cancel_left]
  simp only [ByteMem.store, Nat.zero_add, Nat.zero_le, Nat.le_add_right,
    Nat.add_lt_add_iff_left, hi, and_self, if_true, Nat.add_sub_cancel_left, Nat.sub_zero]

/-! ## Calls -/

structure Accessed (d d' : RtlDevice C) : Prop where
  quiet : Quiet d → Quiet d'
  inFlight : d'.inFlight = d.inFlight
  memory : d'.memory = d.memory
  dirty : ∀ page, d.fastDmaPageDirty page = false → d'.fastDmaPageDirty page = false

theorem Halts.accessed (h : Halts v p ⟨d, overwritten⟩) {d' : RtlDevice C}
    (hAccessed : Accessed d d')
    (hKeeps : KeepsHalt p d.backend.model d'.backend.model) : Halts v p ⟨d', overwritten⟩ := by
  refine ⟨hAccessed.quiet h.quiet, hAccessed.inFlight.trans h.inFlight, fun hHalted => ?_⟩
  obtain ⟨hBefore, hExtmem⟩ := hKeeps hHalted
  have hPublished : Published v p overwritten d := h.published hBefore
  unfold Published at hPublished ⊢
  split
  · rename_i hLocal
    rw [if_pos hLocal] at hPublished
    dsimp only
    intro i hi
    rw [hAccessed.memory, hExtmem i hi]
    exact hPublished i hi
  · rename_i hNone
    rw [if_neg hNone] at hPublished
    exact fun page hPage => hAccessed.dirty page (hPublished page hPage)

theorem Accessed.invalidated {d' : RtlDevice C} (h : Accessed d d') : Accessed d { d' with
    fastDmaPageValid := fun _ => false, fastDmaPageDirty := fun _ => false } :=
  ⟨h.quiet, h.inFlight, h.memory, fun _ _ => rfl⟩

theorem Accessed.rescheduled {d' : RtlDevice C} (h : Accessed d d') (event : Option Nat) :
    Accessed d { d' with backendEvent := event } :=
  ⟨h.quiet, h.inFlight, h.memory, h.dirty⟩

theorem read_accessed (addr size : Nat) :
    Prog.Ensures (fun _ => True) (read (rtlBackend cfg rtl v cycles) p addr size) d fun _ d' =>
      Accessed d d' := by
  apply read_ensures
  · exact fun _ _ => trivial
  · exact fun _ _ _ => ⟨fun h => h, rfl, rfl, fun _ h => h⟩
  · intro _ _
    obtain ⟨_, model, hRead⟩ := verilated_read (Machine.bridge cfg rtl)
      { v with rtlCyclesPerEvent := cycles } (pioOffset p addr) size d.backend
    have hState : ((rtlBackend cfg rtl v cycles).read (pioOffset p addr) size d.backend).state =
        { d.backend with model } := by rw [rtlBackend, hRead]
    rw [hState]
    exact ⟨fun h => h, rfl, rfl, fun _ h => h⟩

theorem write_accessed (addr size : Nat) (data : ByteMem) :
    Prog.Ensures (fun _ => True) (write (rtlBackend cfg rtl v cycles) p addr size data) d
      fun _ d' =>
      (beginWrite cfg rtl v p cycles addr size data d).result = some () ∧
      Accessed (beginWrite cfg rtl v p cycles addr size data d).state d' := by
  have hBegins : Prog.Ensures (fun _ => True) (beginWrite cfg rtl v p cycles addr size data) d
      fun _ d' => (beginWrite cfg rtl v p cycles addr size data d).result = some () ∧
        d' = (beginWrite cfg rtl v p cycles addr size data d).state :=
    ⟨fun _ _ => trivial, fun _ h => ⟨h, rfl⟩⟩
  apply Prog.Ensures.bind hBegins
  rintro _ d' ⟨hReturned, hState⟩
  rw [← hState]
  apply Prog.Ensures.get_bind
  apply ensures_onBackend_bind (fun _ _ => trivial)
  intro accepted _
  have hWritten : Accessed d' { d' with backend := ((rtlBackend cfg rtl v cycles).write d'.curTick
      (pioOffset p addr) size data d'.backend).state } := by
    obtain ⟨model, ⟨_, hWrite⟩ | ⟨-, hWrite⟩⟩ := verilated_write (Machine.bridge cfg rtl)
      { v with rtlCyclesPerEvent := cycles } d'.curTick (pioOffset p addr) size data d'.backend
    · rw [rtlBackend, hWrite]
      exact ⟨fun h => h, rfl, rfl, fun _ h => h⟩
    · rw [rtlBackend, hWrite]
      exact ⟨fun h => h, rfl, rfl, fun _ h => h⟩
  generalize { d' with backend := ((rtlBackend cfg rtl v cycles).write d'.curTick
    (pioOffset p addr) size data d'.backend).state } = written at hWritten ⊢
  apply Prog.Ensures.bind (Q := fun _ d'' => Accessed d' d'')
  · apply Prog.Ensures.when
    · exact fun _ => .modify hWritten.invalidated
    · exact fun _ => hWritten
  · intro _ d'' hAccessed
    apply Prog.Ensures.modify_bind
    exact .pure ⟨hReturned, hAccessed.rescheduled _⟩

theorem Halts.synchronized (hSync : v.localExtmemEnabled = true → SyncWindow p)
    (h : Halts v p ⟨d, overwritten⟩) :
    Prog.Ensures (fun _ => True) (syncHostToLocalExtmem
      (rtlBackend cfg rtl v cycles) p) d fun _ d' =>
      Halts v p ⟨d', overwritten⟩ := by
  by_cases hLocal : v.localExtmemEnabled = true
  · apply (syncHostToLocalExtmem_synced hLocal (hSync hLocal)).mono
    rintro _ _ ⟨extmem, rfl, hSame⟩
    refine ⟨h.quiet, h.inFlight, fun _ => ?_⟩
    rw [Published, if_pos hLocal]
    exact fun i hi => .inr (hSame i hi)
  · apply Prog.Ensures.get_bind
    exact Prog.Ensures.congr (congrFun (if_neg hLocal) _) (.pure h)

/-! ## Events -/

theorem publish_published (hFast : p.fastDma = true)
    (hSync : v.localExtmemEnabled = true → SyncWindow p) (hQuiet : Quiet d) :
    Prog.Ensures (fun _ => True) (publish (rtlBackend cfg rtl v cycles) p) d fun _ d' =>
      goesOn d' = false → Published v p (fun _ => false) d' := by
  apply Prog.Ensures.get_bind
  apply Prog.Ensures.ite
  · intro _
    by_cases hLocal : v.localExtmemEnabled = true
    · refine Prog.Ensures.congr (congrFun (if_pos hLocal) _) ?_
      cases hData : ((rtlBackend cfg rtl v cycles).readLocalExtmem (syncExtmemAddr p)
          p.fastDmaSyncSize d.backend).result with
      | none =>
        refine ensures_onBackend_bind (fun _ _ => trivial) fun _ hRead => ?_
        rw [hData] at hRead
        cases hRead
      | some data =>
        apply (syncLocalExtmemToHost_synced (hSync hLocal) hData).ensures.anyEvent.mono
        rintro _ _ ⟨memory, rfl, hBytes⟩ _
        rw [Published, if_pos hLocal]
        exact fun i hi => .inr (hBytes i hi)
    · refine Prog.Ensures.congr (congrFun (if_neg hLocal) _) ?_
      apply flushFastDmaCache_clean.mono
      intro _ d' hClean _
      rw [Published, if_neg hLocal]
      exact hClean
  · intro hBusy
    refine .pure fun hStopped => absurd ?_ hBusy
    have hNoEvent : (rtlBackend cfg rtl v cycles).hasPendingEvent d.backend = false := hStopped
    have hNoRequest : (rtlBackend cfg rtl v cycles).hasDmaRequest d.backend = false := hQuiet.2
    simp [hFast, hNoEvent, hNoRequest]

theorem processBackendEvent_halts (hFast : p.fastDma = true)
    (hSync : v.localExtmemEnabled = true → SyncWindow p) (hQuiet : Quiet d)
    (hFlight : d.inFlight = false) :
    Prog.Ensures (fun _ => True) (processBackendEvent (rtlBackend cfg rtl v cycles) p) d fun _ d' =>
      Quiet d' ∧ d'.inFlight = false ∧ (goesOn d' = false → Published v p (fun _ => false) d') := by
  have hStable : Stable fun d : RtlDevice C => Quiet d ∧ d.inFlight = false := fun _ _ _ _ _ h => h
  apply processBackendEvent_ensures (I := fun d => Quiet d ∧ d.inFlight = false)
    (J := fun d => (Quiet d ∧ d.inFlight = false) ∧
      (goesOn d = false → Published v p (fun _ => false) d))
  · apply processBatches_ensures (I := fun d : RtlDevice C => Quiet d ∧ d.inFlight = false)
      (K := fun d => d.dmaActive = false ∧ d.inFlight = false)
    · exact fun _ _ _ _ => trivial
    · exact fun d h _ => ⟨h.1.1, h.2⟩
    · rintro d ⟨hIdle, hFree⟩
      apply startBackendDma_ensures (permits_true p) hStable
      · rintro (hActive | hNone)
        · exact absurd (hActive.symm.trans hIdle) (by decide)
        · exact ⟨⟨hIdle, hNone⟩, hFree⟩
      · exact fun _ _ _ hReleased => ⟨⟨hIdle, hReleased⟩, hFree⟩
      · exact fun _ _ _ _ hReleased => ⟨⟨hIdle, hReleased⟩, hFree⟩
      · intro _ hTiming
        rw [hFast] at hTiming
        cases hTiming
    · exact fun _ h => h
    · exact ⟨hQuiet, hFlight⟩
  · rintro d ⟨hQuiet, hFlight⟩
    refine Prog.Ensures.and ?_ (publish_published hFast hSync hQuiet)
    obtain ⟨_, _, hRead, -⟩ := verilated_readLocalExtmem (Machine.bridge cfg rtl)
      { v with rtlCyclesPerEvent := cycles } (syncExtmemAddr p) p.fastDmaSyncSize d.backend
    apply publish_ensures hStable (permits_true p).windowOpen
    · exact fun _ _ _ _ => trivial
    · exact fun _ _ _ _ _ _ _ => trivial
    · exact ⟨hQuiet, hFlight⟩
    · rw [rtlBackend, hRead]
      exact ⟨hQuiet, hFlight⟩
  · trivial
  · exact fun d h => ⟨h.1.1, h.1.2, h.2⟩

/-! ## Runs -/

theorem Published.hostStore (h : Published v p overwritten d) (addr size : Nat) (data : ByteMem)
    (tick : Nat) :
    Published v p ((Entry.hostStore addr size data).overwrites overwritten)
      { d with curTick := tick, memory := d.memory.store addr size data } := by
  unfold Published at h ⊢
  split
  · rename_i hLocal
    rw [if_pos hLocal] at h
    intro i hi
    by_cases hCovered : addr ≤ syncAddr p + i ∧ syncAddr p + i < addr + size
    · exact .inl (by simp [Entry.overwrites, hCovered])
    · refine (h i hi).imp (fun hBefore => by simp [Entry.overwrites, hBefore]) fun hSame => ?_
      dsimp only
      rw [ByteMem.store, if_neg hCovered, hSame]
  · rename_i hNone
    rwa [if_neg hNone] at h

variable (hFast : p.fastDma = true) (hSync : v.localExtmemEnabled = true → SyncWindow p)
include hFast hSync

theorem Halts.next {s : Observed C} {c : Call} (h : Halts v p s)
    (hLegal : s.Legal cfg rtl v p cycles c) : Halts v p (s.next cfg rtl v p cycles c) := by
  obtain ⟨d, overwritten⟩ := s
  obtain ⟨delay, entry⟩ := c
  obtain ⟨⟨hEnabled, hReturned⟩, hHalts⟩ := hLegal
  have hLater : Halts v p ⟨{ d with curTick := d.curTick + delay }, overwritten⟩ :=
    ⟨h.quiet, h.inFlight, h.published⟩
  cases entry with
  | read addr size =>
    have hCall : Prog.Ensures (fun _ => True) (call (rtlBackend cfg rtl v cycles) p
        ⟨delay, .read addr size⟩) d fun _ d' =>
          Accessed { d with curTick := d.curTick + delay } d' :=
      .modify_bind (.bind (read_accessed addr size) fun _ _ hAccessed => .pure hAccessed)
    exact hLater.accessed (hCall.2 () hReturned) hHalts
  | write addr size data =>
    have hBegun : Prog.Ensures (fun _ => True) (beginWrite cfg rtl v p cycles addr size data)
        { d with curTick := d.curTick + delay } fun _ d' => Halts v p ⟨d', overwritten⟩ :=
      .when (fun _ => hLater.synchronized hSync) fun _ => hLater
    have hCall : Prog.Ensures (fun _ => True) (call (rtlBackend cfg rtl v cycles) p
        ⟨delay, .write addr size data⟩) d fun _ d' =>
          (beginWrite cfg rtl v p cycles addr size data
            { d with curTick := d.curTick + delay }).result = some () ∧
          Accessed (beginWrite cfg rtl v p cycles addr size data
            { d with curTick := d.curTick + delay }).state d' :=
      .modify_bind (.bind (write_accessed addr size data) fun _ _ hAccessed => .pure hAccessed)
    obtain ⟨hSynchronized, hAccessed⟩ := hCall.2 () hReturned
    exact (hBegun.2 () hSynchronized).accessed hAccessed hHalts
  | backendEvent =>
    have hCall : Prog.Ensures (fun _ => True) (call (rtlBackend cfg rtl v cycles) p
        ⟨delay, .backendEvent⟩) d fun _ d' => Quiet d' ∧ d'.inFlight = false ∧
          (goesOn d' = false → Published v p (fun _ => false) d') :=
      .modify_bind (.modify_bind (processBackendEvent_halts hFast hSync h.quiet h.inFlight))
    obtain ⟨hQuiet, hFlight, hPublished⟩ := hCall.2 () hReturned
    exact ⟨hQuiet, hFlight, fun hHalted => hPublished (hHalts hHalted)⟩
  | dmaCallback data =>
    have hFlight : d.inFlight = true := hEnabled.1
    exact absurd (h.inFlight.symm.trans hFlight) (by decide)
  | drain => exact ⟨h.quiet, h.inFlight, h.published⟩
  | resume => exact ⟨h.quiet, h.inFlight, h.published⟩
  | hostStore addr size data =>
    exact ⟨h.quiet, h.inFlight, fun hHalted => (h.published hHalted).hostStore addr size data _⟩

theorem halts_after {s : Observed C} {cs : List Call} (h : Halts v p s)
    (hRun : Admits (Observed.Legal cfg rtl v p cycles) (Observed.next cfg rtl v p cycles) s cs) :
    Halts v p (cs.foldl (Observed.next cfg rtl v p cycles) s) :=
  hRun.invariant h fun _ _ => Halts.next hFast hSync

omit hFast hSync

/-! ## The status register -/

def statusOffset : Nat := 0x30008

/-- Bit 0 of `STATUS` is the halted signal of the core. -/
def StatusShowsHalt (cfg : BridgeConfig F) (rtl : RtlModel C) : Prop :=
  ∀ m data, (Machine.mmioRead cfg rtl statusOffset 4 m).2 = some data → data.load 0 4 % 2 = 1 →
    (Machine.mmioRead cfg rtl statusOffset 4 m).1.handle.halted = true

theorem next_read {B : Type} {be : CoralBackend B} {d : NPUDevice B} {delay addr size : Nat}
    {response : Option ByteMem}
    (h : (read be p addr size { d with curTick := d.curTick + delay }).result = some response) :
    next be p d ⟨delay, .read addr size⟩ =
      (read be p addr size { d with curTick := d.curTick + delay }).state := by
  have hEnter : (enter be p (.read addr size) { d with curTick := d.curTick + delay }).state =
      (read be p addr size { d with curTick := d.curTick + delay }).state := by
    unfold enter
    dsimp only
    rw [Prog.bind_returned h]
    rfl
  exact hEnter

theorem read_status (hStatus : StatusShowsHalt cfg rtl) {addr : Nat}
    (hAddr : pioOffset p addr = statusOffset) :
    Prog.Ensures (fun _ => True) (read (rtlBackend cfg rtl v cycles) p addr 4) d fun response d' =>
      ∀ data ∈ response, data.load 0 4 % 2 = 1 → isHalted d' = true := by
  apply read_ensures
  · exact fun _ _ => trivial
  · intro value _ hShell
    rw [hAddr] at hShell
    simp [shellRegister, statusOffset] at hShell
  · intro response hResponse data hData hBit
    obtain rfl := hData
    rw [hAddr] at hResponse ⊢
    exact hStatus d.backend.model data (Option.some.inj hResponse) hBit

theorem Halts.published_of_read {s : Observed C} {delay addr : Nat} {data : ByteMem}
    (h : Halts v p (s.next cfg rtl v p cycles ⟨delay, .read addr 4⟩))
    (hStatus : StatusShowsHalt cfg rtl) (hAddr : pioOffset p addr = statusOffset)
    (hData : (read (rtlBackend cfg rtl v cycles) p addr 4
      { s.device with curTick := s.device.curTick + delay }).result = some (some data))
    (hBit : data.load 0 4 % 2 = 1) :
    Published v p s.overwritten
      (NPUDevice.next (rtlBackend cfg rtl v cycles) p s.device ⟨delay, .read addr 4⟩) := by
  obtain ⟨d, overwritten⟩ := s
  have hHalted : isHalted (NPUDevice.next (rtlBackend cfg rtl v cycles) p d
      ⟨delay, .read addr 4⟩) := by
    rw [next_read hData]
    exact (read_status hStatus hAddr).2 _ hData data rfl hBit
  exact h.published hHalted

end Runs

/-- A core that stores one word, halts in its fifth clock and shows the halt in `STATUS`. -/
def showsHalt : RtlModel Nat :=
  { storesWord with readData := fun core => .bytesOf (if 5 ≤ core then 1 else 0) }

theorem showsHalt_status : StatusShowsHalt plainConfig showsHalt := by
  intro m data hData hBit
  obtain rfl := Option.some.inj hData
  have hCore : 5 ≤ m.core + 1 := by
    by_contra hEarly
    have hZero : (showsHalt.readData (m.core + 1)).load 0 4 = 0 := by
      simp only [showsHalt, if_neg hEarly]
      decide
    exact absurd (hZero ▸ hBit) (by decide)
  exact decide_eq_true hCore

/-- The device once the core is started and its event is over, with batches of the given length. -/
def afterEvent (cycles : Nat) : Observed Nat :=
  [Call.mk 10 (resetControlWrite 0), Call.mk 1000 .backendEvent].foldl
    (Observed.next plainConfig showsHalt extmemDefaults oneBlockParams cycles)
    ⟨constructed { model := { core := 0, handle := { localExtmemEnabled := true } } } fun _ => 0,
      fun _ => false⟩

abbrev statusRead : Call := ⟨1, .read (oneBlockParams.pioAddr + statusOffset) 4⟩

def statusAfterEvent (cycles : Nat) : Outcome (RtlDevice Nat) DeviceEvent (Option ByteMem) :=
  read (rtlBackend plainConfig showsHalt extmemDefaults cycles) oneBlockParams
    (oneBlockParams.pioAddr + statusOffset) 4
    { (afterEvent cycles).device with curTick := (afterEvent cycles).device.curTick + 1 }

def showsBit0 (response : Option (Option ByteMem)) : Bool :=
  response.join.any fun data => data.load 0 4 % 2 == 1

end OpenNpux.Device.NPUDevice
