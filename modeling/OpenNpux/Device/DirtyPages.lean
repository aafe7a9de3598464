import OpenNpux.Device.Rules
import OpenNpux.Device.Shell
import OpenNpux.Device.Wakeup

/-!
# Dirty pages when the NPU stops

A fast-mode event that finds the backend stopped publishes what it wrote. With a local
EXTMEM it copies the synchronization range and does not flush the page cache, so a write
request that reached the cache, which one above the local EXTMEM does, stays there.
Without a local EXTMEM every dirty page is flushed.
-/

namespace OpenNpux.Device.NPUDevice

open Lib Bridge

variable {B : Type} {be : CoralBackend B} {p : NPUDeviceParams} {d : NPUDevice B}

/-! ## Pages become dirty by write requests only -/

def FewerDirty (_ : List DeviceEvent) (d d' : NPUDevice B) : Prop :=
  ∀ page, d.fastDmaPageDirty page = false → d'.fastDmaPageDirty page = false

instance : Shell (FewerDirty (B := B)) where
  nil _ := fun _ h => h
  append h h' := fun page hClean => h' page (h page hClean)
  backend _ _ _ := fun _ h => h
  control _ _ _ _ _ _ _ _ := fun _ h => h
  access _ _ _ _ _ := fun _ h => h
  host _ _ := fun _ h => h
  fill _ _ _ := fun _ h => h
  clean _ _ := by
    intro page hClean
    simp [hClean]
  invalidate _ := fun _ _ => rfl
  drainDone _ := fun _ h => h

theorem flushFastDmaCache_clean :
    Prog.Ensures (fun _ => True) (flushFastDmaCache p) d fun _ d' =>
      ∀ page < p.pageCount, d'.fastDmaPageDirty page = false := by
  apply Prog.Ensures.loop (I := fun n _ (d' : NPUDevice B) =>
    ∀ page < n, d'.fastDmaPageDirty page = false)
  · exact fun page hPage => absurd hPage (by omega)
  · intro n _ _ d' hClean
    apply Prog.Ensures.get_bind
    apply Prog.Ensures.ite
    · intro _
      have hRange := (Shell.functionalMemoryRange (R := FewerDirty (B := B)) (p := p) .writeReq
        ((p.dmaSharedBase + pageOffset n) % 2 ^ 64) (pageSize p n) (pageOffset n)
        d'.fastDmaCache).ensures d'
      apply Prog.Ensures.bind hRange
      rintro _ d'' ⟨_, hFewer⟩
      apply Prog.Ensures.modify
      intro page hPage
      by_cases hLast : page = n
      · simp [hLast]
      · simp only [if_neg hLast]
        exact hFewer page (hClean page (by omega))
    · intro hNot
      apply Prog.Ensures.pure
      intro page hPage
      rcases Nat.lt_succ_iff_lt_or_eq.mp hPage with hLess | rfl
      · exact hClean page hLess
      · simpa using hNot

/-- The request that the device takes next. -/
def raisedRequest (be : CoralBackend B) (d : NPUDevice B) : List CoralDmaRequest :=
  if d.dmaActive = false ∧ be.hasDmaRequest d.backend = true then
    (be.dmaRequest d.backend).result.toList
  else []

/-- The requests that the batches of an event take. -/
def raisedInBatches (be : CoralBackend B) (p : NPUDeviceParams) :
    Nat → NPUDevice B → List CoralDmaRequest
  | 0, _ => []
  | budget + 1, d =>
    let stepped := (onBackend (be.processEvent d.curTick) d).state
    let served := (startBackendDma be p stepped).state
    raisedRequest be stepped ++
      if p.fastDma && !served.dmaActive && be.hasPendingEvent served.backend then
        raisedInBatches be p budget { served with backendEvent := none }
      else []

def raisedBy (be : CoralBackend B) (p : NPUDeviceParams) (d : NPUDevice B) (c : Call) :
    List CoralDmaRequest :=
  match c.entry with
  | .backendEvent => raisedInBatches be p (batchBudget p)
      { d with curTick := d.curTick + c.delay, backendEvent := none }
  | _ => []

def OnlyReads (p : NPUDeviceParams) (requests : List CoralDmaRequest) : Prop :=
  ∀ request ∈ requests, p.inWindow request = true → request.type = .read

theorem startBackendDma_fewerDirty (hReads : OnlyReads p (raisedRequest be d)) :
    Prog.Ensures (fun _ => True) (startBackendDma be p) d fun _ d' => ∃ t, FewerDirty t d d' := by
  apply Prog.Ensures.get_bind
  apply Prog.Ensures.ite
  · intro hRaised
    apply ensures_onBackend_bind (fun _ _ => trivial)
    intro request hRequest
    have hMem : request ∈ raisedRequest be d := by simp [raisedRequest, if_pos hRaised, hRequest]
    apply Prog.Ensures.ite
    · intro hWindow
      have hRead := hReads request hMem hWindow
      have hSubmit : Prog.Follows FewerDirty (submitDma be p request) := by
        apply Shell.submitDma
        · intro hWrite
          rw [hRead] at hWrite
          cases hWrite
        · exact fun _ _ _ _ h => h
        · exact fun _ _ _ _ h => h
      exact hSubmit.ensures _
    · intro _
      have hError : Prog.Follows FewerDirty (completeBackendDmaError be) :=
        Shell.completeBackendDmaError fun _ _ h => h
      have hEvent : Prog.Follows (FewerDirty (B := B)) (Prog.emit (.rejected request)) :=
        .emit fun _ _ h => h
      exact (hEvent.bind fun _ => hError).ensures _
  · exact fun _ => .pure ⟨[], fun _ h => h⟩

theorem processBatches_fewerDirty (budget : Nat)
    (hReads : OnlyReads p (raisedInBatches be p budget d)) :
    Prog.Ensures (fun _ => True) (processBatches be p budget) d fun _ d' => ∃ t,
      FewerDirty t d d' := by
  induction budget generalizing d with
  | zero => exact .pure ⟨[], fun _ h => h⟩
  | succ budget ih =>
    obtain ⟨hFirst, hLater⟩ := List.forall_mem_append.mp hReads
    apply Prog.Ensures.get_bind
    apply ensures_onBackend_bind (fun _ _ => trivial)
    intro _ _
    apply Prog.Ensures.bind (startBackendDma_fewerDirty hFirst).reached
    rintro _ _ ⟨rfl, _, hFewer⟩
    apply Prog.Ensures.get_bind
    apply Prog.Ensures.ite
    · intro hMore
      rw [if_pos hMore] at hLater
      apply Prog.Ensures.modify_bind
      apply (ih hLater).mono
      rintro _ d' ⟨_, hFewer'⟩
      exact ⟨[], fun page hClean => hFewer' page (hFewer page hClean)⟩
    · exact fun _ => .pure ⟨[], hFewer⟩

/-! ## A stopped device -/

def Clean (d : NPUDevice B) : Prop := ∀ page, d.fastDmaPageDirty page = false

theorem processBackendEvent_published (hFast : p.fastDma = true)
    (hLocal : ∀ b, be.hasLocalExtmem b = false) :
    Prog.Ensures (fun _ => True) (processBackendEvent be p) d fun _ d' =>
      be.hasPendingEvent d'.backend = false → be.hasDmaRequest d'.backend = false →
        ∀ page < p.pageCount, d'.fastDmaPageDirty page = false := by
  apply processBackendEvent_ensures (I := fun _ => True) (J := fun d' : NPUDevice B =>
    be.hasPendingEvent d'.backend = false → be.hasDmaRequest d'.backend = false →
      ∀ page < p.pageCount, d'.fastDmaPageDirty page = false)
  · exact .trivial
  · intro d _
    apply Prog.Ensures.get_bind
    apply Prog.Ensures.ite
    · intro _
      apply Prog.Ensures.ite
      · intro hEnabled
        rw [hLocal] at hEnabled
        cases hEnabled
      · exact fun _ => flushFastDmaCache_clean.mono fun _ _ hClean _ _ => hClean
    · intro hBusy
      apply Prog.Ensures.pure
      intro hPending hRequest
      simp [hFast, hPending, hRequest] at hBusy
  · trivial
  · exact fun _ h => h

theorem processBackendEvent_fewerDirty (hReads : OnlyReads p
    (raisedInBatches be p (batchBudget p) d)) :
    Prog.Ensures (fun _ => True) (processBackendEvent be p) d fun _ d' => ∃ t,
      FewerDirty t d d' := by
  apply Prog.Ensures.bind (processBatches_fewerDirty _ hReads)
  rintro _ d' ⟨_, hFewer⟩
  have hRest : Prog.Follows FewerDirty (publish be p >>= fun _ => syncBackendEvent be >>= fun _ =>
      checkDrainDone be) := .bind Shell.publish fun _ => Shell.settle
  apply (hRest.ensures d').mono
  rintro _ d'' ⟨_, hFewer'⟩
  exact ⟨[], fun page hClean => hFewer' page (hFewer page hClean)⟩

theorem call_clean {c : Call} (hReads : OnlyReads p (raisedBy be p d c)) (h : Clean d) :
    Prog.Ensures (fun _ => True) (call be p c) d fun _ => Clean := by
  obtain ⟨delay, entry⟩ := c
  apply Prog.Ensures.modify_bind
  by_cases hEvent : entry = .backendEvent
  · subst hEvent
    apply Prog.Ensures.modify_bind
    apply (processBackendEvent_fewerDirty hReads).mono
    rintro _ d' ⟨_, hFewer⟩
    exact fun page => hFewer page (h page)
  · have hEnter : Prog.Follows FewerDirty (enter be p entry) :=
      Shell.enter entry fun hIs => absurd hIs hEvent
    apply (hEnter.ensures _).mono
    rintro _ d' ⟨_, hFewer⟩
    exact fun page => hFewer page (h page)

/-- A backend with a local EXTMEM raises no write request: none reaches the page cache. -/
def WritesStayLocal (be : CoralBackend B) (p : NPUDeviceParams) (d : NPUDevice B) (c : Call) :
    Prop :=
  (∃ b, be.hasLocalExtmem b = true) → OnlyReads p (raisedBy be p d c)

theorem event_published {delay : Nat} (hFast : p.fastDma = true)
    (hNone : ∀ b, be.hasLocalExtmem b = false) (hLegal : d.Legal be p ⟨delay, .backendEvent⟩) :
    let d' := d.next be p ⟨delay, .backendEvent⟩
    be.hasPendingEvent d'.backend = false → be.hasDmaRequest d'.backend = false →
      ∀ page < p.pageCount, d'.fastDmaPageDirty page = false := by
  have hCall : Prog.Ensures (fun _ => True) (call be p ⟨delay, .backendEvent⟩) d fun _ d' =>
      be.hasPendingEvent d'.backend = false → be.hasDmaRequest d'.backend = false →
        ∀ page < p.pageCount, d'.fastDmaPageDirty page = false := by
    apply Prog.Ensures.modify_bind
    apply Prog.Ensures.modify_bind
    exact processBackendEvent_published hFast hNone
  exact hCall.2 () hLegal.2

theorem nothing_dirty_when_stopped (be : CoralBackend B) (p : NPUDeviceParams)
    (hFast : p.fastDma = true) (backend : B) (memory : ByteMem) (cs : List Call) (delay : Nat)
    (hRun : Admits (fun d c => d.Legal be p c ∧ WritesStayLocal be p d c) (next be p)
      (constructed backend memory) (cs ++ [Call.mk delay .backendEvent])) :
    let d := (cs ++ [Call.mk delay .backendEvent]).foldl (next be p) (constructed backend memory)
    be.hasPendingEvent d.backend = false → be.hasDmaRequest d.backend = false →
      ∀ page < p.pageCount, d.fastDmaPageDirty page = false := by
  by_cases hLocal : ∃ b, be.hasLocalExtmem b = true
  · intro d _ _ page _
    have hClean : Clean d := by
      apply hRun.invariant (I := Clean)
      · exact fun _ => rfl
      · rintro d c hClean ⟨⟨_, hReturned⟩, hStays⟩
        exact (call_clean (hStays hLocal) hClean).2 () hReturned
    exact hClean page
  · have hNone : ∀ b, be.hasLocalExtmem b = false := by simpa using hLocal
    have hLast := (Admits.append.mp hRun).2.1
    rw [List.foldl_append]
    exact event_published hFast hNone hLast.1

/-! ## A write above the local EXTMEM -/

/-- Two 8 MiB halves, of which a local EXTMEM covers the first. -/
def wideParams : NPUDeviceParams :=
  { boardParams with
    dmaSharedSize := 16 * 1024 * 1024, fastDmaSyncSize := 0, fastDmaEventBatch := 4 }

def withLocalExtmem : VerilatedParams := { verilatedDefaults with localExtmemEnabled := true }

/-- A request for the first word of the upper half. -/
def upperRequest (type : DmaType) : DmaRequest :=
  { type, addr := 0x20800000, size := 16, data := fun _ => 7 }

/-- A board with a local EXTMEM whose core raises one request and then halts. -/
abbrev upperBackend (type : DmaType) : CoralBackend (CoralVerilatedBackend Script) :=
  verilated (scriptedBridge (upperRequest type)) withLocalExtmem

def startCore : List Call := [⟨10, resetControlWrite 0⟩]

theorem startCore_admitted (type : DmaType) :
    Admits (Legal (upperBackend type) wideParams) (next (upperBackend type) wideParams)
      (scriptedDevice [(1, 2)]) (startCore ++ [Call.mk 1000 .backendEvent]) := by
  cases type <;> decide +kernel

theorem startCore_onlyReads :
    Admits (WritesStayLocal (upperBackend .read) wideParams) (next (upperBackend .read) wideParams)
      (scriptedDevice [(1, 2)]) (startCore ++ [Call.mk 1000 .backendEvent]) := by
  constructor
  · exact fun _ _ hNone => nomatch hNone
  · constructor
    · intro _
      unfold OnlyReads
      decide +kernel
    · trivial

/-- The device once the core has raised its request and halted. -/
def halted (type : DmaType) : NPUDevice (CoralVerilatedBackend Script) :=
  (startCore ++ [Call.mk 1000 .backendEvent]).foldl (next (upperBackend type) wideParams)
    (scriptedDevice [(1, 2)])

theorem halted_stopped (type : DmaType) :
    (upperBackend type).hasPendingEvent (halted type).backend = false ∧
      (upperBackend type).hasDmaRequest (halted type).backend = false := by
  cases type <;> decide +kernel

theorem nothing_dirty_upperRead :
    (upperBackend .read).hasPendingEvent (halted .read).backend = false ∧
      ∀ page < wideParams.pageCount, (halted .read).fastDmaPageDirty page = false := by
  obtain ⟨hPending, hRequest⟩ := halted_stopped .read
  refine ⟨hPending, ?_⟩
  rw [halted, scriptedDevice] at hPending hRequest ⊢
  exact nothing_dirty_when_stopped (upperBackend .read) wideParams rfl _ _ startCore 1000
    ((startCore_admitted .read).and startCore_onlyReads) hPending hRequest

/-- The written page stays dirty: the event copies the local EXTMEM and does not flush. -/
theorem upper_write_stays_dirty :
    (wideParams.Accepted true ∧ wideParams.fastDma = true) ∧
      Admits (Legal (upperBackend .write) wideParams) (next (upperBackend .write) wideParams)
        (scriptedDevice [(1, 2)]) (startCore ++ [Call.mk 1000 .backendEvent]) ∧
      (upperBackend .write).hasPendingEvent (halted .write).backend = false ∧
      (upperBackend .write).hasDmaRequest (halted .write).backend = false ∧
      2048 < wideParams.pageCount ∧ (halted .write).fastDmaPageDirty 2048 = true := by
  have hAccepted : wideParams.Accepted true :=
    ⟨by decide, by decide, by decide, by decide, by decide⟩
  have hDirty : (halted .write).fastDmaPageDirty 2048 = true := by decide +kernel
  obtain ⟨hPending, hRequest⟩ := halted_stopped .write
  exact ⟨⟨hAccepted, rfl⟩, startCore_admitted .write, hPending, hRequest, by decide, hDirty⟩

end OpenNpux.Device.NPUDevice
