import OpenNpux.Device.TimingRun

/-!
# Fast mode agrees with timing mode

With its local EXTMEM a fast run never raises a request: an event is a number of clocks,
and once the core has halted the sync range goes back to host memory. In timing mode every
access goes through the DMA slot. A core whose accesses stay inside the sync range runs the
same clocks in both modes, ends alike, and leaves the same bytes in host memory.
-/

namespace OpenNpux.Device.NPUDevice

open Lib Bridge CoralVerilatedBackend

variable {C F : Type}

section Fast

variable (cfg : BridgeConfig F) (rtl : RtlModel C) (v : VerilatedParams) (p : NPUDeviceParams)

/-- A fast-mode device with a local EXTMEM whose sync range is the served part. -/
structure FastWindow (r : ServedRange) : Prop extends ServedWindow p r where
  fast : p.fastDma = true
  eventBatch : p.fastDmaEventBatch ≠ 0
  localExtmem : v.localExtmemEnabled = true
  offset : r.offset = p.fastDmaSyncOffset
  size : r.size = p.fastDmaSyncSize
  block : p.cacheBlockSize ≠ 0

/-- The synchronization range lies in the EXTMEM of the bridge and in the address space. -/
structure SyncWindow : Prop where
  extmem : p.dmaExtmemBase = extmemBase
  inside : p.fastDmaSyncOffset + p.fastDmaSyncSize ≤ extmemSize
  fits : p.dmaSharedBase + p.fastDmaSyncOffset + p.fastDmaSyncSize < 2 ^ 64
  block : p.cacheBlockSize ≠ 0

/-- The device has run the first `clocks` clocks of the machine `m`. -/
structure Runs (m : Machine C) (clocks : Nat) (d : RtlDevice C) : Prop where
  live : Machine.Live cfg rtl m clocks
  shadows : Machine.Shadows Eq ((Machine.turn cfg rtl)^[clocks] m) d.backend.model

/-- Where an event is after some of its batches. -/
inductive BatchPhase (m : Machine C) (batches clocks : Nat) : Option Unit → RtlDevice C → Prop
  | going {d : RtlDevice C} (hRuns : Runs cfg rtl m clocks d) (hQuiet : Quiet d)
      (hFlight : d.inFlight = false) (hRunning : d.backend.running = true)
      (hGoing : goesOn d = true) (hBatches : batches ≤ clocks) :
      BatchPhase m batches clocks (some ()) d
  | halted {d : RtlDevice C} (hRuns : Runs cfg rtl m clocks d) (hQuiet : Quiet d)
      (hStopped : goesOn d = false)
      (hHalted : ((Machine.turn cfg rtl)^[clocks] m).handle.stopCode = some 1) :
      BatchPhase m batches clocks (some ()) d
  | faulted {d : RtlDevice C} (hRuns : Runs cfg rtl m clocks d)
      (hFaulted : ((Machine.turn cfg rtl)^[clocks] m).handle.stopCode = some 4) :
      BatchPhase m batches clocks none d

inductive FastPhase (m : Machine C) (events clocks : Nat) : Option Unit → RtlDevice C → Prop
  | going {d : RtlDevice C} (hRuns : Runs cfg rtl m clocks d) (hStarted : Started d)
      (hEvents : events ≤ clocks) : FastPhase m events clocks (some ()) d
  | halted {d : RtlDevice C} (hRuns : Runs cfg rtl m clocks d) (hStopped : isScheduled d = false)
      (hHalted : ((Machine.turn cfg rtl)^[clocks] m).handle.stopCode = some 1)
      (hSynced : ∀ i < p.fastDmaSyncSize,
        hostWindow p d.memory (p.fastDmaSyncOffset + i) =
          ((Machine.turn cfg rtl)^[clocks] m).handle.localExtmem (p.fastDmaSyncOffset + i)) :
      FastPhase m events clocks (some ()) d
  | faulted {d : RtlDevice C} (hRuns : Runs cfg rtl m clocks d)
      (hFaulted : ((Machine.turn cfg rtl)^[clocks] m).handle.stopCode = some 4) :
      FastPhase m events clocks none d

variable {cfg rtl v p} {d : RtlDevice C} {n clocks : Nat} {r : ServedRange} {m m' : Machine C}

/-! ## The synchronization range -/

theorem FastWindow.sync (h : FastWindow v p r) : SyncWindow p := by
  have hInside := r.inside
  have hRange := h.range
  have hFits := h.fits
  rw [h.offset, h.size] at hInside hRange
  exact ⟨h.extmem, hInside, by omega, h.block⟩

theorem SyncWindow.syncExtmemAddr_eq (h : SyncWindow p) :
    syncExtmemAddr p = extmemBase + p.fastDmaSyncOffset := by
  have hInside := h.inside
  rw [syncExtmemAddr, h.extmem]
  refine Nat.mod_eq_of_lt ?_
  unfold extmemBase
  unfold extmemSize at hInside
  omega

theorem SyncWindow.syncAddr_eq (h : SyncWindow p) :
    syncAddr p = p.dmaSharedBase + p.fastDmaSyncOffset := by
  have hFits := h.fits
  exact Nat.mod_eq_of_lt (by omega)

theorem SyncWindow.syncAddr_fits (h : SyncWindow p) : syncAddr p + p.fastDmaSyncSize ≤ 2 ^ 64 := by
  rw [h.syncAddr_eq]
  exact h.fits.le

theorem readLocalExtmem_returned {addr size : Nat} {data : ByteMem}
    {b : CoralVerilatedBackend (Machine C)}
    (h : ((rtlBackend cfg rtl v n).readLocalExtmem addr size b).result = some data) :
    (rtlBackend cfg rtl v n).readLocalExtmem addr size b =
      ⟨some fun i => b.model.handle.localExtmem (addr - extmemBase + i), b, []⟩ := by
  simp only [rtlBackend, verilated, readLocalExtmem, Prog.get_bind, Machine.bridge,
    Handle.extmemRead] at h ⊢
  by_cases hGuard : v.localExtmemEnabled = true ∧ addr < 2 ^ 32
  · by_cases hInside : b.model.handle.inExtmem addr size = true
    · simp only [if_pos hGuard, if_pos hInside]
      rfl
    · simp only [if_pos hGuard, if_neg hInside] at h
      cases h
  · simp only [if_neg hGuard] at h
    cases h

theorem syncLocalExtmemToHost_synced (hSync : SyncWindow p) {data : ByteMem}
    (hData : ((rtlBackend cfg rtl v n).readLocalExtmem (syncExtmemAddr p) p.fastDmaSyncSize
      d.backend).result = some data) :
    Prog.Runs Sound (syncLocalExtmemToHost (rtlBackend cfg rtl v n) p) d fun _ d' =>
      ∃ memory, d' = { d with
        memory, dmaRequests := d.dmaRequests + 1, dmaCompletions := d.dmaCompletions + 1 } ∧
      ∀ i < p.fastDmaSyncSize, memory (syncAddr p + i) =
        d.backend.model.handle.localExtmem (p.fastDmaSyncOffset + i) := by
  have hRead : onBackend ((rtlBackend cfg rtl v n).readLocalExtmem (syncExtmemAddr p)
      p.fastDmaSyncSize) d = ⟨some fun i => d.backend.model.handle.localExtmem
        (p.fastDmaSyncOffset + i), d, []⟩ := by
    rw [onBackend, readLocalExtmem_returned hData, hSync.syncExtmemAddr_eq, Nat.add_sub_cancel_left]
    rfl
  refine Prog.Runs.step hRead (by simp) (Prog.Runs.bind
    (functionalMemoryRange_write hSync.block hSync.syncAddr_fits _) ?_)
  rintro _ _ rfl
  refine Prog.Runs.modify ⟨_, rfl, fun i hi => ?_⟩
  dsimp only
  rw [ByteMem.store, if_pos (by omega), Nat.zero_add, Nat.add_sub_cancel_left]

theorem SyncWindow.readLocalExtmem_some (hSync : SyncWindow p)
    (hLocal : v.localExtmemEnabled = true)
    (hEnabled : d.backend.model.handle.localExtmemEnabled = true) :
    ∃ data, ((rtlBackend cfg rtl v n).readLocalExtmem (syncExtmemAddr p) p.fastDmaSyncSize
      d.backend).result = some data := by
  have hInside := hSync.inside
  have hIn : d.backend.model.handle.inExtmem (extmemBase + p.fastDmaSyncOffset)
      p.fastDmaSyncSize = true := by
    rw [Handle.inExtmem, hEnabled]
    simp only [Bool.true_and, Bool.and_eq_true, decide_eq_true_eq]
    omega
  have hGuard : v.localExtmemEnabled = true ∧ extmemBase + p.fastDmaSyncOffset < 2 ^ 32 := by
    refine ⟨hLocal, ?_⟩
    unfold extmemBase
    unfold extmemSize at hInside
    omega
  simp only [rtlBackend, verilated, readLocalExtmem, Prog.get_bind, Machine.bridge,
    Handle.extmemRead, hSync.syncExtmemAddr_eq, if_pos hGuard, if_pos hIn]
  exact ⟨_, rfl⟩

/-! ## Batches as clocks -/

theorem shadows_turns (h : Machine.Shadows Eq m m') (n : Nat) :
    Machine.Shadows Eq ((Machine.turn cfg rtl)^[n] m) ((Machine.turn cfg rtl)^[n] m') := by
  induction n generalizing m m' with
  | zero => exact h
  | succ n ih =>
    rw [Function.iterate_succ_apply, Function.iterate_succ_apply]
    refine ih ?_
    unfold Machine.turn
    rw [← h.handle]
    split
    · refine ⟨?_, ?_, ?_⟩
      · simp only [Machine.clock, h.core, ← h.handle]
      · simp only [Machine.clock, h.core, ← h.handle, clocksOf, List.filterMap_append]
        exact congrArg (· ++ _) h.clocks
      · simp only [Machine.clock, h.core, ← h.handle]
    · exact h

theorem Runs.batch (hRuns : Runs cfg rtl m clocks d) (n : Nat) :
    ∃ more ≤ n, Machine.Live cfg rtl m (clocks + more) ∧
      Machine.Shadows Eq ((Machine.turn cfg rtl)^[clocks + more] m)
        ((Machine.turn cfg rtl)^[n] d.backend.model) ∧
      (n ≠ 0 → ((Machine.turn cfg rtl)^[n] d.backend.model).handle.stopCode = none → more ≠ 0) := by
  obtain ⟨more, hLess, hLive, hSame, hEnd⟩ :=
    @Machine.exists_live _ _ cfg rtl ((Machine.turn cfg rtl)^[clocks] m) n
  have hShadows : Machine.Shadows Eq ((Machine.turn cfg rtl)^[n]
    ((Machine.turn cfg rtl)^[clocks] m))
    ((Machine.turn cfg rtl)^[n] d.backend.model) := shadows_turns hRuns.shadows n
  rw [hSame] at hShadows
  refine ⟨more, hLess, hRuns.live.add hLive, ?_, fun hn hGoes => ?_⟩
  · rw [Nat.add_comm, Function.iterate_add_apply]
    exact hShadows
  · rw [← hShadows.handle] at hGoes
    have hAll := hEnd.resolve_right (not_not.mpr hGoes)
    omega

theorem oneBatch_unasked {b : CoralVerilatedBackend (Machine C)}
    (hEvent : (rtlBackend cfg rtl v n).processEvent d.curTick d.backend = ⟨some (), b, []⟩)
    (hActive : d.dmaActive = false) (hRequest : b.dmaRequestPending = false) :
    oneBatch cfg rtl v p n d = ⟨some (), { d with backend := b }, []⟩ :=
  (oneBatch_returned hEvent).trans (startBackendDma_quiet ⟨hActive, hRequest⟩)

/-! ## The batches of an event -/

section Events

variable (hPeriod : v.rtlTickPeriod ≠ 0) (hn : n ≠ 0)
  (hIdle : ∀ k, ((Machine.turn cfg rtl)^[k] m).handle.dmaPending = false) {batches : Nat}
include hPeriod hn hIdle

theorem BatchPhase.oneBatch (hFits : Fits v n d.curTick) (hRuns : Runs cfg rtl m clocks d)
    (hQuiet : Quiet d)
    (hFlight : d.inFlight = false) (hRunning : d.backend.running = true)
    (hBatches : batches ≤ clocks) :
    ∃ clocks' ≤ clocks + n, BatchPhase cfg rtl m (batches + 1) clocks'
      (oneBatch cfg rtl v p n d).result (oneBatch cfg rtl v p n d).state := by
  obtain ⟨more, hLess, hLive, hShadows, hMoves⟩ := hRuns.batch n
  have hFree : ((Machine.turn cfg rtl)^[n] d.backend.model).handle.dmaPending = false := by
    rw [← hShadows.handle]
    exact hIdle _
  have hNever : ((Machine.turn cfg rtl)^[n] d.backend.model).handle.dmaPending = true → False :=
    fun hPending => absurd (hFree.symm.trans hPending) (by decide)
  have hStepped := processEvent_stepped (v := v) hn hPeriod hFits hRunning
    fun hPending => (hNever hPending).elim
  refine ⟨clocks + more, Nat.add_le_add_left hLess clocks, ?_⟩
  generalize hOutcome : (rtlBackend cfg rtl v n).processEvent d.curTick d.backend = o at hStepped
  cases hStepped with
  | goes delay hDue hGoes =>
    rw [oneBatch_unasked hOutcome hQuiet.1 hQuiet.2]
    refine .going ⟨hLive, hShadows.step hn⟩ hQuiet hFlight hRunning (bne_iff_ne.mpr hDue) ?_
    have hSome := hMoves hn hGoes
    omega
  | waits hPending => exact (hNever hPending).elim
  | faults hFaults =>
    rw [oneBatch_rejected hOutcome]
    exact .faulted ⟨hLive, hShadows.step hn⟩ (by rw [hShadows.handle, hFaults])
  | halts hHalts =>
    rw [oneBatch_unasked hOutcome hQuiet.1 hQuiet.2]
    exact .halted ⟨hLive, hShadows.step hn⟩ hQuiet rfl (by rw [hShadows.handle, hHalts])

theorem BatchPhase.processBatches (hFast : p.fastDma = true) (budget : Nat) {d : RtlDevice C}
    (hFits : Fits v n d.curTick) (hRuns : Runs cfg rtl m clocks d) (hQuiet : Quiet d)
    (hFlight : d.inFlight = false) (hRunning : d.backend.running = true) (hGoing : goesOn d = true)
    (hBatches : batches ≤ clocks) :
    ∃ clocks' ≤ clocks + budget * n, BatchPhase cfg rtl m (batches + budget) clocks'
      (processBatches (rtlBackend cfg rtl v n) p budget d).result
      (processBatches (rtlBackend cfg rtl v n) p budget d).state := by
  induction budget generalizing d clocks batches with
  | zero =>
    exact ⟨clocks, Nat.le_add_right _ _, .going hRuns hQuiet hFlight hRunning hGoing hBatches⟩
  | succ budget ih =>
    obtain ⟨clocks', hLess, hPhase⟩ := BatchPhase.oneBatch
      (p := p) hPeriod hn hIdle hFits hRuns hQuiet hFlight hRunning hBatches
    have hTick := (@oneBatch_tick _ _ cfg rtl v p n d).2
    have hMost : clocks' ≤ clocks + (budget + 1) * n := by
      rw [Nat.succ_mul]
      omega
    rw [processBatches_succ]
    generalize hResult : (NPUDevice.oneBatch cfg rtl v p n d).result = result at hPhase hTick
    generalize hState : (NPUDevice.oneBatch cfg rtl v p n d).state = e at hPhase hTick
    cases hPhase with
    | going hRuns' hQuiet' hFlight' hRunning' hGoing' hBatches' =>
      have hMore : (moreBatches cfg rtl v p n budget e) = _ :=
        moreBatches_going hFast hQuiet' hGoing' budget
      rw [Prog.bind_returned hResult, hState, hMore]
      obtain ⟨clocks'', hLess', hPhase'⟩ :=
        @ih clocks' (batches + 1) { e with backendEvent := none }
        (by rw [Fits, hTick () rfl]; exact hFits)
          ⟨hRuns'.live, hRuns'.shadows⟩ hQuiet' hFlight' hRunning'
        hGoing' hBatches'
      rw [show batches + (budget + 1) = batches + 1 + budget by omega]
      refine ⟨clocks'', ?_, hPhase'⟩
      rw [Nat.succ_mul]
      omega
    | halted hRuns' hQuiet' hStopped hHalted =>
      have hMore : (moreBatches cfg rtl v p n budget e) = _ := moreBatches_stopped hStopped budget
      rw [Prog.bind_returned hResult, hState, hMore]
      exact ⟨clocks', hMost, .halted hRuns' hQuiet' hStopped hHalted⟩
    | faulted hRuns' hFaulted =>
      rw [Prog.bind_rejected hResult, hState]
      exact ⟨clocks', hMost, .faulted hRuns' hFaulted⟩

end Events

/-! ## The end of an event -/

theorem finish_halted (hWindow : FastWindow v p r) (hQuiet : Quiet d) (hStopped : goesOn d = false)
    (hEnabled : d.backend.model.handle.localExtmemEnabled = true) :
    Prog.Runs Sound (finish cfg rtl v p n) d fun _ d' => isScheduled d' = false ∧
      d'.backend = d.backend ∧
      ∀ i < p.fastDmaSyncSize, hostWindow p d'.memory (p.fastDmaSyncOffset + i) =
        d.backend.model.handle.localExtmem (p.fastDmaSyncOffset + i) := by
  have hPublish : publish (rtlBackend cfg rtl v n) p d =
      syncLocalExtmemToHost (rtlBackend cfg rtl v n) p d := by
    have hNoEvent : (rtlBackend cfg rtl v n).hasPendingEvent d.backend = false := hStopped
    have hNoRequest : (rtlBackend cfg rtl v n).hasDmaRequest d.backend = false := hQuiet.2
    have hLocal : (rtlBackend cfg rtl v n).hasLocalExtmem d.backend = true := hWindow.localExtmem
    rw [publish, Prog.get_bind, if_pos (by simp [hWindow.fast, hNoEvent, hNoRequest]),
      if_pos hLocal]
  have hSync := hWindow.sync
  obtain ⟨data, hData⟩ := @SyncWindow.readLocalExtmem_some _ _ cfg rtl v p d n hSync
    hWindow.localExtmem hEnabled
  refine Prog.Runs.bind (Prog.Runs.congr hPublish (syncLocalExtmemToHost_synced hSync hData)) ?_
  rintro _ _ ⟨memory, rfl, hSynced⟩
  refine (settle_returned _ _).mono ?_
  rintro _ _ rfl
  refine ⟨?_, rfl, fun i hi => ?_⟩
  · have hTick : d.backend.pendingEventTick = 0 := by simpa [goesOn] using hStopped
    simp [isScheduled, settled, rtlBackend, verilated, hTick]
  · rw [← hSynced i hi, hSync.syncAddr_eq, Nat.add_assoc]
    rfl

/-! ## The events of a run -/

section Run

variable (hWindow : FastWindow v p r) (hPeriod : v.rtlTickPeriod ≠ 0) (hn : n ≠ 0)
  (hLocal : ∀ k, ((Machine.turn cfg rtl)^[k] m).handle.dmaPending = false ∧
    ((Machine.turn cfg rtl)^[k] m).handle.localExtmemEnabled = true) {events : Nat}
include hWindow hPeriod hn hLocal

theorem FastPhase.fire (hFits : Fits v n (fireTick d)) (hRuns : Runs cfg rtl m clocks d)
    (hStarted : Started d) (hEvents : events ≤ clocks) :
    ∃ clocks' ≤ clocks + p.fastDmaEventBatch * n, FastPhase cfg rtl p m (events + 1) clocks'
      (fire cfg rtl v p n d).result (fire cfg rtl v p n d).state := by
  rw [fire_eq hWindow.fast]
  obtain ⟨clocks', hLess, hPhase⟩ := BatchPhase.processBatches hPeriod hn (fun k => (hLocal k).1)
    hWindow.fast p.fastDmaEventBatch (d := { d with curTick := fireTick d, backendEvent := none })
    hFits ⟨hRuns.live, hRuns.shadows⟩ hStarted.quiet
      (hStarted.inFlight.trans hStarted.idle) hStarted.running
    hStarted.goesOn hEvents
  refine ⟨clocks', hLess, ?_⟩
  generalize hFired : { d with curTick := fireTick d, backendEvent := none } = fired at hPhase
  generalize hResult : (processBatches (rtlBackend cfg rtl v n) p p.fastDmaEventBatch
    fired).result = result at hPhase
  generalize hState : (processBatches (rtlBackend cfg rtl v n) p p.fastDmaEventBatch fired).state =
    e at hPhase
  cases hPhase with
  | going hRuns' hQuiet' hFlight' hRunning' hGoing' hBatches' =>
    rw [Prog.bind_returned hResult, hState, finish_going hGoing']
    have hSome := hWindow.eventBatch
    refine .going ⟨hRuns'.live, hRuns'.shadows⟩ ?_ (by omega)
    exact
      { request := hQuiet'.2.trans hQuiet'.1.symm
        inFlight := hFlight'.trans hQuiet'.1.symm
        scheduled := (if_pos hGoing').symm
        running := hRunning'
        pending := by simpa [goesOn] using hGoing'
        idle := hQuiet'.1 }
  | halted hRuns' hQuiet' hStopped hHalted =>
    have hEnabled : e.backend.model.handle.localExtmemEnabled = true := by
      rw [← hRuns'.shadows.handle]
      exact (hLocal clocks').2
    obtain ⟨-, _, hDone, hUnscheduled, hBackend, hSynced⟩ :=
      @finish_halted _ _ cfg rtl v p e n r hWindow hQuiet' hStopped hEnabled
    rw [Prog.bind_returned hResult, hState, hDone]
    rw [← hRuns'.shadows.handle] at hSynced
    exact .halted ⟨hRuns'.live, by rw [hBackend]; exact hRuns'.shadows⟩ hUnscheduled hHalted hSynced
  | faulted hRuns' hFaulted =>
    rw [Prog.bind_rejected hResult, hState]
    exact .faulted hRuns' hFaulted

theorem batchedRun_phase (hRuns : Runs cfg rtl m 0 d) (hStarted : Started d) {events : Nat}
    (hFits : RunFits cfg rtl v p n events d) :
    ∃ clocks ≤ events * (p.fastDmaEventBatch * n),
      FastPhase cfg rtl p m events clocks (batchedRun cfg rtl v p n events d).result
        (batchedRun cfg rtl v p n events d).state := by
  induction events with
  | zero => exact ⟨0, Nat.zero_le _, .going hRuns hStarted (Nat.le_refl 0)⟩
  | succ events ih =>
    obtain ⟨clocks, hLess, hPhase⟩ := ih fun e he => hFits e (Nat.lt_succ_of_lt he)
    have hLate := hFits events (Nat.lt_succ_self events)
    have hMost : clocks ≤ (events + 1) * (p.fastDmaEventBatch * n) := by
      rw [Nat.succ_mul]
      omega
    generalize hResult : (batchedRun cfg rtl v p n events d).result = result at hPhase
    generalize hState : (batchedRun cfg rtl v p n events d).state = e at hPhase
    have hSettled : Prog.Settled isScheduled (batchedRun cfg rtl v p n events d) →
        (batchedRun cfg rtl v p n (events + 1) d).result = result ∧
          (batchedRun cfg rtl v p n (events + 1) d).state = e := by
      intro hEnd
      obtain ⟨hSame, hSame'⟩ := Prog.repeatWhile_settled hEnd (Nat.le_succ events)
      exact ⟨hSame.trans hResult, hSame'.trans hState⟩
    cases hPhase with
    | going hRuns' hStarted' hEvents =>
      have hNow : Fits v n (fireTick e) := by
        rw [← hState] at hStarted' ⊢
        refine hLate ?_
        rintro (hRejected | hStopped)
        · rw [hResult] at hRejected
          cases hRejected
        · exact absurd (hStarted'.isScheduled.symm.trans hStopped) (by decide)
      obtain ⟨hSame, hSame'⟩ : Prog.Lockstep Eq (batchedRun cfg rtl v p n (events + 1)) d
          (NPUDevice.fire cfg rtl v p n) e :=
        hState ▸ Prog.repeatWhile_snoc hResult
          (by rw [← hState] at hStarted'; exact hStarted'.isScheduled)
      rw [hSame, hSame']
      obtain ⟨clocks', hFew, hFired⟩ := FastPhase.fire hWindow hPeriod hn hLocal hNow hRuns'
        hStarted' hEvents
      refine ⟨clocks', ?_, hFired⟩
      rw [Nat.succ_mul]
      omega
    | halted hRuns' hStopped hHalted hSynced =>
      obtain ⟨hSame, hSame'⟩ := hSettled (.inr (by rw [hState, hStopped]))
      rw [hSame, hSame']
      exact ⟨clocks, hMost, .halted hRuns' hStopped hHalted hSynced⟩
    | faulted hRuns' hFaulted =>
      obtain ⟨hSame, hSame'⟩ := hSettled (.inl hResult)
      rw [hSame, hSame']
      exact ⟨clocks, hMost, .faulted hRuns' hFaulted⟩

end Run
end Fast

/-! ## The two modes -/

/-- A started device with its local EXTMEM, whose sync range is that of the host. -/
structure FastStart (p : NPUDeviceParams) (d : RtlDevice C) : Prop where
  started : Started d
  enabled : d.backend.model.handle.localExtmemEnabled = true
  idle : d.backend.model.handle.dmaPending = false
  rtlMode : d.backend.model.handle.operatorMode = Hybrid.OperatorMode.rtl.code
  synced : ∀ i < p.fastDmaSyncSize, d.backend.model.handle.localExtmem (p.fastDmaSyncOffset + i) =
    hostWindow p d.memory (p.fastDmaSyncOffset + i)

/-- The same device built without a local EXTMEM. -/
def withoutExtmem (d : RtlDevice C) : RtlDevice C :=
  { d with backend := { d.backend with model := { d.backend.model with
      handle := { d.backend.model.handle with localExtmemEnabled := false } } } }

/-- A fast and a timing run that ended alike: the same core after the same clocks, and the same
bytes in the sync range of host memory unless the core has faulted. -/
structure SameEnd (p : NPUDeviceParams) (o o' : Outcome (RtlDevice C) DeviceEvent Unit) : Prop where
  result : o'.result = o.result
  core : o'.state.backend.model.core = o.state.backend.model.core
  clocks : clocksOf o'.state.backend.model.history = clocksOf o.state.backend.model.history
  rtlCycles : o'.state.backend.model.handle.rtlCycles = o.state.backend.model.handle.rtlCycles
  bytes : o.result = some () → ∀ i < p.fastDmaSyncSize,
    hostWindow p o'.state.memory (p.fastDmaSyncOffset + i) =
      hostWindow p o.state.memory (p.fastDmaSyncOffset + i)

/-- A run that the halt or a fault of the machine `m` has ended after `n` clocks. -/
structure StoppedAt (cfg : BridgeConfig F) (rtl : RtlModel C) (p : NPUDeviceParams) (m : Machine C)
    (n : Nat) (o : Outcome (RtlDevice C) DeviceEvent Unit) : Prop where
  live : Machine.Live cfg rtl m n
  core : o.state.backend.model.core = ((Machine.turn cfg rtl)^[n] m).core
  clocks : clocksOf o.state.backend.model.history =
    clocksOf ((Machine.turn cfg rtl)^[n] m).history
  rtlCycles : o.state.backend.model.handle.rtlCycles =
    ((Machine.turn cfg rtl)^[n] m).handle.rtlCycles
  stop : ((Machine.turn cfg rtl)^[n] m).handle.stopCode = some 4 ∧ o.result = none ∨
    ((Machine.turn cfg rtl)^[n] m).handle.stopCode = some 1 ∧ o.result = some () ∧
      ∀ i < p.fastDmaSyncSize, hostWindow p o.state.memory (p.fastDmaSyncOffset + i) =
        ((Machine.turn cfg rtl)^[n] m).handle.localExtmem (p.fastDmaSyncOffset + i)

section Modes

variable {cfg : BridgeConfig F} {rtl : RtlModel C} {v : VerilatedParams} {p : NPUDeviceParams}
  {r : ServedRange} {m : Machine C} {d : RtlDevice C}

theorem FastStart.twin (hStart : FastStart p d) (hWindow : FastWindow v p r) :
    Twin r (hostWindow p d.memory) d.backend.model.handle
      (withoutExtmem d).backend.model.handle := by
  refine ⟨hStart.enabled, hStart.idle, hStart.rtlMode, fun offset hLow hHigh => ?_, _, _, _, _, rfl⟩
  rw [hWindow.offset] at hLow hHigh
  rw [hWindow.size] at hHigh
  obtain ⟨i, rfl⟩ := Nat.exists_eq_add_of_le hLow
  exact hStart.synced i (by omega)

theorem FastPhase.ahead {events a b : Nat} {result : Option Unit}
    (h : FastPhase cfg rtl p m events b result d) (hLive : Machine.Live cfg rtl m a)
    (hEvents : a ≤ events) : a ≤ b := by
  cases h with
  | going _ _ hMade => omega
  | halted _ _ hHalted => exact hLive.le_of_stopped (by simp [hHalted])
  | faulted _ hFaulted => exact hLive.le_of_stopped (by simp [hFaulted])

theorem TimingPhase.ahead {rounds a b : Nat} {result : Option Unit}
    (h : TimingPhase cfg rtl p r m rounds b result d) (hLive : Machine.Live cfg rtl m a)
    (hRounds : 2 * a ≤ rounds) : a ≤ b := by
  cases h with
  | going _ _ _ hMade => omega
  | waiting _ _ _ hMade => omega
  | halted _ _ _ hHalted => exact hLive.le_of_stopped (by simp [hHalted])
  | faulted _ hFaulted => exact hLive.le_of_stopped (by simp [hFaulted])

theorem FastPhase.runs {events a : Nat} {result : Option Unit}
    (h : FastPhase cfg rtl p m events a result d) : Runs cfg rtl m a d := by
  cases h with
  | going hRuns => exact hRuns
  | halted hRuns => exact hRuns
  | faulted hRuns => exact hRuns

theorem TimingPhase.tracks {rounds a : Nat} {result : Option Unit}
    (h : TimingPhase cfg rtl p r m rounds a result d) : Tracks cfg rtl p r m a d := by
  cases h with
  | going hTracks => exact hTracks
  | waiting hTracks => exact hTracks
  | halted hTracks => exact hTracks
  | faulted hTracks => exact hTracks

variable {o o' : Outcome (RtlDevice C) DeviceEvent Unit} {a b events rounds : Nat}

theorem StoppedAt.stopCode_ne_none (h : StoppedAt cfg rtl p m a o) :
    ((Machine.turn cfg rtl)^[a] m).handle.stopCode ≠ none := by
  rcases h.stop with ⟨hCode, -⟩ | ⟨hCode, -⟩
  · simp [hCode]
  · simp [hCode]

/-- Where a run stops does not depend on how it is cut into rounds. -/
theorem StoppedAt.sameEnd (h : StoppedAt cfg rtl p m a o) (h' : StoppedAt cfg rtl p m b o') :
    SameEnd p o o' := by
  obtain rfl : a = b := Nat.le_antisymm (h.live.le_of_stopped h'.stopCode_ne_none)
    (h'.live.le_of_stopped h.stopCode_ne_none)
  refine ⟨?_, h'.core.trans h.core.symm, h'.clocks.trans h.clocks.symm,
    h'.rtlCycles.trans h.rtlCycles.symm, fun hReturned i hi => ?_⟩
  · rcases h.stop with ⟨hCode, hResult⟩ | ⟨hCode, hResult, -⟩ <;>
      rcases h'.stop with ⟨hCode', hResult'⟩ | ⟨hCode', hResult', -⟩
    · rw [hResult, hResult']
    · exact absurd (hCode.symm.trans hCode') (by decide)
    · exact absurd (hCode.symm.trans hCode') (by decide)
    · rw [hResult, hResult']
  · rcases h.stop with ⟨-, hResult⟩ | ⟨hCode, -, hBytes⟩
    · rw [hResult] at hReturned
      cases hReturned
    · rcases h'.stop with ⟨hCode', -⟩ | ⟨-, -, hBytes'⟩
      · exact absurd (hCode.symm.trans hCode') (by decide)
      · rw [hBytes i hi, hBytes' i hi]

theorem FastPhase.stoppedAt (h : FastPhase cfg rtl p m events a o.result o.state)
    (hSettled : Prog.Settled isScheduled o) : StoppedAt cfg rtl p m a o := by
  have hRuns := h.runs
  refine ⟨hRuns.live, hRuns.shadows.core, hRuns.shadows.clocks, by rw [hRuns.shadows.handle], ?_⟩
  rw [Prog.Settled] at hSettled
  generalize o.result = result, o.state = e at *
  cases h with
  | going _ hStarted =>
    rcases hSettled with hNone | hStopped
    · cases hNone
    · exact absurd (hStarted.isScheduled.symm.trans hStopped) (by decide)
  | halted _ _ hHalted hSynced => exact .inr ⟨hHalted, rfl, hSynced⟩
  | faulted _ hFaulted => exact .inl ⟨hFaulted, rfl⟩

theorem TimingPhase.stoppedAt (hWindow : FastWindow v p r)
    (h : TimingPhase cfg rtl { p with fastDma := false } r m rounds a o.result o.state)
    (hSettled : Prog.Settled isBusy o) : StoppedAt cfg rtl p m a o := by
  have hTracks := h.tracks
  refine ⟨hTracks.live, hTracks.shadows.core, hTracks.shadows.clocks,
    hTracks.shadows.handle.rtlCycles_eq, ?_⟩
  rw [Prog.Settled] at hSettled
  generalize o.result = result, o.state = e at *
  cases h with
  | going _ hStarted =>
    rcases hSettled with hNone | hStopped
    · cases hNone
    · rw [isBusy, hStarted.isScheduled] at hStopped
      cases hStopped
  | waiting _ hWaiting =>
    rcases hSettled with hNone | hStopped
    · cases hNone
    · rw [isBusy, hWaiting.inFlight, Bool.or_true] at hStopped
      cases hStopped
  | halted _ _ hIdle hHalted =>
    refine .inr ⟨hHalted, rfl, fun i hi => ?_⟩
    have hTwin := hTracks.shadows.handle.twin_of_idle hIdle
    have hOffset := hWindow.offset
    have hSize := hWindow.size
    exact (hTwin.bytes _ (by omega) (by omega)).symm
  | faulted _ hFaulted => exact .inl ⟨hFaulted, rfl⟩

theorem FastPhase.settled (h : FastPhase cfg rtl p m events b o.result o.state)
    (hStop : ((Machine.turn cfg rtl)^[a] m).handle.stopCode ≠ none) (hEvents : a < events) :
    Prog.Settled isScheduled o := by
  rw [Prog.Settled]
  generalize o.result = result, o.state = e at *
  cases h with
  | going hRuns _ hMade => exact absurd (hRuns.live.le_of_stopped hStop) (by omega)
  | halted _ hStopped => exact .inr hStopped
  | faulted => exact .inl rfl

theorem TimingPhase.settled (h : TimingPhase cfg rtl p r m rounds b o.result o.state)
    (hStop : ((Machine.turn cfg rtl)^[a] m).handle.stopCode ≠ none) (hRounds : 2 * a < rounds) :
    Prog.Settled isBusy o := by
  rw [Prog.Settled]
  generalize o.result = result, o.state = e at *
  cases h with
  | going hTracks _ _ hMade => exact absurd (hTracks.live.le_of_stopped hStop) (by omega)
  | waiting hTracks _ _ hMade => exact absurd (hTracks.live.le_of_stopped hStop) (by omega)
  | halted _ hStopped => exact .inr hStopped
  | faulted => exact .inl rfl

theorem clocksOf_prefix (hLess : a ≤ b) :
    clocksOf ((Machine.turn cfg rtl)^[a] m).history <+:
      clocksOf ((Machine.turn cfg rtl)^[b] m).history :=
  (Machine.turn_history_prefix m hLess).filterMap _

end Modes

theorem fast_mode_agrees_with_timing (cfg : BridgeConfig F) (rtl : RtlModel C) (v : VerilatedParams)
    (p : NPUDeviceParams) (r : ServedRange) (hPorts : rtl.SeesPorts) (hWindow : FastWindow v p r)
    (hPeriod : v.rtlTickPeriod ≠ 0) (cycles cycles' : Nat) (hCycles : cycles ≠ 0)
    (hCycles' : cycles' ≠ 0) (d : RtlDevice C) (hStart : FastStart p d)
    (hOrderly : Machine.OrderlyRun cfg rtl r d.backend.model) (latency : RtlDevice C → Nat)
    (events rounds : Nat) (hFits : RunFits cfg rtl v p cycles events d)
    (hFits' : TimingFits cfg rtl { v with localExtmemEnabled := false } { p with fastDma := false }
      cycles' latency rounds (withoutExtmem d)) :
    let fast := batchedRun cfg rtl v p cycles events d
    let timing := timingRun cfg rtl { v with localExtmemEnabled := false }
      { p with fastDma := false } cycles' latency rounds (withoutExtmem d)
    (2 * (events * (p.fastDmaEventBatch * cycles)) < rounds →
      clocksOf fast.state.backend.model.history <+: clocksOf timing.state.backend.model.history ∧
      (Prog.Settled isScheduled fast → Prog.Settled isBusy timing ∧ SameEnd p fast timing)) ∧
    (rounds * cycles' < events →
      clocksOf timing.state.backend.model.history <+: clocksOf fast.state.backend.model.history ∧
      (Prog.Settled isBusy timing → Prog.Settled isScheduled fast ∧ SameEnd p fast timing)) := by
  intro fast timing
  have hTwin := hStart.twin hWindow
  have hLocal : ∀ k, ((Machine.turn cfg rtl)^[k] d.backend.model).handle.dmaPending = false ∧
      ((Machine.turn cfg rtl)^[k] d.backend.model).handle.localExtmemEnabled = true := by
    intro k
    obtain ⟨memory, h, hTwin'⟩ := hOrderly.exists_twin hTwin k
    exact ⟨hTwin'.idle, hTwin'.enabled⟩
  have hSlow : ServedWindow { p with fastDma := false } r :=
    ⟨hWindow.extmem, hWindow.range, hWindow.fits⟩
  obtain ⟨a, ha, hFast⟩ := batchedRun_phase hWindow hPeriod hCycles hLocal
    ⟨.zero, rfl, rfl, rfl⟩ hStart.started hFits
  have hStarted : Started (withoutExtmem d) :=
    ⟨⟨⟨hStart.started.request, hStart.started.inFlight⟩, hStart.started.scheduled⟩,
      hStart.started.running, hStart.started.pending, hStart.started.idle⟩
  have hTracks : Tracks cfg rtl { p with fastDma := false } r d.backend.model 0 (withoutExtmem d) :=
    ⟨.zero, rfl, rfl, .twin hTwin⟩
  obtain ⟨b, hb, hTiming⟩ := @timingRun_phase _ _ cfg rtl { v with localExtmemEnabled := false }
    { p with fastDma := false } (withoutExtmem d) cycles' r d.backend.model hPorts
    hOrderly rfl hSlow
    hPeriod hCycles' hTracks hStarted hStart.idle latency rounds hFits'
  have hClocks : clocksOf fast.state.backend.model.history =
      clocksOf ((Machine.turn cfg rtl)^[a] d.backend.model).history := hFast.runs.shadows.clocks
  have hClocks' : clocksOf timing.state.backend.model.history =
      clocksOf ((Machine.turn cfg rtl)^[b] d.backend.model).history := hTiming.tracks.shadows.clocks
  refine ⟨fun hEnough => ⟨?_, fun hSettled => ?_⟩, fun hEnough => ⟨?_, fun hSettled => ?_⟩⟩
  · rw [hClocks, hClocks']
    exact clocksOf_prefix (hTiming.ahead hFast.runs.live (by omega))
  · have hStopped := hFast.stoppedAt hSettled
    have hSettled' := hTiming.settled hStopped.stopCode_ne_none (by omega)
    exact ⟨hSettled', hStopped.sameEnd (hTiming.stoppedAt hWindow hSettled')⟩
  · rw [hClocks, hClocks']
    exact clocksOf_prefix (hFast.ahead hTiming.tracks.live (by omega))
  · have hStopped := hTiming.stoppedAt hWindow hSettled
    have hSettled' := hFast.settled hStopped.stopCode_ne_none (by omega)
    exact ⟨hSettled', (hFast.stoppedAt hSettled').sameEnd hStopped⟩

/-- A core that stores one word to the start of EXTMEM and halts in its fifth clock. -/
def storesWord : RtlModel Nat where
  clock core _ := (core + 1,
    { readPins := ⟨false, {}, false⟩
      writePins := ⟨core == 1, { addr := 0x20000000, size := 2, burst := 1 }, core == 1,
        { data := fun _ => 7, strb := 0x000f, last := true }, true⟩
      halted := decide (5 ≤ core + 1) })
  startRead _ _ core := core
  startWrite _ _ _ core := core
  accessClocks _ _ := 1
  readData _ := fun _ => 0

/-- A window of one page whose first block is synchronised. -/
def oneBlockParams : NPUDeviceParams := { onePageParams 1 with fastDmaSyncSize := 64 }

def extmemDefaults : VerilatedParams := { verilatedDefaults with localExtmemEnabled := true }

def startedStore : RtlDevice Nat where
  backend :=
    { model := { core := 0, handle := { localExtmemEnabled := true } }
      running := true, pendingEventTick := 1000, resetControl := 0 }
  backendEvent := some 1000
  memory := fun _ => 0

theorem firstBlock_inside : 0 + 64 ≤ extmemSize := by decide

def firstBlock : ServedRange := ⟨0, 64, firstBlock_inside⟩

theorem storesWord_orderly :
    Machine.OrderlyRun plainConfig storesWord firstBlock startedStore.backend.model := by
  have hNoRead : ∀ (m : Machine Nat), (m.handle.masterRead.onFallingEdge
      (storesWord.clock m.core m.handle).2.readPins).2 = none := by
    intro m
    simp [ReadDriver.onFallingEdge, storesWord]
  -- The core has halted after five clocks, so the first six states are all there are.
  have hWrites : ∀ k < 6, (((Machine.turn plainConfig storesWord)^[k]
      startedStore.backend.model).handle.masterWrite.onFallingEdge (storesWord.clock
        ((Machine.turn plainConfig storesWord)^[k] startedStore.backend.model).core
        ((Machine.turn plainConfig storesWord)^[k]
          startedStore.backend.model).handle).2.writePins).2.all
      (fun request => decide (firstBlock.Holds request.1)) = true := by
    decide +kernel
  have hHalted : ((Machine.turn plainConfig storesWord)^[5]
      startedStore.backend.model).handle.stopCode ≠ none := by decide +kernel
  have hFirst : ∀ k, ∃ j < 6, (Machine.turn plainConfig storesWord)^[k] startedStore.backend.model =
      (Machine.turn plainConfig storesWord)^[j] startedStore.backend.model := by
    intro k
    rcases Nat.lt_or_ge k 6 with hSmall | hLarge
    · exact ⟨k, hSmall, rfl⟩
    · obtain ⟨i, rfl⟩ := Nat.exists_eq_add_of_le (show 5 ≤ k by omega)
      refine ⟨5, by decide, ?_⟩
      rw [Nat.add_comm, Function.iterate_add_apply, Machine.turn_stopped hHalted]
  intro k
  obtain ⟨j, hj, hSame⟩ := hFirst k
  rw [hSame]
  refine ⟨fun a hRead => ?_, fun a data hWrite _ _ => ?_, fun a b data hRead _ => ?_⟩
  · rw [hNoRead] at hRead
    cases hRead
  · have hInside := hWrites j hj
    rw [hWrite] at hInside
    exact of_decide_eq_true hInside
  · rw [hNoRead] at hRead
    cases hRead

def slowStore : RtlDevice Nat → Nat := fun _ => 300

theorem storesWord_timingFits : TimingFits plainConfig storesWord
    { extmemDefaults with localExtmemEnabled := false } { oneBlockParams with fastDma := false } 2
    slowStore 20 (withoutExtmem startedStore) := by
  have hTicks : ∀ k < 20, fireTick (timingRun plainConfig storesWord
      { extmemDefaults with localExtmemEnabled := false } { oneBlockParams with fastDma := false } 2
      slowStore k (withoutExtmem startedStore)).state ≤ 100000 := by decide +kernel
  intro k hk _
  have hTick := hTicks k hk
  have hPeriod : extmemDefaults.rtlTickPeriod = 1000 := rfl
  dsimp only
  generalize (timingRun plainConfig storesWord { extmemDefaults with localExtmemEnabled := false }
    { oneBlockParams with fastDma := false } 2 slowStore k
    (withoutExtmem startedStore)).state = e at hTick ⊢
  unfold fireTick at hTick ⊢
  rw [Fits, Fits, slowStore, hPeriod]
  split <;> omega

/-- The stored word reaches host memory in both modes. -/
theorem fast_mode_agrees_with_timing_storesWord :
    Prog.Settled isScheduled (batchedRun plainConfig storesWord extmemDefaults oneBlockParams 8 1
      startedStore) ∧
    hostWindow oneBlockParams (batchedRun plainConfig storesWord extmemDefaults oneBlockParams 8 1
      startedStore).state.memory 3 = 7 ∧
    Prog.Settled isBusy (timingRun plainConfig storesWord
      { extmemDefaults with localExtmemEnabled := false } { oneBlockParams with fastDma := false } 2
      slowStore 20 (withoutExtmem startedStore)) ∧
    SameEnd oneBlockParams
      (batchedRun plainConfig storesWord extmemDefaults oneBlockParams 8 1 startedStore)
      (timingRun plainConfig storesWord { extmemDefaults with localExtmemEnabled := false }
        { oneBlockParams with fastDma := false } 2 slowStore 20 (withoutExtmem startedStore)) := by
  have hSettled : Prog.Settled isScheduled (batchedRun plainConfig storesWord extmemDefaults
      oneBlockParams 8 1 startedStore) := .inr (by decide +kernel)
  have hWindow : FastWindow extmemDefaults oneBlockParams firstBlock :=
    ⟨⟨rfl, by decide, by decide⟩, rfl, by decide, rfl, rfl, rfl, by decide⟩
  have hStarted : Started startedStore :=
    { request := rfl, inFlight := rfl, scheduled := rfl, running := rfl, pending := by decide
      idle := rfl }
  have hFits : RunFits plainConfig storesWord extmemDefaults oneBlockParams 8 1 startedStore := by
    intro e he _
    obtain rfl : e = 0 := by omega
    have hTick : fireTick (batchedRun plainConfig storesWord extmemDefaults oneBlockParams 8 0
      startedStore).state = 1000 := by decide +kernel
    rw [hTick]
    unfold Fits
    decide
  refine ⟨hSettled, by decide +kernel, ?_⟩
  exact ((fast_mode_agrees_with_timing plainConfig storesWord extmemDefaults oneBlockParams
    firstBlock (fun _ _ _ _ _ => rfl) hWindow (by decide) 8 2 (by decide) (by decide) startedStore
    ⟨hStarted, rfl, rfl, rfl, fun _ _ => rfl⟩ storesWord_orderly slowStore 1 20 hFits
    storesWord_timingFits).1 (by decide)).2 hSettled

end OpenNpux.Device.NPUDevice
