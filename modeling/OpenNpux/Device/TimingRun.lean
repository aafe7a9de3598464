import OpenNpux.Device.Batching
import OpenNpux.Device.CacheTransparency
import OpenNpux.Device.TwinMachines

/-!
# A run in timing mode

In timing mode an event runs one batch of the core. A request ends the batch and goes to
the memory system, which answers after some time from host memory; the callback schedules
the next event. Whatever the latencies are, the rounds of such a run are the clocks of the
core before a local EXTMEM that holds the window of the host.
-/

namespace OpenNpux.Device.NPUDevice

open Lib Bridge CoralVerilatedBackend

variable {C F : Type}

/-! ## The event of a running backend -/

section Stepped

variable (cfg : BridgeConfig F) (rtl : RtlModel C)

/-- What the event of a running backend does, by where the turns of its core have stopped. -/
inductive Stepped (n now : Nat) (b : CoralVerilatedBackend (Machine C)) :
    Outcome (CoralVerilatedBackend (Machine C)) Fatal Unit → Prop
  | goes (delay : Nat) (hDue : tickAfter now delay ≠ 0)
      (hGoes : ((Machine.turn cfg rtl)^[n] b.model).handle.stopCode = none) :
      Stepped n now b ⟨some (), { b with
        model := (b.model.step cfg rtl n).1, pendingEventTick := tickAfter now delay }, []⟩
  | waits (hPending : ((Machine.turn cfg rtl)^[n] b.model).handle.dmaPending = true) :
      Stepped n now b ⟨some (), { b with
        model := (b.model.step cfg rtl n).1
        pendingDmaRequest := reported ((Machine.turn cfg rtl)^[n] b.model).handle.pendingDma
        dmaRequestPending := true
        pendingEventTick := 0 }, []⟩
  | faults (hFaults : ((Machine.turn cfg rtl)^[n] b.model).handle.stopCode = some 4) :
      Stepped n now b ⟨none, { b with model := (b.model.step cfg rtl n).1 }, [.coreFault]⟩
  | halts (hHalts : ((Machine.turn cfg rtl)^[n] b.model).handle.stopCode = some 1) :
      Stepped n now b ⟨some (), { b with
        model := (b.model.step cfg rtl n).1, running := false, pendingEventTick := 0 }, []⟩

variable {cfg rtl} {v : VerilatedParams} {n : Nat} {b : CoralVerilatedBackend (Machine C)}

theorem finishEvent_waits {br : CoralBridge (Machine C)} {request : DmaRequest}
    (hRequest : br.dmaRequestGet b.model = some request) (hNonzero : request.size ≠ 0)
    (hFits : request.size ≤ dmaDataBytes) (now delay : Nat) :
    finishEvent br now delay 2 b = ⟨some (), { b with
      pendingDmaRequest := reported request, dmaRequestPending := true, pendingEventTick := 0 },
      []⟩ := by
  have hSizes : (request.size == 0 || decide (request.size > dmaDataBytes)) = false := by
    simp [hNonzero, Nat.not_lt.mpr hFits]
  have hReported : reportedRequest br b.model b = ⟨some (reported request), b, []⟩ := by
    simp only [reportedRequest, hRequest, hSizes]
    rfl
  have hEvent : finishEvent br now delay 2 b = (reportedRequest br b.model >>= fun request =>
      Prog.modify fun b : CoralVerilatedBackend (Machine C) => { b with
        pendingDmaRequest := request, dmaRequestPending := true, pendingEventTick := 0 }) b := rfl
  rw [hEvent, Prog.bind_returned (by rw [hReported]), hReported]
  rfl

theorem processEvent_stepped {now : Nat} (hn : n ≠ 0) (hPeriod : v.rtlTickPeriod ≠ 0)
    (hFits : Fits v n now) (hRunning : b.running = true)
    (hSize : ((Machine.turn cfg rtl)^[n] b.model).handle.dmaPending = true →
      ((Machine.turn cfg rtl)^[n] b.model).handle.pendingDma.size ≠ 0 ∧
        ((Machine.turn cfg rtl)^[n] b.model).handle.pendingDma.size ≤ dmaDataBytes) :
    Stepped cfg rtl n now b ((rtlBackend cfg rtl v n).processEvent now b) := by
  obtain ⟨delay, hDelay, hEvent⟩ :=
    @processEvent_running _ _ cfg rtl v b now n hn hPeriod hFits hRunning
  have hStep := @Machine.step_eq _ _ cfg rtl b.model n hn
  rw [hEvent, congrArg Prod.snd hStep]
  have hHandle : (b.model.step cfg rtl n).1.handle =
      ((Machine.turn cfg rtl)^[n] b.model).handle := by
    rw [hStep]
  cases hPending : ((Machine.turn cfg rtl)^[n] b.model).handle.dmaPending with
  | true =>
    have hCode : ((Machine.turn cfg rtl)^[n] b.model).handle.returnCode = 2 := by
      simp [Handle.returnCode, Handle.stopCode, hPending]
    have hRequest : (Machine.bridge cfg rtl).dmaRequestGet (b.model.step cfg rtl n).1 =
        some ((Machine.turn cfg rtl)^[n] b.model).handle.pendingDma := by
      simp only [Machine.bridge, Handle.dmaRequestGet, hHandle, hPending, if_true]
    obtain ⟨hNonzero, hFits⟩ := hSize hPending
    rw [hCode, finishEvent_waits hRequest hNonzero hFits]
    exact .waits hPending
  | false =>
    cases hFault : ((Machine.turn cfg rtl)^[n] b.model).handle.faultSeen with
    | true =>
      have hStop : ((Machine.turn cfg rtl)^[n] b.model).handle.stopCode = some 4 := by
        simp [Handle.stopCode, hPending, hFault]
      rw [Handle.returnCode, hStop, Option.getD_some]
      exact .faults hStop
    | false =>
      cases hHalted : ((Machine.turn cfg rtl)^[n] b.model).handle.halted with
      | true =>
        have hStop : ((Machine.turn cfg rtl)^[n] b.model).handle.stopCode = some 1 := by
          simp [Handle.stopCode, hPending, hFault, hHalted]
        rw [Handle.returnCode, hStop, Option.getD_some]
        exact .halts hStop
      | false =>
        have hStop := Handle.stopCode_eq_none.mpr ⟨hPending, hFault, hHalted⟩
        have hCode : ((Machine.turn cfg rtl)^[n] b.model).handle.returnCode = 3 ∨
            ((Machine.turn cfg rtl)^[n] b.model).handle.returnCode = 0 := by
          rw [Handle.returnCode, hStop, Option.getD_none]
          split
          · exact .inl rfl
          · exact .inr rfl
        rw [finishEvent_goes hCode]
        exact .goes delay hDelay hStop

end Stepped

/-! ## The rounds -/

section Rounds

variable (cfg : BridgeConfig F) (rtl : RtlModel C) (v : VerilatedParams) (p : NPUDeviceParams)

/-- The memory system serves the submitted request, and the callback comes `latency` ticks
later. -/
def answerTiming (cycles latency : Nat) : Prog (RtlDevice C) DeviceEvent Unit := do
  let d ← Prog.get
  let access := directAccess p d.memory d.backend.pendingDmaRequest
  Prog.modify fun d => { d with memory := access.2 }
  call (rtlBackend cfg rtl v cycles) p ⟨latency, .dmaCallback access.1⟩

def timingRound (cycles : Nat) (latency : RtlDevice C → Nat) :
    Prog (RtlDevice C) DeviceEvent Unit := do
  let d ← Prog.get
  if d.inFlight then answerTiming cfg rtl v p cycles (latency d) else fire cfg rtl v p cycles

/-- An event is scheduled or a request is in flight. -/
def isBusy (d : RtlDevice C) : Bool := isScheduled d || d.inFlight

/-- The first rounds of a run in timing mode. -/
def timingRun (cycles : Nat) (latency : RtlDevice C → Nat) (rounds : Nat) :
    Prog (RtlDevice C) DeviceEvent Unit :=
  Prog.repeatWhile isBusy (timingRound cfg rtl v p cycles latency) rounds

/-- No round among the first `rounds` comes so late that the tick of the next event overflows. -/
def TimingFits (cycles : Nat) (latency : RtlDevice C → Nat) (rounds : Nat) (d : RtlDevice C) :
    Prop :=
  ∀ k < rounds, ¬ Prog.Settled isBusy (timingRun cfg rtl v p cycles latency k d) →
    let e := (timingRun cfg rtl v p cycles latency k d).state
    if e.inFlight then Fits v 1 (e.curTick + latency e) else Fits v cycles (fireTick e)

/-- Host memory behind the DMA window, by the offset in EXTMEM. -/
def hostWindow (memory : ByteMem) : ByteMem := fun offset => memory (p.dmaSharedBase + offset)

/-- A device whose window in host memory holds the served part of EXTMEM. -/
structure ServedWindow (r : ServedRange) : Prop where
  extmem : p.dmaExtmemBase = extmemBase
  range : r.offset + r.size ≤ p.dmaSharedSize
  fits : p.dmaSharedBase + p.dmaSharedSize < 2 ^ 64

/-- A request was submitted and has not been answered. -/
structure Waiting (d : RtlDevice C) : Prop where
  running : d.backend.running = true
  active : d.dmaActive = true
  inFlight : d.inFlight = true
  pending : d.backend.dmaRequestPending = true
  request : d.backend.pendingDmaRequest = reported d.backend.model.handle.pendingDma

/-- The device has run the first `clocks` clocks of the machine `m`. -/
structure Tracks (r : ServedRange) (m : Machine C) (clocks : Nat) (d : RtlDevice C) : Prop where
  live : Machine.Live cfg rtl m clocks
  shadows : Machine.Shadows (Clocked r (hostWindow p d.memory)) ((Machine.turn cfg rtl)^[clocks] m)
    d.backend.model

/-- Where a run in timing mode is after some rounds: a callback uses a round without a clock,
and is preceded by one with a clock. -/
inductive TimingPhase (r : ServedRange) (m : Machine C) (rounds clocks : Nat) :
    Option Unit → RtlDevice C → Prop
  | going {d : RtlDevice C} (hTracks : Tracks cfg rtl p r m clocks d) (hStarted : Started d)
      (hIdle : d.backend.model.handle.dmaPending = false) (hRounds : rounds ≤ 2 * clocks) :
      TimingPhase r m rounds clocks (some ()) d
  | waiting {d : RtlDevice C} (hTracks : Tracks cfg rtl p r m clocks d) (hWaiting : Waiting d)
      (hPending : d.backend.model.handle.dmaPending = true) (hRounds : rounds + 1 ≤ 2 * clocks) :
      TimingPhase r m rounds clocks (some ()) d
  | halted {d : RtlDevice C} (hTracks : Tracks cfg rtl p r m clocks d) (hBusy : isBusy d = false)
      (hIdle : d.backend.model.handle.dmaPending = false)
      (hHalted : ((Machine.turn cfg rtl)^[clocks] m).handle.stopCode = some 1) :
      TimingPhase r m rounds clocks (some ()) d
  | faulted {d : RtlDevice C} (hTracks : Tracks cfg rtl p r m clocks d)
      (hFaulted : ((Machine.turn cfg rtl)^[clocks] m).handle.stopCode = some 4) :
      TimingPhase r m rounds clocks none d

variable {cfg rtl v p} {d : RtlDevice C} {n : Nat} {r : ServedRange} {m : Machine C}

/-! ## The shell around an event -/

theorem settle_returned {B : Type} (be : CoralBackend B) (d : NPUDevice B) :
    Prog.Runs Sound (syncBackendEvent be >>= fun _ => checkDrainDone be) d
      fun _ d' => d' = settled be d := by
  apply Prog.Runs.modify_bind
  apply Prog.Runs.get_bind
  by_cases hDrain : d.drainState = .draining ∧ d.dmaQuiesced be = true
  · refine Prog.Runs.congr (congrFun (if_pos hDrain) _)
      (Prog.Runs.emit_bind ?_ (Prog.Runs.modify ?_))
    · intro f hFatal
      cases hFatal
    · rw [settled, if_pos hDrain]
  · refine Prog.Runs.congr (congrFun (if_neg hDrain) _) (Prog.Runs.pure ?_)
    rw [settled, if_neg hDrain]

theorem finish_slow (hSlow : p.fastDma = false) (d : RtlDevice C) :
    Prog.Runs Sound (finish cfg rtl v p n) d fun _ d' => d' =
      settled (rtlBackend cfg rtl v n) d := by
  have hPublish : publish (rtlBackend cfg rtl v n) p d = ⟨some (), d, []⟩ := by
    rw [publish, Prog.get_bind, if_neg (by simp [hSlow])]
    rfl
  refine Prog.Runs.step hPublish (by simp) (settle_returned _ d)

theorem fire_slow (hSlow : p.fastDma = false) (d : RtlDevice C) :
    fire cfg rtl v p n d = (oneBatch cfg rtl v p n >>= fun _ => finish cfg rtl v p n) { d with
      curTick := fireTick d, backendEvent := none } := by
  have hBudget : batchBudget p = 1 := by rw [batchBudget, hSlow]; rfl
  have hMore : ∀ e : RtlDevice C, moreBatches cfg rtl v p n 0 e = ⟨some (), e, []⟩ := by
    intro e
    rw [moreBatches, Prog.get_bind, if_neg (by simp [hSlow])]
    rfl
  have hBatches : processBatches (rtlBackend cfg rtl v n) p (batchBudget p) =
      oneBatch cfg rtl v p n := by
    rw [hBudget, processBatches_succ, funext hMore]
    exact Prog.bind_pure_unit _
  rw [← hBatches]
  rfl

theorem startBackendDma_submits (hSlow : p.fastDma = false) (hIdle : d.dmaActive = false)
    (hPending : d.backend.dmaRequestPending = true)
    (hWindow : p.inWindow d.backend.pendingDmaRequest = true) :
    Prog.Runs Sound (startBackendDma (rtlBackend cfg rtl v n) p) d fun _ d' =>
      d' = { d with dmaActive := true, dmaRequests := d.dmaRequests + 1, inFlight := true } := by
  have hRequest : onBackend (rtlBackend cfg rtl v n).dmaRequest d =
      ⟨some d.backend.pendingDmaRequest, d, []⟩ := by
    rw [onBackend, show (rtlBackend cfg rtl v n).dmaRequest d.backend = _ from
      dmaRequest_pending hPending]
    rfl
  apply Prog.Runs.get_bind
  refine Prog.Runs.congr (congrFun (if_pos ⟨hIdle, hPending⟩) _)
    (Prog.Runs.step hRequest (by simp) ?_)
  rw [if_pos hWindow]
  apply Prog.Runs.modify_bind
  rw [hSlow]
  refine Prog.Runs.emit_bind ?_ (Prog.Runs.modify rfl)
  intro f
  split
  · intro hFatal
    cases hFatal
  · intro hFatal
    cases hFatal

theorem quiet_runs (hQuiet : Quiet d) :
    Prog.Runs Sound (startBackendDma (rtlBackend cfg rtl v n) p) d fun _ d' => d' = d := by
  rw [Prog.Runs, startBackendDma_quiet hQuiet]
  exact ⟨by simp, (), rfl, rfl⟩

theorem oneBatch_rejected {b : CoralVerilatedBackend (Machine C)} {trace : List Fatal}
    (h : (rtlBackend cfg rtl v n).processEvent d.curTick d.backend = ⟨none, b, trace⟩) :
    oneBatch cfg rtl v p n d = ⟨none, { d with backend := b }, trace.map .fatal⟩ := by
  have hCall : onBackend ((rtlBackend cfg rtl v n).processEvent d.curTick) d =
      ⟨none, { d with backend := b }, trace.map .fatal⟩ := by
    rw [onBackend, h]
  rw [oneBatch, Prog.get_bind, Prog.bind_rejected (by rw [hCall]), hCall]

theorem batch_settled (hSlow : p.fastDma = false) {b : CoralVerilatedBackend (Machine C)}
    {d' : RtlDevice C}
    (hEvent : (rtlBackend cfg rtl v n).processEvent d.curTick d.backend = ⟨some (), b, []⟩)
    (hDma : Prog.Runs Sound (startBackendDma (rtlBackend cfg rtl v n) p) { d with backend := b }
      fun _ e => e = d') :
    Prog.Runs Sound (oneBatch cfg rtl v p n >>= fun _ => finish cfg rtl v p n) d fun _ e =>
      e = settled (rtlBackend cfg rtl v n) d' := by
  have hBatch : Prog.Runs Sound (oneBatch cfg rtl v p n) d fun _ e => e = d' := by
    rw [Prog.Runs, oneBatch_returned hEvent]
    exact hDma
  refine hBatch.bind ?_
  intro _ e hSame
  subst e
  exact finish_slow hSlow d'

/-! ## The callback -/

theorem answerTiming_eq {latency : Nat} {access : ByteMem × ByteMem}
    (hAccess : directAccess p d.memory d.backend.pendingDmaRequest = access) :
    answerTiming cfg rtl v p n latency d =
      completeBackendDma (rtlBackend cfg rtl v n) access.1 { d with
      memory := access.2, curTick := d.curTick + latency, inFlight := false } := by
  simp only [answerTiming, call, enter, Prog.get_bind, hAccess]
  generalize completeBackendDma (rtlBackend cfg rtl v n) access.1 = callback
  rfl

theorem completeBackendDma_taken {data : ByteMem} {model : Machine C} (hActive : d.dmaActive = true)
    (hPending : d.backend.dmaRequestPending = true)
    (hTaken : d.backend.model.dmaComplete (if d.backend.pendingDmaRequest.type = .read then
      some (data, d.backend.pendingDmaRequest.size) else none) false = (model, 0)) :
    Prog.Runs Sound (completeBackendDma (rtlBackend cfg rtl v n) data) d fun _ d' =>
      d' = settled (rtlBackend cfg rtl v n) { d with
        dmaActive := false
        dmaCompletions := d.dmaCompletions + 1
        backend := completed v d.curTick model d.backend } := by
  have hRequest : onBackend (rtlBackend cfg rtl v n).dmaRequest d =
      ⟨some d.backend.pendingDmaRequest, d, []⟩ := by
    rw [onBackend, show (rtlBackend cfg rtl v n).dmaRequest d.backend = _ from
      dmaRequest_pending hPending]
    rfl
  have hComplete : (rtlBackend cfg rtl v n).completeDma d.curTick (some data)
      d.backend.pendingDmaRequest.size false d.backend =
      ⟨some (), completed v d.curTick model d.backend, []⟩ := by
    simp only [rtlBackend, verilated, completeDma, Prog.get_bind, hPending, Option.map_some]
    rw [show (Machine.bridge cfg rtl).dmaComplete (if d.backend.pendingDmaRequest.type = .read then
      some (data, d.backend.pendingDmaRequest.size) else none) false d.backend.model =
        (model, 0) from
      hTaken]
    rfl
  have hCall : onBackend ((rtlBackend cfg rtl v n).completeDma d.curTick (some data)
      d.backend.pendingDmaRequest.size false) { d with dmaActive := false } =
      ⟨some (), { d with
        dmaActive := false, backend := completed v d.curTick model d.backend }, []⟩ := by
    rw [onBackend, hComplete]
    rfl
  apply Prog.Runs.get_bind
  refine Prog.Runs.bind (runs_fatalIf (by simp [hActive])) ?_
  intro _ d' hSame
  subst d'
  refine Prog.Runs.step hRequest (by simp) (Prog.Runs.modify_bind (Prog.Runs.get_bind ?_))
  refine Prog.Runs.step hCall (by simp) (Prog.Runs.modify_bind (Prog.Runs.get_bind ?_))
  refine Prog.Runs.bind (runs_fatalIf rfl) ?_
  intro _ d' hSame
  subst d'
  exact settle_returned _ _

/-! ## The rounds keep the phase -/

theorem Clocked.inWindow {memory : ByteMem} {h h' : Handle} (hWindow : ServedWindow p r)
    (hClocked : Clocked r memory h h') (hPending : h'.dmaPending = true) :
    h'.pendingDma.size ≠ 0 ∧ h'.pendingDma.size ≤ dmaDataBytes ∧
      extmemBase ≤ h'.pendingDma.addr.toNat ∧ p.inWindow (reported h'.pendingDma) = true := by
  obtain ⟨a, hAccepted, ⟨hStart, hEnd⟩, hAddr, hSize⟩ := hClocked.request hPending
  have hPage := hAccepted.page
  simp only [AxiAddr.pageAccepted, Bool.and_eq_true, decide_eq_true_eq] at hPage
  have hPositive : 0 < a.burstBytes := Nat.mul_pos a.bytesPerBeat_pos a.beats_pos
  have hRange := hWindow.range
  rw [NPUDeviceParams.inWindow, hWindow.extmem, reported, hAddr, hSize]
  refine ⟨by omega, hPage.1, by omega, ?_⟩
  simp only [Bool.and_eq_true, decide_eq_true_eq]
  omega

theorem hostWindow_store (memory : ByteMem) (offset size : Nat) (data : ByteMem) :
    hostWindow p (memory.store (p.dmaSharedBase + offset) size data) =
      (hostWindow p memory).store offset size data := by
  funext i
  simp only [hostWindow, ByteMem.store, Nat.add_le_add_iff_left, Nat.add_assoc,
    Nat.add_lt_add_iff_left, Nat.add_sub_add_left]

theorem directAccess_window (hWindow : ServedWindow p r) (memory : ByteMem) {request : DmaRequest}
    (hInside : p.inWindow (reported request) = true) :
    (∀ i < request.size, request.type = .read → (directAccess p memory (reported request)).1 i =
      hostWindow p memory (request.addr.toNat - extmemBase + i)) ∧
    hostWindow p (directAccess p memory (reported request)).2 =
      if request.type = .read then hostWindow p memory else
        (hostWindow p memory).store (request.addr.toNat - extmemBase) request.size
          request.data := by
  have hFits := hWindow.fits
  have hAddr : p.hostAddr (reported request) =
      p.dmaSharedBase + (request.addr.toNat - extmemBase) := by
    simp only [NPUDeviceParams.inWindow, reported, hWindow.extmem, Bool.and_eq_true,
      decide_eq_true_eq] at hInside
    rw [NPUDeviceParams.hostAddr, hWindow.extmem]
    exact Nat.mod_eq_of_lt (by simp only [reported]; omega)
  cases hType : request.type with
  | read =>
    have hReported : (reported request).type = .read := hType
    simp only [directAccess, hReported, hAddr]
    refine ⟨fun i hi _ => ?_, rfl⟩
    rw [ByteMem.store, if_pos ⟨Nat.zero_le i, by rwa [Nat.zero_add]⟩, hostWindow, Nat.sub_zero,
      Nat.add_assoc]
  | write =>
    have hReported : (reported request).type = .write := hType
    simp only [directAccess, hReported, hAddr]
    refine ⟨fun i _ h => ?_, ?_⟩
    · cases h
    · rw [if_neg (by decide)]
      exact hostWindow_store memory _ _ _

section Events

variable (hPorts : rtl.SeesPorts) (hOrderly : Machine.OrderlyRun cfg rtl r m) {clocks rounds : Nat}

include hPorts hOrderly in
theorem Tracks.batch (hTracks : Tracks cfg rtl p r m clocks d)
    (hIdle : d.backend.model.handle.dmaPending = false) (hn : n ≠ 0) :
    ∃ more ≤ n, Machine.Live cfg rtl m (clocks + more) ∧
      Machine.Shadows (Clocked r (hostWindow p d.memory))
        ((Machine.turn cfg rtl)^[clocks + more] m) ((Machine.turn cfg rtl)^[n] d.backend.model) ∧
      (((Machine.turn cfg rtl)^[n] d.backend.model).handle.stopCode = none ∨
        ((Machine.turn cfg rtl)^[n] d.backend.model).handle.dmaPending = true → more ≠ 0) := by
  have hTwin : Machine.Shadows (Twin r (hostWindow p d.memory))
      ((Machine.turn cfg rtl)^[clocks] m) d.backend.model :=
    ⟨hTracks.shadows.core, hTracks.shadows.clocks, hTracks.shadows.handle.twin_of_idle hIdle⟩
  obtain ⟨more, hLess, hLive, hMoves, hShadows⟩ := hTwin.turns hPorts (hOrderly.shift clocks) n
  refine ⟨more, hLess, hTracks.live.add hLive, ?_, fun hGoes => ?_⟩
  · rw [Nat.add_comm, Function.iterate_add_apply]
    exact hShadows
  · refine hMoves hn ?_
    rw [← hTwin.handle.stopCode_eq]
    -- A core that has stopped makes no turn, so it neither goes on nor raises a request.
    by_contra hStopped
    rw [Machine.turn_stopped hStopped] at hGoes
    rcases hGoes with hNone | hPending
    · exact hStopped hNone
    · exact absurd (hIdle.symm.trans hPending) (by decide)

variable (hSlow : p.fastDma = false) (hWindow : ServedWindow p r) (hPeriod : v.rtlTickPeriod ≠ 0)
  (hn : n ≠ 0)
include hPorts hOrderly hSlow hWindow hPeriod hn

theorem TimingPhase.fire (hFits : Fits v n (fireTick d)) (hTracks : Tracks cfg rtl p r m clocks d)
    (hStarted : Started d)
    (hIdle : d.backend.model.handle.dmaPending = false) (hRounds : rounds ≤ 2 * clocks) :
    ∃ clocks' ≤ clocks + n, TimingPhase cfg rtl p r m (rounds + 1) clocks'
      (fire cfg rtl v p n d).result (fire cfg rtl v p n d).state := by
  obtain ⟨more, hLess, hLive, hShadows, hMoves⟩ := hTracks.batch hPorts hOrderly hIdle hn
  refine ⟨clocks + more, Nat.add_le_add_left hLess clocks, ?_⟩
  rw [fire_slow hSlow]
  generalize hFired : { d with
    curTick := fireTick d, backendEvent := none } = e
  have hBackend : e.backend = d.backend := by rw [← hFired]
  have hLater : Fits v n e.curTick := by rw [← hFired]; exact hFits
  have hMemory : e.memory = d.memory := by rw [← hFired]
  have hActive : e.dmaActive = false := by rw [← hFired]; exact hStarted.idle
  have hFlight : e.inFlight = false := by
    rw [← hFired]
    exact hStarted.inFlight.trans hStarted.idle
  have hRequest : e.backend.dmaRequestPending = false := by
    rw [hBackend]
    exact hStarted.request.trans hStarted.idle
  rw [← hBackend] at hShadows hMoves
  rw [← hMemory] at hShadows
  have hStepped := processEvent_stepped (v := v) (b := e.backend) hn hPeriod hLater
    (hBackend ▸ hStarted.running) fun hPending =>
      let h := Clocked.inWindow hWindow hShadows.handle hPending
      ⟨h.1, h.2.1⟩
  generalize hOutcome : (rtlBackend cfg rtl v n).processEvent e.curTick e.backend = o at hStepped
  cases hStepped with
  | goes delay hDue hGoes =>
    obtain ⟨-, _, hResult, hState⟩ := batch_settled hSlow hOutcome
      (quiet_runs ⟨hActive, hRequest⟩)
    rw [hResult, hState]
    refine .going ⟨hLive, hShadows.step hn⟩ ?_ ?_ ?_
    · exact
        { request := hRequest.trans hActive.symm
          inFlight := hFlight.trans hActive.symm
          scheduled := rfl
          running := hBackend ▸ hStarted.running
          pending := hDue
          idle := hActive }
    · exact (Machine.step_handle _ hn).symm ▸ (Handle.stopCode_eq_none.mp hGoes).1
    · have hSome := hMoves (.inl hGoes)
      omega
  | waits hPending =>
    have hInside := Clocked.inWindow hWindow hShadows.handle hPending
    obtain ⟨-, _, hResult, hState⟩ := batch_settled hSlow hOutcome
      (startBackendDma_submits hSlow hActive rfl hInside.2.2.2)
    rw [hResult, hState]
    refine .waiting ⟨hLive, hShadows.step hn⟩ ?_ ?_ ?_
    · exact
        { running := hBackend ▸ hStarted.running
          active := rfl
          inFlight := rfl
          pending := rfl
          request := by
            simp only [settled]
            rw [Machine.step_handle _ hn] }
    · exact (Machine.step_handle _ hn).symm ▸ hPending
    · have hSome := hMoves (.inr hPending)
      omega
  | faults hFaults =>
    have hBatch := oneBatch_rejected (p := p) hOutcome
    rw [Prog.bind_rejected (by rw [hBatch]), hBatch]
    exact .faulted ⟨hLive, hShadows.step hn⟩ (hShadows.handle.stopped hFaults (by decide)).2
  | halts hHalts =>
    obtain ⟨-, _, hResult, hState⟩ := batch_settled hSlow hOutcome
      (quiet_runs ⟨hActive, hRequest⟩)
    obtain ⟨hFree, hStop⟩ := hShadows.handle.stopped hHalts (by decide)
    rw [hResult, hState]
    refine .halted ⟨hLive, hShadows.step hn⟩ ?_ ?_ hStop
    · exact hFlight
    · exact (Machine.step_handle _ hn).symm ▸ hFree

omit hPorts hOrderly hSlow hn in
theorem TimingPhase.callback {latency : Nat} (hFits : Fits v 1 (d.curTick + latency))
    (hTracks : Tracks cfg rtl p r m clocks d) (hWaiting : Waiting d)
    (hPending : d.backend.model.handle.dmaPending = true) (hRounds : rounds + 1 ≤ 2 * clocks) :
    TimingPhase cfg rtl p r m (rounds + 1) clocks (answerTiming cfg rtl v p n latency d).result
      (answerTiming cfg rtl v p n latency d).state := by
  have hClocked := hTracks.shadows.handle
  have hInside := (Clocked.inWindow hWindow hClocked hPending).2.2.2
  obtain ⟨hBytes, hMemory⟩ := directAccess_window hWindow d.memory hInside
  obtain ⟨hTaken, hServed⟩ := hClocked.dmaComplete_eq hPending hBytes
  rw [← hWaiting.request] at hTaken hMemory
  generalize hAccess : directAccess p d.memory d.backend.pendingDmaRequest =
    access at hTaken hMemory
  have hTwin : Twin r (hostWindow p access.2) ((Machine.turn cfg rtl)^[clocks] m).handle
      (peerServe d.backend.model.handle (hostWindow p d.memory)).1 := by
    rw [hMemory, ← hServed]
    exact hClocked.answered
  have hPayload : (if d.backend.pendingDmaRequest.type = .read then
      some (access.1, d.backend.pendingDmaRequest.size) else none) =
      if d.backend.model.handle.pendingDma.type = .read then
        some (access.1, d.backend.model.handle.pendingDma.size) else none := by
    rw [hWaiting.request]
    rfl
  rw [← hPayload] at hTaken
  obtain ⟨model, hModel, hCore, hHandle, hClocks⟩ := Machine.dmaComplete_taken hTaken
  obtain ⟨-, _, hResult, hState⟩ := completeBackendDma_taken
    (d := { d with memory := access.2, curTick := d.curTick + latency, inFlight := false })
    hWaiting.active hWaiting.pending hModel
  rw [answerTiming_eq hAccess, hResult, hState]
  rw [← hHandle] at hTwin
  refine .going ⟨hTracks.live, hCore.trans hTracks.shadows.core,
    hClocks.trans hTracks.shadows.clocks, .twin hTwin⟩ ?_ hTwin.idle_right (by omega)
  exact
    { request := rfl
      inFlight := rfl
      scheduled := rfl
      running := hWaiting.running
      pending := by
        simp only [settled, completed, hWaiting.running, if_true]
        exact hFits.period_ne_zero hPeriod
      idle := rfl }

theorem timingRun_phase (hTracks : Tracks cfg rtl p r m 0 d) (hStarted : Started d)
    (hIdle : d.backend.model.handle.dmaPending = false) {latency : RtlDevice C → Nat} {rounds : Nat}
    (hFits : TimingFits cfg rtl v p n latency rounds d) :
    ∃ clocks ≤ rounds * n, TimingPhase cfg rtl p r m rounds clocks
      (timingRun cfg rtl v p n latency rounds d).result
      (timingRun cfg rtl v p n latency rounds d).state := by
  induction rounds with
  | zero => exact ⟨0, Nat.zero_le _, .going hTracks hStarted hIdle (Nat.zero_le _)⟩
  | succ rounds ih =>
    obtain ⟨clocks, hLess, hPhase⟩ := ih fun k hk => hFits k (Nat.lt_succ_of_lt hk)
    have hLate := hFits rounds (Nat.lt_succ_self rounds)
    have hMore : clocks ≤ (rounds + 1) * n :=
      hLess.trans (Nat.mul_le_mul_right n (Nat.le_succ rounds))
    generalize hResult : (timingRun cfg rtl v p n latency rounds d).result = result at hPhase
    generalize hState : (timingRun cfg rtl v p n latency rounds d).state = e at hPhase
    have hSettled : Prog.Settled isBusy (timingRun cfg rtl v p n latency rounds d) →
        (timingRun cfg rtl v p n latency (rounds + 1) d).result = result ∧
          (timingRun cfg rtl v p n latency (rounds + 1) d).state = e := by
      intro hEnd
      obtain ⟨hSame, hSame'⟩ := Prog.repeatWhile_settled hEnd (Nat.le_succ rounds)
      exact ⟨hSame.trans hResult, hSame'.trans hState⟩
    have hNow : result = some () → isBusy e = true →
        if e.inFlight then Fits v 1 (e.curTick + latency e) else Fits v n (fireTick e) := by
      intro hReturned hBusy
      rw [← hState] at hBusy ⊢
      refine hLate ?_
      rintro (hRejected | hStopped)
      · rw [hResult.trans hReturned] at hRejected
        cases hRejected
      · exact absurd (hBusy.symm.trans hStopped) (by decide)
    have hNext : result = some () → isBusy e = true →
        (timingRun cfg rtl v p n latency (rounds + 1) d).result =
          (timingRound cfg rtl v p n latency e).result ∧
        (timingRun cfg rtl v p n latency (rounds + 1) d).state =
          (timingRound cfg rtl v p n latency e).state := by
      intro hReturned hBusy
      rw [← hState] at hBusy ⊢
      exact Prog.repeatWhile_snoc (hResult.trans hReturned) hBusy
    cases hPhase with
    | going hTracks' hStarted' hIdle' hRounds =>
      have hBusy : isBusy e = true := by rw [isBusy, hStarted'.isScheduled, Bool.true_or]
      obtain ⟨hSame, hSame'⟩ := hNext rfl hBusy
      have hFlight : e.inFlight = false := hStarted'.inFlight.trans hStarted'.idle
      have hFire := hNow rfl hBusy
      rw [if_neg (by simp [hFlight])] at hFire
      rw [hSame, hSame', timingRound, Prog.get_bind, if_neg (by simp [hFlight])]
      obtain ⟨clocks', hFew, hFired⟩ := TimingPhase.fire hPorts hOrderly hSlow hWindow hPeriod hn
        hFire hTracks' hStarted' hIdle' hRounds
      refine ⟨clocks', ?_, hFired⟩
      rw [Nat.succ_mul]
      omega
    | waiting hTracks' hWaiting hPending hRounds =>
      have hBusy : isBusy e = true := by rw [isBusy, hWaiting.inFlight, Bool.or_true]
      obtain ⟨hSame, hSame'⟩ := hNext rfl hBusy
      have hAnswer := hNow rfl hBusy
      rw [if_pos hWaiting.inFlight] at hAnswer
      rw [hSame, hSame', timingRound, Prog.get_bind, if_pos hWaiting.inFlight]
      exact ⟨clocks, hMore, TimingPhase.callback hWindow hPeriod hAnswer hTracks' hWaiting hPending
        hRounds⟩
    | halted hTracks' hBusy hIdle' hHalted =>
      obtain ⟨hSame, hSame'⟩ := hSettled (.inr (by rw [hState, hBusy]))
      rw [hSame, hSame']
      exact ⟨clocks, hMore, .halted hTracks' hBusy hIdle' hHalted⟩
    | faulted hTracks' hFaulted =>
      obtain ⟨hSame, hSame'⟩ := hSettled (.inl hResult)
      rw [hSame, hSame']
      exact ⟨clocks, hMore, .faulted hTracks' hFaulted⟩

end Events
end Rounds
end OpenNpux.Device.NPUDevice
