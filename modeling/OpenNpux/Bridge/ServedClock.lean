import OpenNpux.Bridge.DeferredPath

/-!
# A clock and the answer to its request

A bridge without a local EXTMEM leaves a data request in its slot, and a peer answers it
before the next clock. If a clock hands over at most one data request, inside the memory
of the peer, the core cannot tell this bridge from one that answers from its local EXTMEM:
both drive its ports alike, and their memories stay the same.
-/

namespace OpenNpux.Bridge

open Lib Hybrid

/-- The part of EXTMEM that the peer serves. -/
structure ServedRange where
  offset : Nat
  size : Nat
  inside : offset + size ≤ extmemSize

/-- The burst lies in the served part of EXTMEM. -/
def ServedRange.Holds (r : ServedRange) (a : AxiAddr) : Prop :=
  extmemBase + r.offset ≤ a.addr.toNat ∧
    a.addr.toNat + a.burstBytes ≤ extmemBase + r.offset + r.size

instance (r : ServedRange) (a : AxiAddr) : Decidable (r.Holds a) :=
    inferInstanceAs (Decidable (_ ∧ _))

/-- A data request that the builders accept lies in the served part of EXTMEM. -/
def InServed (r : ServedRange) (a : AxiAddr) : Prop :=
  a.Accepted → inRegisterWindow a = false → r.Holds a

/-- What a clock hands over: requests inside the served memory, and not two data requests. -/
structure Orderly (r : ServedRange) (h : Handle) (c : CoreClock) : Prop where
  read : ∀ a, (h.masterRead.onFallingEdge c.readPins).2 = some a → InServed r a
  write : ∀ a data, (h.masterWrite.onFallingEdge c.writePins).2 = some (a, data) → InServed r a
  single : ∀ a b data, (h.masterRead.onFallingEdge c.readPins).2 = some a →
    (h.masterWrite.onFallingEdge c.writePins).2 = some (b, data) →
    inRegisterWindow a = true ∨ inRegisterWindow b = true

/-- The bridge with its local EXTMEM, and the bridge whose peer has the given memory. -/
structure Twin (r : ServedRange) (memory : ByteMem) (h h' : Handle) : Prop where
  enabled : h.localExtmemEnabled = true
  idle : h.dmaPending = false
  rtlMode : h.operatorMode = OperatorMode.rtl.code
  bytes : ∀ offset, r.offset ≤ offset → offset < r.offset + r.size →
    h.localExtmem offset = memory offset
  same : ∃ extmem slot beatSize beatCount, h' = { h with
    localExtmemEnabled := false, localExtmem := extmem, pendingDma := slot
    dmaBeatSize := beatSize, dmaBeatCount := beatCount }

/-- The two bridges after a clock: twins, or a request answered in one and left in the slot of
the other. -/
inductive Clocked (r : ServedRange) (memory : ByteMem) : Handle → Handle → Prop
  | twin {h h' : Handle} (hTwin : Twin r memory h h') : Clocked r memory h h'
  | read {g g' : Handle} (a : AxiAddr) (hTwin : Twin r memory g g') (hAccepted : a.Accepted)
      (hInside : r.Holds a) : Clocked r memory (g.serveRead a) (g'.deferRead a)
  | write {g g' : Handle} (a : AxiAddr) (data : List AxiWData) (hTwin : Twin r memory g g')
      (hAccepted : a.Accepted) (hInside : r.Holds a) :
      Clocked r memory (g.serveWrite a data) (g'.deferWrite a data)

/-- What a clock of a step does after the edges of the drivers. -/
def Handle.afterEdges (h : Handle) (c : CoreClock) : Handle :=
  { h with
    halted := c.halted, wfi := c.wfi, faultSeen := h.faultSeen || c.fault
    customMac := h.customMac.stepIfActive }

section Clock

variable {F : Type} {cfg : BridgeConfig F} {r : ServedRange} {memory : ByteMem} {h h' : Handle}

theorem Twin.update (hTwin : Twin r memory h h') (f : Handle → Handle)
    (hEnabled : (f h).localExtmemEnabled = h.localExtmemEnabled)
    (hPending : (f h).dmaPending = h.dmaPending) (hMode : (f h).operatorMode = h.operatorMode)
    (hExtmem : (f h).localExtmem = h.localExtmem)
    (hSame : ∀ extmem slot beatSize beatCount, f { h with
        localExtmemEnabled := false, localExtmem := extmem, pendingDma := slot
        dmaBeatSize := beatSize, dmaBeatCount := beatCount } = { f h with
        localExtmemEnabled := false, localExtmem := extmem, pendingDma := slot
        dmaBeatSize := beatSize, dmaBeatCount := beatCount }) :
    Twin r memory (f h) (f h') := by
  obtain ⟨extmem, slot, beatSize, beatCount, rfl⟩ := hTwin.same
  exact ⟨hEnabled.trans hTwin.enabled, hPending.trans hTwin.idle, hMode.trans hTwin.rtlMode,
    fun offset hLow hHigh => by rw [hExtmem, hTwin.bytes offset hLow hHigh],
    extmem, slot, beatSize, beatCount, hSame _ _ _ _⟩

theorem Twin.afterEdges (hTwin : Twin r memory h h') (c : CoreClock) :
    Twin r memory (h.afterEdges c) (h'.afterEdges c) :=
  hTwin.update (·.afterEdges c) rfl rfl rfl rfl fun _ _ _ _ => rfl

theorem Twin.queueRead (hTwin : Twin r memory h h') (beats : List AxiRData) :
    Twin r memory (h.queueRead beats) (h'.queueRead beats) :=
  hTwin.update (·.queueRead beats) rfl rfl rfl rfl fun _ _ _ _ => rfl

theorem Handle.serveRead_afterEdges (h : Handle) (a : AxiAddr) (c : CoreClock) :
    (h.serveRead a).afterEdges c = (h.afterEdges c).serveRead a := by
  simp only [serveRead, afterEdges, queueRead]

theorem Handle.serveWrite_afterEdges (h : Handle) (a : AxiAddr) (data : List AxiWData)
    (c : CoreClock) :
    (h.serveWrite a data).afterEdges c = (h.afterEdges c).serveWrite a data := by
  simp only [serveWrite, afterEdges, queueWrite]

theorem Clocked.afterEdges (hClocked : Clocked r memory h h') (c : CoreClock) :
    Clocked r memory (h.afterEdges c) (h'.afterEdges c) := by
  cases hClocked with
  | twin hTwin => exact .twin (hTwin.afterEdges c)
  | read a hTwin hAccepted hInside =>
    rw [Handle.serveRead_afterEdges]
    exact .read a (hTwin.afterEdges c) hAccepted hInside
  | write a data hTwin hAccepted hInside =>
    rw [Handle.serveWrite_afterEdges]
    exact .write a data (hTwin.afterEdges c) hAccepted hInside

theorem ServedRange.Holds.inAperture {a : AxiAddr} (hInside : r.Holds a) : InAperture a := by
  obtain ⟨hStart, hEnd⟩ := hInside
  have hFits := r.inside
  exact ⟨by omega, by omega⟩

theorem Twin.servedLocally (hTwin : Twin r memory h h') {a : AxiAddr}
    (hInside : r.Holds a) :
    Bridge.servedLocally h a = true ∧ Bridge.servedLocally h' a = false := by
  obtain ⟨extmem, slot, beatSize, beatCount, rfl⟩ := hTwin.same
  exact ⟨hInside.inAperture.servedLocally hTwin.enabled, rfl⟩

/-! ## Requests to the register windows -/

/-- What the register windows and the write driver answer from. -/
structure SameRegisters (h g : Handle) : Prop where
  masterWrite : g.masterWrite = h.masterWrite
  customMac : g.customMac = h.customMac
  firmwareProgress : g.firmwareProgress = h.firmwareProgress
  operatorMode : g.operatorMode = h.operatorMode
  hybridStatus : g.hybridStatus = h.hybridStatus

theorem Twin.sameRegisters (hTwin : Twin r memory h h') : SameRegisters h h' := by
  obtain ⟨extmem, slot, beatSize, beatCount, rfl⟩ := hTwin.same
  exact ⟨rfl, rfl, rfl, rfl, rfl⟩

theorem Twin.masterRead_eq (hTwin : Twin r memory h h') : h'.masterRead = h.masterRead := by
  obtain ⟨extmem, slot, beatSize, beatCount, rfl⟩ := hTwin.same
  rfl

theorem Handle.readCallback_sameRegisters (h : Handle) (a : AxiAddr) :
    SameRegisters h (h.readCallback cfg a) := by
  have hTaken := h.readCallback_taken cfg a
  generalize h.readCallback cfg a = taken at hTaken
  cases hTaken <;> exact ⟨rfl, rfl, rfl, rfl, rfl⟩

variable (cfg) in
theorem Handle.readCallback_register (h : Handle) {a : AxiAddr}
    (hWindow : inRegisterWindow a = true) :
    ∃ beats, ∀ g, SameRegisters h g → g.readCallback cfg a = g.queueRead beats := by
  cases hHybrid : isHybridWordAccess a with
  | true =>
    refine ⟨[{
      data := wordLanes a (h.operatorRegister cfg a.addr.toNat), id := a.id, last := true }],
      fun g hSame => ?_⟩
    rw [readCallback, if_pos hHybrid, operatorRegister, operatorRegister, hSame.operatorMode,
      hSame.hybridStatus]
  | false =>
    have hMac : Gem5CustomMac.contains a.addr.toNat 4 = true := by
      rwa [inRegisterWindow, hHybrid, Bool.false_or] at hWindow
    by_cases hWord : isCustomWordAccess a = true
    · refine ⟨[{ data := wordLanes a (h.macRegister a.addr.toNat), id := a.id, last := true }],
        fun g hSame => ?_⟩
      rw [readCallback, hHybrid, if_neg Bool.false_ne_true, if_pos hMac, if_pos hWord, macRegister,
        macRegister, hSame.customMac, hSame.firmwareProgress]
    · refine ⟨[{ id := a.id, resp := axiSlvErr, last := true }], fun g _ => ?_⟩
      rw [readCallback, hHybrid, if_neg Bool.false_ne_true, if_pos hMac, if_neg hWord]

variable (cfg) in
theorem Handle.writeCallback_register (h : Handle) {a : AxiAddr} (data : List AxiWData)
    (hMode : h.operatorMode = OperatorMode.rtl.code) (hWindow : inRegisterWindow a = true) :
    ∃ response customMac firmwareProgress, ∀ g, SameRegisters h g → g.writeCallback cfg a data =
      { g with customMac, firmwareProgress }.queueWrite response := by
  cases hHybrid : isHybridWordAccess a with
  | true =>
    refine ⟨{ id := a.id, resp := axiSlvErr }, h.customMac, h.firmwareProgress, fun g hSame => ?_⟩
    have hNoDoorbell : ∀ command, g.isOperatorDoorbell a command = false := by
      intro command
      rw [isOperatorDoorbell, hSame.operatorMode, hMode]
      simp [OperatorMode.code]
    rw [writeCallback, if_pos hHybrid, hybridWrite, hNoDoorbell, Bool.and_false,
      if_neg Bool.false_ne_true, ← hSame.customMac, ← hSame.firmwareProgress]
  | false =>
    have hMac : Gem5CustomMac.contains a.addr.toNat 4 = true := by
      rwa [inRegisterWindow, hHybrid, Bool.false_or] at hWindow
    have hMacWrite : ∀ g : Handle, g.writeCallback cfg a data = g.macWrite a data := by
      intro g
      rw [writeCallback, hHybrid, if_neg Bool.false_ne_true, if_pos hMac]
    by_cases hWord : (isCustomWordAccess a && isWordWrite a data) = true
    · by_cases hProgress : a.addr.toNat = firmwareProgressAddr
      · refine ⟨{ id := a.id }, h.customMac, laneWord a (data.headD {}).data, fun g hSame => ?_⟩
        rw [hMacWrite, macWrite, if_pos hWord, if_pos hProgress, ← hSame.customMac]
      · refine ⟨{ id := a.id },
          h.customMac.write32 a.addr.toNat (UInt32.ofNat (laneWord a (data.headD {}).data)),
          h.firmwareProgress, fun g hSame => ?_⟩
        rw [hMacWrite, macWrite, if_pos hWord, if_neg hProgress, ← hSame.customMac,
          ← hSame.firmwareProgress]
    · refine ⟨{ id := a.id, resp := axiSlvErr }, h.customMac, h.firmwareProgress, fun g hSame => ?_⟩
      rw [hMacWrite, macWrite, if_neg hWord, ← hSame.customMac, ← hSame.firmwareProgress]

/-! ## The edges -/

variable (cfg) in
theorem Twin.readCallback (hTwin : Twin r memory h h') {a : AxiAddr}
    (hServed : InServed r a) :
    Twin r memory (h.readCallback cfg a) (h'.readCallback cfg a) ∨
      inRegisterWindow a = false ∧ a.Accepted ∧ r.Holds a ∧
        h.readCallback cfg a = h.serveRead a ∧ h'.readCallback cfg a = h'.deferRead a := by
  cases hWindow : inRegisterWindow a with
  | true =>
    obtain ⟨beats, hBeats⟩ := h.readCallback_register cfg hWindow
    rw [hBeats h ⟨rfl, rfl, rfl, rfl, rfl⟩, hBeats h' hTwin.sameRegisters]
    exact .inl (hTwin.queueRead beats)
  | false =>
    by_cases hAccepted : a.Accepted
    · have hInside := hServed hAccepted hWindow
      obtain ⟨hLocal, hRemote⟩ := hTwin.servedLocally hInside
      exact .inr ⟨rfl, hAccepted, hInside, h.readCallback_served cfg hWindow hAccepted hLocal,
        h'.readCallback_deferred cfg hWindow hAccepted hRemote⟩
    · rw [h.readCallback_rejected cfg hWindow hAccepted,
        h'.readCallback_rejected cfg hWindow hAccepted]
      exact .inl (hTwin.queueRead _)

theorem Twin.writeCallback (hTwin : Twin r memory h h') {a : AxiAddr}
    (data : List AxiWData) (hServed : InServed r a) :
    Clocked r memory (h.writeCallback cfg a data) (h'.writeCallback cfg a data) := by
  cases hWindow : inRegisterWindow a with
  | true =>
    obtain ⟨response, mac, progress, hWrite⟩ :=
      h.writeCallback_register cfg data hTwin.rtlMode hWindow
    rw [hWrite h ⟨rfl, rfl, rfl, rfl, rfl⟩, hWrite h' hTwin.sameRegisters]
    exact .twin (hTwin.update (fun g => { g with
      customMac := mac, firmwareProgress := progress }.queueWrite response)
      rfl rfl rfl rfl fun _ _ _ _ => rfl)
  | false =>
    by_cases hBuilt : a.Accepted ∧ CompleteBeats a data
    · have hInside := hServed hBuilt.1 hWindow
      obtain ⟨hLocal, hRemote⟩ := hTwin.servedLocally hInside
      rw [h.writeCallback_served cfg hWindow hBuilt hLocal,
        h'.writeCallback_deferred cfg hWindow hBuilt hRemote]
      exact .write a data hTwin hBuilt.1 hInside
    · rw [h.writeCallback_rejected cfg hWindow hBuilt, h'.writeCallback_rejected cfg hWindow hBuilt]
      obtain ⟨extmem, slot, beatSize, beatCount, rfl⟩ := hTwin.same
      exact .twin ⟨hTwin.enabled, hTwin.idle, hTwin.rtlMode, hTwin.bytes, _, _, _, _, rfl⟩

variable (cfg) in
theorem Handle.writeEdge_register (h : Handle) {pins : WritePins}
    (hMode : h.operatorMode = OperatorMode.rtl.code)
    (hRegister : ∀ a data, (h.masterWrite.onFallingEdge pins).2 = some (a, data) →
      inRegisterWindow a = true) :
    ∃ masterWrite customMac firmwareProgress, ∀ g, SameRegisters h g → g.writeEdge cfg pins =
      { g with masterWrite, customMac, firmwareProgress } := by
  cases hEdge : (h.masterWrite.onFallingEdge pins).2 with
  | none =>
    refine ⟨(h.masterWrite.onFallingEdge pins).1, h.customMac, h.firmwareProgress,
      fun g hSame => ?_⟩
    simp only [writeEdge, hSame.masterWrite, hEdge, ← hSame.customMac, ← hSame.firmwareProgress]
  | some request =>
    obtain ⟨a, data⟩ := request
    obtain ⟨response, mac, progress, hWrite⟩ :=
      { h with masterWrite := (h.masterWrite.onFallingEdge pins).1 }.writeCallback_register cfg
        data hMode (hRegister a data hEdge)
    refine ⟨(h.masterWrite.onFallingEdge pins).1.queueResponse response, mac, progress,
      fun g hSame => ?_⟩
    have hTaken : SameRegisters { h with masterWrite := (h.masterWrite.onFallingEdge pins).1 }
        { g with masterWrite := (h.masterWrite.onFallingEdge pins).1 } :=
      ⟨rfl, hSame.customMac, hSame.firmwareProgress, hSame.operatorMode, hSame.hybridStatus⟩
    simp only [writeEdge, hSame.masterWrite, hEdge]
    rw [hWrite _ hTaken]
    rfl

theorem Twin.writeEdge (hTwin : Twin r memory h h') {pins : WritePins}
    (hServed : ∀ a data, (h.masterWrite.onFallingEdge pins).2 = some (a, data) → InServed r a) :
    Clocked r memory (h.writeEdge cfg pins) (h'.writeEdge cfg pins) := by
  have hTaken := hTwin.update (fun g => { g with
    masterWrite := (h.masterWrite.onFallingEdge pins).1 }) rfl rfl rfl rfl fun _ _ _ _ => rfl
  rw [Handle.writeEdge, Handle.writeEdge, hTwin.sameRegisters.masterWrite]
  cases hEdge : (h.masterWrite.onFallingEdge pins).2 with
  | none => exact .twin hTaken
  | some request =>
    obtain ⟨a, data⟩ := request
    exact hTaken.writeCallback data (hServed a data hEdge)

theorem Twin.writeEdge_afterRead (hTwin : Twin r memory h h') {a : AxiAddr} {pins : WritePins}
    (hAccepted : a.Accepted) (hInside : r.Holds a)
    (hRegister : ∀ b data, (h.masterWrite.onFallingEdge pins).2 = some (b, data) →
      inRegisterWindow b = true) :
    Clocked r memory ((h.serveRead a).writeEdge cfg pins)
      ((h'.deferRead a).writeEdge cfg pins) := by
  obtain ⟨driver, mac, progress, hEdge⟩ := h.writeEdge_register cfg hTwin.rtlMode hRegister
  have hSame := hTwin.sameRegisters
  rw [hEdge (h.serveRead a) ⟨rfl, rfl, rfl, rfl, rfl⟩, hEdge (h'.deferRead a) ⟨hSame.masterWrite,
    hSame.customMac, hSame.firmwareProgress, hSame.operatorMode, hSame.hybridStatus⟩]
  have hWritten := hTwin.update (fun g => { g with
    masterWrite := driver, customMac := mac, firmwareProgress := progress })
    rfl rfl rfl rfl fun _ _ _ _ => rfl
  have hRead := Clocked.read a hWritten hAccepted hInside
  simpa only [Handle.serveRead, Handle.queueRead, Handle.deferRead] using hRead

/-- The read driver observes the clock first, and at most one of the two drivers hands over a
data request. -/
theorem Twin.edges (hTwin : Twin r memory h h')
    {readPins : ReadPins} {writePins : WritePins}
    (hRead : ∀ a, (h.masterRead.onFallingEdge readPins).2 = some a → InServed r a)
    (hWrite : ∀ a data, (h.masterWrite.onFallingEdge writePins).2 = some (a, data) → InServed r a)
    (hSingle : ∀ a b data, (h.masterRead.onFallingEdge readPins).2 = some a →
      (h.masterWrite.onFallingEdge writePins).2 = some (b, data) →
      inRegisterWindow a = true ∨ inRegisterWindow b = true) :
    Clocked r memory ((h.readEdge cfg readPins).writeEdge cfg writePins)
      ((h'.readEdge cfg readPins).writeEdge cfg writePins) := by
  have hTaken := hTwin.update (fun g => { g with
    masterRead := (h.masterRead.onFallingEdge readPins).1 }) rfl rfl rfl rfl fun _ _ _ _ => rfl
  rw [Handle.readEdge, Handle.readEdge, hTwin.masterRead_eq]
  cases hEdge : (h.masterRead.onFallingEdge readPins).2 with
  | none => exact hTaken.writeEdge hWrite
  | some a =>
    rcases hTaken.readCallback cfg (hRead a hEdge) with hBoth | ⟨hWindow, hAccepted,
      hInside, hServe, hDefer⟩
    · refine hBoth.writeEdge ?_
      rw [(Handle.readCallback_sameRegisters _ a).masterWrite]
      exact hWrite
    · simp only [hServe, hDefer]
      exact hTaken.writeEdge_afterRead hAccepted hInside fun b data hb =>
        (hSingle a b data hEdge hb).resolve_left (by rw [hWindow]; simp)

/-! ## The clock -/

theorem Twin.stepClock (hTwin : Twin r memory h h') {c : CoreClock}
    (hOrderly : Orderly r h c) :
    Clocked r memory (h.stepClock cfg c) (h'.stepClock cfg c) := by
  have hStart : Twin r memory { h with rtlCycles := h.rtlCycles + 1 }
      { h' with rtlCycles := h'.rtlCycles + 1 } :=
    hTwin.update (fun g => { g with rtlCycles := g.rtlCycles + 1 }) rfl rfl rfl rfl
      fun _ _ _ _ => rfl
  change Clocked r memory
    ((({ h with rtlCycles := h.rtlCycles + 1 }.readEdge cfg c.readPins).writeEdge cfg
      c.writePins).afterEdges c)
    ((({ h' with rtlCycles := h'.rtlCycles + 1 }.readEdge cfg c.readPins).writeEdge cfg
      c.writePins).afterEdges c)
  exact (hStart.edges hOrderly.read hOrderly.write hOrderly.single).afterEdges c

theorem dataBeats_congr {a : AxiAddr} {source source' : Nat → UInt8}
    (hSource : ∀ i < a.burstBytes, source i = source' i) :
    dataBeats (readRequest a) a.bytesPerBeat a.beats source =
      dataBeats (readRequest a) a.bytesPerBeat a.beats source' := by
  refine List.map_congr_left fun beat hBeat => ?_
  have hLanes : ∀ i < a.bytesPerBeat, source (beat * a.bytesPerBeat + i) =
      source' (beat * a.bytesPerBeat + i) := by
    intro i hi
    refine hSource _ ?_
    calc
      beat * a.bytesPerBeat + i < (beat + 1) * a.bytesPerBeat := by rw [Nat.succ_mul]; omega
      _ ≤ a.beats * a.bytesPerBeat := Nat.mul_le_mul_right _ (List.mem_range.mp hBeat)
      _ = a.burstBytes := Nat.mul_comm _ _
  congr 1
  funext l
  simp only [laneCopy]
  split
  · rename_i hActive
    exact hLanes _ (by omega)
  · rfl

theorem Clocked.answered (hClocked : Clocked r memory h h') :
    Twin r (peerServe h' memory).2 h (peerServe h' memory).1 := by
  cases hClocked with
  | twin hTwin =>
    rw [peerServe_idle]
    · exact hTwin
    · obtain ⟨extmem, slot, beatSize, beatCount, rfl⟩ := hTwin.same
      exact hTwin.idle
  | @read g g' a hTwin hAccepted hInside =>
    rw [peerServe_deferRead]
    obtain ⟨extmem, slot, beatSize, beatCount, rfl⟩ := hTwin.same
    obtain ⟨hStart, hEnd⟩ := hInside
    have hBytes : ∀ i < a.burstBytes, g.localExtmem (a.addr.toNat - extmemBase + i) =
        memory (a.addr.toNat - extmemBase + i) := fun i hi => hTwin.bytes _ (by omega) (by omega)
    have hBeats := dataBeats_congr hBytes
    refine ⟨hTwin.enabled, hTwin.idle, hTwin.rtlMode, hTwin.bytes, extmem, {}, a.bytesPerBeat,
      a.beats, ?_⟩
    simp only [Handle.serveRead, Handle.queueRead, hBeats, hTwin.idle]
  | @write g g' a data hTwin hAccepted hInside =>
    rw [peerServe_deferWrite]
    obtain ⟨extmem, slot, beatSize, beatCount, rfl⟩ := hTwin.same
    refine ⟨hTwin.enabled, hTwin.idle, hTwin.rtlMode, fun offset hLow hHigh => ?_, extmem, {},
      beatSize, beatCount, ?_⟩
    · simp only [Handle.serveWrite_localExtmem, ByteMem.store, hTwin.bytes offset hLow hHigh]
    · simp only [Handle.serveWrite, Handle.queueWrite, hTwin.idle]

end Clock
end OpenNpux.Bridge
