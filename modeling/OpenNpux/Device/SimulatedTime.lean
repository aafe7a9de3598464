import OpenNpux.Device.Wakeup

/-!
# Simulated time and executed cycles

In timing mode an event charges the cycles it executed by scheduling the next event that
much later. A completed request, and a write of `RESET_CONTROL` that starts the backend,
schedule it one period after themselves instead, whatever the last event still owes. The
last call that did so decides when the next event comes, and if its tick overflows the
event comes too early or not at all.
-/

namespace OpenNpux.Device.NPUDevice

open Lib Bridge CoralVerilatedBackend

variable {M : Type} {br : CoralBridge M} {v : VerilatedParams} {p : NPUDeviceParams}
  {d : NPUDevice (CoralVerilatedBackend M)}

section Rearm

variable (br : CoralBridge M) (v : VerilatedParams) (p : NPUDeviceParams)

/-- The event's batch raises a request outside the window, which is answered at once. -/
def rejects (d : NPUDevice (CoralVerilatedBackend M)) : Bool :=
  d.backend.running && !d.dmaActive && decide ((batch br v d.backend).2 = 2) &&
    match br.dmaRequestGet (batch br v d.backend).1 with
    | none => false
    | some request => !p.inWindow {
        type := request.type, addr := request.addr.toNat, size := request.size
        data := request.data }

/-- The event's batch ends with the backend going on. -/
def proceeds (d : NPUDevice (CoralVerilatedBackend M)) : Bool :=
  d.backend.running && decide ((batch br v d.backend).2 = 3 ∨ (batch br v d.backend).2 = 0)

/-- The tick and the delay of the last call that scheduled the next event, after one more call. -/
def scheduling (last : Option (Nat × Nat)) (d : NPUDevice (CoralVerilatedBackend M)) (c : Call) :
    Option (Nat × Nat) :=
  let rearmed := some (d.curTick + c.delay, v.rtlTickPeriod)
  match c.entry with
  | .write addr size data =>
    if isResetControl p addr size && (br.mmioWrite resetControlOffset 4 data d.backend.model).2 then
      if data.load 0 4 % 4 = 0 then rearmed else none
    else last
  | .dmaCallback _ => if d.backend.running then rearmed else none
  | .backendEvent =>
    if rejects br v p d then rearmed
    else if proceeds br v d then
      some (d.curTick + c.delay, executedDelay v (batchCycles br v d.backend))
    else none
  | _ => last

/-- The last call of a run that scheduled the next event. -/
def lastScheduling : Option (Nat × Nat) → NPUDevice (CoralVerilatedBackend M) → List Call →
    Option (Nat × Nat)
  | last, _, [] => last
  | last, d, c :: cs =>
    lastScheduling (scheduling br v p last d c) (d.next (verilated br v) p c) cs

end Rearm

/-- Where the backend expects its event, given the last call that scheduled it. -/
def dueTick : Option (Nat × Nat) → Nat
  | none => 0
  | some (tick, delay) => tickAfter tick delay

/-- An event scheduled at this tick with this delay is not early, if it is one. -/
def PaidBy (paid : Nat) (scheduled : Nat × Nat) : Prop :=
  tickAfter scheduled.1 scheduled.2 = 0 ∨ paid ≤ tickAfter scheduled.1 scheduled.2

instance (paid : Nat) (scheduled : Nat × Nat) : Decidable (PaidBy paid scheduled) :=
  inferInstanceAs (Decidable (_ ∨ _))

theorem dueTick_paid_iff (paid : Nat) (last : Option (Nat × Nat)) :
    (∀ tick ∈ if dueTick last != 0 then some (dueTick last) else none, paid ≤ tick) ↔
      ∀ scheduled ∈ last, PaidBy paid scheduled := by
  cases last with
  | none => simp [dueTick]
  | some scheduled =>
    simp only [dueTick, Option.mem_some_iff, forall_eq', PaidBy]
    by_cases hNone : tickAfter scheduled.1 scheduled.2 = 0
    · simp [hNone]
    · simp [hNone]

/-! ## The event -/

/-- The backend holds a request outside the window that the device has not taken. -/
def HoldsRejected (p : NPUDeviceParams) (d : NPUDevice (CoralVerilatedBackend M)) : Prop :=
  d.dmaActive = false ∧ d.backend.dmaRequestPending = true ∧
    p.inWindow d.backend.pendingDmaRequest = false

theorem startBackendDma_timing (hTiming : p.fastDma = false) :
    Prog.Ensures (fun _ => True) (startBackendDma (verilated br v) p) d fun _ d' =>
      (HoldsRejected p d → ∃ model, d'.backend = completed v d.curTick model d.backend) ∧
        (¬ HoldsRejected p d → d'.backend = d.backend) := by
  apply Prog.Ensures.get_bind
  apply Prog.Ensures.ite
  · rintro ⟨hFree, hRequest : d.backend.dmaRequestPending = true⟩
    have hTaken : (verilated br v).dmaRequest d.backend =
      ⟨some d.backend.pendingDmaRequest, d.backend, []⟩ := dmaRequest_pending hRequest
    apply ensures_onBackend_bind (fun _ _ => trivial)
    rw [hTaken]
    rintro _ ⟨rfl⟩
    apply Prog.Ensures.ite
    · intro hWindow
      apply Prog.Ensures.modify_bind
      apply Prog.Ensures.ite
      · intro hFast
        rw [hTiming] at hFast
        cases hFast
      · intro _
        apply Prog.Ensures.emit_bind trivial
        apply Prog.Ensures.modify
        constructor
        · rintro ⟨_, _, hOutside⟩
          rw [hWindow] at hOutside
          cases hOutside
        · exact fun _ => rfl
    · intro hWindow
      have hHolds : HoldsRejected p d := ⟨hFree, hRequest, by simpa using hWindow⟩
      apply Prog.Ensures.emit_bind trivial
      apply Prog.Ensures.anyEvent
      apply completeBackendDmaError_keepsProtocol
      · exact hFree
      · exact hRequest
      · exact fun model => ⟨fun _ => ⟨model, rfl⟩, fun hNot => absurd hHolds hNot⟩
  · intro hNone
    apply Prog.Ensures.pure
    constructor
    · rintro ⟨hFree, hRequest, _⟩
      exact absurd ⟨hFree, hRequest⟩ hNone
    · exact fun _ => rfl

theorem holdsRejected_iff (h : Served d) {now : Nat} {b : CoralVerilatedBackend M}
    (hProcessed : Processed br v now d.backend b) :
    HoldsRejected p { d with backend := b } ↔ rejects br v p d = true := by
  have hOld : d.dmaActive = false → d.backend.dmaRequestPending = true → False := by
    intro hFree hRequest
    rw [h.request, hFree] at hRequest
    cases hRequest
  cases hProcessed with
  | idle hIdle =>
    simp only [HoldsRejected, rejects, hIdle, Bool.false_and, Bool.false_eq_true, iff_false]
    exact fun hHolds => hOld hHolds.1 hHolds.2.1
  | proceeds hRunning hResult =>
    have hNot : (batch br v d.backend).2 ≠ 2 := by omega
    simp only [HoldsRejected, rejects, hNot, decide_false, Bool.and_false, Bool.false_and,
      Bool.false_eq_true, iff_false]
    exact fun hHolds => hOld hHolds.1 hHolds.2.1
  | waits hRunning hResult request hRequest hSize =>
    simp [HoldsRejected, rejects, hRunning, hResult, hRequest]
  | halts hRunning hResult hOther =>
    simp only [HoldsRejected, rejects, hOther.1, decide_false, Bool.and_false, Bool.false_and,
      Bool.false_eq_true, iff_false]
    exact fun hHolds => hOld hHolds.1 hHolds.2.1

theorem due_processed {now : Nat} {b : CoralVerilatedBackend M}
    (hProcessed : Processed br v now d.backend b) :
    b.pendingEventTick = dueTick
      (if proceeds br v d then some (now, executedDelay v (batchCycles br v d.backend))
        else none) := by
  cases hProcessed with
  | idle hIdle => simp [proceeds, hIdle, dueTick]
  | proceeds hRunning hResult => simp [NPUDevice.proceeds, hRunning, hResult, dueTick]
  | waits hRunning hResult => simp [proceeds, hResult, dueTick]
  | halts hRunning hResult hOther =>
    have hNot : ¬ ((batch br v d.backend).2 = 3 ∨ (batch br v d.backend).2 = 0) := by omega
    simp [proceeds, hNot, dueTick]

theorem rejects_running (hRejects : rejects br v p d = true) : d.backend.running = true := by
  simp only [rejects, Bool.and_eq_true] at hRejects
  exact hRejects.1.1.1

theorem processed_running {now : Nat} {b : CoralVerilatedBackend M}
    (hProcessed : Processed br v now d.backend b) (hResult : (batch br v d.backend).2 = 2) :
    b.running = d.backend.running := by
  cases hProcessed with
  | idle => rfl
  | proceeds => rfl
  | waits => rfl
  | halts _ _ hOther => exact absurd hResult hOther.1

theorem processBackendEvent_due (hTiming : p.fastDma = false) (h : Served d) :
    Prog.Ensures (fun _ => True) (processBackendEvent (verilated br v) p) d fun _ d' =>
      d'.backend.pendingEventTick =
        dueTick (scheduling br v p none d ⟨0, .backendEvent⟩) := by
  let I : NPUDevice (CoralVerilatedBackend M) → Prop := fun d' =>
    d'.backend.pendingEventTick = dueTick (scheduling br v p none d ⟨0, .backendEvent⟩)
  apply processBackendEvent_ensures (I := I) (J := I)
  · rw [batchBudget, if_neg (by simp [hTiming])]
    apply Prog.Ensures.get_bind
    apply ensures_onBackend_bind (fun _ _ => trivial)
    intro _ hReturned
    have hProcessed : Processed br v d.curTick d.backend
        ((verilated br v).processEvent d.curTick d.backend).state :=
      (processEvent_ensures br v d.curTick d.backend).2 _ hReturned
    have hHolds := holdsRejected_iff (p := p) h hProcessed
    apply Prog.Ensures.bind (startBackendDma_timing hTiming)
    rintro _ d' ⟨hRejected, hKept⟩
    apply Prog.Ensures.get_bind
    rw [hTiming]
    apply Prog.Ensures.pure
    cases hReject : rejects br v p d with
    | true =>
      obtain ⟨model, hBackend⟩ := hRejected (hHolds.mpr hReject)
      have hResult : (batch br v d.backend).2 = 2 := by
        simp only [rejects, Bool.and_eq_true, decide_eq_true_eq] at hReject
        exact hReject.1.2
      have hRunning := (processed_running hProcessed hResult).trans (rejects_running hReject)
      change d'.backend.pendingEventTick = _
      rw [hBackend]
      simp only [completed, hRunning, if_true, scheduling, hReject, dueTick, Nat.add_zero]
    | false =>
      change d'.backend.pendingEventTick = _
      rw [hKept (by simp [hHolds, hReject])]
      simp only [scheduling, hReject, Bool.false_eq_true, if_false, Nat.add_zero]
      exact due_processed hProcessed
  · intro d' hDue
    apply Prog.Ensures.get_bind
    rw [hTiming]
    exact .pure hDue
  · trivial
  · exact fun _ hDue => hDue

/-! ## The calls between two events -/

theorem write_pendingEventTick (now offset size : Nat) (data : ByteMem)
    (b : CoralVerilatedBackend M) :
    ((verilated br v).write now offset size data b).state.pendingEventTick =
      if (offset = resetControlOffset ∧ size = 4) ∧
        (br.mmioWrite offset size data b.model).2 = true then
        if data.load 0 4 % 4 = 0 then tickAfter now v.rtlTickPeriod else 0
      else b.pendingEventTick := by
  by_cases hReset : offset = resetControlOffset ∧ size = 4
  · obtain ⟨rfl, rfl⟩ := hReset
    cases hAccepted : (br.mmioWrite resetControlOffset 4 data b.model).2 with
    | true =>
      have hRuns : (!(hasBit (data.load 0 4 % 4) resetBit ||
          hasBit (data.load 0 4 % 4) clockGateBit)) = decide (data.load 0 4 % 4 = 0) := by
        have hBits : ∀ control < 4, (!(hasBit control resetBit || hasBit control clockGateBit)) =
          decide (control = 0) := by decide
        exact hBits _ (Nat.mod_lt _ (by decide))
      have hWrite := write_resetControl br v now hAccepted
      simp only [verilated, hWrite, writeResetControl, hRuns, decide_eq_true_eq, and_self, if_true]
    | false =>
      have hOffset : ¬ resetControlOffset ≥ 2 ^ 32 := by decide
      simp only [verilated, CoralVerilatedBackend.write, if_neg hOffset, hAccepted, Bool.not_false,
        if_true, Bool.false_eq_true, and_false, if_false]
  · rw [if_neg (fun h => hReset h.1)]
    obtain ⟨_, ⟨_, hWrite⟩ | ⟨hOffset, _⟩⟩ := verilated_write br v now offset size data b
    · rw [hWrite]
    · exact absurd hOffset hReset

theorem due_write {delay addr size : Nat} {data : ByteMem} {last : Option (Nat × Nat)}
    (h : d.backend.pendingEventTick = dueTick last) :
    ((verilated br v).write (d.curTick + delay) (pioOffset p addr) size data
        d.backend).state.pendingEventTick =
      dueTick (scheduling br v p last d ⟨delay, .write addr size data⟩) := by
  rw [write_pendingEventTick]
  simp only [scheduling, isResetControl, Bool.and_eq_true, beq_iff_eq]
  generalize pioOffset p addr = offset
  by_cases hReset : offset = resetControlOffset ∧ size = 4
  · obtain ⟨rfl, rfl⟩ := hReset
    split
    · split
      · rfl
      · rfl
    · exact h
  · rw [if_neg (fun hBoth => hReset hBoth.1), if_neg (fun hBoth => hReset hBoth.1)]
    exact h

theorem rescheduled_pendingEventTick (be : CoralBackend (CoralVerilatedBackend M))
    (d : NPUDevice (CoralVerilatedBackend M)) (b : CoralVerilatedBackend M) :
    (rescheduled be { d with backend := b }).backend.pendingEventTick = b.pendingEventTick := rfl

theorem write_due {delay addr size : Nat} {data : ByteMem} {last : Option (Nat × Nat)}
    (hTiming : p.fastDma = false) (h : d.backend.pendingEventTick = dueTick last) :
    Prog.Ensures (fun _ => True) (write (verilated br v) p addr size data)
      { d with curTick := d.curTick + delay } fun _ d' => d'.backend.pendingEventTick =
        dueTick (scheduling br v p last d ⟨delay, .write addr size data⟩) := by
  apply write_ensures (I := fun d' => d'.curTick = d.curTick + delay ∧ d'.backend = d.backend)
  · exact fun _ _ _ _ _ h => h
  · intro hFast
    rw [hTiming] at hFast
    cases hFast
  · exact ⟨rfl, rfl⟩
  · exact fun _ _ _ _ => trivial
  · rintro d' ⟨hTick, hBackend⟩ _ _
    rw [rescheduled_pendingEventTick, hTick, hBackend]
    exact due_write h

/-- After every call the event is due where the last call that scheduled it has put it. -/
theorem call_due {last : Option (Nat × Nat)} {c : Call} (hTiming : p.fastDma = false)
    (hEnabled : d.Enabled c) (hAwake : Awake d) (h : d.backend.pendingEventTick = dueTick last) :
    Prog.Ensures (fun _ => True) (call (verilated br v) p c) d fun _ d' =>
      d'.backend.pendingEventTick = dueTick (scheduling br v p last d c) := by
  obtain ⟨delay, entry⟩ := c
  apply Prog.Ensures.modify_bind
  cases entry with
  | read addr size =>
    obtain ⟨_, model, hRead⟩ := verilated_read br v (pioOffset p addr) size d.backend
    apply Prog.Ensures.bind (Q := fun _ d' => d'.backend.pendingEventTick = dueTick last)
    · apply read_ensures
      · exact fun _ _ => trivial
      · exact fun _ _ _ => h
      · intro _ _
        rw [hRead]
        exact h
    · exact fun _ _ hDue => .pure hDue
  | write addr size data =>
    apply Prog.Ensures.bind (write_due hTiming h)
    exact fun _ _ hDue => .pure hDue
  | backendEvent =>
    apply Prog.Ensures.modify_bind
    exact processBackendEvent_due (d := { d with
      curTick := d.curTick + delay, backendEvent := none }) hTiming
      ⟨hAwake.request, hAwake.inFlight⟩
  | dmaCallback data =>
    have hActive : d.dmaActive = true := hAwake.inFlight.symm.trans hEnabled.1
    apply Prog.Ensures.modify_bind
    apply Prog.Ensures.anyEvent
    apply completeBackendDma_keepsProtocol
    · exact hActive
    · exact hAwake.request.trans hActive
    · intro model
      cases hRunning : d.backend.running with
      | true => simp [scheduling, hRunning, dueTick, settled, completed]
      | false => simp [scheduling, hRunning, dueTick, settled, completed]
  | drain => exact .modify h
  | resume => exact .modify h
  | hostStore addr size data => exact .modify h

theorem run_due {last : Option (Nat × Nat)} (hTiming : p.fastDma = false) {cs : List Call}
    (hRun : Admits (Legal (verilated br v) p) (next (verilated br v) p) d cs) (hAwake : Awake d)
    (h : d.backend.pendingEventTick = dueTick last) :
    (cs.foldl (next (verilated br v) p) d).backend.pendingEventTick =
      dueTick (lastScheduling br v p last d cs) := by
  induction cs generalizing d last with
  | nil => exact h
  | cons c cs ih =>
    obtain ⟨⟨hEnabled, hReturned⟩, hRest⟩ := hRun
    apply ih hRest
    · exact (call_awake hEnabled hAwake).2 () hReturned
    · exact (call_due hTiming hEnabled hAwake h).2 () hReturned

def eightCycles : VerilatedParams := { verilatedDefaults with rtlCyclesPerEvent := 8 }

abbrev eightCycleBackend : CoralBackend (CoralVerilatedBackend Script) :=
  verilated (scriptedBridge firstRead) eightCycles

/-- A request is answered `latency` ticks after the event that raised it. -/
def answered (latency : Nat) : List Call :=
  [⟨10, resetControlWrite 0⟩] ++ Call.mk 1000 .backendEvent :: [⟨latency, .dmaCallback fun _ => 0⟩]

theorem answered_admitted :
    Admits (Legal eightCycleBackend timingParams) (next eightCycleBackend timingParams)
      (scriptedDevice [(8, 2)]) (answered 7000) := by decide

end OpenNpux.Device.NPUDevice
